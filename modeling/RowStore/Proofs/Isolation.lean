import RowStore.Database
import RowStore.OrderedMap.Lookup
import RowStore.Proofs.Catalogs
import RowStore.Proofs.Effects
import RowStore.Proofs.RowKeys

namespace RowStore

/-- The tables of a catalog go by their own names and have passed validation. -/
def Catalog.Validated (c : Catalog) : Prop :=
  ∀ name s, c.table name = .ok s → s.table = name ∧ s.fault? = none

theorem Catalog.validated_of_ofSchemas {schemas : List Schema} {c : Catalog}
    (made : ofSchemas schemas = .ok c) : c.Validated :=
  fun _ _ known => (table_of_ofSchemas made known).2

theorem Catalog.Validated.separator_free {c : Catalog} (valid : c.Validated) {name : String}
    {s : Schema} (known : c.table name = .ok s) : Schema.keySeparator ∉ name.toList := by
  obtain ⟨named, passed⟩ := valid name s known
  rw [← named]
  exact Schema.separator_free passed

/-- The key of a row of the table: the name, the separator and the decimal text of an integer. -/
def RowKey.IsRow (table : String) (key : Bytes) : Prop :=
  ∃ n : Int, key = RowKey.ofText table (toString n)

/-- Keys of one table lie outside the range of another. -/
theorem RowKey.outside_of_isRow {t u : String} {key : Bytes} (own : IsRow t key)
    (freeLeft : Schema.keySeparator ∉ t.toList) (freeRight : Schema.keySeparator ∉ u.toList)
    (other : t ≠ u) : (!before key (low u) && before key (high u)) = false := by
  obtain ⟨n, rfl⟩ := own
  rw [Bool.eq_false_iff]
  intro inside
  have starts := RowKey.mem_range_iff_prefix u _ |>.mp inside
  exact other (table_unique freeLeft freeRight (low_prefix_ofText t (toString n)) starts)

/-- A put stores the value, or changes nothing that the store holds. -/
theorem LogStore.entries_append (r : Record) (s : LogStore) :
    (s.append r).2.entries = s.entries ∨ (s.append r).2.entries = r.apply s.entries := by
  unfold append
  rcases Log.write r with ⟨bs, e | _⟩
  · exact .inl rfl
  · exact .inr rfl

theorem Store.entries_put (key value : Bytes) (store : Store) :
    Storage.entries (Storage.put key value store).2 = Storage.entries store ∨
      Storage.entries (Storage.put key value store).2 =
        (Storage.entries store).insert key value := by
  cases store with
  | memory m => exact .inr rfl
  | log s => exact s.entries_append (.put key value)

namespace Query

/-- The table of the catalog that a text inserts into, if it can be parsed and compiled. -/
def target? (c : Catalog) (text : String) : Option String :=
  match Sql.parse text with
  | .ok (.insert s) =>
      match s.compile with
      | .ok _ => if c.contains s.table then some s.table else none
      | .error _ => none
  | _ => none

theorem table_of_target? {c : Catalog} {text table : String}
    (target : target? c text = some table) :
    ∃ s, c.table table = .ok s := by
  unfold target? at target
  split at target
  · split at target
    · split at target
      · rename_i there
        obtain rfl := Option.some.inj target
        obtain ⟨r, known⟩ := Option.isSome_iff_exists.mp there
        exact ⟨r, Catalog.table_eq_ok_iff.mpr known⟩
      · cases target
    · cases target
  · cases target

theorem target?_of_insertion? {c : Catalog} {text : String} {s : Sql.Statement}
    (parsed : Sql.parse text = .ok s) {i : Insertion} {t : Insertion.Target}
    (about : insertion? c s = some (i, t)) : target? c text = some i.table := by
  cases s with
  | insert s =>
      simp only [insertion?] at about
      split at about
      · rename_i j compiled
        obtain ⟨t', settled, same⟩ := Option.map_eq_some_iff.mp about
        obtain ⟨rfl, rfl⟩ := Prod.mk.inj same
        have known := Insertion.table_of_target (toOption_eq_some_iff.mp settled)
        have there : c.contains j.table = true := by
          rw [Catalog.contains, OrderedMap.contains, Catalog.table_eq_ok_iff.mp known]
          rfl
        have table : s.table = j.table := by
          obtain ⟨tuples, _, built⟩ := bind_eq_ok_iff.mp compiled
          obtain rfl := Plan.insertion.inj (Except.ok.inj built)
          rfl
        simp only [target?, parsed, compiled, table, there, if_true]
      · cases about
  | _ => cases about

variable {τ : Type} [Storage τ]

/-- What the puts under the keys of its own table keep, a text keeps, whatever comes of it. -/
theorem run_keeps (c : Catalog) (text : String) {I : τ → Prop}
    (put : ∀ table, target? c text = some table → ∀ key, RowKey.IsRow table key →
      ∀ (value : Bytes) (store : τ), I store → I (Storage.put key value store).2)
    {store : τ} (holds : I store) : I (run c text store).2 := by
  unfold run
  cases parsed : Sql.parse text with
  | error e => exact holds
  | ok s =>
      simp only [store_of_runStatement]
      cases about : insertion? c s with
      | none => exact holds
      | some what =>
          obtain ⟨i, t⟩ := what
          have target := target?_of_insertion? parsed about
          apply i.write_keeps t _ i.tuples holds
          intro n value store holds
          exact put i.table target _ ⟨n, rfl⟩ value store holds

/-- A text that inserts into no table of the catalog leaves the store as it was. -/
theorem store_of_no_target {c : Catalog} {text : String} (untargeted : target? c text = none)
    (store : τ) : (run c text store).2 = store := by
  apply run_keeps c text (I := fun later => later = store) ?_ rfl
  intro table target
  rw [untargeted] at target
  cases target

end Query

namespace Database

variable {db : Database} {text : String}

/-- Beside the keys of its own table a text changes nothing, and there it deletes nothing. -/
theorem get?_run {table : String} (target : Query.target? db.catalog text = some table)
    (key : Bytes) :
    (Storage.entries (db.run text).2.store).get? key = (Storage.entries db.store).get? key ∨
      RowKey.IsRow table key ∧ ((Storage.entries (db.run text).2.store).get? key).isSome := by
  apply Query.run_keeps db.catalog text (I := fun later =>
    (Storage.entries later).get? key = (Storage.entries db.store).get? key ∨
      RowKey.IsRow table key ∧ ((Storage.entries later).get? key).isSome) ?_ (.inl rfl)
  intro table' target' place own value store holds
  obtain rfl := Option.some.inj (target.symm.trans target')
  rcases store.entries_put place value with same | inserted
  · rw [same]
    exact holds
  · rw [inserted]
    by_cases here : key = place
    · subst here
      right
      rw [OrderedMap.get?_insert_self]
      exact ⟨own, rfl⟩
    · rw [OrderedMap.get?_insert_of_ne _ here]
      exact holds

/-- The entries in the range of a table change only if the text inserts into it. -/
theorem scan_run (valid : db.catalog.Validated) {u : String} {s : Schema}
    (known : db.catalog.table u = .ok s) (other : Query.target? db.catalog text ≠ some u) :
    Storage.scan (db.run text).2.store (RowKey.low u) (RowKey.high u) =
      Storage.scan db.store (RowKey.low u) (RowKey.high u) := by
  apply Query.run_keeps db.catalog text (I := fun later =>
    Storage.scan later (RowKey.low u) (RowKey.high u) =
      Storage.scan db.store (RowKey.low u) (RowKey.high u)) ?_ rfl
  intro t target key own value store holds
  have apart : t ≠ u := by
    rintro rfl
    exact other target
  obtain ⟨r, there⟩ := Query.table_of_target? target
  have outside := RowKey.outside_of_isRow own (valid.separator_free there)
    (valid.separator_free known) apart
  rcases store.entries_put key value with same | inserted
  · rw [Storage.scan, same]
    exact holds
  · rw [Storage.scan, inserted, OrderedMap.range_insert_of_outside _ outside]
    exact holds

/-- A text leaves the database as it was, unless it inserts into a table of the catalog. Then it
adds and overwrites rows of that table only, and removes none. What a SELECT from another table
answers is the same before and after, whatever came of the text. -/
theorem text_changes_own_table_only {db : Database} (valid : db.catalog.Validated)
    (text : String) :
    (Query.target? db.catalog text = none → (db.run text).2 = db) ∧
      (∀ t, Query.target? db.catalog text = some t →
        (∃ s, db.catalog.table t = .ok s) ∧ (db.run text).2.catalog = db.catalog ∧
        ∀ key,
          (Storage.entries (db.run text).2.store).get? key =
              (Storage.entries db.store).get? key ∨
            RowKey.IsRow t key ∧ ((Storage.entries (db.run text).2.store).get? key).isSome) ∧
      ∀ u s, db.catalog.table u = .ok s → Query.target? db.catalog text ≠ some u →
        ∀ q : Sql.Select, (∀ t ∈ q.tables, t.name = u) →
          ((db.run text).2.runStatement (.select q)).1 = (db.runStatement (.select q)).1 := by
  refine ⟨?_, ?_, ?_⟩
  · intro untargeted
    have kept := Query.store_of_no_target untargeted db.store
    exact congrArg (Database.mk db.catalog) kept
  · intro t target
    exact ⟨Query.table_of_target? target, rfl, get?_run target⟩
  · intro u s known other q reads
    have same : ∀ t ∈ q.tables,
        Storage.scan (db.run text).2.store (RowKey.low t.name) (RowKey.high t.name) =
          Storage.scan db.store (RowKey.low t.name) (RowKey.high t.name) := by
      intro t member
      rw [reads t member]
      exact scan_run valid known other
    exact q.runStatement_of_same db.catalog same

/-- One name begins with the other, and the second tuple is refused after the first was stored. -/
theorem text_changes_own_table_only_of_failed_insert :
    let a : Schema := ⟨"a", [.plain .int32 "id"]⟩
    let ab : Schema := ⟨"ab", [.plain .int32 "id"]⟩
    let stored : Entries := OrderedMap.ofList
      [(RowKey.ofText "ab" "7", [14, 0, 0, 0]), (RowKey.low "a", [0xFF]), ([], [])]
    let db : Database := ⟨⟨(OrderedMap.empty.insert "a" a).insert "ab" ab⟩, .memory stored⟩
    let text := "INSERT INTO a VALUES (1), ('x')"
    let q : Sql.Select := ⟨[.everything], [⟨"ab", none⟩], none, none⟩
    db.catalog.Validated ∧ Query.target? db.catalog text = some "a" ∧
      (db.run text).1 =
        .error (.reported (.execution (.typeMismatch "id" .int32 (.fixedString "x")))) ∧
      (Storage.entries (db.run text).2.store).get? (RowKey.ofText "a" "1") =
        some [2, 0, 0, 0] ∧
      (Storage.entries (db.run text).2.store).get? [] = some [] ∧
      ((db.run text).2.runStatement (.select q)).1 = .ok [⟨ab, [.int32 7]⟩] := by
  intro a ab stored db text q
  have made : Catalog.ofSchemas [a, ab] = .ok db.catalog := by decide +kernel
  have valid : db.catalog.Validated := Catalog.validated_of_ofSchemas made
  have target : Query.target? db.catalog text = some "a" := by decide +kernel
  obtain ⟨_, own, others⟩ := text_changes_own_table_only valid text
  refine ⟨valid, target, by decide +kernel, by decide +kernel, ?_, ?_⟩
  · obtain ⟨_, _, kept⟩ := own "a" target
    rcases kept [] with same | ⟨⟨n, place⟩, _⟩
    · rw [same]
      rfl
    · cases place
  · have apart : Query.target? db.catalog text ≠ some "ab" := by
      rw [target]
      decide
    rw [others "ab" ab (by decide +kernel) apart q (by decide)]
    decide +kernel

end Database

end RowStore
