import Mathlib.Data.List.Induction
import RowStore.Proofs.Catalogs
import RowStore.Proofs.Maps
import RowStore.Proofs.TextBytes

namespace RowStore.Catalog

/-- Adding a table in place. Whatever keeps it out is found before anything is changed. -/
def register (c : Catalog) (s : Schema) : Except CatalogError Unit × Catalog :=
  match s.validate with
  | .error e => (.error e, c)
  | .ok () =>
      if c.tables.contains s.table then (.error (.duplicateTable s.table), c)
      else (.ok (), ⟨c.tables.insert s.table s⟩)

/-- The catalog that calls leave of an empty one, whether they succeed or not. -/
def after (calls : List Schema) : Catalog := calls.foldl (fun c s => (c.register s).2) empty

/-- The table was given to a call that succeeded. -/
def Accepted (calls : List Schema) (s : Schema) : Prop :=
  ∃ earlier later, calls = earlier ++ s :: later ∧ ((after earlier).register s).1 = .ok ()

section Register

variable {c : Catalog} {s : Schema}

/-- In place or not, adding a table comes to the same. -/
theorem register_eq (c : Catalog) (s : Schema) :
    c.register s =
      match c.add s with
      | .ok extended => (.ok (), extended)
      | .error e => (.error e, c) := by
  unfold register add
  cases s.validate with
  | error e => rfl
  | ok =>
      simp only [ok_bind]
      cases c.tables.contains s.table <;> rfl

/-- A call that succeeds has entered the table, and one that fails has changed nothing. -/
theorem register_cases (c : Catalog) (s : Schema) :
    ((c.register s).1 = .ok () ∧ s.validate = .ok () ∧ c.tables.contains s.table = false ∧
        (c.register s).2 = ⟨c.tables.insert s.table s⟩) ∨
      ∃ e, (c.register s).1 = .error e ∧ (c.register s).2 = c := by
  unfold register
  split
  · exact .inr ⟨_, rfl, rfl⟩
  · split
    · exact .inr ⟨_, rfl, rfl⟩
    · rename_i valid absent
      exact .inl ⟨rfl, valid, by simpa using absent, rfl⟩

end Register

theorem after_concat (calls : List Schema) (s : Schema) :
    after (calls ++ [s]) = ((after calls).register s).2 := by
  rw [after, List.foldl_append]
  rfl

theorem accepted_concat (calls : List Schema) (s r : Schema) :
    Accepted (calls ++ [s]) r ↔
      Accepted calls r ∨ r = s ∧ ((after calls).register s).1 = .ok () := by
  constructor
  · rintro ⟨earlier, later, same, succeeded⟩
    rcases List.eq_nil_or_concat later with rfl | ⟨later, last, rfl⟩
    · obtain ⟨rfl, last⟩ := List.append_inj' same rfl
      obtain rfl := List.singleton_inj.mp last
      exact .inr ⟨rfl, succeeded⟩
    · have same' : calls ++ [s] = (earlier ++ r :: later) ++ [last] := by simpa using same
      obtain ⟨before, _⟩ := List.append_inj' same' rfl
      exact .inl ⟨earlier, later, before, succeeded⟩
  · rintro (⟨earlier, later, rfl, succeeded⟩ | ⟨rfl, succeeded⟩)
    · exact ⟨earlier, later ++ [s], by simp, succeeded⟩
    · exact ⟨calls, [], rfl, succeeded⟩

/-- What a catalog holds after any calls are the tables that were accepted. -/
theorem table_after_iff (calls : List Schema) (name : String) (r : Schema) :
    (after calls).table name = .ok r ↔ Accepted calls r ∧ r.table = name := by
  induction calls using List.reverseRecOn generalizing name r with
  | nil =>
      refine iff_of_false nofun ?_
      rintro ⟨⟨earlier, later, same, _⟩, _⟩
      simp at same
  | append_singleton calls s ih =>
      rw [after_concat, accepted_concat]
      rcases register_cases (after calls) s with ⟨succeeded, _, absent, entered⟩ | ⟨e, failed, kept⟩
      · rw [entered, succeeded]
        by_cases same : name = s.table
        · subst same
          have fresh : ¬ (Accepted calls r ∧ r.table = s.table) := by
            rw [← ih, table_eq_ok_iff]
            intro there
            simp [OrderedMap.contains, there] at absent
          rw [table_eq_ok_iff, OrderedMap.get?_insert_self, Option.some.injEq]
          constructor
          · rintro rfl
            exact ⟨.inr ⟨rfl, rfl⟩, rfl⟩
          · rintro ⟨earlier | ⟨rfl, _⟩, named⟩
            · exact absurd ⟨earlier, named⟩ fresh
            · rfl
        · rw [table_eq_ok_iff, OrderedMap.get?_insert_of_ne _ same, ← table_eq_ok_iff, ih]
          constructor
          · rintro ⟨earlier, named⟩
            exact ⟨.inl earlier, named⟩
          · rintro ⟨earlier | ⟨rfl, _⟩, named⟩
            · exact ⟨earlier, named⟩
            · exact absurd named.symm same
      · rw [kept, failed, ih]
        simp

theorem valid_of_accepted {calls : List Schema} {s : Schema} (accepted : Accepted calls s) :
    s.validate = .ok () := by
  obtain ⟨earlier, _, _, succeeded⟩ := accepted
  rcases register_cases (after earlier) s with ⟨_, valid, _⟩ | ⟨e, failed, _⟩
  · exact valid
  · rw [failed] at succeeded
    cases succeeded

/-- The names of a catalog ascend in the order of their bytes. -/
theorem names_ascend (c : Catalog) : c.names.Pairwise fun a b => Text.utf8 a < Text.utf8 b := by
  refine List.pairwise_map.mpr (c.tables.ascending.imp fun {e f} first => ?_)
  have less : e.1 < f.1 := of_decide_eq_true first
  exact Text.utf8_lt_of_lt less

/-- Tables are added to a catalog if each is valid, no two have one name, and none has the name of
one that is there. -/
theorem addAll_eq_ok_iff {schemas : List Schema} {c c' : Catalog} :
    schemas.foldlM add c = .ok c' ↔
      (∀ s ∈ schemas, s.fault? = none) ∧ (schemas.map Schema.table).Nodup ∧
        (∀ s ∈ schemas, c.tables.contains s.table = false) ∧
        c' = ⟨c.tables.insertAll (schemas.map fun s => (s.table, s))⟩ := by
  induction schemas generalizing c with
  | nil =>
      simp only [List.foldlM_nil, List.not_mem_nil, List.map_nil, OrderedMap.insertAll_nil]
      exact ⟨fun made => ⟨nofun, .nil, nofun, (Except.ok.inj made).symm⟩,
        fun ⟨_, _, _, same⟩ => congrArg Except.ok same.symm⟩
  | cons s schemas ih =>
      simp only [List.foldlM_cons, bind_eq_ok_iff, add_eq_ok_iff, ih, List.forall_mem_cons,
        List.map_cons, List.nodup_cons, OrderedMap.insertAll_cons]
      constructor
      · rintro ⟨_, ⟨valid, absent, rfl⟩, valids, distinct, absents, rfl⟩
        have apart : ∀ r ∈ schemas, r.table ≠ s.table ∧ c.tables.contains r.table = false :=
          fun r member => OrderedMap.contains_insert_eq_false_iff.mp (absents r member)
        refine ⟨⟨valid, valids⟩, ⟨?_, distinct⟩, ⟨absent, fun r member => (apart r member).2⟩, rfl⟩
        intro there
        obtain ⟨r, member, same⟩ := List.mem_map.mp there
        exact (apart r member).1 same
      · rintro ⟨⟨valid, valids⟩, ⟨fresh, distinct⟩, ⟨absent, absents⟩, rfl⟩
        refine ⟨_, ⟨valid, absent, rfl⟩, valids, distinct, fun r member => ?_, rfl⟩
        refine OrderedMap.contains_insert_eq_false_iff.mpr ⟨?_, absents r member⟩
        rintro same
        exact fresh (List.mem_map.mpr ⟨r, member, same⟩)

theorem ofSchemas_eq_ok_iff {schemas : List Schema} {c : Catalog} :
    ofSchemas schemas = .ok c ↔
      (∀ s ∈ schemas, s.validate = .ok ()) ∧ (schemas.map Schema.table).Nodup ∧
        c = ⟨.ofList (schemas.map fun s => (s.table, s))⟩ := by
  have absents : ∀ s ∈ schemas, empty.tables.contains s.table = false := fun _ _ => rfl
  simp only [ofSchemas, addAll_eq_ok_iff, Schema.validate_eq_ok_iff]
  exact ⟨fun ⟨valid, distinct, _, same⟩ => ⟨valid, distinct, same⟩,
    fun ⟨valid, distinct, same⟩ => ⟨valid, distinct, absents, same⟩⟩

/-- A new catalog holds the tables that it was made from, each under its own name. -/
theorem table_ofSchemas_iff {schemas : List Schema} {c : Catalog} (made : ofSchemas schemas = .ok c)
    {name : String} {s : Schema} : c.table name = .ok s ↔ s ∈ schemas ∧ s.table = name := by
  obtain ⟨_, distinct, rfl⟩ := ofSchemas_eq_ok_iff.mp made
  have keyed : ((schemas.map fun s => (s.table, s)).map Prod.fst).Nodup := by
    rwa [List.map_map]
  rw [table_eq_ok_iff, OrderedMap.get?_eq_some_iff, OrderedMap.mem_ofList_iff keyed]
  simp only [List.mem_map, Prod.mk.injEq]
  constructor
  · rintro ⟨_, member, named, rfl⟩
    exact ⟨member, named⟩
  · rintro ⟨member, named⟩
    exact ⟨s, member, named, rfl⟩

theorem ofSchemas_eq_ok_of_perm {schemas schemas' : List Schema} (perm : schemas.Perm schemas')
    {c : Catalog} (made : ofSchemas schemas = .ok c) : ofSchemas schemas' = .ok c := by
  obtain ⟨valid, distinct, rfl⟩ := ofSchemas_eq_ok_iff.mp made
  have keyed : ((schemas.map fun s => (s.table, s)).map Prod.fst).Nodup := by
    rwa [List.map_map]
  refine ofSchemas_eq_ok_iff.mpr ⟨fun s member => valid s (perm.mem_iff.mpr member),
    (perm.map _).nodup_iff.mp distinct, ?_⟩
  rw [OrderedMap.ofList_eq_of_perm keyed (perm.map _)]

theorem foldl_register {schemas : List Schema} {c d : Catalog}
    (added : schemas.foldlM add d = .ok c) :
    schemas.foldl (fun c s => (c.register s).2) d = c := by
  induction schemas generalizing d with
  | nil => exact Except.ok.inj added
  | cons s schemas ih =>
      rw [List.foldlM_cons] at added
      obtain ⟨next, extended, added⟩ := bind_eq_ok_iff.mp added
      rw [List.foldl_cons, register_eq, extended]
      exact ih added

/-- Whatever calls are made, a catalog holds under its own name each table that was accepted, and
nothing else, all of them valid and in ascending order of names; a call that fails changes nothing.
A catalog can be made from tables that are valid and have different names, and from no others, and
their order does not matter. -/
theorem catalog_holds_accepted_tables :
    (∀ calls : List Schema,
      (∀ e ∈ (after calls).tables.entries, e.2.table = e.1 ∧ e.2.validate = .ok ()) ∧
      ((after calls).names.Pairwise fun a b => Text.utf8 a < Text.utf8 b) ∧
      (∀ name, name ∈ (after calls).names ↔ ∃ s, Accepted calls s ∧ s.table = name) ∧
      (∀ s, Accepted calls s → (after calls).table s.table = .ok s) ∧
      ∀ s e, ((after calls).register s).1 = .error e →
        ((after calls).register s).2 = after calls) ∧
    (∀ schemas : List Schema,
      ((∃ c, ofSchemas schemas = .ok c) ↔
        (∀ s ∈ schemas, s.validate = .ok ()) ∧ (schemas.map Schema.table).Nodup) ∧
      (∀ c, ofSchemas schemas = .ok c → after schemas = c) ∧
      ∀ schemas', schemas.Perm schemas' → ∀ c,
        ofSchemas schemas = .ok c ↔ ofSchemas schemas' = .ok c) := by
  refine ⟨fun calls => ⟨?entries, names_ascend _, ?names, ?given, ?refused⟩,
    fun schemas => ⟨?made, fun _ => foldl_register, ?order⟩⟩
  case entries =>
    intro e member
    have known : (after calls).table e.1 = .ok e.2 :=
      table_eq_ok_iff.mpr (OrderedMap.get?_eq_some_iff.mpr member)
    obtain ⟨accepted, named⟩ := (table_after_iff calls e.1 e.2).mp known
    exact ⟨named, valid_of_accepted accepted⟩
  case names =>
    intro name
    rw [names, OrderedMap.mem_keys_iff]
    simp only [← table_eq_ok_iff, table_after_iff]
  case given =>
    intro s accepted
    exact (table_after_iff calls s.table s).mpr ⟨accepted, rfl⟩
  case refused =>
    intro s e failed
    rcases register_cases (after calls) s with ⟨succeeded, _⟩ | ⟨_, _, kept⟩
    · rw [succeeded] at failed
      cases failed
    · exact kept
  case made =>
    simp only [ofSchemas_eq_ok_iff, exists_and_left, exists_eq, and_true]
  case order =>
    intro schemas' perm c
    exact ⟨ofSchemas_eq_ok_of_perm perm, ofSchemas_eq_ok_of_perm perm.symm⟩

/-- The second `b` comes too late, whatever it is like, and the table without columns and the one
with a separator in its name are none; the others are held, in the order of their names. -/
theorem catalog_holds_accepted_tables_of_six_calls :
    let a : Schema := ⟨"a", [.plain .date "day"]⟩
    let b : Schema := ⟨"b", [.plain .int64 "id"]⟩
    let again : Schema := ⟨"b", [.plain .int32 "id", .fixedString "name" 2]⟩
    let long : Schema := ⟨"é", [.plain .uint32 "n"]⟩
    let bare : Schema := ⟨"c", []⟩
    let split : Schema := ⟨"a:b", [.plain .int64 "id"]⟩
    let calls := [long, b, bare, again, split, a]
    ((after calls).register again).1 = .error (.duplicateTable "b") ∧
      ((after calls).register again).2 = after calls ∧
      (after calls).names = ["a", "b", "é"] ∧
      (after calls).table "b" = .ok b ∧
      (∃ c, ofSchemas [long, b, a] = .ok c ∧ ofSchemas [a, b, long] = .ok c) ∧
      ¬ ∃ c, ofSchemas [b, again] = .ok c := by
  intro a b again long bare split calls
  obtain ⟨_, _, _, given, refused⟩ := catalog_holds_accepted_tables.1 calls
  obtain ⟨made, _, order⟩ := catalog_holds_accepted_tables.2 [long, b, a]
  have failed : ((after calls).register again).1 = .error (.duplicateTable "b") := by decide +kernel
  have accepted : Accepted calls b := ⟨[long], [bare, again, split, a], rfl, by decide +kernel⟩
  obtain ⟨c, known⟩ := made.mpr ⟨by decide +kernel, by decide +kernel⟩
  have perm : [long, b, a].Perm [a, b, long] := by decide +kernel
  refine ⟨failed, refused again _ failed, by decide +kernel, given b accepted,
    ⟨c, known, (order _ perm c).mp known⟩, ?_⟩
  rw [(catalog_holds_accepted_tables.2 [b, again]).1]
  decide +kernel

end RowStore.Catalog
