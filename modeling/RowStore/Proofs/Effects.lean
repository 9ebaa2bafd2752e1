import RowStore.Proofs.Selecting
import RowStore.Proofs.Writing

namespace RowStore

namespace Plan

/-- The plan scans no other tables than these, and inserts nothing. -/
def ReadsOnly (allowed : String → Prop) : Plan Empty → Prop
  | scan table _ => allowed table
  | selection input _ | projection input _ | limit input _ => input.ReadsOnly allowed
  | join left right => left.ReadsOnly allowed ∧ right.ReadsOnly allowed
  | insertion _ => False
  | tables => True

section ReadsOnly

variable {τ : Type} [Storage τ] {allowed : String → Prop} {c : Catalog} {p : Plan Empty}

theorem store_of_readsOnly (reads : p.ReadsOnly allowed) (store : τ) :
    (p.opening c store).2 = store := by
  induction p with
  | scan table asName => rfl
  | selection input condition ih => exact ih reads
  | projection input columns ih => exact ih reads
  | limit input count ih => exact ih reads
  | join left right ihl ihr =>
      have keptLeft := ihl reads.1
      have keptRight := ihr reads.2
      rcases opens : left.opening c store with ⟨_ | xs, store'⟩ <;> rw [opens] at keptLeft
      · rw [opening, opens]
        exact keptLeft
      · obtain rfl : store' = store := keptLeft
        rw [opening, opens]
        exact keptRight
  | insertion i => exact reads.elim
  | tables => rfl
  | source s => exact s.elim

/-- What a plan yields is settled by the tables that it scans. -/
theorem opening_of_readsOnly (reads : p.ReadsOnly allowed) {store store' : τ}
    (same : ∀ table, allowed table →
      Storage.scan store (RowKey.low table) (RowKey.high table) =
        Storage.scan store' (RowKey.low table) (RowKey.high table)) :
    (p.opening c store).1 = (p.opening c store').1 := by
  induction p with
  | scan table asName => simp only [opening, storedRows, same table reads]
  | selection input condition ih => simp only [opening, ih reads]
  | projection input columns ih => simp only [opening, ih reads]
  | limit input count ih => simp only [opening, ih reads]
  | join left right ihl ihr =>
      have sameLeft := ihl reads.1
      have sameRight := ihr reads.2
      have kept := store_of_readsOnly (c := c) reads.1 store
      have kept' := store_of_readsOnly (c := c) reads.1 store'
      rcases opens : left.opening c store with ⟨outcome, rest⟩
      rcases opens' : left.opening c store' with ⟨outcome', rest'⟩
      rw [opens] at sameLeft kept
      rw [opens'] at sameLeft kept'
      obtain rfl : outcome = outcome' := sameLeft
      obtain rfl : rest = store := kept
      obtain rfl : rest' = store' := kept'
      cases outcome with
      | error e => simp only [opening, opens, opens']
      | ok xs => simp only [opening, opens, opens', sameRight]
  | insertion i => exact reads.elim
  | tables => rfl
  | source s => exact s.elim

end ReadsOnly

end Plan

namespace Sql.Select

variable {s : Select} {p : Plan Empty} {allowed : String → Prop}

theorem readsOnly_joins (ts : List TableName) (reads : p.ReadsOnly allowed)
    (each : ∀ t ∈ ts, allowed t.name) :
    (ts.foldl (fun p t => Plan.join p (scan t)) p).ReadsOnly allowed := by
  induction ts generalizing p with
  | nil => exact reads
  | cons t ts ih =>
      obtain ⟨first, rest⟩ := List.forall_mem_cons.mp each
      exact ih ⟨reads, first⟩ rest

/-- A SELECT scans the tables that it names. -/
theorem readsOnly_source (compiled : s.source = .ok p) (each : ∀ t ∈ s.tables, allowed t.name) :
    p.ReadsOnly allowed := by
  unfold Select.source at compiled
  split at compiled
  · cases compiled
  · rename_i t ts tables
    rw [tables] at each
    obtain ⟨first, rest⟩ := List.forall_mem_cons.mp each
    rw [← Except.ok.inj compiled]
    exact readsOnly_joins ts first rest

variable {τ : Type} [Storage τ]

theorem store_of_compiled (compiled : s.compile = .ok p) (c : Catalog) (store : τ) :
    (p.opening c store).2 = store := by
  obtain ⟨source, opened, shape⟩ := opening_compiled compiled c store
  have reads : source.ReadsOnly fun _ => True := readsOnly_source opened fun _ _ => trivial
  rw [shape]
  exact Plan.store_of_readsOnly reads store

/-- What a SELECT answers is settled by the tables that it names. -/
theorem runStatement_of_same (s : Select) (c : Catalog) {store store' : τ}
    (same : ∀ t ∈ s.tables, Storage.scan store (RowKey.low t.name) (RowKey.high t.name) =
      Storage.scan store' (RowKey.low t.name) (RowKey.high t.name)) :
    (Query.runStatement c (.select s) store).1 = (Query.runStatement c (.select s) store').1 := by
  unfold Query.runStatement
  cases compiled : (Statement.select s).compile with
  | error e => rfl
  | ok p =>
      obtain ⟨source, opened, shape⟩ := opening_compiled compiled c store
      obtain ⟨source', opened', shape'⟩ := opening_compiled compiled c store'
      obtain rfl := Except.ok.inj (opened.symm.trans opened')
      have reads : source.ReadsOnly fun table => ∃ t ∈ s.tables, t.name = table :=
        readsOnly_source opened fun t member => ⟨t, member, rfl⟩
      have yields : (source.opening c store).1 = (source.opening c store').1 := by
        apply Plan.opening_of_readsOnly reads
        rintro table ⟨t, member, rfl⟩
        exact same t member
      simp only [Plan.runPlan_eq, shape, shape', yields]

end Sql.Select

namespace Query

variable {τ : Type} [Storage τ]

/-- What a statement is about to insert, once the table and the columns are settled. -/
def insertion? (c : Catalog) : Sql.Statement → Option (Insertion × Insertion.Target)
  | .insert s =>
      match s.compile with
      | .ok (.insertion i) => (i.target c).toOption.map (i, ·)
      | _ => none
  | _ => none

/-- A statement does nothing to the store but write the tuples that it is to insert. -/
theorem store_of_runStatement (c : Catalog) (s : Sql.Statement) (store : τ) :
    (runStatement c s store).2 =
      match insertion? c s with
      | some (i, t) => (i.write t i.tuples store).2.2
      | none => store := by
  unfold runStatement
  cases compiled : s.compile with
  | error e =>
      cases s with
      | insert s =>
          have refused : s.compile = .error e := compiled
          simp only [insertion?, refused]
      | _ => rfl
  | ok p =>
      simp only [Plan.runPlan_eq]
      cases s with
      | select s => exact Sql.Select.store_of_compiled compiled c store
      | insert s =>
          have made : s.compile = .ok p := compiled
          obtain ⟨tuples, _, built⟩ := bind_eq_ok_iff.mp made
          obtain rfl := Except.ok.inj built
          simp only [insertion?, made]
          cases known : Insertion.target ⟨s.table, s.columns, tuples⟩ c with
          | error e => simp only [Plan.opening, known, Except.toOption, Option.map_none]
          | ok t => simp only [Plan.opening, known, Except.toOption, Option.map_some]
      | «show» target =>
          simp only [Sql.Statement.compile] at compiled
          split at compiled
          · obtain rfl := Except.ok.inj compiled
            rfl
          · cases compiled
      | _ => cases compiled

end Query

namespace Insertion

variable {τ : Type} [Storage τ]

/-- What every put under a key of the table keeps, writing tuples keeps. -/
theorem write_keeps (i : Insertion) (t : Target) {I : τ → Prop}
    (put : ∀ (n : Int) (value : Bytes) (store : τ), I store →
      I (Storage.put (RowKey.ofText i.table (toString n)) value store).2)
    (tuples : List (List Value)) {store : τ} (holds : I store) :
    I (i.write t tuples store).2.2 := by
  induction tuples generalizing store with
  | nil => exact holds
  | cons tuple tuples ih =>
      cases taken : i.entry t tuple with
      | error e =>
          simp only [write, taken]
          exact holds
      | ok e =>
          obtain ⟨key, bytes⟩ := e
          obtain ⟨_, _, _, n, _, _, place⟩ := entry_eq_ok_iff.mp taken
          have kept := put n bytes store holds
          rw [← place] at kept
          rcases done : Storage.put key bytes store with ⟨_ | _, store'⟩ <;> rw [done] at kept
          · simp only [write, taken, done]
            exact kept
          · simp only [write, taken, done]
            exact ih kept

end Insertion

end RowStore
