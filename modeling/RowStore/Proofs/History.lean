import RowStore.Database
import RowStore.OrderedMap.Lookup
import RowStore.Proofs.Effects

namespace RowStore

namespace Query

/-- The rows that a statement writes. Only an INSERT writes any. -/
def writtenBy (c : Catalog) : Sql.Statement → List Written
  | .insert s =>
      match s.compile with
      | .ok (.insertion i) =>
          match i.target c with
          | .ok t => i.written t i.tuples
          | .error _ => []
      | _ => []
  | _ => []

/-- The rows that texts write, run one after another. -/
def history (c : Catalog) (texts : List String) : List Written :=
  texts.flatMap fun text =>
    match Sql.parse text with
    | .ok s => writtenBy c s
    | .error _ => []

variable {ω : Type} [Storage ω] {good : ω → Prop}

theorem writtenBy_eq (c : Catalog) (s : Sql.Statement) :
    writtenBy c s =
      match insertion? c s with
      | some (i, t) => i.written t i.tuples
      | none => [] := by
  cases s with
  | insert s =>
      rcases made : s.compile with e | p
      · simp only [writtenBy, insertion?, made]
      · cases p with
        | insertion i =>
            cases settled : i.target c <;>
              simp [writtenBy, insertion?, made, settled, Except.toOption]
        | _ => simp only [writtenBy, insertion?, made]
  | _ => rfl

/-- A statement changes the store by the rows that it writes, and by nothing else. -/
theorem store_runStatement (c : Catalog) (s : Sql.Statement)
    (obliging : ∀ store key value, good store →
      (Storage.put key value store).1 = .ok () ∧ good (Storage.put key value store).2)
    {store : ω} (start : good store) :
    (runStatement c s store).2 = Storage.putAll ((writtenBy c s).map Written.entry) store := by
  rw [store_of_runStatement, writtenBy_eq]
  rcases insertion? c s with _ | ⟨i, t⟩
  · rfl
  · exact congrArg Prod.snd (Insertion.write_eq i t i.tuples obliging start)

/-- What is written has gone to a table of the catalog. -/
theorem sound_of_history {c : Catalog} {texts : List String} {w : Written}
    (member : w ∈ history c texts) : w.Sound ∧ c.table w.table = .ok w.row.schema := by
  obtain ⟨text, _, member⟩ := List.mem_flatMap.mp member
  split at member
  · rename_i s _
    cases s with
    | insert s =>
        simp only [writtenBy] at member
        split at member
        · rename_i i _
          split at member
          · rename_i t settled
            obtain ⟨sound, table, schema⟩ := Insertion.sound_of_written member
            rw [table, schema]
            exact ⟨sound, Insertion.table_of_target settled⟩
          · nomatch member
        · nomatch member
    | _ => nomatch member
  · nomatch member

end Query

namespace Database

/-- The database after texts have been run on it, one after another. -/
def runAll (db : Database) (texts : List String) : Database :=
  texts.foldl (fun db text => (db.run text).2) db

theorem putAll_memory (es : List (Bytes × Bytes)) (m : Entries) :
    Storage.putAll es (Store.memory m) = .memory (m.insertAll es) := by
  induction es generalizing m with
  | nil => rfl
  | cons e es ih => exact ih (m.insert e.1 e.2)

theorem store_run (c : Catalog) (text : String) (m : Entries) :
    (Query.run c text (Store.memory m)).2 =
      .memory (m.insertAll ((Query.history c [text]).map Written.entry)) := by
  have obliging : ∀ (store : Store) (key value : Bytes), (∃ m, store = .memory m) →
      (Storage.put key value store).1 = .ok () ∧
        ∃ m, (Storage.put key value store).2 = .memory m := by
    rintro _ key value ⟨m, rfl⟩
    exact ⟨rfl, m.insert key value, rfl⟩
  rw [← putAll_memory, Query.history, List.flatMap_singleton]
  unfold Query.run
  cases Sql.parse text with
  | error e => rfl
  | ok s => exact Query.store_runStatement c s obliging ⟨m, rfl⟩

/-- A database in memory holds all that was written, in the order in which it was. -/
theorem runAll_memory (c : Catalog) (texts : List String) (m : Entries) :
    runAll ⟨c, .memory m⟩ texts =
      ⟨c, .memory (m.insertAll ((Query.history c texts).map Written.entry))⟩ := by
  induction texts generalizing m with
  | nil => rfl
  | cons text texts ih =>
      have first : ((Database.mk c (.memory m)).run text).2 =
          ⟨c, .memory (m.insertAll ((Query.history c [text]).map Written.entry))⟩ := by
        rw [← store_run]
        rfl
      have split : Query.history c (text :: texts) =
          Query.history c [text] ++ Query.history c texts := by
        rw [Query.history, Query.history, List.flatMap_cons, List.flatMap_singleton]
        rfl
      rw [runAll, List.foldl_cons, first, split, List.map_append, OrderedMap.insertAll_append]
      exact ih _

end Database

end RowStore
