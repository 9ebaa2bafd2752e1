import RowStore.Proofs.Outcomes
import RowStore.Query.Insertion

namespace RowStore

theorem Value.exists_toInt? {v : Value} (integer : v.type.isInteger = true) :
    ∃ n, v.toInt? = some n := by
  cases v with
  | fixedString | date => cases integer
  | _ => exact ⟨_, rfl⟩

/-- The number by which a row is keyed. -/
def Row.key? (r : Row) : Option Int := r.values.head?.bind Value.toInt?

/-- A row that an INSERT wrote, and the table that it wrote it to. -/
structure Written where
  table : String
  row : Row
  deriving DecidableEq, Repr

namespace Written

/-- A written row has a key and can be encoded. -/
def Sound (w : Written) : Prop :=
  (∃ key, w.row.key? = some key) ∧
    ∃ bytes, RowFormat.encode w.row.schema w.row.values = .ok bytes

/-- The key and the bytes under which the row is stored. -/
def entry (w : Written) : Bytes × Bytes :=
  (RowKey.ofText w.table (toString (w.row.key?.getD 0)),
    (RowFormat.encode w.row.schema w.row.values).toOption.getD [])

end Written

namespace Storage

variable {ω : Type} [Storage ω]

/-- Puts one after another, whatever comes of them. -/
def putAll (es : List (Bytes × Bytes)) (store : ω) : ω :=
  es.foldl (fun store e => (put e.1 e.2 store).2) store

/-- Good stores take the entry, and are good with it. -/
structure Takes (good : ω → Prop) (e : Bytes × Bytes) : Prop where
  succeeds : ∀ store, good store → (put e.1 e.2 store).1 = .ok ()
  stays : ∀ store, good store → good (put e.1 e.2 store).2

end Storage

namespace Insertion

theorem table_of_target {i : Insertion} {c : Catalog} {t : Target} (settled : i.target c = .ok t) :
    c.table i.table = .ok t.schema := by
  obtain ⟨schema, known, settled⟩ := bind_eq_ok_iff.mp settled
  obtain ⟨positions, _, settled⟩ := bind_eq_ok_iff.mp settled
  obtain ⟨key, _, settled⟩ := bind_eq_ok_iff.mp settled
  obtain rfl := Except.ok.inj settled
  exact mapError_eq_ok_iff.mp known

/-- The rows of the tuples before the first that fails. -/
def written (i : Insertion) (t : Target) : List (List Value) → List Written
  | [] => []
  | tuple :: tuples =>
      match i.entry t tuple, coerced t tuple with
      | .ok _, .ok values => ⟨i.table, t.schema, values⟩ :: i.written t tuples
      | _, _ => []

theorem keyText_eq (s : Schema) (values : List Value) :
    values.head?.bind Value.keyText? = (Row.mk s values).key?.map toString := by
  cases values <;> rfl

/-- What comes of a tuple of the right length. -/
theorem entry_of_arity (i : Insertion) {t : Target} {tuple : List Value}
    (arity : tuple.length = t.positions.length) :
    i.entry t tuple =
      (do
        let values ← (coerced t tuple).mapError .reported
        match (Row.mk t.schema values).key? with
        | none => throw (.reported (.execution (.invalidPrimaryKey i.table t.key.name t.key.type)))
        | some key =>
          return (RowKey.ofText i.table (toString key),
            ← (RowFormat.encode t.schema values).mapError (Failure.map .codec))) := by
  rw [entry, if_neg (not_not_intro arity)]
  change (coerced t tuple).mapError _ >>= _ = _
  congr 1
  funext values
  rw [keyText_eq t.schema]
  cases (Row.mk t.schema values).key? <;> rfl

theorem entry_of_uncoerced (i : Insertion) {t : Target} {tuple : List Value}
    (arity : tuple.length = t.positions.length) {e : QueryError}
    (failed : coerced t tuple = .error e) : i.entry t tuple = .error (.reported e) := by
  rw [entry_of_arity i arity, failed]
  rfl

/-- Where there is a key, the rest is up to the bytes. -/
theorem entry_of_keyed (i : Insertion) {t : Target} {tuple : List Value}
    (arity : tuple.length = t.positions.length) {values : List Value}
    (known : coerced t tuple = .ok values) {key : Int}
    (keyed : (Row.mk t.schema values).key? = some key) :
    i.entry t tuple =
      ((RowFormat.encode t.schema values).mapError (Failure.map .codec)).map fun bytes =>
        (RowKey.ofText i.table (toString key), bytes) := by
  rw [entry_of_arity i arity, known]
  simp only [Except.mapError, ok_bind, keyed]
  cases RowFormat.encode t.schema values <;> rfl

/-- What keeps a tuple from failing, and what it is stored as. -/
theorem entry_eq_ok_iff {i : Insertion} {t : Target} {tuple : List Value} {e : Bytes × Bytes} :
    i.entry t tuple = .ok e ↔
      tuple.length = t.positions.length ∧ ∃ values, coerced t tuple = .ok values ∧
        ∃ key, (Row.mk t.schema values).key? = some key ∧
          RowFormat.encode t.schema values = .ok e.2 ∧
            e.1 = RowKey.ofText i.table (toString key) := by
  by_cases count : tuple.length = t.positions.length
  · rw [entry_of_arity i count, bind_eq_ok_iff]
    simp only [count, true_and, mapError_eq_ok_iff]
    refine exists_congr fun values => and_congr Iff.rfl ?_
    cases (Row.mk t.schema values).key? with
    | none => simp [throw, throwThe, MonadExceptOf.throw]
    | some key =>
        simp only [bind_eq_ok_iff, mapError_eq_ok_iff, pure, Except.pure, Except.ok.injEq,
          Option.some.injEq, exists_eq_left']
        constructor
        · rintro ⟨bytes, encoded, rfl⟩
          exact ⟨encoded, rfl⟩
        · rintro ⟨encoded, keyed⟩
          exact ⟨e.2, encoded, by rw [← keyed]⟩
  · simp only [entry, count, ne_eq, not_false_eq_true, if_true, throw_bind, reduceCtorEq,
      false_and]

/-- The tuple passes every check, and is stored as the row. -/
structure Passes (i : Insertion) (t : Target) (tuple : List Value) (w : Written) : Prop where
  arity : tuple.length = t.positions.length
  coercion : coerced t tuple = .ok w.row.values
  sound : w.Sound
  table : w.table = i.table
  schema : w.row.schema = t.schema

theorem Passes.entry_eq {i : Insertion} {t : Target} {tuple : List Value} {w : Written}
    (passes : i.Passes t tuple w) : i.entry t tuple = .ok w.entry := by
  obtain ⟨arity, coercion, ⟨⟨key, keyed⟩, bytes, encoded⟩, table, schema⟩ := passes
  have own : (Row.mk t.schema w.row.values).key? = some key := keyed
  refine entry_eq_ok_iff.mpr ⟨arity, _, coercion, key, own, ?_, ?_⟩
  · rw [← schema, Written.entry, encoded]
    rfl
  · rw [← table, Written.entry, keyed, Option.getD_some]

/-- A tuple that succeeds is stored as the row of its coerced values. -/
theorem exists_passes_of_entry {i : Insertion} {t : Target} {tuple : List Value} {e : Bytes × Bytes}
    (taken : i.entry t tuple = .ok e) :
    ∃ w, i.Passes t tuple w ∧ w.entry = e ∧
      ∀ tuples, i.written t (tuple :: tuples) = w :: i.written t tuples := by
  obtain ⟨arity, values, known, key, keyed, encoded, _⟩ := entry_eq_ok_iff.mp taken
  have passes : i.Passes t tuple ⟨i.table, t.schema, values⟩ :=
    ⟨arity, known, ⟨⟨key, keyed⟩, e.2, encoded⟩, rfl, rfl⟩
  refine ⟨_, passes, Except.ok.inj (passes.entry_eq.symm.trans taken), ?_⟩
  intro tuples
  simp only [written, taken, known]

theorem written_of_failed {i : Insertion} {t : Target} {tuple : List Value}
    {e : Failure QueryError} (failed : i.entry t tuple = .error e) (tuples : List (List Value)) :
    i.written t (tuple :: tuples) = [] := by
  simp only [written, failed]

theorem passes_of_mem_written {i : Insertion} {t : Target} {tuples : List (List Value)}
    {w : Written} (member : w ∈ i.written t tuples) : ∃ tuple ∈ tuples, i.Passes t tuple w := by
  induction tuples with
  | nil => nomatch member
  | cons tuple tuples ih =>
      cases taken : i.entry t tuple with
      | error e =>
          rw [written_of_failed taken] at member
          nomatch member
      | ok e =>
          obtain ⟨first, passes, _, more⟩ := exists_passes_of_entry taken
          rw [more] at member
          rcases List.mem_cons.mp member with rfl | later
          · exact ⟨tuple, List.mem_cons_self, passes⟩
          · obtain ⟨other, inside, passes⟩ := ih later
            exact ⟨other, List.mem_cons_of_mem _ inside, passes⟩

theorem sound_of_written {i : Insertion} {t : Target} {tuples : List (List Value)} {w : Written}
    (member : w ∈ i.written t tuples) : w.Sound ∧ w.table = i.table ∧ w.row.schema = t.schema := by
  obtain ⟨_, _, passes⟩ := passes_of_mem_written member
  exact ⟨passes.sound, passes.table, passes.schema⟩

variable {ω : Type} [Storage ω]

/-- Tuples are written up to the first that fails, and the error is that of the first. The store
only has to take the rows of those before it. -/
theorem write_of_takes (i : Insertion) (t : Target) (tuples : List (List Value)) {good : ω → Prop}
    (takes : ∀ w ∈ i.written t tuples, Storage.Takes good w.entry) {store : ω}
    (start : good store) :
    i.write t tuples store =
      ((tuples.mapM (i.entry t)).map fun _ => (), (i.written t tuples).length,
        Storage.putAll ((i.written t tuples).map Written.entry) store) := by
  induction tuples generalizing store with
  | nil => rfl
  | cons tuple tuples ih =>
      cases taken : i.entry t tuple with
      | error e =>
          rw [written_of_failed taken, List.mapM_cons, taken, write, taken]
          rfl
      | ok e =>
          obtain ⟨key, bytes⟩ := e
          obtain ⟨w, _, place, more⟩ := exists_passes_of_entry taken
          rw [more] at takes ⊢
          obtain ⟨first, rest⟩ := List.forall_mem_cons.mp takes
          rw [place] at first
          have outcome : ((tuple :: tuples).mapM (i.entry t)).map (fun _ => ()) =
              (tuples.mapM (i.entry t)).map fun _ => () := by
            rw [List.mapM_cons, taken]
            cases tuples.mapM (i.entry t) <;> rfl
          -- The store is good after this row as well, and has only the later rows left to take.
          have later := ih rest (first.stays store start)
          have succeeds := first.succeeds store start
          rcases put : Storage.put key bytes store with ⟨result, store'⟩
          rw [put] at later succeeds
          obtain rfl : result = .ok () := succeeds
          simp only [write, taken, put, later, outcome, List.length_cons, List.map_cons, place,
            Storage.putAll, List.foldl_cons]

/-- A store whose puts succeed takes the written rows, and they are counted. -/
theorem write_eq (i : Insertion) (t : Target) (tuples : List (List Value)) {good : ω → Prop}
    (obliging : ∀ store key value, good store →
      (Storage.put key value store).1 = .ok () ∧ good (Storage.put key value store).2)
    {store : ω} (start : good store) :
    (i.write t tuples store).2 =
      ((i.written t tuples).length,
        Storage.putAll ((i.written t tuples).map Written.entry) store) := by
  have takes : ∀ e, Storage.Takes good e := fun e =>
    ⟨fun store good => (obliging store e.1 e.2 good).1,
      fun store good => (obliging store e.1 e.2 good).2⟩
  rw [write_of_takes i t tuples (fun w _ => takes w.entry) start]

end Insertion
end RowStore
