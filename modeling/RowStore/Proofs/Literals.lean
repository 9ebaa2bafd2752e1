import RowStore.Proofs.Contents
import RowStore.Proofs.LeadingTuples
import RowStore.Proofs.RowLayout

namespace RowStore

/-- The numbers that a value of the type can be. Fields have less room than that. -/
def ColumnType.Represents : ColumnType → Int → Prop
  | .int32, n => -2 ^ 31 ≤ n ∧ n < 2 ^ 31
  | .uint32, n => 0 ≤ n ∧ n < 2 ^ 32
  | .int64, n | .date, n => -2 ^ 63 ≤ n ∧ n < 2 ^ 63
  | .uint64, n => 0 ≤ n ∧ n < 2 ^ 64
  | .fixedString, _ => False

instance (t : ColumnType) (n : Int) : Decidable (t.Represents n) :=
  match t with
  | .int32 | .uint32 | .int64 | .uint64 | .date => inferInstanceAs (Decidable (_ ∧ _))
  | .fixedString => inferInstanceAs (Decidable False)

/-- Whole numbers and texts are what a tuple can be written with. -/
def Value.IsLiteral : Value → Prop
  | .int64 _ | .fixedString _ => True
  | _ => False

instance (v : Value) : Decidable v.IsLiteral :=
  match v with
  | .int64 _ | .fixedString _ => inferInstanceAs (Decidable True)
  | .int32 _ | .uint32 _ | .uint64 _ | .date _ => inferInstanceAs (Decidable False)

namespace Column

/-- The number that a literal is for the column: for a date, its seconds. -/
def numberOf? (c : Column) : Value → Option Int
  | .int64 n => if c.type = .fixedString then none else some n.toInt
  | .fixedString s => if c.type = .date then (Date.parse? s).map (·.seconds.toInt) else none
  | _ => none

def textOf? (c : Column) : Value → Option String
  | .fixedString s => if c.type = .fixedString then some s else none
  | _ => none

/-- The stored value is the literal, as a value of the column. -/
structure Keeps (c : Column) (literal stored : Value) : Prop where
  type : stored.type = c.type
  number : stored.number? = c.numberOf? literal
  text : stored.text? = c.textOf? literal

/-- The literal is a number with room in the column's field, or a text as long as the field. -/
def Admits (c : Column) : Value → Prop
  | .int64 n => c.type.HasRoom n.toInt
  | .fixedString s =>
      (c.type = .fixedString ∧ c.length.map UInt64.toNat = some (Text.utf8 s).length) ∨
        c.type = .date ∧ ∃ d ∈ Date.parse? s, ColumnType.date.HasRoom d.seconds.toInt
  | _ => False

instance (c : Column) (v : Value) : Decidable (c.Admits v) :=
  match v with
  | .int64 n => inferInstanceAs (Decidable (c.type.HasRoom n.toInt))
  | .fixedString _ => inferInstanceAs (Decidable (_ ∨ _))
  | .int32 _ | .uint32 _ | .uint64 _ | .date _ => inferInstanceAs (Decidable False)

/-- Why no value of the column's type is the literal. -/
def miscast? (c : Column) (literal : Value) : Option ExecutionError :=
  match c.numberOf? literal, c.textOf? literal with
  | some n, _ =>
      if c.type.Represents n then none else some (.valueOutOfRange c.name c.type literal)
  | none, some _ => none
  | none, none => some (.typeMismatch c.name c.type literal)

/-- Why the field has no room for the literal. -/
def oversize? (c : Column) (literal : Value) : Option CodecError :=
  match c.numberOf? literal, c.textOf? literal with
  | some n, _ => if c.type.HasRoom n then none else some (.fieldOverflow c.name c.span)
  | none, some s =>
      if c.length.map UInt64.toNat = some (Text.utf8 s).length then none
      else some (.textLength c.name c.span (Text.utf8 s).length)
  | none, none => none

end Column

section Words

theorem toNat_toUInt32 {n : Int} (range : 0 ≤ n ∧ n < 2 ^ 32) :
    (n.toNat.toUInt32.toNat : Int) = n := by
  have small : n.toNat < 2 ^ 32 := by omega
  rw [Nat.toUInt32, UInt32.toNat_ofNat', Nat.mod_eq_of_lt small]
  omega

theorem toNat_toUInt64 {n : Int} (range : 0 ≤ n ∧ n < 2 ^ 64) :
    (n.toNat.toUInt64.toNat : Int) = n := by
  have small : n.toNat < 2 ^ 64 := by omega
  rw [Nat.toUInt64, UInt64.toNat_ofNat', Nat.mod_eq_of_lt small]
  omega

end Words

namespace Insertion

variable {c : Column} {literal : Value}

/-- A number is stored as the same number, or is out of the range of the column's type. -/
theorem coerce_number (numeric : c.type ≠ .fixedString) (n : Int64) :
    (c.type.Represents n.toInt ∧ ∃ v, coerce c (.int64 n) = .ok v ∧ v.type = c.type ∧
      v.number? = some n.toInt ∧ v.text? = none) ∨
    ¬ c.type.Represents n.toInt ∧
      coerce c (.int64 n) = .error (.valueOutOfRange c.name c.type (.int64 n)) := by
  have low := n.le_toInt
  have high := n.toInt_lt
  obtain ⟨name, type, length⟩ := c
  cases type with
  | int32 =>
      by_cases range : -2 ^ 31 ≤ n.toInt ∧ n.toInt < 2 ^ 31
      · left
        refine ⟨range, _, if_pos range, rfl, ?_, rfl⟩
        exact congrArg some (toInt_toInt32 range)
      · exact .inr ⟨range, if_neg range⟩
  | uint32 =>
      by_cases range : 0 ≤ n.toInt ∧ n.toInt < 2 ^ 32
      · left
        refine ⟨range, _, if_pos range, rfl, ?_, rfl⟩
        exact congrArg some (toNat_toUInt32 range)
      · exact .inr ⟨range, if_neg range⟩
  | uint64 =>
      by_cases positive : 0 ≤ n.toInt
      · left
        have range : 0 ≤ n.toInt ∧ n.toInt < 2 ^ 64 := by omega
        refine ⟨range, _, if_pos positive, rfl, ?_, rfl⟩
        exact congrArg some (toNat_toUInt64 range)
      · exact .inr ⟨fun range => positive range.1, if_neg positive⟩
  | int64 => exact .inl ⟨⟨low, high⟩, _, rfl, rfl, rfl, rfl⟩
  | date => exact .inl ⟨⟨low, high⟩, _, rfl, rfl, rfl, rfl⟩
  | fixedString => exact absurd rfl numeric

/-- Coercing fails exactly if no value of the column's type is the literal. -/
theorem coerce_cases (c : Column) (written : literal.IsLiteral) :
    (c.miscast? literal = none ∧ ∃ v, coerce c literal = .ok v ∧ c.Keeps literal v) ∨
      ∃ e, c.miscast? literal = some e ∧ coerce c literal = .error e := by
  cases literal with
  | int64 n =>
      by_cases textual : c.type = .fixedString
      · have misfit : coerce c (.int64 n) = .error (.typeMismatch c.name c.type (.int64 n)) := by
          unfold coerce
          rw [textual]
          rfl
        exact .inr ⟨_, by simp [Column.miscast?, Column.numberOf?, Column.textOf?, textual], misfit⟩
      · have number : c.numberOf? (.int64 n) = some n.toInt := if_neg textual
        have text : c.textOf? (.int64 n) = none := rfl
        rcases coerce_number textual n with ⟨range, v, stored, typed, same, other⟩ | ⟨range, failed⟩
        · left
          refine ⟨?_, v, stored, typed, same.trans number.symm, other⟩
          simp only [Column.miscast?, number, if_pos range]
        · right
          refine ⟨_, ?_, failed⟩
          simp only [Column.miscast?, number, if_neg range]
  | fixedString s =>
      obtain ⟨name, type, length⟩ := c
      cases type with
      | fixedString => exact .inl ⟨rfl, _, rfl, rfl, rfl, rfl⟩
      | date =>
          cases parsed : Date.parse? s with
          | none =>
              right
              refine ⟨.typeMismatch name .date (.fixedString s), ?_, ?_⟩
              · simp [Column.miscast?, Column.numberOf?, Column.textOf?, parsed]
              · simp [coerce, parsed]
          | some d =>
              left
              have range : ColumnType.date.Represents d.seconds.toInt :=
                ⟨d.seconds.le_toInt, d.seconds.toInt_lt⟩
              refine ⟨?_, .date d, ?_, rfl, ?_, rfl⟩
              · simp [Column.miscast?, Column.numberOf?, parsed, range]
              · simp [coerce, parsed]
              · simp [Column.numberOf?, parsed, Value.number?]
      | _ => exact .inr ⟨_, rfl, rfl⟩
  | _ => exact written.elim

end Insertion

namespace Column

variable {c : Column} {literal v : Value}

/-- A row refuses a coerced literal for the room that it takes. -/
theorem refusal?_of_keeps (keeps : c.Keeps literal v) : c.refusal? v = c.oversize? literal := by
  obtain ⟨typed, number, text⟩ := keeps
  rw [refusal?, oversize?, ← number, ← text]
  rcases RowFormat.text_or_number v with ⟨s, rfl⟩ | ⟨textless, m, _, numeric, _⟩
  · have stores : c.Stores (.fixedString s) ↔
        c.length.map UInt64.toNat = some (Text.utf8 s).length := by
      rw [stores_iff]
      simp [typed, Value.number?, Value.toInt?, Value.text?]
    simp only [stores, typed, ne_eq, not_true_eq_false, if_false]
    rfl
  · simp only [RowFormat.stores_number_iff typed textless numeric, typed, ne_eq,
      not_true_eq_false, if_false, textless, numeric]

theorem represents_of_hasRoom {t : ColumnType} {n : Int} (room : t.HasRoom n) :
    t.Represents n := by
  cases t with
  | fixedString => exact room
  | _ =>
      simp only [ColumnType.HasRoom, ColumnType.Represents] at room ⊢
      omega

theorem admits_iff (written : literal.IsLiteral) :
    c.Admits literal ↔ c.miscast? literal = none ∧ c.oversize? literal = none := by
  cases literal with
  | int64 n =>
      have range : c.type.HasRoom n.toInt → c.type.Represents n.toInt := represents_of_hasRoom
      by_cases textual : c.type = .fixedString
      · simp [Admits, miscast?, numberOf?, textOf?, textual, ColumnType.HasRoom]
      · simpa [Admits, miscast?, oversize?, numberOf?, textual] using range
  | fixedString s =>
      obtain ⟨name, type, length⟩ := c
      cases type with
      | fixedString => simp [Admits, miscast?, oversize?, numberOf?, textOf?]
      | date =>
          cases parsed : Date.parse? s with
          | none => simp [Admits, miscast?, numberOf?, textOf?, parsed]
          | some d =>
              have range : ColumnType.date.HasRoom d.seconds.toInt →
                  ColumnType.date.Represents d.seconds.toInt := represents_of_hasRoom
              simpa [Admits, miscast?, oversize?, numberOf?, parsed] using range
      | _ => simp [Admits, miscast?, numberOf?, textOf?]
  | _ => exact written.elim

end Column

namespace Insertion

section Row

variable {es : List (Column × Value)} {values : List Value}

theorem keeps_of_coerced (written : ∀ e ∈ es, e.2.IsLiteral)
    (known : (es.mapM fun e => (coerce e.1 e.2).mapError QueryError.execution) = .ok values) :
    List.Forall₂ (fun e v => e.1.Keeps e.2 v) es values := by
  rw [mapM_eq_ok_iff] at known
  induction known with
  | nil => exact .nil
  | @cons e v es values taken _ ih =>
      obtain ⟨first, rest⟩ := List.forall_mem_cons.mp written
      refine .cons ?_ (ih rest)
      rw [mapError_eq_ok_iff] at taken
      rcases coerce_cases e.1 first with ⟨_, w, stored, keeps⟩ | ⟨_, _, failed⟩
      · obtain rfl := Except.ok.inj (stored.symm.trans taken)
        exact keeps
      · rw [failed] at taken
        cases taken

theorem failure?_coerced (written : ∀ e ∈ es, e.2.IsLiteral) :
    failure? (es.mapM fun e => (coerce e.1 e.2).mapError QueryError.execution) =
      (es.findSome? fun e => e.1.miscast? e.2).map .execution := by
  rw [List.map_findSome?]
  apply failure?_mapM
  intro e member
  rw [failure?_mapError, Function.comp_apply]
  rcases coerce_cases e.1 (written e member) with ⟨fine, _, stored, _⟩ | ⟨_, miscast, failed⟩
  · rw [fine, stored]
    rfl
  · rw [miscast, failed]
    rfl

theorem findSome?_refusal (keeps : List.Forall₂ (fun e v => e.1.Keeps e.2 v) es values) :
    ((es.map Prod.fst).zip values).findSome? (fun e => e.1.refusal? e.2) =
      es.findSome? fun e => e.1.oversize? e.2 := by
  induction keeps with
  | nil => rfl
  | cons first _ ih =>
      rw [List.map_cons, List.zip_cons_cons, List.findSome?_cons, List.findSome?_cons, ih,
        Column.refusal?_of_keeps first]

/-- Why a tuple is refused, from what its columns are given: for a literal that a column cannot
take, or else for more bytes than can be allocated, or else for a literal without room. -/
def reason? (s : Schema) (given : List (Column × Value)) : Option (Failure QueryError) :=
  ((given.findSome? fun e => e.1.miscast? e.2).map fun e => .reported (.execution e)).or
    (if RowFormat.maxAllocation < s.span then some (.panic .capacityOverflow)
    else (given.findSome? fun e => e.1.oversize? e.2).map fun e => .reported (.codec e))

theorem reason?_eq_none_iff {s : Schema} (written : ∀ e ∈ es, e.2.IsLiteral) :
    reason? s es = none ↔ s.span ≤ RowFormat.maxAllocation ∧ ∀ e ∈ es, e.1.Admits e.2 := by
  have each : (∀ e ∈ es, e.1.Admits e.2) ↔
      (∀ e ∈ es, e.1.miscast? e.2 = none) ∧ ∀ e ∈ es, e.1.oversize? e.2 = none := by
    rw [← forall₂_and]
    exact forall₂_congr fun e member => Column.admits_iff (written e member)
  rw [reason?, Option.or_eq_none_iff, Option.map_eq_none_iff, List.findSome?_eq_none_iff, each]
  by_cases wide : RowFormat.maxAllocation < s.span
  · simp [wide]
  · simp [wide, Nat.le_of_not_lt wide]

end Row

end Insertion

namespace Schema

/-- The columns of the table, each with the literal that stands for its name. -/
def given (s : Schema) (columns : List String) (tuple : List Value) : List (Column × Value) :=
  s.columns.filterMap fun c => (((s.listed columns).zip tuple).lookup c.name).map fun v => (c, v)

theorem lookup_zip {names : List String} {tuple : List Value} {name : String}
    (member : name ∈ names) (count : tuple.length = names.length) :
    (names.zip tuple).lookup name = tuple[names.idxOf name]? := by
  induction names generalizing tuple with
  | nil => nomatch member
  | cons first names ih =>
      cases tuple with
      | nil => cases count
      | cons v tuple =>
          by_cases same : first = name
          · subst same
            simp
          · have later := (List.mem_cons.mp member).resolve_left (Ne.symm same)
            rw [List.zip_cons_cons, List.lookup_cons, beq_false_of_ne (Ne.symm same),
              List.idxOf_cons_ne _ same]
            exact ih later (Nat.succ.inj count)

/-- The literals that are given are those at the places of the columns' names. -/
theorem given_eq_zip {s : Schema} {columns : List String} {tuple : List Value}
    (accepted : columns = [] ∨ columns.Perm s.names)
    (arity : tuple.length = s.columns.length) :
    s.given columns tuple =
      s.columns.zip (rearranged (s.names.map (s.listed columns).idxOf) tuple) := by
  have perm := perm_listed accepted
  have count : tuple.length = (s.listed columns).length := by
    rw [perm.length_eq, Insertion.length_names, arity]
  have known : ∀ c ∈ s.columns, c.name ∈ s.listed columns := fun c member =>
    perm.mem_iff.mpr (List.mem_map_of_mem member)
  unfold given names
  generalize s.columns = cs at known
  induction cs with
  | nil => rfl
  | cons c cs ih =>
      obtain ⟨first, rest⟩ := List.forall_mem_cons.mp known
      have place := List.idxOf_lt_length_of_mem first
      rw [← count] at place
      have value := List.getElem?_eq_getElem place
      have found := (lookup_zip first count).trans value
      rw [List.filterMap_cons, found, List.map_cons, List.map_cons, rearranged,
        List.filterMap_cons_some value, List.zip_cons_cons]
      exact congrArg _ (ih rest)

end Schema

namespace Insertion

section Tuple

variable {c : Catalog} {i : Insertion} {t : Target} {tuple : List Value}

/-- A tuple of literals that gives one to each column. -/
structure Laid (i : Insertion) (t : Target) (tuple : List Value) : Prop where
  arity : tuple.length = t.positions.length
  columns : (t.schema.given i.columns tuple).map Prod.fst = t.schema.columns
  literal : ∀ e ∈ t.schema.given i.columns tuple, e.2.IsLiteral
  coerced : coerced t tuple =
    (t.schema.given i.columns tuple).mapM fun e => (coerce e.1 e.2).mapError QueryError.execution

theorem laid_of_prepared (valid : c.Validated) (prepared : i.Prepared c t)
    (arity : tuple.length = t.schema.columns.length) (written : ∀ v ∈ tuple, v.IsLiteral) :
    Laid i t tuple := by
  obtain ⟨_, sound⟩ := valid _ _ prepared.table
  have names := (Schema.names_of_valid sound).1
  obtain ⟨accepted, places⟩ := (positions_eq_ok_iff names).mp prepared.declared
  have perm := Schema.perm_listed accepted
  have count := length_positions names prepared.declared
  have inside : ∀ n ∈ t.positions, n < tuple.length := by
    intro n member
    rw [places] at member
    obtain ⟨name, known, rfl⟩ := List.mem_map.mp member
    have bound := List.idxOf_lt_length_of_mem (perm.mem_iff.mpr known)
    rwa [perm.length_eq, length_names, ← arity] at bound
  have given := Schema.given_eq_zip accepted arity
  rw [← places] at given
  refine ⟨arity.trans count.symm, ?_, ?_, ?_⟩
  · rw [given]
    apply List.map_fst_zip
    rw [length_rearranged inside, count]
  · intro e member
    rw [given] at member
    obtain ⟨n, _, there⟩ := List.mem_filterMap.mp (List.of_mem_zip member).2
    exact written e.2 (List.mem_of_getElem? there)
  · rw [given]
    exact coerced_eq (map_getElem?_eq inside)

/-- The first column makes a key of its literal. -/
theorem exists_key_of_keeps (prepared : i.Prepared c t) (laid : Laid i t tuple)
    {values : List Value}
    (keeps : List.Forall₂ (fun e v => e.1.Keeps e.2 v) (t.schema.given i.columns tuple) values) :
    ∃ key, (Row.mk t.schema values).key? = some key := by
  have first := prepared.first
  rw [← laid.columns] at first
  generalize t.schema.given i.columns tuple = es at first keeps
  cases keeps with
  | nil => cases first
  | @cons e v _ _ same _ =>
      have head : e.1 = t.key := Option.some.inj first
      have integer : v.type.isInteger = true := by
        rw [same.type, head]
        exact prepared.integer
      exact Value.exists_toInt? integer

/-- A tuple fails for the first literal that its column cannot take, or else for its width, or else
for the first literal without room. -/
theorem failure?_entry (valid : c.Validated) (prepared : i.Prepared c t) (fits : t.schema.Fits)
    (laid : Laid i t tuple) :
    failure? (i.entry t tuple) = reason? t.schema (t.schema.given i.columns tuple) := by
  obtain ⟨_, sound⟩ := valid _ _ prepared.table
  have cast := failure?_coerced laid.literal
  rw [← laid.coerced] at cast
  cases known : coerced t tuple with
  | error e =>
      rw [known, eq_comm, failure?, Option.map_eq_some_iff] at cast
      obtain ⟨why, first, rfl⟩ := cast
      rw [entry_of_uncoerced i laid.arity known, reason?, first]
      rfl
  | ok values =>
      -- Only now that every column has a value is the row encoded, and can a field be too short.
      rw [known, eq_comm, failure?, Option.map_eq_none_iff] at cast
      have keeps := keeps_of_coerced laid.literal (laid.coerced ▸ known)
      obtain ⟨key, keyed⟩ := exists_key_of_keeps prepared laid keeps
      have count : values.length = t.schema.columns.length := by
        rw [← keeps.length_eq, ← laid.columns, List.length_map]
      have lengths := Schema.lengths_of_columnFault? (Schema.fault?_eq_none_iff.mp sound).2.2.2
      have room := RowFormat.refusal?_of_lengths count lengths
      rw [← laid.columns, findSome?_refusal keeps] at room
      rw [entry_of_keyed i laid.arity known keyed, failure?_map, failure?_mapError,
        RowFormat.failure?_encode (fun _ => fits), room, reason?, cast]
      split
      · rfl
      · rw [Option.map_map]
        rfl

theorem keeps_of_passes (laid : Laid i t tuple) {w : Written} (passes : i.Passes t tuple w) :
    List.Forall₂ (fun e v => e.1.Keeps e.2 v) (t.schema.given i.columns tuple) w.row.values := by
  apply keeps_of_coerced laid.literal
  rw [← laid.coerced]
  exact passes.coercion

end Tuple
end Insertion

namespace Plan

variable {τ : Type} [Storage τ] {c : Catalog} {i : Insertion} {t : Insertion.Target}
  {tuple : List Value}

/-- A scan yields what was last put under a key of its table. -/
theorem mem_storedRows {s : Schema} {table key : String} {value : Bytes} {m : Entries} {store : τ}
    (held : Storage.entries store = m.insert (RowKey.ofText table key) value) :
    decoded s (RowKey.ofText table key, value) ∈ storedRows s table none store := by
  apply List.mem_map_of_mem
  rw [Storage.scan, held]
  apply List.mem_filter.mpr
  constructor
  · apply OrderedMap.get?_eq_some_iff.mp
    rw [OrderedMap.get?_insert_self]
  · exact (RowKey.mem_range_iff_prefix table _).mpr (RowKey.low_prefix_ofText table key)

/-- An INSERT of one tuple does nothing but put its row. -/
theorem runPlan_singleton (settled : i.target c = .ok t) {good : τ → Prop}
    (stores : ∀ w, i.Passes t tuple w → Storage.Stores good w.entry) {store : τ}
    (start : good store) :
    (∃ e, i.entry t tuple = .error e ∧
      Query.runPlan c (.insertion { i with tuples := [tuple] }) store = (.error e, store)) ∨
    ∃ w, i.Passes t tuple w ∧ ∃ store' : τ,
      Query.runPlan c (.insertion { i with tuples := [tuple] }) store = (.ok [], store') ∧
      Storage.entries store' = (Storage.entries store).insert w.entry.1 w.entry.2 := by
  have target : ({ i with tuples := [tuple] } : Insertion).target c = .ok t := settled
  have same : ({ i with tuples := [tuple] } : Insertion).entry t tuple = i.entry t tuple := rfl
  rw [runPlan_of_target target]
  cases taken : i.entry t tuple with
  | error e =>
      left
      refine ⟨e, rfl, ?_⟩
      simp only [Insertion.write, same, taken]
      rfl
  | ok e =>
      right
      obtain ⟨w, passes, rfl, _⟩ := Insertion.exists_passes_of_entry taken
      have succeeds := (stores w passes).succeeds store start
      have holds := (stores w passes).holds store start
      rcases put : Storage.put w.entry.1 w.entry.2 store with ⟨result, store'⟩
      rw [put] at succeeds holds
      obtain rfl : result = .ok () := succeeds
      refine ⟨w, passes, store', ?_, holds⟩
      simp only [Insertion.write, same, taken, put]
      rfl

/-- A tuple of literals, one for each column, is stored if each of them fits its column and the row
can be allocated, and then a scan yields a row with the same numbers, texts and times. Otherwise
nothing is stored. The reason is then the first literal that its column cannot take at all. Only if
there is none it is the width of the row, which makes the INSERT panic, or else the first literal
that has no room. -/
theorem literals_are_stored_unaltered (valid : c.Validated) (prepared : i.Prepared c t)
    (fits : t.schema.Fits) (arity : tuple.length = t.schema.columns.length)
    (written : ∀ v ∈ tuple, v.IsLiteral) {good : τ → Prop}
    (stores : ∀ w, i.Passes t tuple w → Storage.Stores good w.entry) {store : τ}
    (start : good store) :
    let given := t.schema.given i.columns tuple
    let ran := Query.runPlan c (.insertion { i with tuples := [tuple] }) store
    given.map Prod.fst = t.schema.columns ∧
      (ran.1 = .ok [] ↔
        t.schema.span ≤ RowFormat.maxAllocation ∧ ∀ e ∈ given, e.1.Admits e.2) ∧
      failure? ran.1 = Insertion.reason? t.schema given ∧
      failure? (i.entry t tuple) = Insertion.reason? t.schema given ∧
      (ran.1 = .ok [] →
        ∃ values yielded, List.Forall₂ (fun e v => e.1.Keeps e.2 v) given values ∧
          (scan i.table none).opening c ran.2 = (.ok yielded, ran.2) ∧
          .ok ⟨t.schema, values⟩ ∈ yielded) ∧
      (ran.1 ≠ .ok [] → ran.2 = store) := by
  intro given ran
  have laid := Insertion.laid_of_prepared valid prepared arity written
  have reason := Insertion.failure?_entry valid prepared fits laid
  have admitted := Insertion.reason?_eq_none_iff (s := t.schema) laid.literal
  have settled := Insertion.prepared_iff.mp prepared
  rcases runPlan_singleton settled stores start with
    ⟨e, failed, done⟩ | ⟨w, passes, store', done, held⟩
  · rw [failed] at reason ⊢
    rw [show ran = (.error e, store) from done, ← admitted, ← reason]
    exact ⟨laid.columns, Iff.intro nofun nofun, rfl, rfl, nofun, fun _ => rfl⟩
  · rw [passes.entry_eq] at reason ⊢
    rw [show ran = (.ok [], store') from done, ← admitted, ← reason]
    refine ⟨laid.columns, Iff.intro (fun _ => rfl) (fun _ => rfl), rfl, rfl, fun _ => ?_,
      fun other => ?_⟩
    · have opens : (scan i.table none).opening c store' =
          (.ok (storedRows t.schema i.table none store'), store') := by
        simp only [opening, prepared.table]
        rfl
      have read := Written.decode_of_sound passes.sound (passes.schema ▸ fits)
      have found : decoded t.schema w.entry = .ok ⟨t.schema, w.row.values⟩ := by
        rw [decoded, ← passes.schema, read]
        rfl
      obtain ⟨key, keyed⟩ := passes.sound.1
      have place := Written.entry_of_key keyed
      rw [passes.table] at place
      rw [place] at held
      have yielded := mem_storedRows (s := t.schema) held
      rw [← place] at yielded
      exact ⟨w.row.values, _, Insertion.keeps_of_passes laid passes, opens, found ▸ yielded⟩
    · exact absurd rfl other

/-- The first tuple has the greatest number for its key. In the other that number is one more, and
has no room, but the date behind it is none, and so the date is the reason. -/
theorem literals_are_stored_unaltered_at_upper_bound :
    let s : Schema := ⟨"t", [.plain .int32 "id", .plain .date "born", .fixedString "name" 2]⟩
    let c : Catalog := ⟨OrderedMap.empty.insert "t" s⟩
    let t : Insertion.Target := ⟨s, [1, 2, 0], .plain .int32 "id"⟩
    let i : Insertion := ⟨"t", ["name", "id", "born"], []⟩
    let greatest : List Value := [.fixedString "ab", .int64 134217727, .fixedString "1970-01-02"]
    let beyond : List Value := [.fixedString "ab", .int64 134217728, .fixedString "someday"]
    let store : Entries := .empty
    let stored := Query.runPlan c (.insertion { i with tuples := [greatest] }) store
    let refused := Query.runPlan c (.insertion { i with tuples := [beyond] }) store
    c.Validated ∧ i.Prepared c t ∧ s.Fits ∧
      (∀ tuple ∈ [greatest, beyond], tuple.length = s.columns.length ∧ ∀ v ∈ tuple, v.IsLiteral) ∧
      (∀ e : Bytes × Bytes, Storage.Stores (fun _ : Entries => True) e) ∧
      stored.1 = .ok [] ∧
      (∃ values yielded,
        List.Forall₂ (fun e v => e.1.Keeps e.2 v) (s.given i.columns greatest) values ∧
          (scan "t" none).opening c stored.2 = (.ok yielded, stored.2) ∧
          .ok ⟨s, values⟩ ∈ yielded) ∧
      failure? refused.1 =
        some (.reported (.execution (.typeMismatch "born" .date (.fixedString "someday")))) ∧
      refused.2 = store := by
  intro s c t i greatest beyond store stored refused
  have made : Catalog.ofSchemas [s] = .ok c := by decide +kernel
  have valid : c.Validated := Catalog.validated_of_ofSchemas made
  have prepared : i.Prepared c t := ⟨by decide +kernel, by decide +kernel, rfl, rfl⟩
  have fits : s.Fits := by decide
  have tuples : ∀ tuple ∈ [greatest, beyond],
      tuple.length = s.columns.length ∧ ∀ v ∈ tuple, v.IsLiteral := by
    decide
  have stores : ∀ e : Bytes × Bytes, Storage.Stores (fun _ : Entries => True) e := fun _ =>
    ⟨⟨fun _ _ => rfl, fun _ _ => trivial⟩, fun _ _ => rfl⟩
  have both (tuple) (member : tuple ∈ [greatest, beyond]) :=
    @literals_are_stored_unaltered Entries _ c i t tuple valid prepared fits
      (tuples tuple member).1 (tuples tuple member).2 _ (fun w _ => stores w.entry) store trivial
  obtain ⟨_, accepts, _, _, yields, _⟩ := both greatest List.mem_cons_self
  obtain ⟨_, _, fails, _, _, keeps⟩ := both beyond (List.mem_cons_of_mem _ List.mem_cons_self)
  have done : stored.1 = .ok [] := accepts.mpr (by decide +kernel)
  have reason : Insertion.reason? s (s.given i.columns beyond) =
      some (.reported (.execution (.typeMismatch "born" .date (.fixedString "someday")))) := by
    decide +kernel
  have failed : failure? refused.1 = _ := fails.trans reason
  refine ⟨valid, prepared, fits, tuples, stores, done, yields done, failed, keeps ?_⟩
  intro succeeds
  rw [show refused.1 = .ok [] from succeeds] at failed
  cases failed

/-- The columns take both literals, and the text is too short for its field. Before that is found,
there are more bytes to allocate than can be. -/
theorem literals_unmeasured_of_half_word :
    let s : Schema := ⟨"t", [.plain .int64 "id", .fixedString "a" 0x8000000000000000]⟩
    let c : Catalog := ⟨OrderedMap.empty.insert "t" s⟩
    let t : Insertion.Target := ⟨s, [0, 1], .plain .int64 "id"⟩
    let i : Insertion := ⟨"t", [], []⟩
    let tuple : List Value := [.int64 1, .fixedString "x"]
    let store : Entries := .empty
    let given := s.given i.columns tuple
    let ran := Query.runPlan c (.insertion { i with tuples := [tuple] }) store
    c.Validated ∧ i.Prepared c t ∧ s.Fits ∧ tuple.length = s.columns.length ∧
      (∀ v ∈ tuple, v.IsLiteral) ∧
      (given.findSome? fun e => e.1.miscast? e.2) = none ∧
      (given.findSome? fun e => e.1.oversize? e.2) =
        some (.textLength "a" 9223372036854775808 1) ∧
      failure? ran.1 ≠ some (.reported (.codec (.textLength "a" 9223372036854775808 1))) ∧
      failure? ran.1 = some (.panic .capacityOverflow) := by
  intro s c t i tuple store given ran
  have made : Catalog.ofSchemas [s] = .ok c := by decide +kernel
  have panicked : failure? ran.1 = some (.panic .capacityOverflow) := by decide +kernel
  refine ⟨Catalog.validated_of_ofSchemas made, ⟨by decide +kernel, by decide +kernel, rfl, rfl⟩,
    by decide, by decide, by decide, by decide +kernel, by decide +kernel, ?_, panicked⟩
  rw [panicked]
  decide

end Plan
end RowStore
