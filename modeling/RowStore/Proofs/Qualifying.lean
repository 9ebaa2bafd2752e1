import Mathlib.Data.List.Induction
import Mathlib.Data.List.Nodup
import RowStore.Proofs.Catalogs
import RowStore.Proofs.Spelling
import RowStore.Query.Plan

/-! The names of the columns behind joins. A join puts the name of its input before each column,
and names itself after both inputs in brackets, so that behind a second join only the columns of
the last input can be written. -/
namespace RowStore

theorem append_cons_inj {α : Type} {d : α} {xs ys : List α} (left : d ∉ xs) (right : d ∉ ys)
    (us vs : List α) : xs ++ d :: us = ys ++ d :: vs ↔ xs = ys ∧ us = vs := by
  induction xs generalizing ys with
  | nil =>
      cases ys with
      | nil => simp
      | cons y ys => simp [List.ne_of_not_mem_cons right]
  | cons x xs ih =>
      cases ys with
      | nil => simp [Ne.symm (List.ne_of_not_mem_cons left)]
      | cons y ys =>
          have rest := ih (List.not_mem_of_not_mem_cons left) (List.not_mem_of_not_mem_cons right)
          simp [rest, and_assoc]

/-- What stands before the first dot, and what after it, is told by the text. -/
theorem dotted_inj {x y : String} (left : '.' ∉ x.toList) (right : '.' ∉ y.toList) (a b : String) :
    x ++ "." ++ a = y ++ "." ++ b ↔ x = y ∧ a = b := by
  simpa [← String.toList_inj] using append_cons_inj left right a.toList b.toList

namespace Sql

theorem not_mem_signs_of_isWordPart {c : Char} (part : isWordPart c = true) : c ∉ signs := by
  rcases Bool.or_eq_true _ _ |>.mp part with letter | digit
  · exact not_mem_signs_of_letter letter
  · exact (plain_of_digit digit).2.1

theorem not_mem_signs_of_isName {s : String} (named : isName s = true) :
    ∀ c ∈ s.toList, c ∉ signs := by
  unfold isName at named
  split at named
  · cases named
  · rename_i c cs spelling
    rw [Bool.and_eq_true, Bool.and_eq_true, List.all_eq_true] at named
    rw [spelling]
    exact List.forall_mem_cons.mpr ⟨not_mem_signs_of_letter named.1.1,
      fun c member => not_mem_signs_of_isWordPart (named.1.2 c member)⟩

theorem dotless_of_isName {s : String} (named : isName s = true) : '.' ∉ s.toList :=
  fun member => not_mem_signs_of_isName named _ member (by decide)

end Sql

namespace Schema

def names (s : Schema) : List String := s.columns.map Column.name

section Finding

variable {s : Schema} {name : String}

theorem find?_cons (t : String) (c : Column) (cs : List Column) (name : String) :
    find? ⟨t, c :: cs⟩ name =
      if c.name = name then some (0, c)
      else (find? ⟨t, cs⟩ name).map fun found => (found.1 + 1, found.2) := by
  by_cases same : c.name = name
  · simp [find?, List.findIdx?_cons, same]
  · rw [if_neg same]
    simp only [find?, List.findIdx?_cons, same, decide_false]
    cases List.findIdx? (fun c : Column => decide (c.name = name)) cs with
    | none => rfl
    | some i => cases h : cs[i]? <;> simp [h]

/-- A column found among some that stand behind others. -/
def behind (count : Nat) (found : Nat × Column) : Nat × Column := (count + found.1, found.2)

theorem find?_append (t : String) (xs ys : List Column) (name : String) :
    find? ⟨t, xs ++ ys⟩ name =
      (find? ⟨t, xs⟩ name).or ((find? ⟨t, ys⟩ name).map (behind xs.length)) := by
  induction xs with
  | nil =>
      have all : behind 0 = id := funext fun found => by simp [behind]
      simp [all]
      rfl
  | cons x xs ih =>
      rw [List.cons_append, find?_cons, find?_cons, ih]
      by_cases same : x.name = name
      · simp [same]
      · simp only [if_neg same, Option.map_or, Option.map_map]
        congr 2
        funext found
        simp [behind]
        omega

theorem find?_eq_none_iff : s.find? name = none ↔ name ∉ s.names := by
  obtain ⟨t, cs⟩ := s
  induction cs with
  | nil => simp [names, find?]
  | cons c cs ih =>
      rw [find?_cons]
      by_cases same : c.name = name
      · simp [names, same]
      · simp only [if_neg same, Option.map_eq_none_iff, ih]
        simp [names, Ne.symm same]

/-- Where no name is given twice, each column is found under its own. -/
theorem find?_own (distinct : s.names.Nodup) {i : Nat} {c : Column}
    (there : s.columns[i]? = some c) :
    s.find? c.name = some (i, c) := by
  obtain ⟨t, cs⟩ := s
  induction cs generalizing i with
  | nil => simp at there
  | cons d cs ih =>
      obtain ⟨fresh, others⟩ := List.nodup_cons.mp distinct
      rw [find?_cons]
      cases i with
      | zero =>
          obtain rfl := Option.some.inj there
          rw [if_pos rfl]
      | succ i =>
          have later : cs[i]? = some c := there
          have other : d.name ≠ c.name := fun same =>
            fresh (List.mem_map.mpr ⟨c, List.mem_of_getElem? later, same.symm⟩)
          rw [if_neg other, ih others later]
          rfl

end Finding

section Validity

/-- Columns that pass have names of their own, without a dot. -/
theorem names_of_columnFault? {table : String} {seen : List String} {cs : List Column}
    (valid : columnFault? table seen cs = none) :
    (cs.map Column.name).Nodup ∧ ∀ c ∈ cs, '.' ∉ c.name.toList ∧ c.name ∉ seen := by
  induction cs generalizing seen with
  | nil => exact ⟨List.nodup_nil, List.forall_mem_nil _⟩
  | cons c cs ih =>
      obtain ⟨dotless, fresh, _, later⟩ := columnFault?_eq_none_iff.mp valid
      obtain ⟨distinct, others⟩ := ih later
      refine ⟨List.nodup_cons.mpr ⟨fun again => ?_, distinct⟩,
        List.forall_mem_cons.mpr ⟨⟨dotless, fresh⟩, fun d member => ?_⟩⟩
      · obtain ⟨d, member, same⟩ := List.mem_map.mp again
        exact (others d member).2 (same ▸ List.mem_cons_self)
      · obtain ⟨plain, unseen⟩ := others d member
        exact ⟨plain, fun earlier => unseen (List.mem_cons_of_mem _ earlier)⟩

theorem names_of_valid {s : Schema} (valid : s.fault? = none) :
    s.names.Nodup ∧ ∀ name ∈ s.names, '.' ∉ name.toList := by
  obtain ⟨distinct, others⟩ := names_of_columnFault? (fault?_eq_none_iff.mp valid).2.2.2
  refine ⟨distinct, fun name member => ?_⟩
  obtain ⟨c, inside, rfl⟩ := List.mem_map.mp member
  exact (others c inside).1

end Validity

section Joining

variable {left right : Schema}

/-- A column of a table in rows that have it behind so many others and under the table's name. -/
def placed (count : Nat) (table : String) (found : Nat × Column) : Nat × Column :=
  (count + found.1, found.2.renamed (table ++ "." ++ found.2.name))

theorem find?_qualified (s : Schema) {x : String} (reference : '.' ∉ x.toList)
    (dotless : '.' ∉ s.table.toList) (t a : String) :
    find? ⟨t, qualified s⟩ (x ++ "." ++ a) =
      if x = s.table then (s.find? a).map (placed 0 s.table) else none := by
  obtain ⟨table, cs⟩ := s
  induction cs with
  | nil => simp [qualified, find?]
  | cons c cs ih =>
      have first : qualified ⟨table, c :: cs⟩ =
        c.renamed (table ++ "." ++ c.name) :: qualified ⟨table, cs⟩ := rfl
      rw [first, find?_cons, ih dotless, find?_cons]
      simp only [Column.renamed, dotted_inj dotless reference]
      by_cases same : x = table
      · by_cases own : c.name = a
        · simp [same, own, placed, Column.renamed]
        · simp only [same, own, and_false, if_false, if_true, Option.map_map]
          congr 1
      · simp [same, Ne.symm same]

/-- A name without a dot finds nothing behind a join. -/
theorem find?_qualified_bare (s : Schema) {a : String} (bare : '.' ∉ a.toList) (t : String) :
    find? ⟨t, qualified s⟩ a = none := by
  rw [find?_eq_none_iff]
  intro member
  obtain ⟨c, inside, rfl⟩ := List.mem_map.mp member
  obtain ⟨d, _, rfl⟩ := List.mem_map.mp inside
  exact bare (by simp [Column.renamed])

theorem find?_joined (left right : Schema) (name : String) :
    (joinedSchema left right).find? name =
      (find? ⟨left.table, qualified left⟩ name).or
        ((find? ⟨right.table, qualified right⟩ name).map (behind left.columns.length)) := by
  rw [joinedSchema, find?_append, qualified, List.length_map]
  rfl

theorem toList_table_joined (left right : Schema) :
    (joinedSchema left right).table.toList =
      '(' :: (left.table.toList ++ ',' :: (right.table.toList ++ [')'])) := by
  simp [joinedSchema, toString]

theorem dotless_joined (first : '.' ∉ left.table.toList) (last : '.' ∉ right.table.toList) :
    '.' ∉ (joinedSchema left right).table.toList := by
  rw [toList_table_joined]
  simp [first, last]

theorem names_joined (left right : Schema) :
    (joinedSchema left right).names =
      left.names.map (left.table ++ "." ++ ·) ++ right.names.map (right.table ++ "." ++ ·) := by
  simp [names, joinedSchema, qualified, Column.renamed, Function.comp_def]

theorem nodup_joined (first : '.' ∉ left.table.toList) (last : '.' ∉ right.table.toList) :
    (joinedSchema left right).names.Nodup ↔
      left.names.Nodup ∧ right.names.Nodup ∧
        (left.table ≠ right.table ∨ ∀ name ∈ left.names, name ∉ right.names) := by
  have prefixed (x : String) (dotless : '.' ∉ x.toList) (xs : List String) :
      (xs.map (x ++ "." ++ ·)).Nodup ↔ xs.Nodup :=
    List.nodup_map_iff fun a b same => ((dotted_inj dotless dotless a b).mp same).2
  rw [names_joined, List.nodup_append, prefixed _ first, prefixed _ last]
  refine and_congr_right fun _ => and_congr_right fun _ => ?_
  simp only [List.forall_mem_map, ne_eq, dotted_inj first last, not_and]
  constructor
  · intro apart
    by_cases same : left.table = right.table
    · exact .inr fun name inLeft inRight => apart name inLeft name inRight same rfl
    · exact .inl same
  · rintro (other | apart) a inLeft b inRight same rfl
    · exact other same
    · exact apart a inLeft inRight

end Joining

/-- The schema of the rows that joins make, from left to right. -/
def joinedAll : List Schema → Schema
  | [] => ⟨"", []⟩
  | s :: ss => ss.foldl joinedSchema s

/-- Its name can be written, and its columns have names of their own, without a dot. -/
structure Plain (s : Schema) : Prop where
  table : Sql.isName s.table = true
  distinct : s.names.Nodup
  dotless : ∀ name ∈ s.names, '.' ∉ name.toList

section Chain

variable {ss : List Schema} {s : Schema} {x a : String}

theorem joinedAll_append (nonempty : ss ≠ []) (s : Schema) :
    joinedAll (ss ++ [s]) = joinedSchema (joinedAll ss) s := by
  cases ss with
  | nil => exact absurd rfl nonempty
  | cons t ts => simp [joinedAll, List.foldl_append]

/-- Several schemas are some and a last one. -/
theorem exists_last (several : 2 ≤ ss.length) : ∃ ts s, ss = ts ++ [s] ∧ ts ≠ [] := by
  rcases List.eq_nil_or_concat' ss with rfl | ⟨ts, s, rfl⟩
  · simp at several
  · refine ⟨ts, s, rfl, ?_⟩
    rintro rfl
    simp at several

theorem dotless_joinedAll (plain : ∀ s ∈ ss, s.Plain) : '.' ∉ (joinedAll ss).table.toList := by
  induction ss using List.reverseRecOn with
  | nil => simp [joinedAll]
  | append_singleton ss s ih =>
      obtain ⟨others, last⟩ := List.forall_mem_append.mp plain
      have own := Sql.dotless_of_isName (last s List.mem_cons_self).table
      by_cases nonempty : ss = []
      · subst nonempty
        exact own
      · rw [joinedAll_append nonempty]
        exact dotless_joined (ih others) own

/-- The name of a join cannot be written. -/
theorem ne_table_joinedAll (several : 2 ≤ ss.length) (named : Sql.isName x = true) :
    x ≠ (joinedAll ss).table := by
  rintro rfl
  obtain ⟨ts, s, rfl, nonempty⟩ := exists_last several
  refine Sql.not_mem_signs_of_isName named '(' ?_ (by decide)
  rw [joinedAll_append nonempty, toList_table_joined]
  exact List.mem_cons_self

/-- Of a name with a dot the part before it has to be the name of one of the two inputs of the last
join, and the first of them goes first. -/
theorem find?_joinedAll (nonempty : ss ≠ []) (plain : ∀ t ∈ ss, t.Plain) (last : s.Plain)
    (named : Sql.isName x = true) (a : String) :
    (joinedAll (ss ++ [s])).find? (x ++ "." ++ a) =
      (if x = (joinedAll ss).table then
          ((joinedAll ss).find? a).map (placed 0 (joinedAll ss).table) else none).or
        (if x = s.table then (s.find? a).map (placed (joinedAll ss).columns.length s.table)
          else none) := by
  have reference := Sql.dotless_of_isName named
  rw [joinedAll_append nonempty, find?_joined,
    find?_qualified _ reference (dotless_joinedAll plain),
    find?_qualified _ reference (Sql.dotless_of_isName last.table)]
  congr 1
  split
  · rw [Option.map_map]
    congr 1
    funext found
    simp [behind, placed]
  · rfl

theorem find?_joinedAll_bare (several : 2 ≤ ss.length) (bare : '.' ∉ a.toList) :
    (joinedAll ss).find? a = none := by
  obtain ⟨ts, s, rfl, nonempty⟩ := exists_last several
  rw [joinedAll_append nonempty, find?_joined, find?_qualified_bare _ bare,
    find?_qualified_bare _ bare]
  rfl

/-- Only the first two inputs can give a name twice. -/
theorem nodup_joinedAll {t u : Schema} (first : t.Plain) (second : u.Plain)
    (plain : ∀ s ∈ ss, s.Plain) :
    (joinedAll (t :: u :: ss)).names.Nodup ↔
      t.table ≠ u.table ∨ ∀ name ∈ t.names, name ∉ u.names := by
  induction ss using List.reverseRecOn with
  | nil =>
      have alone : joinedAll [t, u] = joinedSchema t u := rfl
      rw [alone, nodup_joined (Sql.dotless_of_isName first.table)
        (Sql.dotless_of_isName second.table)]
      simp only [first.distinct, second.distinct, true_and]
  | append_singleton ss s ih =>
      obtain ⟨others, last⟩ := List.forall_mem_append.mp plain
      obtain ⟨table, distinct, _⟩ := last s List.mem_cons_self
      have inputs : ∀ s ∈ t :: u :: ss, s.Plain :=
        List.forall_mem_cons.mpr ⟨first, List.forall_mem_cons.mpr ⟨second, others⟩⟩
      have apart : (joinedAll (t :: u :: ss)).table ≠ s.table :=
        (ne_table_joinedAll (by simp) table).symm
      rw [← List.cons_append, ← List.cons_append, joinedAll_append (List.cons_ne_nil _ _),
        nodup_joined (dotless_joinedAll inputs) (Sql.dotless_of_isName table), ← ih others]
      simp only [distinct, ne_eq, apart, not_false_eq_true, true_or, and_true]

end Chain
end Schema

namespace Row

/-- Where no name is given twice, a row has each value under the name of its own column. -/
theorem get?_own {row : Row} (distinct : row.schema.names.Nodup) {i : Nat} {c : Column}
    (there : row.schema.columns[i]? = some c) : row.get? c.name = row.values[i]? := by
  rw [get?, Schema.find?_own distinct there]
  rfl

end Row
end RowStore
