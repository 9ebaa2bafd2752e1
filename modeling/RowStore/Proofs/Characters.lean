import RowStore.Sql.Scanner

namespace RowStore.Text

/-- The code points of the ranges, one by one. -/
def points (ranges : List (Nat × Nat)) : List Nat :=
  ranges.flatMap fun (first, last) => List.range' first (last + 1 - first)

theorem mem_points_of_covers {ranges : List (Nat × Nat)} {n : Nat}
    (covered : covers ranges n = true) : n ∈ points ranges := by
  induction ranges with
  | nil => cases covered
  | cons range ranges ih =>
      obtain ⟨first, last⟩ := range
      rw [covers] at covered
      rw [points, List.flatMap_cons, List.mem_append]
      by_cases below : n < first
      · rw [if_pos below] at covered
        cases covered
      · rw [if_neg below, Bool.or_eq_true, decide_eq_true_eq] at covered
        rcases covered with inside | later
        · exact .inl (List.mem_range'_1.mpr ⟨Nat.le_of_not_lt below, by omega⟩)
        · exact .inr (ih later)

theorem forall_blank {P : Char → Prop} (each : ∀ n ∈ points blankRanges, P (Char.ofNat n))
    {c : Char} (blank : isBlank c = true) : P c := by
  have holds := each _ (mem_points_of_covers blank)
  rwa [Char.ofNat_toNat] at holds

def isAscii (c : Char) : Bool := c.toNat < 128

theorem forall_ascii {P : Char → Prop} (each : ∀ n < 128, P (Char.ofNat n)) {c : Char}
    (ascii : isAscii c = true) : P c := by
  have holds := each _ (decide_eq_true_eq.mp ascii)
  rwa [Char.ofNat_toNat] at holds

theorem upperChar_of_ascii {c : Char} (ascii : isAscii c = true) : upperChar c = [c.toUpper] :=
  forall_ascii (P := fun c => upperChar c = [c.toUpper]) (by decide +kernel) ascii

theorem lowerChar_of_ascii {c : Char} (ascii : isAscii c = true) : lowerChar c = [c.toLower] :=
  forall_ascii (P := fun c => lowerChar c = [c.toLower]) (by decide +kernel) ascii

/-- Upper case in ASCII goes character by character. -/
theorem upper_of_ascii {cs : List Char} (ascii : ∀ c ∈ cs, isAscii c = true) :
    upper (String.ofList cs) = String.ofList (cs.map Char.toUpper) := by
  rw [upper, String.toList_ofList]
  congr 1
  induction cs with
  | nil => rfl
  | cons c cs ih =>
      obtain ⟨first, others⟩ := List.forall_mem_cons.mp ascii
      rw [List.flatMap_cons, upperChar_of_ascii first, ih others]
      rfl

theorem lowerAfter_of_ascii {before cs : List Char} (ascii : ∀ c ∈ cs, isAscii c = true) :
    lowerAfter before cs = cs.map Char.toLower := by
  induction cs generalizing before with
  | nil => rfl
  | cons c cs ih =>
      obtain ⟨first, others⟩ := List.forall_mem_cons.mp ascii
      have plain : c ≠ 'Σ' := by
        rintro rfl
        exact absurd first (by decide)
      rw [lowerAfter, lowerChar_of_ascii first, ih others]
      · rfl
      · exact plain

/-- Folding to upper case makes no character ASCII that was not. -/
theorem isAscii_of_toUpper {c : Char} (ascii : isAscii c.toUpper = true) : isAscii c = true := by
  unfold Char.toUpper at ascii
  split at ascii
  · rename_i letter
    have bound := UInt32.le_iff_toNat_le.mp letter.2
    exact decide_eq_true (Nat.lt_of_le_of_lt bound (by decide))
  · exact ascii

end RowStore.Text

namespace RowStore.Sql

/-- White space ends every word, number and sign. -/
theorem isWordPart_of_blank {c : Char} (blank : Text.isBlank c = true) : isWordPart c = false :=
  Text.forall_blank (P := fun c => isWordPart c = false) (by decide +kernel) blank

theorem isDigit_of_blank {c : Char} (blank : Text.isBlank c = true) : c.isDigit = false := by
  have solid := isWordPart_of_blank blank
  rw [isWordPart, Bool.or_eq_false_iff] at solid
  exact solid.2

end RowStore.Sql
