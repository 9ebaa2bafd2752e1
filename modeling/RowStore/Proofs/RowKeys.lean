import Mathlib.Data.List.Basic
import RowStore.OrderedMap
import RowStore.Proofs.TextBytes
import RowStore.RowKey
import RowStore.Schema

/-! Which keys lie in the range of a table, and that a key tells its table and its row: tables
whose names are free of the separator share no keys, and no two numbers have one decimal text. -/
namespace RowStore

namespace RowKey

/-- Of all characters the separator alone is written with its byte. -/
theorem separator_mem_utf8EncodeChar {c : Char} (member : separator ∈ String.utf8EncodeChar c) :
    c = Schema.keySeparator := by
  have value : separator.toNat = 58 := rfl
  unfold String.utf8EncodeChar at member
  simp only [apply_ite (separator ∈ ·), List.mem_cons, List.not_mem_nil, or_false,
    ← UInt8.toNat_inj, UInt8.toNat_ofNat', value] at member
  have point : c.val.toNat = 58 := by
    split at member
    · omega
    · split at member
      · omega
      · split at member <;> omega
  exact Char.ext (UInt32.toNat_inj.mp point)

theorem separator_notMem_utf8 {table : String} (free : Schema.keySeparator ∉ table.toList) :
    separator ∉ Text.utf8 table := by
  rw [Text.utf8_eq_flatMap, List.mem_flatMap]
  rintro ⟨c, member, there⟩
  exact free (separator_mem_utf8EncodeChar there ▸ member)

/-- The keys between a name with the separator and the name with the byte after it are those
that start with the former. -/
theorem between_iff_prefix (name key : Bytes) :
    (!before key (name ++ [separator]) && before key (name ++ [separator + 1])) = true ↔
      name ++ [separator] <+: key := by
  simp only [before, Bool.and_eq_true, Bool.not_eq_true', decide_eq_false_iff_not,
    decide_eq_true_eq]
  induction name generalizing key with
  | nil =>
      cases key with
      | nil => simp
      | cons c cs =>
          have next : (separator + 1).toNat = separator.toNat + 1 := rfl
          simp only [List.nil_append, List.cons_lt_cons_iff, List.not_lt_nil, and_false, or_false,
            List.cons_prefix_cons, List.nil_prefix, and_true, UInt8.lt_iff_toNat_lt,
            ← UInt8.toNat_inj, next]
          omega
  | cons b name ih =>
      cases key with
      | nil => simp
      | cons c cs =>
          simp only [List.cons_append, List.cons_lt_cons_iff, List.cons_prefix_cons, ← ih cs,
            UInt8.lt_iff_toNat_lt, ← UInt8.toNat_inj]
          by_cases same : c.toNat = b.toNat
          · simp [same]
          · have other : ¬ b.toNat = c.toNat := fun h => same h.symm
            simp only [same, other, false_and, or_false, iff_false]
            omega

/-- The keys from the least of a table to the bound above them are those that start with its name
and the separator. -/
theorem mem_range_iff_prefix (table : String) (key : Bytes) :
    (!before key (low table) && before key (high table)) = true ↔ low table <+: key :=
  between_iff_prefix (Text.utf8 table) key

/-- What stands before the first separator of a key is the name of its table. -/
theorem takeWhile_of_prefix {table : String} {key : Bytes}
    (free : Schema.keySeparator ∉ table.toList) (starts : low table <+: key) :
    key.takeWhile (· ≠ separator) = Text.utf8 table := by
  obtain ⟨rest, rfl⟩ := starts
  have name : ∀ b ∈ Text.utf8 table, (decide (b ≠ separator)) = true := by
    intro b member
    rw [decide_eq_true_eq]
    rintro rfl
    exact separator_notMem_utf8 free member
  rw [low, List.append_assoc, List.takeWhile_append_of_pos name, List.singleton_append,
    List.takeWhile_cons_of_neg (by simp), List.append_nil]

/-- Tables whose names are free of the separator share no keys. -/
theorem table_unique {t u : String} {key : Bytes} (freeLeft : Schema.keySeparator ∉ t.toList)
    (freeRight : Schema.keySeparator ∉ u.toList) (left : low t <+: key) (right : low u <+: key) :
    t = u := by
  rw [← Text.utf8_inj, ← takeWhile_of_prefix freeLeft left, takeWhile_of_prefix freeRight right]

theorem low_prefix_ofText (table text : String) : low table <+: ofText table text :=
  List.prefix_append ..

theorem ofText_inj {table a b : String} : ofText table a = ofText table b ↔ a = b := by
  rw [ofText, ofText, List.append_cancel_left_eq, Text.utf8_inj]

/-- Under one table the keys are ordered as their texts are. -/
theorem before_ofText (table a b : String) :
    before (ofText table a) (ofText table b) = before (Text.utf8 a) (Text.utf8 b) := by
  unfold ofText
  generalize low table = name
  induction name with
  | nil => rfl
  | cons c name ih =>
      simp only [before, List.cons_append, List.cons_lt_cons_iff] at ih ⊢
      simpa using ih

theorem toList_toString (n : Int) :
    (toString n).toList =
      if 0 ≤ n then Nat.toDigits 10 n.toNat else '-' :: Nat.toDigits 10 (-n).toNat := by
  rw [Int.toString_eq_repr, Int.repr_eq_if]
  split
  · exact Nat.toList_repr
  · rw [String.toList_append, Nat.toList_repr]
    rfl

theorem digits_toDigits (m : Nat) : ∀ d ∈ Nat.toDigits 10 m, d.isDigit = true :=
  fun _ => Nat.isDigit_of_mem_toDigits (by decide) (by decide)

theorem toDigits_ne_minus {m n : Nat} : Nat.toDigits 10 m ≠ '-' :: Nat.toDigits 10 n := by
  intro same
  have digit := digits_toDigits m '-' (same ▸ List.mem_cons_self)
  exact absurd digit (by decide)

theorem toDigits_inj {m n : Nat} (same : Nat.toDigits 10 m = Nat.toDigits 10 n) : m = n := by
  rw [← Nat.ofDigitChars_ten_toDigits (n := m), same, Nat.ofDigitChars_ten_toDigits]

/-- No two numbers have one decimal text. -/
theorem toString_inj {m n : Int} : toString m = toString n ↔ m = n := by
  refine ⟨fun same => ?_, congrArg toString⟩
  have digits := congrArg String.toList same
  rw [toList_toString, toList_toString] at digits
  split at digits <;> split at digits
  · have value := toDigits_inj digits
    omega
  · exact absurd digits toDigits_ne_minus
  · exact absurd digits.symm toDigits_ne_minus
  · have value := toDigits_inj (List.cons.inj digits).2
    omega

/-- Ascending keys of one table have ascending texts. -/
theorem pairwise_of_ascending {ν : Type} {table : String} {keys : List Int} {es : List (Bytes × ν)}
    (ascending : Ascending es)
    (places : es.map Prod.fst = keys.map fun key => ofText table (toString key)) :
    keys.Pairwise fun a b => Text.utf8 (toString a) < Text.utf8 (toString b) := by
  have ordered : (es.map Prod.fst).Pairwise fun a b => before a b = true :=
    List.pairwise_map.mpr ascending
  rw [places, List.pairwise_map] at ordered
  refine ordered.imp fun first => ?_
  rw [before_ofText] at first
  exact of_decide_eq_true first

end RowKey
end RowStore
