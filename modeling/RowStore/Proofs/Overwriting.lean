import Mathlib.Order.Bounds.Defs
import RowStore.Proofs.WordLengths

/-! Writing a word over the front of a field, byte by byte while there is room. The word takes as
few bytes as base 128 allows, and what was written is read back. A field that is too short is left
full of the bytes that announce more. -/
namespace RowStore.Varint

/-- The byte of a word at a place that is not its last. -/
def announcing (v : UInt64) (i : Nat) : UInt8 := UInt8.ofNat (v.toNat / 128 ^ i % 128 + 128)

section Word

variable {v : UInt64} {field : Bytes} {n : Nat}

theorem length_pos (v : UInt64) : 1 ≤ length v := by
  rw [length]
  split <;> omega

theorem two_pow_seven_mul (n : Nat) : 2 ^ (7 * n) = 128 ^ n := Nat.pow_mul 2 7 n

theorem length_le_iff (positive : 1 ≤ n) : length v ≤ n ↔ v.toNat < 2 ^ (7 * n) := by
  rw [two_pow_seven_mul, length_eq_length_bytes]
  exact length_bytes_le_iff positive

/-- The length of a word is the least that has seven bits for each byte of it. -/
theorem isLeast_length (v : UInt64) : IsLeast {n | 1 ≤ n ∧ v.toNat < 2 ^ (7 * n)} (length v) :=
  ⟨⟨length_pos v, (length_le_iff (length_pos v)).mp (Nat.le_refl _)⟩,
    fun _ ⟨positive, fits⟩ => (length_le_iff positive).mpr fits⟩

theorem length_put (field : Bytes) (v : UInt64) : (put field v).1.length = field.length := by
  induction field generalizing v with
  | nil => rfl
  | cons b field ih =>
      rw [put]
      split
      · rfl
      · exact congrArg (· + 1) (ih _)

/-- A word is written if its bytes have room, and their number is returned. -/
theorem put_eq_some_iff : (put field v).2 = some n ↔ n = length v ∧ n ≤ field.length := by
  induction field generalizing v n with
  | nil =>
      have positive := length_pos v
      rw [put, List.length_nil]
      constructor
      · rintro ⟨⟩
      · omega
  | cons b field ih =>
      have positive := length_pos (v >>> 7)
      rw [put, length, List.length_cons]
      split
      · rw [Option.some_inj]
        omega
      · rw [Option.map_eq_some_iff]
        constructor
        · rintro ⟨m, written, rfl⟩
          obtain ⟨rfl, room⟩ := ih.mp written
          omega
        · rintro ⟨rfl, room⟩
          exact ⟨_, ih.mpr ⟨rfl, by omega⟩, rfl⟩

/-- The bytes of the word stand at the front, and what was behind them is left as it was. -/
theorem put_of_room (room : length v ≤ field.length) :
    (put field v).1 = bytes v ++ field.drop (length v) := by
  rw [length_eq_length_bytes] at room ⊢
  rw [put_eq, List.take_of_length_le room]

theorem announcing_zero (v : UInt64) : announcing v 0 = v.toUInt8 ||| 0x80 := by
  apply UInt8.toNat_inj.mp
  rw [toNat_more, announcing, UInt8.toNat_ofNat', Nat.pow_zero, Nat.div_one]
  omega

theorem announcing_high7 (v : UInt64) (i : Nat) :
    announcing (v >>> 7) i = announcing v (i + 1) := by
  unfold announcing
  rw [toNat_high7, Nat.div_div_eq_div_mul, ← Nat.pow_succ']

/-- Where the room runs out before the word ends, every byte of the field has been written. -/
theorem put_of_full (full : (put field v).2 = none) :
    (put field v).1 = (List.range field.length).map (announcing v) := by
  induction field generalizing v with
  | nil => rfl
  | cons b field ih =>
      rw [put] at full ⊢
      split
      · rename_i last
        rw [if_pos last] at full
        cases full
      · rename_i more
        rw [if_neg more, Option.map_eq_none_iff] at full
        show (v.toUInt8 ||| 0x80) :: (put field (v >>> 7)).1 = _
        -- The others are those of the rest of the word, one place further on.
        rw [ih full, List.length_cons, List.range_succ_eq_map, List.map_cons, List.map_map,
          announcing_zero]
        exact congrArg _ (List.map_congr_left fun i _ => announcing_high7 v i)

/-- What writing a word over a field comes to. -/
structure Overwritten (v : UInt64) (field : Bytes) (out : Bytes × Option Nat) : Prop where
  written_iff : ∀ n, out.2 = some n ↔ n = length v ∧ n ≤ field.length
  size : out.1.length = field.length
  behind : ∀ n, out.2 = some n → out.1.drop n = field.drop n
  full : out.2 = none → out.1 = (List.range field.length).map (announcing v)

theorem overwritten_put (v : UInt64) (field : Bytes) : Overwritten v field (put field v) where
  written_iff _ := put_eq_some_iff
  size := length_put field v
  behind := by
    intro n written
    obtain ⟨rfl, room⟩ := put_eq_some_iff.mp written
    rw [put_of_room room, length_eq_length_bytes]
    exact List.drop_left
  full := put_of_full

theorem take_put (written : (put field v).2 = some n) : (put field v).1.take n = bytes v := by
  obtain ⟨rfl, room⟩ := put_eq_some_iff.mp written
  rw [put_of_room room, length_eq_length_bytes]
  exact List.take_left

/-- Seven bits of a signed word go into each byte, one of them for its sign. -/
theorem length_zigzag_le_iff {w : Int64} (positive : 1 ≤ n) :
    length (zigzag w) ≤ n ↔ -2 ^ (7 * n - 1) ≤ w.toInt ∧ w.toInt < 2 ^ (7 * n - 1) := by
  have code := toNat_zigzag w
  have halves : 2 ^ (7 * n) = 2 * 2 ^ (7 * n - 1) := by
    rw [← Nat.pow_succ']
    congr 1
    omega
  have cast : ((2 ^ (7 * n - 1) : Nat) : Int) = 2 ^ (7 * n - 1) := Nat.cast_pow 2 _
  rw [length_le_iff positive, halves, ← cast]
  split at code <;> omega

end Word

/-- Whatever the word and the field, writing takes the least number of bytes that the word has room
in, returns it if they fit, and leaves the bytes behind them alone; then the word is read back,
whatever follows. If they do not fit, the field is filled with the first bytes of the word. The same
holds of signed words, which need a bit for their sign, and both ways of mapping these to unsigned
ones undo each other. -/
theorem written_words_read_back (v : UInt64) (w : Int64) (field : Bytes) :
    IsLeast {n | 1 ≤ n ∧ v.toNat < 2 ^ (7 * n)} (length v) ∧
      Overwritten v field (put field v) ∧
      (∀ n, (put field v).2 = some n → ∀ rest,
        read ((put field v).1.take n ++ rest) = some (v, n)) ∧
      Overwritten (zigzag w) field (putSigned field w) ∧
      (∀ n, (putSigned field w).2 = some n → ∀ rest,
        readSigned ((putSigned field w).1.take n ++ rest) = some (w, n)) ∧
      (1 ≤ field.length → ((putSigned field w).2 ≠ none ↔
        -2 ^ (7 * field.length - 1) ≤ w.toInt ∧ w.toInt < 2 ^ (7 * field.length - 1))) ∧
      (10 ≤ field.length → (putSigned field w).2 ≠ none) ∧
      unzigzag (zigzag w) = w ∧ zigzag (unzigzag v) = v := by
  have fits : (putSigned field w).2 ≠ none ↔ length (zigzag w) ≤ field.length := by
    rw [Option.ne_none_iff_exists']
    exact ⟨fun ⟨_, written⟩ => (put_eq_some_iff.mp written).1 ▸ (put_eq_some_iff.mp written).2,
      fun room => ⟨_, put_eq_some_iff.mpr ⟨rfl, room⟩⟩⟩
  refine ⟨isLeast_length v, overwritten_put v field, ?unsigned, overwritten_put _ field, ?signed,
    fun positive => fits.trans (length_zigzag_le_iff positive), ?wide, unzigzag_zigzag w,
    zigzag_unzigzag v⟩
  case unsigned =>
    intro n written rest
    rw [take_put written, read_bytes, (put_eq_some_iff.mp written).1, length_eq_length_bytes]
  case signed =>
    intro n written rest
    rw [putSigned, take_put written, readSigned_bytes, (put_eq_some_iff.mp written).1,
      length_eq_length_bytes]
  case wide =>
    intro wide
    have short : length (zigzag w) ≤ 10 := by
      rw [length_eq_length_bytes]
      exact length_bytes_le_maxLength _
    exact fits.mpr (Nat.le_trans short wide)

/-- A word of two bytes in a field of three, the least signed word of three bytes, and the one
before it, which needs four. -/
theorem written_words_read_back_of_three_bytes :
    let field : Bytes := [0xAA, 0xAA, 0xAA]
    put field 300 = ([0xAC, 0x02, 0xAA], some 2) ∧
      read ([0xAC, 0x02] ++ [0xFF]) = some (300, 2) ∧
      putSigned field (-1048576) = ([0xFF, 0xFF, 0x7F], some 3) ∧
      readSigned ([0xFF, 0xFF, 0x7F] ++ []) = some (-1048576, 3) ∧
      (putSigned field (-1048577)).2 = none ∧
      (putSigned field (-1048577)).1 = [0x81, 0x80, 0x80] ∧
      (putSigned (List.replicate 10 0) Int64.minValue).2 ≠ none := by
  intro field
  obtain ⟨_, _, back, _, signedBack, _⟩ := written_words_read_back 300 (-1048576) field
  obtain ⟨_, _, _, ⟨_, _, _, full⟩, _, room, _⟩ := written_words_read_back 0 (-1048577) field
  obtain ⟨_, _, _, _, _, _, wide, _⟩ :=
    written_words_read_back 0 Int64.minValue (List.replicate 10 0)
  have short : (putSigned field (-1048577)).2 = none := by
    by_contra written
    exact absurd ((room (by decide)).mp written) (by decide)
  exact ⟨by decide, back 2 (by decide) [0xFF], by decide, signedBack 3 (by decide) [], short,
    (full short).trans (by decide), wide (by decide)⟩

end RowStore.Varint
