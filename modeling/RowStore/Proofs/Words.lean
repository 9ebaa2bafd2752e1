import Mathlib.Tactic.Ring
import RowStore.Varint

namespace RowStore.Varint

theorem shiftRight_of_small {x : BitVec 64} (small : x.toNat < 2 ^ 63) : x >>> 63 = 0#64 := by
  apply BitVec.eq_of_toNat_eq
  rw [BitVec.toNat_ushiftRight, Nat.shiftRight_eq_div_pow, Nat.div_eq_of_lt small]
  rfl

/-- The sign, once for every place of the word. -/
theorem signBits (x : BitVec 64) :
    x.sshiftRight 63 = if x.msb then BitVec.allOnes 64 else 0#64 := by
  cases negative : x.msb with
  | false =>
      have small : x.toNat < 2 ^ 63 := by
        rw [BitVec.msb_eq_decide, decide_eq_false_iff_not] at negative
        omega
      rw [BitVec.sshiftRight_eq_of_msb_false negative, shiftRight_of_small small]
      rfl
  | true =>
      have small : (~~~x).toNat < 2 ^ 63 := by
        rw [BitVec.msb_eq_decide, decide_eq_true_eq] at negative
        rw [BitVec.toNat_not]
        omega
      rw [BitVec.sshiftRight_eq_of_msb_true negative, shiftRight_of_small small]
      rfl

theorem toBitVec_zigzag (v : Int64) :
    (zigzag v).toBitVec =
      (v.toBitVec <<< 1) ^^^ (if v.toBitVec.msb then BitVec.allOnes 64 else 0#64) := by
  rw [← signBits]
  rfl

/-- Small words of either sign are mapped to small ones. -/
theorem toNat_zigzag (v : Int64) :
    ((zigzag v).toNat : Int) = if 0 ≤ v.toInt then 2 * v.toInt else -2 * v.toInt - 1 := by
  have value : v.toInt = v.toBitVec.toInt := rfl
  have word : (zigzag v).toNat = (zigzag v).toBitVec.toNat := rfl
  have below := v.toBitVec.isLt
  rw [word, toBitVec_zigzag, value, BitVec.toInt_eq_toNat_cond]
  cases negative : v.toBitVec.msb with
  | false =>
      rw [BitVec.msb_eq_decide, decide_eq_false_iff_not] at negative
      simp only [Bool.false_eq_true, if_false, BitVec.xor_zero, BitVec.toNat_shiftLeft,
        Nat.shiftLeft_eq]
      omega
  | true =>
      rw [BitVec.msb_eq_decide, decide_eq_true_eq] at negative
      simp only [if_true, BitVec.xor_allOnes, BitVec.toNat_not, BitVec.toNat_shiftLeft,
        Nat.shiftLeft_eq]
      omega

/-- Minus the lowest bit, once for every place of the word. -/
theorem neg_lowBit (y : BitVec 64) :
    -(y &&& 1#64) = if y.toNat % 2 = 0 then 0#64 else BitVec.allOnes 64 := by
  have bit : (y &&& 1#64).toNat = y.toNat % 2 := by
    rw [BitVec.toNat_and]
    exact Nat.and_one_is_mod _
  split
  · rename_i even
    have zero : y &&& 1#64 = 0#64 := BitVec.eq_of_toNat_eq (bit.trans even)
    rw [zero]
    rfl
  · rename_i odd
    have one : y &&& 1#64 = 1#64 := by
      apply BitVec.eq_of_toNat_eq
      rw [bit]
      simp only [BitVec.toNat_ofNat]
      omega
    rw [one]
    rfl

theorem toBitVec_unzigzag (u : UInt64) :
    (unzigzag u).toBitVec =
      (u.toBitVec >>> 1) ^^^ (if u.toNat % 2 = 0 then 0#64 else BitVec.allOnes 64) := by
  have bit := neg_lowBit u.toBitVec
  rw [show u.toNat = u.toBitVec.toNat from rfl, ← bit]
  rfl

theorem toInt_unzigzag (u : UInt64) :
    (unzigzag u).toInt =
      if u.toNat % 2 = 0 then (u.toNat / 2 : Int) else -(u.toNat / 2 : Int) - 1 := by
  have value : (unzigzag u).toInt = (unzigzag u).toBitVec.toInt := rfl
  have word : u.toNat = u.toBitVec.toNat := rfl
  have below := u.toBitVec.isLt
  rw [value, toBitVec_unzigzag, BitVec.toInt_eq_toNat_cond, word]
  split
  · simp only [BitVec.xor_zero, BitVec.toNat_ushiftRight, Nat.shiftRight_eq_div_pow]
    omega
  · simp only [BitVec.xor_allOnes, BitVec.toNat_not, BitVec.toNat_ushiftRight,
      Nat.shiftRight_eq_div_pow]
    omega

theorem unzigzag_zigzag (v : Int64) : unzigzag (zigzag v) = v := by
  apply Int64.toInt_inj.mp
  have word := toNat_zigzag v
  rw [toInt_unzigzag]
  split at word <;> split <;> omega

theorem zigzag_unzigzag (u : UInt64) : zigzag (unzigzag u) = u := by
  apply UInt64.toNat_inj.mp
  have word := toNat_zigzag (unzigzag u)
  have value := toInt_unzigzag u
  split at word <;> split at value <;> omega

/-- The number that bytes spell, seven bits in each, the low ones first. -/
def payload : Bytes → Nat
  | [] => 0
  | b :: bs => b.toNat % 128 + 128 * payload bs

/-- How many bytes at the front announce another one. -/
def continued (bs : Bytes) : Nat := (bs.takeWhile (0x80 ≤ ·)).length

theorem toNat_low7 (b : UInt8) : (b &&& 0x7F).toNat = b.toNat % 128 := by
  rw [UInt8.toNat_and]
  exact Nat.and_two_pow_sub_one_eq_mod _ 7

/-- A shift to a place of the word loses nothing that there is room for. -/
theorem toNat_shiftLeft_of_room {word : UInt64} {k : Nat} (place : k < 64)
    (room : word.toNat * 2 ^ k < 2 ^ 64) :
    (word <<< UInt64.ofNat k).toNat = word.toNat * 2 ^ k := by
  have amount : (UInt64.ofNat k).toNat % 64 = k := by
    rw [UInt64.toNat_ofNat']
    omega
  rw [UInt64.toNat_shiftLeft, amount, Nat.shiftLeft_eq, Nat.mod_eq_of_lt room]

/-- Bits above those that are there already add up. -/
theorem toNat_or_shift {value : UInt64} {b : UInt8} {k : Nat} (place : k < 64)
    (below : value.toNat < 2 ^ k) (room : value.toNat + b.toNat * 2 ^ k < 2 ^ 64) :
    (value ||| (b.toUInt64 <<< UInt64.ofNat k)).toNat = value.toNat + b.toNat * 2 ^ k := by
  have high : (b.toUInt64 <<< UInt64.ofNat k).toNat = b.toNat <<< k := by
    rw [Nat.shiftLeft_eq, ← UInt8.toNat_toUInt64]
    apply toNat_shiftLeft_of_room place
    rw [UInt8.toNat_toUInt64]
    omega
  rw [UInt64.toNat_or, high, Nat.or_comm, ← Nat.shiftLeft_add_eq_or_of_lt below, Nat.shiftLeft_eq,
    Nat.add_comm]

theorem readFrom_maxLength {i : Nat} (late : maxLength ≤ i) (value : UInt64) (bs : Bytes) :
    readFrom i value bs = none := by
  cases bs with
  | nil => rfl
  | cons b bs => simp [readFrom, late]

theorem continued_cons (b : UInt8) (bs : Bytes) :
    continued (b :: bs) = if 0x80 ≤ b then continued bs + 1 else 0 := by
  unfold continued
  rw [List.takeWhile_cons]
  split <;> simp_all

theorem two_pow_place {i : Nat} (early : i < 9) :
    2 ^ (7 * (i + 1)) = 128 * 2 ^ (7 * i) ∧ 2 ^ (7 * (i + 1)) ≤ 2 ^ 63 := by
  constructor
  · rw [show 7 * (i + 1) = 7 + 7 * i by omega, Nat.pow_add]
  · exact Nat.pow_le_pow_right (by omega) (by omega)

/-- The last byte of a word is taken if the number still fits. -/
theorem readFrom_last {i : Nat} {value : UInt64} {b : UInt8} (bs : Bytes) (early : i < maxLength)
    (below : value.toNat < 2 ^ (7 * i)) (last : b < 0x80) :
    readFrom i value (b :: bs) =
      let total := value.toNat + 2 ^ (7 * i) * b.toNat
      if total < 2 ^ 64 then some (UInt64.ofNat total, i + 1) else none := by
  have small : b.toNat < 128 := UInt8.lt_iff_toNat_lt.mp last
  simp only [readFrom, if_neg (Nat.not_le.mpr early), if_pos last]
  -- The tenth byte has room for one bit.
  by_cases full : i = maxLength - 1 ∧ 1 < b
  · obtain ⟨rfl, above⟩ := full
    have more : 1 < b.toNat := UInt8.lt_iff_toNat_lt.mp above
    rw [if_pos ⟨rfl, above⟩, if_neg]
    simp only [maxLength]
    omega
  · have room : value.toNat + b.toNat * 2 ^ (7 * i) < 2 ^ 64 := by
      by_cases tenth : i = 9
      · subst tenth
        have one : b.toNat ≤ 1 := by
          rw [← Nat.not_lt]
          intro above
          exact full ⟨rfl, UInt8.lt_iff_toNat_lt.mpr above⟩
        omega
      · obtain ⟨next, fits⟩ := two_pow_place (i := i) (by simp only [maxLength] at early; omega)
        have digit : b.toNat * 2 ^ (7 * i) ≤ 127 * 2 ^ (7 * i) :=
          Nat.mul_le_mul_right _ (by omega)
        omega
    have place : 7 * i < 64 := by simp only [maxLength] at early; omega
    rw [Nat.mul_comm (2 ^ (7 * i)), if_neg full, if_pos room, ← toNat_or_shift place below room,
      UInt64.ofNat_toNat]

/-- A reading gives a word if it ends in time and the number fits, and then that number. -/
theorem readFrom_eq (bs : Bytes) (i : Nat) (value : UInt64) (below : value.toNat < 2 ^ (7 * i)) :
    readFrom i value bs =
      let n := continued bs
      let total := value.toNat + 2 ^ (7 * i) * payload (bs.take (n + 1))
      if n < bs.length ∧ i + n < maxLength ∧ total < 2 ^ 64 then
        some (UInt64.ofNat total, i + n + 1)
      else none := by
  induction bs generalizing i value with
  | nil => simp [readFrom]
  | cons b bs ih =>
      by_cases late : maxLength ≤ i
      · rw [readFrom_maxLength late, if_neg (by omega)]
      by_cases last : b < 0x80
      · have small : b.toNat < 128 := UInt8.lt_iff_toNat_lt.mp last
        have stops : continued (b :: bs) = 0 := by
          rw [continued_cons, if_neg (UInt8.not_le.mpr last)]
        have spelt : payload ((b :: bs).take 1) = b.toNat := by
          simp only [List.take_succ_cons, List.take_zero, payload]
          omega
        rw [readFrom_last bs (Nat.lt_of_not_le late) below last]
        simp only [stops, Nat.zero_add, spelt, List.length_cons, Nat.add_zero, Nat.zero_lt_succ,
          true_and, Nat.lt_of_not_le late]
      · have goesOn : continued (b :: bs) = continued bs + 1 := by
          rw [continued_cons, if_pos (UInt8.not_lt.mp last)]
        simp only [goesOn, readFrom, if_neg late, if_neg last, List.take_succ_cons, payload,
          List.length_cons, Nat.add_lt_add_iff_right]
        by_cases tenth : i = 9
        · subst tenth
          rw [readFrom_maxLength (by decide), if_neg]
          simp only [maxLength]
          omega
        · have early : i < 9 := by simp only [maxLength] at late; omega
          obtain ⟨next, fits⟩ := two_pow_place early
          have low := toNat_low7 b
          have digit : (b &&& 0x7F).toNat * 2 ^ (7 * i) ≤ 127 * 2 ^ (7 * i) :=
            Nat.mul_le_mul_right _ (by omega)
          have sum := toNat_or_shift (b := b &&& 0x7F) (by omega : 7 * i < 64) below (by omega)
          have total : ∀ k, value.toNat + (b &&& 0x7F).toNat * 2 ^ (7 * i) +
              2 ^ (7 * (i + 1)) * k = value.toNat + 2 ^ (7 * i) * (b.toNat % 128 + 128 * k) := by
            intro k
            rw [next, low]
            ring
          have here : i + 1 + continued bs = i + (continued bs + 1) := by omega
          rw [ih (i + 1) _ (by omega), sum]
          simp only [total, here]

/-- What arbitrary bytes are read as: a word if one of the first ten ends it and the number
fits. -/
theorem read_eq (bs : Bytes) :
    read bs =
      let n := continued bs
      let total := payload (bs.take (n + 1))
      if n < bs.length ∧ n < maxLength ∧ total < 2 ^ 64 then
        some (UInt64.ofNat total, n + 1)
      else none := by
  unfold read
  rw [readFrom_eq bs 0 0 (by decide)]
  simp

theorem payload_lt (bs : Bytes) : payload bs < 128 ^ bs.length := by
  induction bs with
  | nil => exact Nat.one_pos
  | cons b bs ih =>
      rw [payload, List.length_cons, Nat.pow_succ]
      omega

/-- A word that is read is spelt by the bytes that it takes. -/
theorem payload_of_read {bs : Bytes} {v : UInt64} {n : Nat} (found : read bs = some (v, n)) :
    n = continued bs + 1 ∧ n ≤ bs.length ∧ v.toNat = payload (bs.take n) := by
  rw [read_eq] at found
  dsimp only at found
  split at found
  · rename_i here
    obtain ⟨rfl, rfl⟩ := Prod.mk.inj (Option.some.inj found)
    refine ⟨rfl, here.1, ?_⟩
    rw [UInt64.toNat_ofNat']
    exact Nat.mod_eq_of_lt here.2.2
  · cases found

/-- Bytes are read as no more than they have bits for. -/
theorem toNat_lt_of_read {bs : Bytes} {v : UInt64} {n : Nat} (found : read bs = some (v, n)) :
    v.toNat < 128 ^ bs.length := by
  obtain ⟨_, within, value⟩ := payload_of_read found
  have small := payload_lt (bs.take n)
  rw [List.length_take_of_le within] at small
  have room : 128 ^ n ≤ 128 ^ bs.length := Nat.pow_le_pow_right (by decide) within
  omega

theorem toNat_high7 (v : UInt64) : (v >>> 7).toNat = v.toNat / 128 := by
  rw [UInt64.toNat_shiftRight, Nat.shiftRight_eq_div_pow]
  rfl

/-- The byte that announces another one holds the low bits of the word. -/
theorem toNat_more (v : UInt64) : (v.toUInt8 ||| 0x80).toNat = v.toNat % 128 + 128 := by
  have low : v.toUInt8.toNat = v.toNat % 256 := UInt64.toNat_toUInt8 v
  have table : ∀ b : Fin 256, b.val ||| 128 = b.val % 128 + 128 := by decide +kernel
  have entry : v.toNat % 256 ||| 128 = v.toNat % 256 % 128 + 128 :=
    table ⟨v.toNat % 256, Nat.mod_lt _ (by decide)⟩
  rw [UInt8.toNat_or, low, show (0x80 : UInt8).toNat = 128 from rfl, entry]
  omega

/-- The bytes of a word: the low bits first, and each byte but the last announces another one. -/
def bytes (v : UInt64) : Bytes :=
  if v < 0x80 then [v.toUInt8] else (v.toUInt8 ||| 0x80) :: bytes (v >>> 7)
termination_by v.toNat
decreasing_by exact high7_lt ‹_›

section Bytes

variable {v : UInt64}

theorem bytes_of_last (last : v < 0x80) : bytes v = [v.toUInt8] := by
  rw [bytes, if_pos last]

theorem bytes_of_more (more : ¬ v < 0x80) :
    bytes v = (v.toUInt8 ||| 0x80) :: bytes (v >>> 7) := by
  rw [bytes, if_neg more]

theorem bytes_ne_nil (v : UInt64) : bytes v ≠ [] := by
  rw [bytes]
  split <;> exact List.cons_ne_nil _ _

theorem length_eq_length_bytes (v : UInt64) : length v = (bytes v).length := by
  induction v using bytes.induct with
  | case1 v last => rw [length, if_pos last, bytes_of_last last, List.length_singleton]
  | case2 v more ih => rw [length, if_neg more, bytes_of_more more, List.length_cons, ih]

/-- Writing puts the bytes of the word at the front of the field, as far as there is room. -/
theorem put_eq (field : Bytes) (v : UInt64) :
    put field v =
      ((bytes v).take field.length ++ field.drop (bytes v).length,
        if (bytes v).length ≤ field.length then some (bytes v).length else none) := by
  induction field generalizing v with
  | nil =>
      have positive : 0 < (bytes v).length := List.length_pos_iff.mpr (bytes_ne_nil v)
      rw [put, List.length_nil, if_neg (Nat.not_le_of_lt positive), List.drop_nil]
      rfl
  | cons b field ih =>
      rw [put]
      split
      · rename_i last
        simp [bytes_of_last last, List.take_of_length_le]
      · rename_i more
        rw [bytes_of_more more, ih]
        simp only [List.length_cons, List.take_succ_cons, List.drop_succ_cons, List.cons_append,
          Nat.add_le_add_iff_right]
        split <;> rfl

/-- A word takes so many bytes if its bits fill no more than seven of each. -/
theorem length_bytes_le_iff {n : Nat} (positive : 0 < n) :
    (bytes v).length ≤ n ↔ v.toNat < 128 ^ n := by
  induction v using bytes.induct generalizing n with
  | case1 v last =>
      have small : v.toNat < 128 := UInt64.lt_iff_toNat_lt.mp last
      have room : 128 ^ 1 ≤ 128 ^ n := Nat.pow_le_pow_right (by decide) positive
      rw [bytes_of_last last, List.length_singleton]
      omega
  | case2 v more ih =>
      have large : ¬ v.toNat < 128 := fun small => more (UInt64.lt_iff_toNat_lt.mpr small)
      have high := toNat_high7 v
      obtain ⟨m, rfl⟩ : ∃ m, n = m + 1 := ⟨n - 1, by omega⟩
      have power : 128 ^ (m + 1) = 128 * 128 ^ m := Nat.pow_succ'
      rw [bytes_of_more more, List.length_cons, Nat.add_le_add_iff_right]
      rcases Nat.eq_zero_or_pos m with rfl | later
      · have positive : 0 < (bytes (v >>> 7)).length := List.length_pos_iff.mpr (bytes_ne_nil _)
        omega
      · rw [ih later, high]
        omega

theorem length_bytes_le_maxLength (v : UInt64) : (bytes v).length ≤ maxLength :=
  (length_bytes_le_iff (by decide)).mpr (Nat.lt_of_lt_of_le v.toNat_lt (by decide))

/-- The bytes of a word announce each other up to the last one, and spell the word. -/
theorem bytes_spec (v : UInt64) (rest : Bytes) :
    continued (bytes v ++ rest) + 1 = (bytes v).length ∧ payload (bytes v) = v.toNat := by
  induction v using bytes.induct with
  | case1 v last =>
      have small : v.toNat < 128 := UInt64.lt_iff_toNat_lt.mp last
      have low : v.toUInt8.toNat = v.toNat % 256 := UInt64.toNat_toUInt8 v
      have digit : v.toNat % 256 < 128 := by omega
      have ends : v.toUInt8 < 0x80 := UInt8.lt_iff_toNat_lt.mpr (low ▸ digit)
      rw [bytes_of_last last, List.singleton_append, continued_cons,
        if_neg (UInt8.not_le.mpr ends)]
      simp only [payload, low]
      exact ⟨rfl, by omega⟩
  | case2 v more ih =>
      have high := toNat_high7 v
      have byte := toNat_more v
      obtain ⟨announced, spelt⟩ := ih
      have marked : 128 ≤ v.toNat % 128 + 128 := by omega
      have goesOn : 0x80 ≤ v.toUInt8 ||| 0x80 := UInt8.le_iff_toNat_le.mpr (byte ▸ marked)
      rw [bytes_of_more more, List.cons_append, continued_cons, if_pos goesOn]
      simp only [payload, List.length_cons, byte, spelt, high]
      omega

end Bytes

/-- Whatever follows, the word that was written is read back, and its bytes are taken. -/
theorem read_bytes (v : UInt64) (rest : Bytes) :
    read (bytes v ++ rest) = some (v, (bytes v).length) := by
  obtain ⟨announced, spelt⟩ := bytes_spec v rest
  have short := length_bytes_le_maxLength v
  have below := v.toNat_lt
  have taken : (bytes v ++ rest).take (continued (bytes v ++ rest) + 1) = bytes v := by
    rw [announced, List.take_left]
  rw [read_eq]
  simp only [taken, spelt, UInt64.ofNat_toNat, List.length_append]
  rw [if_pos (by omega), announced]

theorem readSigned_bytes (v : Int64) (rest : Bytes) :
    readSigned (bytes (zigzag v) ++ rest) = some (v, (bytes (zigzag v)).length) := by
  unfold readSigned
  rw [read_bytes, Option.map_some]
  simp only [unzigzag_zigzag]

end RowStore.Varint
