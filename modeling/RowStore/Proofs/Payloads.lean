import Mathlib.Algebra.BigOperators.Ring.Finset
import Mathlib.Algebra.Order.BigOperators.Group.Finset
import RowStore.Proofs.Words

/-! Reading arbitrary bytes into a word of 64 bits. What is found is the number that the bytes
spell, as if there were no bound. The shifts that put it together are noted beside the reading: none
is by the width of a word or more, and none loses a bit of a word that is found. -/
namespace RowStore.Varint

/-- The payload of the byte at a place. -/
def digit (bs : Bytes) (j : Nat) : Nat := (bs.getD j 0).toNat % 128

/-- The number that the bytes up to a place spell. -/
def number (bs : Bytes) (i : Nat) : Nat := ∑ j ∈ Finset.range (i + 1), digit bs j * 2 ^ (7 * j)

/-- A word to be shifted to the left, and how far. -/
structure Shift where
  word : UInt64
  amount : Nat
  deriving DecidableEq, Repr

def Shift.result (s : Shift) : UInt64 := s.word <<< UInt64.ofNat s.amount

/-- No bit is shifted out. -/
def Shift.Exact (s : Shift) : Prop := s.result.toNat = s.word.toNat * 2 ^ s.amount

instance (s : Shift) : Decidable s.Exact := inferInstanceAs (Decidable (_ = _))

/-- What a reading finds, and the shifts that it carries out. -/
structure Noted where
  shifts : List Shift
  found : Option (UInt64 × Nat)

/-- Reads on as `readFrom` does, and notes each shift. -/
def notedFrom (i : Nat) (value : UInt64) : Bytes → Noted
  | [] => ⟨[], none⟩
  | b :: bs =>
      if maxLength ≤ i then ⟨[], none⟩
      else if b < 0x80 then
        if i = maxLength - 1 ∧ 1 < b then ⟨[], none⟩
        else
          let s : Shift := ⟨b.toUInt64, 7 * i⟩
          ⟨[s], some (value ||| s.result, i + 1)⟩
      else
        let s : Shift := ⟨(b &&& 0x7F).toUInt64, 7 * i⟩
        let later := notedFrom (i + 1) (value ||| s.result) bs
        ⟨s :: later.shifts, later.found⟩

def noted (bs : Bytes) : Noted := notedFrom 0 0 bs

/-- The shift that brings a payload to its place, where `i` bytes have been read before. -/
def placed (i : Nat) (bs : Bytes) (j : Nat) : Shift := ⟨UInt64.ofNat (digit bs j), 7 * (i + j)⟩

section Numbers

theorem digit_lt (bs : Bytes) (j : Nat) : digit bs j < 128 := Nat.mod_lt _ (by decide)

theorem digit_cons_succ (b : UInt8) (bs : Bytes) (j : Nat) :
    digit (b :: bs) (j + 1) = digit bs j := rfl

theorem payload_take (bs : Bytes) (n : Nat) :
    payload (bs.take n) = ∑ j ∈ Finset.range n, digit bs j * 2 ^ (7 * j) := by
  induction bs generalizing n with
  | nil =>
      rw [List.take_nil]
      symm
      apply Finset.sum_eq_zero
      intro j _
      exact Nat.zero_mul _
  | cons b bs ih =>
      cases n with
      | zero => rfl
      | succ n =>
          have next (j : Nat) : digit (b :: bs) (j + 1) * 2 ^ (7 * (j + 1)) =
              128 * (digit bs j * 2 ^ (7 * j)) := by
            rw [digit_cons_succ, Nat.mul_add, Nat.pow_add]
            ring
          rw [List.take_succ_cons, payload, ih, Finset.sum_range_succ', Finset.mul_sum,
            Nat.add_comm]
          congr 1
          · exact Finset.sum_congr rfl fun j _ => (next j).symm
          · exact (Nat.mul_one _).symm

theorem number_eq (bs : Bytes) (i : Nat) : number bs i = payload (bs.take (i + 1)) :=
  (payload_take bs (i + 1)).symm

theorem digit_le_number {bs : Bytes} {i j : Nat} (within : j ≤ i) :
    digit bs j * 2 ^ (7 * j) ≤ number bs i := by
  apply Finset.single_le_sum (f := fun j => digit bs j * 2 ^ (7 * j))
  · intro j _
    exact Nat.zero_le _
  · exact Finset.mem_range.mpr (Nat.lt_succ_of_le within)

/-- The bytes that announce another one are those before the first that does not. -/
theorem findIdx?_eq_some_iff_continued {bs : Bytes} {i : Nat} :
    bs.findIdx? (· < 0x80) = some i ↔ i = continued bs ∧ continued bs < bs.length := by
  induction bs generalizing i with
  | nil => simp
  | cons b bs ih =>
      rw [List.findIdx?_cons, continued_cons, List.length_cons]
      by_cases last : b < 0x80
      · rw [if_pos (decide_eq_true last), if_neg (UInt8.not_le.mpr last), Option.some_inj]
        omega
      · rw [if_neg (by simpa using last), if_pos (UInt8.not_lt.mp last), Option.map_eq_some_iff]
        constructor
        · rintro ⟨j, first, rfl⟩
          obtain ⟨rfl, within⟩ := ih.mp first
          exact ⟨rfl, Nat.succ_lt_succ within⟩
        · rintro ⟨rfl, within⟩
          exact ⟨_, ih.mpr ⟨rfl, Nat.lt_of_succ_lt_succ within⟩, rfl⟩

end Numbers

section Shifts

variable {bs : Bytes} {v : UInt64} {n : Nat}

theorem Shift.exact_of_room {s : Shift} (place : s.amount < 64)
    (room : s.word.toNat * 2 ^ s.amount < 2 ^ 64) : s.Exact :=
  toNat_shiftLeft_of_room place room

/-- Noting the shifts does not change the reading. -/
theorem found_notedFrom (i : Nat) (value : UInt64) (bs : Bytes) :
    (notedFrom i value bs).found = readFrom i value bs := by
  induction bs generalizing i value with
  | nil => rfl
  | cons b bs ih =>
      unfold notedFrom readFrom
      split
      · rfl
      · split
        · split <;> rfl
        · exact ih _ _

theorem toUInt64_low7 (b : UInt8) : (b &&& 0x7F).toUInt64 = UInt64.ofNat (b.toNat % 128) := by
  apply UInt64.toNat_inj.mp
  rw [UInt8.toNat_toUInt64, toNat_low7, UInt64.toNat_ofNat']
  omega

theorem toUInt64_last {b : UInt8} (last : b < 0x80) :
    b.toUInt64 = UInt64.ofNat (b.toNat % 128) := by
  have small : b.toNat < 128 := UInt8.lt_iff_toNat_lt.mp last
  apply UInt64.toNat_inj.mp
  rw [UInt8.toNat_toUInt64, UInt64.toNat_ofNat']
  omega

theorem range_map_placed (i : Nat) (b : UInt8) (bs : Bytes) (k : Nat) :
    (List.range (k + 1)).map (placed i (b :: bs)) =
      ⟨UInt64.ofNat (b.toNat % 128), 7 * i⟩ :: (List.range k).map (placed (i + 1) bs) := by
  rw [List.range_succ_eq_map, List.map_cons, List.map_map]
  congr 1
  apply List.map_congr_left
  intro j _
  simp only [Function.comp_apply, placed, digit_cons_succ, Nat.succ_eq_add_one]
  congr 2
  omega

/-- A reading shifts the payloads of some bytes, one after another, each to its place. If it finds
a word, these are the bytes that it takes. -/
theorem exists_shifts_notedFrom (i : Nat) (value : UInt64) (bs : Bytes) :
    ∃ k, k ≤ maxLength - i ∧ (notedFrom i value bs).shifts = (List.range k).map (placed i bs) ∧
      ∀ v n, readFrom i value bs = some (v, n) → n = i + k := by
  induction bs generalizing i value with
  | nil => exact ⟨0, Nat.zero_le _, rfl, nofun⟩
  | cons b bs ih =>
      by_cases late : maxLength ≤ i
      · refine ⟨0, Nat.zero_le _, ?_, ?_⟩
        · rw [notedFrom, if_pos late]
          rfl
        · rw [readFrom_maxLength late]
          exact nofun
      by_cases last : b < 0x80
      · by_cases full : i = maxLength - 1 ∧ 1 < b
        · refine ⟨0, Nat.zero_le _, ?_, ?_⟩
          · rw [notedFrom, if_neg late, if_pos last, if_pos full]
            rfl
          · simp only [readFrom, if_neg late, if_pos last, if_pos full]
            exact nofun
        · refine ⟨1, by omega, ?_, ?_⟩
          · rw [notedFrom, if_neg late, if_pos last, if_neg full, range_map_placed,
              toUInt64_last last]
            rfl
          · simp only [readFrom, if_neg late, if_pos last, if_neg full]
            rintro _ _ ⟨⟩
            rfl
      · obtain ⟨k, short, shifts, taken⟩ :=
          ih (i + 1) (value ||| ((b &&& 0x7F).toUInt64 <<< UInt64.ofNat (7 * i)))
        refine ⟨k + 1, by omega, ?_, ?_⟩
        · rw [range_map_placed, ← toUInt64_low7, ← shifts, notedFrom, if_neg late, if_neg last]
          rfl
        · intro v n found
          simp only [readFrom, if_neg late, if_neg last] at found
          have count := taken v n found
          omega

theorem placed_zero (bs : Bytes) :
    placed 0 bs = fun j => ⟨UInt64.ofNat (digit bs j), 7 * j⟩ := by
  funext j
  rw [placed, Nat.zero_add]

/-- No shift is by the width of a word or more, whatever the bytes. -/
theorem amount_lt_of_mem {s : Shift} (member : s ∈ (noted bs).shifts) : s.amount < 64 := by
  obtain ⟨k, short, shifts, _⟩ := exists_shifts_notedFrom 0 0 bs
  rw [noted, shifts] at member
  obtain ⟨j, within, rfl⟩ := List.mem_map.mp member
  have before := List.mem_range.mp within
  simp only [placed, maxLength] at short ⊢
  omega

theorem read_eq_some_iff :
    read bs = some (v, n) ↔
      ∃ i ≤ 9, bs.findIdx? (· < 0x80) = some i ∧ v.toNat = number bs i ∧ n = i + 1 := by
  have below := v.toNat_lt
  have ten : maxLength = 10 := rfl
  rw [read_eq]
  dsimp only
  simp only [findIdx?_eq_some_iff_continued, number_eq]
  constructor
  · intro found
    split at found
    · rename_i here
      obtain ⟨within, early, fits⟩ := here
      obtain ⟨rfl, rfl⟩ := Prod.mk.inj (Option.some.inj found)
      refine ⟨continued bs, by omega, ⟨rfl, within⟩, ?_, rfl⟩
      rw [UInt64.toNat_ofNat', Nat.mod_eq_of_lt fits]
    · nomatch found
  · rintro ⟨_, early, ⟨rfl, within⟩, value, rfl⟩
    rw [if_pos ⟨within, by omega, value ▸ below⟩, ← value, UInt64.ofNat_toNat]

theorem shifts_of_read (found : read bs = some (v, n)) :
    (noted bs).shifts = (List.range n).map fun j => ⟨UInt64.ofNat (digit bs j), 7 * j⟩ := by
  obtain ⟨k, _, shifts, taken⟩ := exists_shifts_notedFrom 0 0 bs
  have count := taken v n found
  rw [Nat.zero_add] at count
  rw [noted, shifts, placed_zero, count]

/-- Each payload is a summand of the number that is found, so it has room where it is shifted to. -/
theorem exact_of_mem {s : Shift} (found : read bs = some (v, n))
    (member : s ∈ (noted bs).shifts) : s.Exact := by
  obtain ⟨i, _, _, value, rfl⟩ := read_eq_some_iff.mp found
  have place := amount_lt_of_mem member
  rw [shifts_of_read found] at member
  obtain ⟨j, within, rfl⟩ := List.mem_map.mp member
  apply Shift.exact_of_room place
  have below := digit_lt bs j
  have word : (UInt64.ofNat (digit bs j)).toNat = digit bs j := by
    rw [UInt64.toNat_ofNat']
    omega
  calc (UInt64.ofNat (digit bs j)).toNat * 2 ^ (7 * j)
      = digit bs j * 2 ^ (7 * j) := by rw [word]
    _ ≤ number bs i := digit_le_number (Nat.lt_succ_iff.mp (List.mem_range.mp within))
    _ < 2 ^ 64 := value ▸ v.toNat_lt

end Shifts

/-- Arbitrary bytes are read exactly. A word is found if a byte below 128 occurs, the first of these
is among the first ten bytes, and the number that the bytes up to it spell is below 2 ^ 64; then
that number is found, and these bytes are taken. Every shift that is carried out is by less than 64.
Those for a word that is found bring the payload of each of its bytes to its place, and no bit of
them is lost. -/
theorem arbitrary_bytes_are_read_exactly (bs : Bytes) :
    ((∃ v n, read bs = some (v, n)) ↔
        ∃ i ≤ 9, bs.findIdx? (· < 0x80) = some i ∧ number bs i < 2 ^ 64) ∧
      (∀ v n, read bs = some (v, n) →
        ∃ i, bs.findIdx? (· < 0x80) = some i ∧ v.toNat = number bs i ∧ n = i + 1) ∧
      (noted bs).found = read bs ∧
      (∀ s ∈ (noted bs).shifts, s.amount < 64) ∧
      ∀ v n, read bs = some (v, n) →
        (noted bs).shifts = (List.range n).map (fun j => ⟨UInt64.ofNat (digit bs j), 7 * j⟩) ∧
          ∀ s ∈ (noted bs).shifts, s.Exact := by
  refine ⟨⟨?accepted, ?accepts⟩, ?exact, found_notedFrom 0 0 bs, fun _ => amount_lt_of_mem, ?shifts⟩
  case accepted =>
    rintro ⟨v, n, found⟩
    obtain ⟨i, early, first, value, _⟩ := read_eq_some_iff.mp found
    exact ⟨i, early, first, value ▸ v.toNat_lt⟩
  case accepts =>
    rintro ⟨i, early, first, fits⟩
    have value : (UInt64.ofNat (number bs i)).toNat = number bs i := by
      rw [UInt64.toNat_ofNat', Nat.mod_eq_of_lt fits]
    exact ⟨_, _, read_eq_some_iff.mpr ⟨i, early, first, value, rfl⟩⟩
  case exact =>
    intro v n found
    obtain ⟨i, _, first, value, count⟩ := read_eq_some_iff.mp found
    exact ⟨i, first, value, count⟩
  case shifts =>
    intro v n found
    exact ⟨shifts_of_read found, fun _ => exact_of_mem found⟩

/-- The greatest word takes ten bytes; with a last byte of two the number is too large. Needless
bytes do no harm. Ten bytes that all announce another one lose bits, but no word is found then. -/
theorem arbitrary_bytes_are_read_exactly_of_ten_bytes :
    let most : Bytes := List.replicate 9 0xFF ++ [0x01]
    let more : Bytes := List.replicate 9 0xFF ++ [0x02]
    let endless : Bytes := List.replicate 10 0xFF
    read most = some (18446744073709551615, 10) ∧ number most 9 = 2 ^ 64 - 1 ∧
      (∀ s ∈ (noted most).shifts, s.Exact) ∧ ⟨1, 63⟩ ∈ (noted most).shifts ∧
      number more 9 = 2 ^ 64 + 2 ^ 63 - 1 ∧ (¬ ∃ v n, read more = some (v, n)) ∧
      (∃ v n, read [0x81, 0x80, 0x00] = some (v, n)) ∧ number [0x81, 0x80, 0x00] 2 = 1 ∧
      (∀ s ∈ (noted endless).shifts, s.amount < 64) ∧
      (∃ s ∈ (noted endless).shifts, ¬ s.Exact) ∧ (noted endless).found = none := by
  intro most more endless
  obtain ⟨_, value, _, _, shifted⟩ := arbitrary_bytes_are_read_exactly most
  obtain ⟨refused, _⟩ := arbitrary_bytes_are_read_exactly more
  obtain ⟨accepted, _⟩ := arbitrary_bytes_are_read_exactly [0x81, 0x80, 0x00]
  obtain ⟨_, _, same, narrow, _⟩ := arbitrary_bytes_are_read_exactly endless
  have found : read most = some (18446744073709551615, 10) := by decide
  have large : number more 9 = 2 ^ 64 + 2 ^ 63 - 1 := by decide +kernel
  have rejected : ¬ ∃ v n, read more = some (v, n) := by
    rw [refused]
    rintro ⟨i, _, first, fits⟩
    obtain rfl : 9 = i := Option.some.inj first
    exact absurd fits (by decide +kernel)
  refine ⟨found, ?_, (shifted _ _ found).2, by decide, large, rejected,
    accepted.mpr ⟨2, by decide, by decide, by decide +kernel⟩, by decide +kernel, narrow,
    by decide +kernel, same.trans (by decide)⟩
  obtain ⟨i, first, spelt, _⟩ := value _ _ found
  obtain rfl : 9 = i := Option.some.inj first
  exact spelt.symm

end RowStore.Varint
