import RowStore.Text.Utf8

/-! Words in base 128, the low seven bits first; every byte but the last has its high bit set.
Signed words are mapped to unsigned ones first, so that those near zero stay short. -/
namespace RowStore.Varint

def maxLength : Nat := 10

def zigzag (v : Int64) : UInt64 := ((v <<< 1) ^^^ (v >>> 63)).toUInt64

def unzigzag (v : UInt64) : Int64 := (v >>> 1).toInt64 ^^^ -(v &&& 1).toInt64

theorem high7_lt {v : UInt64} (more : ¬ v < 0x80) : (v >>> 7).toNat < v.toNat := by
  have large : 128 ≤ v.toNat := UInt64.le_iff_toNat_le.mp (UInt64.not_lt.mp more)
  rw [UInt64.toNat_shiftRight, Nat.shiftRight_eq_div_pow]
  exact Nat.div_lt_self (by omega) (by decide)

/-- How many bytes a word takes, seven bits in each. -/
def length (v : UInt64) : Nat :=
  if v < 0x80 then 1 else length (v >>> 7) + 1
termination_by v.toNat
decreasing_by exact high7_lt ‹_›

/-- Writes over the front of a field, byte by byte: the field after it, and how many bytes were
written if all of them had room. -/
def put : Bytes → UInt64 → Bytes × Option Nat
  | [], _ => ([], none)
  | _ :: field, v =>
      if v < 0x80 then (v.toUInt8 :: field, some 1)
      else
        let (field, written) := put field (v >>> 7)
        ((v.toUInt8 ||| 0x80) :: field, written.map (· + 1))

def putSigned (field : Bytes) (v : Int64) : Bytes × Option Nat := put field (zigzag v)

/-- Reads on at byte `i`, where the bytes before it came to `value`. -/
def readFrom (i : Nat) (value : UInt64) : Bytes → Option (UInt64 × Nat)
  | [] => none
  | b :: bs =>
      if maxLength ≤ i then none
      else
        let shift := UInt64.ofNat (7 * i)
        if b < 0x80 then
          if i = maxLength - 1 ∧ 1 < b then none
          else some (value ||| (b.toUInt64 <<< shift), i + 1)
        else readFrom (i + 1) (value ||| ((b &&& 0x7F).toUInt64 <<< shift)) bs

/-- The word at the front of the bytes, and how many of them it takes. -/
def read (bs : Bytes) : Option (UInt64 × Nat) := readFrom 0 0 bs

def readSigned (bs : Bytes) : Option (Int64 × Nat) :=
  (read bs).map fun (v, n) => (unzigzag v, n)

end RowStore.Varint
