namespace RowStore

abbrev Bytes := List UInt8

namespace Text

def utf8 (s : String) : Bytes := s.toByteArray.data.toList

def ofUtf8? (bs : Bytes) : Option String := String.fromUTF8? ⟨bs.toArray⟩

/-- A character begun: the bytes still owed, the bounds of the next one, and the bits so far. -/
structure Begun where
  owed : Nat
  low : UInt8
  high : UInt8
  bits : Nat

inductive Lead
  | whole (c : Char)
  | begun (state : Begun)
  | invalid

def lead (b : UInt8) : Lead :=
  let n := b.toNat
  if n < 0x80 then .whole (Char.ofNat n)
  else if n < 0xC2 then .invalid
  else if n < 0xE0 then .begun ⟨1, 0x80, 0xBF, n - 0xC0⟩
  else if n = 0xE0 then .begun ⟨2, 0xA0, 0xBF, 0⟩
  else if n = 0xED then .begun ⟨2, 0x80, 0x9F, n - 0xE0⟩
  else if n < 0xF0 then .begun ⟨2, 0x80, 0xBF, n - 0xE0⟩
  else if n = 0xF0 then .begun ⟨3, 0x90, 0xBF, 0⟩
  else if n < 0xF4 then .begun ⟨3, 0x80, 0xBF, n - 0xF0⟩
  else if n = 0xF4 then .begun ⟨3, 0x80, 0x8F, n - 0xF0⟩
  else .invalid

def replacement : Char := '\uFFFD'

/-- Every longest run of bytes that begins a character and cannot end it reads as one
replacement character. -/
def lossyFrom : Option Begun → Bytes → List Char
  | none, [] => []
  | some _, [] => [replacement]
  | some s, b :: bs =>
      if s.low ≤ b ∧ b ≤ s.high then
        let bits := s.bits * 64 + (b.toNat - 0x80)
        if s.owed = 1 then Char.ofNat bits :: lossyFrom none bs
        else lossyFrom (some ⟨s.owed - 1, 0x80, 0xBF, bits⟩) bs
      else
        match lead b with
        | .whole c => replacement :: c :: lossyFrom none bs
        | .begun t => replacement :: lossyFrom (some t) bs
        | .invalid => replacement :: replacement :: lossyFrom none bs
  | none, b :: bs =>
      match lead b with
      | .whole c => c :: lossyFrom none bs
      | .begun t => lossyFrom (some t) bs
      | .invalid => replacement :: lossyFrom none bs

def lossy (bs : Bytes) : String := String.ofList (lossyFrom none bs)

end Text
end RowStore
