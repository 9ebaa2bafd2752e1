namespace RowStore.Text

inductive NumberError
  | invalidDigit
  | tooLarge
  deriving DecidableEq, Repr

def NumberError.message : NumberError → String
  | .invalidDigit => "invalid digit found in string"
  | .tooLarge => "number too large to fit in target type"

def digitValue (c : Char) : Nat := c.toNat - '0'.toNat

/-- Reads on from `n`, and stops at the first character that is no digit or makes the number
reach `2 ^ 64`. -/
def wordFrom (n : Nat) : List Char → Except NumberError UInt64
  | [] => .ok (UInt64.ofNat n)
  | c :: cs =>
      if !c.isDigit then .error .invalidDigit
      else if n * 10 + digitValue c < 0x10000000000000000 then wordFrom (n * 10 + digitValue c) cs
      else .error .tooLarge

/-- A 64-bit word in decimal, after an optional plus sign. -/
def word (cs : List Char) : Except NumberError UInt64 :=
  match cs with
  | '+' :: d :: ds => wordFrom 0 (d :: ds)
  | ['+'] | [] => .error .invalidDigit
  | ds => wordFrom 0 ds

end RowStore.Text
