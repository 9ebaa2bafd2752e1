import RowStore.Text.CaseTables
import RowStore.Text.Ranges

namespace RowStore.Text

def shift : List (Nat × Nat × Nat × Int) → Nat → Nat
  | [], n => n
  | (first, last, step, offset) :: rest, n =>
      if n < first then n
      else if n ≤ last ∧ (n - first) % step = 0 then (n + offset).toNat
      else shift rest n

def expansion : List (Nat × List Nat) → Nat → Option (List Nat)
  | [], _ => none
  | (code, codes) :: rest, n =>
      if n < code then none else if n = code then some codes else expansion rest n

def upperChar (c : Char) : List Char :=
  match expansion upperExpansions c.toNat with
  | some codes => codes.map Char.ofNat
  | none => [Char.ofNat (shift upperShifts c.toNat)]

def lowerChar (c : Char) : List Char :=
  match expansion lowerExpansions c.toNat with
  | some codes => codes.map Char.ofNat
  | none => [Char.ofNat (shift lowerShifts c.toNat)]

def isCased (c : Char) : Bool := covers casedRanges c.toNat

def isCaseIgnorable (c : Char) : Bool := covers caseIgnorableRanges c.toNat

/-- Whether a cased character comes next, case-ignorable ones passed over. -/
def leadsToCased (cs : List Char) : Bool :=
  match cs.dropWhile isCaseIgnorable with
  | c :: _ => isCased c
  | [] => false

def upper (s : String) : String := String.ofList (s.toList.flatMap upperChar)

/-- Lower case after the characters `before`, nearest first. A sigma that ends a word
takes its final form. -/
def lowerAfter (before : List Char) : List Char → List Char
  | [] => []
  | 'Σ' :: cs =>
      (if leadsToCased before && !leadsToCased cs then 'ς' else 'σ') :: lowerAfter ('Σ' :: before) cs
  | c :: cs => lowerChar c ++ lowerAfter (c :: before) cs

def lower (s : String) : String := String.ofList (lowerAfter [] s.toList)

end RowStore.Text
