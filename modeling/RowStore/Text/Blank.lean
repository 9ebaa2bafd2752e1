import RowStore.Text.Ranges

namespace RowStore.Text

/-- The White_Space property of Unicode. -/
def blankRanges : List (Nat × Nat) :=
  [(0x9, 0xD), (0x20, 0x20), (0x85, 0x85), (0xA0, 0xA0), (0x1680, 0x1680), (0x2000, 0x200A),
   (0x2028, 0x2029), (0x202F, 0x202F), (0x205F, 0x205F), (0x3000, 0x3000)]

def isBlank (c : Char) : Bool := covers blankRanges c.toNat

def trimStart (cs : List Char) : List Char := cs.dropWhile isBlank

def trim (cs : List Char) : List Char := (trimStart (trimStart cs).reverse).reverse

/-- The pieces between the separators, the empty ones too: the first, then the others. -/
def pieces (separator : Char → Bool) : List Char → List Char × List (List Char)
  | [] => ([], [])
  | c :: cs =>
      let (piece, others) := pieces separator cs
      if separator c then ([], piece :: others) else (c :: piece, others)

def words (cs : List Char) : List (List Char) :=
  let (piece, others) := pieces isBlank cs
  (piece :: others).filter (! ·.isEmpty)

/-- The lines of a text. A carriage return before the line feed stays in its line. -/
def lines (cs : List Char) : List (List Char) :=
  let (piece, others) := pieces (· = '\n') cs
  piece :: others

end RowStore.Text
