import RowStore.Json.Basic

namespace RowStore.Json

def isBlank (c : Char) : Bool := c = ' ' || c = '\n' || c = '\t' || c = '\r'

def skipBlanks (cs : List Char) : List Char := cs.dropWhile isBlank

def hexValue? (c : Char) : Option Nat :=
  if '0' ≤ c ∧ c ≤ '9' then some (c.toNat - '0'.toNat)
  else if 'a' ≤ c ∧ c ≤ 'f' then some (c.toNat - 'a'.toNat + 10)
  else if 'A' ≤ c ∧ c ≤ 'F' then some (c.toNat - 'A'.toNat + 10)
  else none

def codeUnit? (a b c d : Char) : Option Nat := do
  return (((← hexValue? a) * 16 + (← hexValue? b)) * 16 + (← hexValue? c)) * 16 + (← hexValue? d)

def simpleEscape? : Char → Option Char
  | '"' => some '"'
  | '\\' => some '\\'
  | '/' => some '/'
  | 'b' => some '\x08'
  | 'f' => some '\x0C'
  | 'n' => some '\n'
  | 'r' => some '\r'
  | 't' => some '\t'
  | _ => none

/-- The body of a string and what follows its closing quote. -/
def stringBody? : List Char → Option (List Char × List Char)
  | [] => none
  | '"' :: cs => some ([], cs)
  | '\\' :: 'u' :: a :: b :: c :: d :: cs =>
      if (codeUnit? a b c d).isSome then
        (stringBody? cs).map fun (body, rest) => ('\\' :: 'u' :: a :: b :: c :: d :: body, rest)
      else none
  | '\\' :: e :: cs =>
      if (simpleEscape? e).isSome then
        (stringBody? cs).map fun (body, rest) => ('\\' :: e :: body, rest)
      else none
  | c :: cs =>
      if c = '\\' || c.toNat < 0x20 then none
      else (stringBody? cs).map fun (body, rest) => (c :: body, rest)

/-- What a string body stands for, after the first half of a surrogate pair or not. An unpaired
surrogate stands for nothing. -/
def unescapedAfter? : Option Nat → List Char → Option (List Char)
  | none, [] => some []
  | some _, [] => none
  | some high, '\\' :: 'u' :: a :: b :: c :: d :: cs => do
      let low ← codeUnit? a b c d
      if 0xDC00 ≤ low ∧ low < 0xE000 then
        return Char.ofNat (0x10000 + (high - 0xD800) * 0x400 + (low - 0xDC00)) ::
          (← unescapedAfter? none cs)
      else none
  | some _, _ :: _ => none
  | none, '\\' :: 'u' :: a :: b :: c :: d :: cs => do
      let unit ← codeUnit? a b c d
      if 0xD800 ≤ unit ∧ unit < 0xDC00 then unescapedAfter? (some unit) cs
      else if 0xDC00 ≤ unit ∧ unit < 0xE000 then none
      else return Char.ofNat unit :: (← unescapedAfter? none cs)
  | none, '\\' :: e :: cs => do return (← simpleEscape? e) :: (← unescapedAfter? none cs)
  | none, c :: cs => (unescapedAfter? none cs).map (c :: ·)

def unescaped? (body : List Char) : Option (List Char) := unescapedAfter? none body

/-- One digit or more, and what follows them. -/
def digits? (cs : List Char) : Option (List Char × List Char) :=
  let ds := cs.takeWhile Char.isDigit
  if ds.isEmpty then none else some (ds, cs.dropWhile Char.isDigit)

/-- No digit comes after a leading zero. -/
def wholePart? : List Char → Option (List Char × List Char)
  | '0' :: cs => if (cs.head?.map Char.isDigit).getD false then none else some (['0'], cs)
  | cs => digits? cs

def fractionPart? : List Char → Option (List Char × List Char)
  | '.' :: cs => (digits? cs).map fun (ds, rest) => ('.' :: ds, rest)
  | cs => some ([], cs)

def exponentPart? : List Char → Option (List Char × List Char)
  | 'e' :: '+' :: cs | 'E' :: '+' :: cs =>
      (digits? cs).map fun (ds, rest) => ('e' :: '+' :: ds, rest)
  | 'e' :: '-' :: cs | 'E' :: '-' :: cs =>
      (digits? cs).map fun (ds, rest) => ('e' :: '-' :: ds, rest)
  | 'e' :: cs | 'E' :: cs => (digits? cs).map fun (ds, rest) => ('e' :: ds, rest)
  | cs => some ([], cs)

def unsignedNumber? (cs : List Char) : Option (List Char × List Char) := do
  let (whole, cs) ← wholePart? cs
  let (fraction, cs) ← fractionPart? cs
  let (exponent, cs) ← exponentPart? cs
  return (whole ++ fraction ++ exponent, cs)

def number? : List Char → Option (List Char × List Char)
  | '-' :: cs => (unsignedNumber? cs).map fun (text, rest) => ('-' :: text, rest)
  | cs => unsignedNumber? cs

/-- What follows the word, if the text begins with it. -/
def word? (word : String) (cs : List Char) : Option (List Char) :=
  if word.toList.isPrefixOf cs then some (cs.drop word.length) else none

def scalar? (cs : List Char) : Option (Json × List Char) :=
  match cs with
  | '"' :: cs => (stringBody? cs).map fun (body, rest) => (.string (String.ofList body), rest)
  | 'n' :: _ => (word? "null" cs).map fun rest => (.null, rest)
  | 't' :: _ => (word? "true" cs).map fun rest => (.bool true, rest)
  | 'f' :: _ => (word? "false" cs).map fun rest => (.bool false, rest)
  | cs => (number? cs).map fun (text, rest) => (.number (String.ofList text), rest)

mutual

def valueUpTo : Nat → List Char → Option (Json × List Char)
  | 0, _ => none
  | depth + 1, cs =>
      match skipBlanks cs with
      | '[' :: cs =>
          match skipBlanks cs with
          | ']' :: rest => some (.array [], rest)
          | cs => (itemsUpTo depth cs).map fun (items, rest) => (.array items, rest)
      | '\x7b' :: cs =>
          match skipBlanks cs with
          | '\x7d' :: rest => some (.object [], rest)
          | cs => (membersUpTo depth cs).map fun (members, rest) => (.object members, rest)
      | cs => scalar? cs

/-- The items up to the closing bracket. -/
def itemsUpTo : Nat → List Char → Option (List Json × List Char)
  | 0, _ => none
  | depth + 1, cs => do
      let (j, cs) ← valueUpTo depth cs
      match skipBlanks cs with
      | ']' :: rest => return ([j], rest)
      | ',' :: cs => do
          let (js, rest) ← itemsUpTo depth cs
          return (j :: js, rest)
      | _ => none

/-- The members up to the closing brace. -/
def membersUpTo : Nat → List Char → Option (List (String × Json) × List Char)
  | 0, _ => none
  | depth + 1, cs => do
      let '"' :: cs := skipBlanks cs | none
      let (key, cs) ← stringBody? cs
      let ':' :: cs := skipBlanks cs | none
      let (j, cs) ← valueUpTo depth cs
      let member := (String.ofList key, j)
      match skipBlanks cs with
      | '\x7d' :: rest => return ([member], rest)
      | ',' :: cs => do
          let (ms, rest) ← membersUpTo depth cs
          return (member :: ms, rest)
      | _ => none

end

/-- A whole text; only blanks may follow the value. -/
def parse? (text : String) : Option Json := do
  let cs := text.toList
  let (j, rest) ← valueUpTo (2 * cs.length + 2) cs
  if (skipBlanks rest).isEmpty then some j else none

def textOf? (body : String) : Option String := (unescaped? body.toList).map String.ofList

def string? : Json → Option String
  | string body => textOf? body
  | _ => none

def bool? : Json → Option Bool
  | bool b => some b
  | _ => none

/-- A number without fraction and exponent. Minus zero is none. -/
def int? : Json → Option Int
  | number text =>
      match text.toList with
      | '-' :: ds =>
          if ds.all Char.isDigit ∧ ds ≠ ['0'] then some (-(Nat.ofDigitChars 10 ds 0 : Int)) else none
      | ds => if ds.all Char.isDigit then some (Nat.ofDigitChars 10 ds 0 : Int) else none
  | _ => none

/-- An integer within bounds, the upper one excluded. -/
def intWithin? (low high : Int) (j : Json) : Option Int := do
  let n ← j.int?
  if low ≤ n ∧ n < high then some n else none

def list? : Json → Option (List Json)
  | array items => some items
  | _ => none

/-- Null is the absence of a value. -/
def optional? {α : Type} (read : Json → Option α) : Json → Option (Option α)
  | null => some none
  | j => (read j).map some

/-- The members of the given names, in the order of the names. Each may be missing, none may
come twice, and members of other names are passed over. -/
def select? (names : List String) (members : List (String × Json)) : Option (List (Option Json)) := do
  let named ← members.mapM fun (key, j) => (textOf? key).map fun key => (key, j)
  names.mapM fun name =>
    match named.filter (·.1 = name) with
    | [] => some none
    | [(_, j)] => some (some j)
    | _ => none

end RowStore.Json
