namespace RowStore

/-- Numbers and strings are kept as written, strings without their quotes. -/
inductive Json
  | null
  | bool (b : Bool)
  | number (text : String)
  | string (body : String)
  | array (items : List Json)
  | object (members : List (String × Json))
  deriving Repr

namespace Json

def hexDigits (n : Nat) : List Char :=
  let digits := Nat.toDigits 16 n
  List.replicate (4 - digits.length) '0' ++ digits

/-- Quotes, backslashes and controls are escaped, and nothing else. -/
def escapedChar (c : Char) : List Char :=
  match c with
  | '"' => ['\\', '"']
  | '\\' => ['\\', '\\']
  | '\n' => ['\\', 'n']
  | '\r' => ['\\', 'r']
  | '\t' => ['\\', 't']
  | '\x08' => ['\\', 'b']
  | '\x0C' => ['\\', 'f']
  | c => if c.toNat < 0x20 then ['\\', 'u'] ++ hexDigits c.toNat else [c]

def escaped (s : String) : String := String.ofList (s.toList.flatMap escapedChar)

def ofString (s : String) : Json := string (escaped s)

def ofInt (n : Int) : Json := number (toString n)

def ofOption {α : Type} (f : α → Json) : Option α → Json
  | some x => f x
  | none => null

def quote (body : String) : String := "\"" ++ body ++ "\""

mutual

/-- Without any blanks. -/
def compact : Json → String
  | null => "null"
  | bool b => if b then "true" else "false"
  | number text => text
  | string body => quote body
  | array items => "[" ++ ",".intercalate (compactItems items) ++ "]"
  | object members => "\x7b" ++ ",".intercalate (compactMembers members) ++ "\x7d"

def compactItems : List Json → List String
  | [] => []
  | j :: js => j.compact :: compactItems js

def compactMembers : List (String × Json) → List String
  | [] => []
  | (key, j) :: ms => (quote key ++ ":" ++ j.compact) :: compactMembers ms

end

def newline (depth : Nat) : String := String.ofList ('\n' :: List.replicate (2 * depth) ' ')

/-- Items on lines of their own between brackets; nothing between them if there are none. -/
def block (left right : String) (depth : Nat) (items : List String) : String :=
  if items.isEmpty then left ++ right
  else left ++ ",".intercalate (items.map (newline (depth + 1) ++ ·)) ++ newline depth ++ right

mutual

def prettyAt (depth : Nat) : Json → String
  | array items => block "[" "]" depth (prettyItems (depth + 1) items)
  | object members => block "\x7b" "\x7d" depth (prettyMembers (depth + 1) members)
  | null => "null"
  | bool b => if b then "true" else "false"
  | number text => text
  | string body => quote body

def prettyItems (depth : Nat) : List Json → List String
  | [] => []
  | j :: js => j.prettyAt depth :: prettyItems depth js

def prettyMembers (depth : Nat) : List (String × Json) → List String
  | [] => []
  | (key, j) :: ms => (quote key ++ ": " ++ j.prettyAt depth) :: prettyMembers depth ms

end

/-- Over several lines, indented by two blanks. -/
def pretty (j : Json) : String := j.prettyAt 0

end Json
end RowStore
