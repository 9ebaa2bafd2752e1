import RowStore.Sql.Token

/-! Cutting a text into tokens. White space and comments from `--` to the end of the line
separate tokens and belong to none. -/
namespace RowStore.Sql

/-- What is left of the text, and the place of its first character. Once nothing is left the
place stays that of the last character. -/
structure Scanner where
  rest : List Char
  line : Nat
  column : Nat
  deriving DecidableEq, Repr

namespace Scanner

/-- A line feed stands in column 0 of the line that it opens. -/
def arrive (rest : List Char) (line column : Nat) : Scanner :=
  match rest with
  | [] => ⟨[], line, column⟩
  | c :: _ => if c = '\n' then ⟨rest, line + 1, 0⟩ else ⟨rest, line, column + 1⟩

def start (text : String) : Scanner := arrive text.toList 1 0

def step (s : Scanner) : Scanner := arrive s.rest.tail s.line s.column

def skip : Nat → Scanner → Scanner
  | 0, s => s
  | n + 1, s => skip n s.step

end Scanner

/-- The length of the white space and comments at the front, in a comment or not. -/
def layoutLength (inComment : Bool) : List Char → Nat
  | [] => 0
  | '\n' :: cs => layoutLength false cs + 1
  | '-' :: '-' :: cs => layoutLength true cs + 2
  | c :: cs => if inComment || Text.isBlank c then layoutLength inComment cs + 1 else 0

def isLetter (c : Char) : Bool := Text.isAlphabetic c || c = '_'

def isWordPart (c : Char) : Bool := isLetter c || c.isDigit

/-- The text of a string after its opening quote, where a doubled quote stands for one, and the
length up to the closing quote, that quote included. -/
def quotedText : List Char → Option (List Char × Nat)
  | [] => none
  | '\'' :: '\'' :: cs => (quotedText cs).map fun (text, n) => ('\'' :: text, n + 2)
  | '\'' :: _ => some ([], 1)
  | c :: cs => (quotedText cs).map fun (text, n) => (c :: text, n + 1)

/-- Digits, and after them a point with digits if a digit follows the point. -/
def numberText (cs : List Char) : List Char × Option (List Char) :=
  let whole := cs.takeWhile Char.isDigit
  match cs.dropWhile Char.isDigit with
  | '.' :: d :: ds => if d.isDigit then (whole, some ((d :: ds).takeWhile Char.isDigit)) else (whole, none)
  | _ => (whole, none)

/-- A token apart from its place, and how many characters it takes. -/
structure Lexeme where
  kind : Kind
  literal : String
  length : Nat

def symbol? (c : Char) (next : Option Char) : Option (Symbol × String) :=
  match c, next with
  | ';', _ => some (.semicolon, ";")
  | ',', _ => some (.comma, ",")
  | '(', _ => some (.leftParen, "(")
  | ')', _ => some (.rightParen, ")")
  | '.', _ => some (.dot, ".")
  | '+', _ => some (.plus, "+")
  | '-', _ => some (.minus, "-")
  | '*', _ => some (.multiply, "*")
  | '/', _ => some (.divide, "/")
  | '%', _ => some (.modulo, "%")
  | '=', _ => some (.equals, "=")
  | '!', some '=' => some (.notEqual, "!=")
  | '<', some '=' => some (.lessEqual, "<=")
  | '<', some '>' => some (.notEqual, "<>")
  | '<', _ => some (.lessThan, "<")
  | '>', some '=' => some (.greaterEqual, ">=")
  | '>', _ => some (.greaterThan, ">")
  | _, _ => none

/-- Integers are those below `2 ^ 63`. -/
def integerLexeme (digits : List Char) : Lexeme :=
  let text := String.ofList digits
  let n := Nat.ofDigitChars 10 digits 0
  ⟨if n < 0x8000000000000000 then .integer (Int64.ofNat n) else .illegal text, text, digits.length⟩

def numberLexeme (cs : List Char) : Lexeme :=
  match numberText cs with
  | (whole, none) => integerLexeme whole
  | (whole, some fraction) =>
      let text := whole ++ ['.'] ++ fraction
      ⟨.float (Binary64.ofDecimal whole fraction), String.ofList text, text.length⟩

def wordLexeme (cs : List Char) : Lexeme :=
  let text := cs.takeWhile isWordPart
  let word := String.ofList text
  match Keyword.ofWord? word with
  | some k => ⟨.keyword k, word, text.length⟩
  | none => ⟨.identifier word, word, text.length⟩

/-- A string that does not end takes the rest of the text. -/
def stringLexeme (cs : List Char) : Lexeme :=
  match quotedText cs with
  | some (text, n) => ⟨.string (String.ofList text), String.ofList (['\''] ++ text ++ ['\'']), n + 1⟩
  | none => ⟨.illegal "unterminated string", "'", cs.length + 1⟩

/-- The token that begins with `c`. -/
def lexeme (c : Char) (cs : List Char) : Lexeme :=
  match symbol? c cs.head? with
  | some (sign, text) => ⟨.symbol sign, text, text.length⟩
  | none =>
      if c = '\'' then stringLexeme cs
      else if isLetter c then wordLexeme (c :: cs)
      else if c.isDigit then numberLexeme (c :: cs)
      else ⟨.illegal c.toString, c.toString, 1⟩

namespace Scanner

def next (s : Scanner) : Token × Scanner :=
  let s := s.skip (layoutLength false s.rest)
  match s.rest with
  | [] => (⟨.endOfInput, "", s.line, s.column⟩, s)
  | c :: cs =>
      let x := lexeme c cs
      (⟨x.kind, x.literal, s.line, s.column⟩, s.skip x.length)

def tokensUpTo : Nat → Scanner → List Token
  | 0, _ => []
  | fuel + 1, s =>
      let (token, s) := s.next
      if token.kind = .endOfInput then [token] else token :: tokensUpTo fuel s

/-- All tokens to the end of input, that one included. -/
def tokens (s : Scanner) : List Token := tokensUpTo (s.rest.length + 1) s

end Scanner

def tokens (text : String) : List Token := (Scanner.start text).tokens

end RowStore.Sql
