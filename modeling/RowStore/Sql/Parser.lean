import RowStore.Sql.Scanner
import RowStore.Sql.Statement

namespace RowStore.Sql

/-- What a rule may insist on. -/
inductive Expected
  | keyword (word : Keyword)
  | symbol (sign : Symbol)
  | integer
  deriving DecidableEq, Repr

namespace Expected

def label : Expected → String
  | keyword word => word.spelling
  | symbol sign => sign.label
  | integer => "INTEGER(0)"

def accepts : Expected → Kind → Bool
  | keyword word, .keyword word' => word = word'
  | symbol sign, .symbol sign' => sign = sign'
  | integer, .integer _ => true
  | _, _ => false

end Expected

inductive ParseError
  | unexpectedToken (found : Token)
  | expectedToken (wanted : Expected) (found : Token)
  | illegalToken (found : Token)
  | endOfInput
  deriving DecidableEq, Repr

namespace ParseError

def message : ParseError → String
  | unexpectedToken found => "Unexpected token " ++ found.describe
  | expectedToken wanted found => "Expected " ++ wanted.label ++ ", found " ++ found.describe
  | illegalToken found => "Illegal input " ++ found.describe
  | endOfInput => "Unexpected end of input"

/-- The error for a token that no rule has a place for. -/
def ofToken (found : Token) : ParseError :=
  match found.kind with
  | .endOfInput => endOfInput
  | .illegal _ => illegalToken found
  | _ => unexpectedToken found

end ParseError

/-- A token that a rule insisted on in vain is used up, and then there is no current one. -/
structure Parser where
  current : Option Token
  rest : List Token
  deriving DecidableEq, Repr

abbrev Parse := EStateM ParseError Parser

namespace Parser

def ofTokens (ts : List Token) : Parser := ⟨ts.head?, ts.tail⟩

def ofText (text : String) : Parser := ofTokens (tokens text)

def kind? (p : Parser) : Option Kind := p.current.map Token.kind

/-- Enough for any expression made of the tokens that remain. -/
def depth (p : Parser) : Nat := 3 * p.rest.length + 6

end Parser

namespace Parse

def advance : Parse Unit := modify fun p => ⟨p.rest.head?, p.rest.tail⟩

def discard : Parse Unit := modify fun p => ⟨none, p.rest⟩

def kind? : Parse (Option Kind) := return (← get).kind?

def nextKind? : Parse (Option Kind) := return (← get).rest.head?.map Token.kind

def at? (k : Kind) : Parse Bool := return (← kind?) == some k

def unexpected {α : Type} : Parse α := do
  match (← get).current with
  | some token => throw (.ofToken token)
  | none => throw .endOfInput

def refused {α : Type} (wanted : Expected) (found : Token) : Parse α :=
  match found.kind with
  | .illegal _ => throw (.illegalToken found)
  | _ => throw (.expectedToken wanted found)

def expect (wanted : Expected) : Parse Unit := do
  match (← get).current with
  | none => throw .endOfInput
  | some token => if wanted.accepts token.kind then advance else do discard; refused wanted token

def keyword (word : Keyword) : Parse Unit := expect (.keyword word)

def symbol (sign : Symbol) : Parse Unit := expect (.symbol sign)

/-- Takes the token if it is there, and says whether it was. -/
def accept (k : Kind) : Parse Bool := do
  if ← at? k then do advance; return true else return false

def integer : Parse Int64 := do
  match ← kind? with
  | some (.integer v) => do advance; return v
  | _ => do expect .integer; throw .endOfInput

def identifier : Parse String := do
  match (← get).current with
  | none => throw .endOfInput
  | some token =>
      match token.kind with
      | .identifier name => do advance; return name
      | _ => do discard; throw (.ofToken token)

/-- One item or more, with commas between. -/
def commaSeparated {α : Type} (item : Parse α) : Nat → Parse (List α)
  | 0 => throw .endOfInput
  | count + 1 => do
      let x ← item
      if ← accept (.symbol .comma) then return x :: (← commaSeparated item count)
      else return [x]

/-- No more items than tokens remain. -/
def list {α : Type} (item : Parse α) : Parse (List α) := do
  commaSeparated item ((← get).rest.length + 1)

def binaryOperator? : Kind → Option BinaryOperator
  | .symbol .equals => some (.compare .equal)
  | .symbol .notEqual => some (.compare .notEqual)
  | .symbol .lessThan => some (.compare .less)
  | .symbol .greaterThan => some (.compare .greater)
  | .symbol .lessEqual => some (.compare .lessEqual)
  | .symbol .greaterEqual => some (.compare .greaterEqual)
  | .symbol .plus => some .plus
  | .symbol .minus => some .minus
  | .symbol .multiply => some .times
  | .symbol .divide => some .divide
  | .symbol .modulo => some .modulo
  | .keyword .AND => some .and
  | .keyword .OR => some .or
  | _ => none

def literal? : Kind → Option Literal
  | .integer v => some (.integer v)
  | .float v => some (.float v)
  | .string s => some (.string s)
  | .keyword .TRUE => some (.boolean true)
  | .keyword .FALSE => some (.boolean false)
  | .keyword .NULL => some .null
  | _ => none

def unaryOperator? : Kind → Option UnaryOperator
  | .symbol .minus => some .minus
  | .keyword .NOT => some .not
  | _ => none

def columnName : Parse ColumnName := do
  let name ← identifier
  if ← accept (.symbol .dot) then return ⟨some name, ← identifier⟩
  else return ⟨none, name⟩

/-- An argument may be a bare star. -/
def argument (expression : Parse Expression) : Parse Expression := do
  if ← accept (.symbol .multiply) then return .column ⟨none, "*"⟩ else expression

def call (expression : Parse Expression) : Parse Expression := do
  let function ← identifier
  symbol .leftParen
  let arguments ←
    if ← at? (.symbol .rightParen) then pure [] else list (argument expression)
  symbol .rightParen
  return .call function arguments

mutual

/-- An operand, then operators that bind more tightly than `precedence`. -/
def expressionUpTo : Nat → Nat → Parse Expression
  | 0, _ => throw .endOfInput
  | depth + 1, precedence => do
      let left ← operandUpTo depth
      operatorsUpTo depth precedence left

def operatorsUpTo : Nat → Nat → Expression → Parse Expression
  | 0, _, _ => throw .endOfInput
  | depth + 1, precedence, left => do
      match (← kind?).bind binaryOperator? with
      | none => return left
      | some op =>
          if precedence < op.precedence then do
            advance
            let right ← expressionUpTo depth op.precedence
            operatorsUpTo depth precedence (.binary op left right)
          else return left

def operandUpTo : Nat → Parse Expression
  | 0 => throw .endOfInput
  | depth + 1 => do
      match ← kind? with
      | none => throw .endOfInput
      | some kind =>
          match literal? kind, unaryOperator? kind, kind with
          | some v, _, _ => do advance; return .literal v
          | none, some op, _ => do
              advance
              return .unary op (← expressionUpTo depth op.precedence)
          | none, none, .identifier _ =>
              if (← nextKind?) == some (.symbol .leftParen) then call (expressionUpTo depth 0)
              else return .column (← columnName)
          | none, none, .symbol .leftParen => do
              advance
              let e ← expressionUpTo depth 0
              symbol .rightParen
              return e
          | none, none, _ => unexpected

end

def expression (precedence : Nat) : Parse Expression := do
  expressionUpTo (← get).depth precedence

def asName? : Parse (Option String) := do
  if ← accept (.keyword .AS) then return some (← identifier)
  match ← kind? with
  | some (.identifier _) => return some (← identifier)
  | _ => return none

def selectItem : Parse SelectItem := do
  if ← accept (.symbol .multiply) then return .everything
  let e ← expression 0
  let asName ← asName?
  match e with
  | .column c => return .column c asName
  | e => return .expression e asName

def tableName : Parse TableName := do
  let name ← identifier
  return ⟨name, ← asName?⟩

def clause? (word : Keyword) : Parse (Option Expression) := do
  if ← accept (.keyword word) then return some (← expression 0) else return none

def select : Parse Select := do
  keyword .SELECT
  let items ← list selectItem
  keyword .FROM
  let tables ← list tableName
  let condition ← clause? .WHERE
  return ⟨items, tables, condition, ← clause? .LIMIT⟩

def tuple : Parse (List Expression) := do
  symbol .leftParen
  let es ← if ← at? (.symbol .rightParen) then pure [] else list (expression 0)
  symbol .rightParen
  return es

def columnList : Parse (List String) := do
  if ← accept (.symbol .leftParen) then do
    let names ← list identifier
    symbol .rightParen
    return names
  else return []

def insert : Parse Insert := do
  keyword .INSERT
  keyword .INTO
  let table ← identifier
  let columns ← columnList
  keyword .VALUES
  return ⟨table, columns, ← list tuple⟩

def showTarget : Parse String := do
  keyword .SHOW
  return Text.lower (← identifier)

def length? : Parse (Option Int64) := do
  if ← accept (.symbol .leftParen) then do
    let n ← integer
    symbol .rightParen
    return some n
  else return none

def columnDefinition : Parse ColumnDefinition := do
  let name ← identifier
  let type ← identifier
  return ⟨name, type, ← length?⟩

def create : Parse Create := do
  keyword .CREATE
  keyword .TABLE
  let table ← identifier
  symbol .leftParen
  let columns ← list columnDefinition
  symbol .rightParen
  return ⟨table, columns⟩

def assignment : Parse Assignment := do
  let column ← identifier
  symbol .equals
  return ⟨column, ← expression 0⟩

def update : Parse Update := do
  keyword .UPDATE
  let table ← identifier
  keyword .SET
  let assignments ← list assignment
  return ⟨table, assignments, ← clause? .WHERE⟩

def delete : Parse Delete := do
  keyword .DELETE
  keyword .FROM
  let table ← identifier
  return ⟨table, ← clause? .WHERE⟩

def body : Parse Statement := do
  match ← kind? with
  | some (.keyword .SELECT) => return .select (← select)
  | some (.keyword .INSERT) => return .insert (← insert)
  | some (.keyword .SHOW) => return .show (← showTarget)
  | some (.keyword .CREATE) => return .create (← create)
  | some (.keyword .UPDATE) => return .update (← update)
  | some (.keyword .DELETE) => return .delete (← delete)
  | _ => unexpected

/-- A statement, perhaps with a semicolon, and nothing after it. -/
def statement : Parse Statement := do
  let s ← body
  let _ ← accept (.symbol .semicolon)
  if ← at? .endOfInput then return s else unexpected

/-- The result of a rule, and the parser after it. -/
def run {α : Type} (rule : Parse α) (p : Parser) : Except ParseError α × Parser :=
  match EStateM.run rule p with
  | .ok x p => (.ok x, p)
  | .error e p => (.error e, p)

end Parse

def parse (text : String) : Except ParseError Statement :=
  (Parse.statement.run (Parser.ofText text)).1

end RowStore.Sql
