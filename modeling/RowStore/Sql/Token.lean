import RowStore.Text.Binary64
import RowStore.Text.Blank
import RowStore.Text.Case
import RowStore.Text.Letters

namespace RowStore.Sql

inductive Keyword
  | SELECT | FROM | WHERE | LIMIT | INSERT | INTO | VALUES | SHOW | CREATE | TABLE | UPDATE | SET
  | DELETE | AND | OR | NOT | AS | TRUE | FALSE | NULL
  deriving DecidableEq, Repr

namespace Keyword

def spelling : Keyword → String
  | SELECT => "SELECT"
  | FROM => "FROM"
  | WHERE => "WHERE"
  | LIMIT => "LIMIT"
  | INSERT => "INSERT"
  | INTO => "INTO"
  | VALUES => "VALUES"
  | SHOW => "SHOW"
  | CREATE => "CREATE"
  | TABLE => "TABLE"
  | UPDATE => "UPDATE"
  | SET => "SET"
  | DELETE => "DELETE"
  | AND => "AND"
  | OR => "OR"
  | NOT => "NOT"
  | AS => "AS"
  | TRUE => "TRUE"
  | FALSE => "FALSE"
  | NULL => "NULL"

def all : List Keyword :=
  [SELECT, FROM, WHERE, LIMIT, INSERT, INTO, VALUES, SHOW, CREATE, TABLE, UPDATE, SET, DELETE, AND,
   OR, NOT, AS, TRUE, FALSE, NULL]

/-- A keyword is known by its upper case. -/
def ofWord? (word : String) : Option Keyword :=
  let spelled := Text.upper word
  all.find? (·.spelling = spelled)

end Keyword

inductive Symbol
  | equals | notEqual | lessThan | greaterThan | lessEqual | greaterEqual
  | plus | minus | multiply | divide | modulo
  | semicolon | comma | leftParen | rightParen | dot
  deriving DecidableEq, Repr

def Symbol.label : Symbol → String
  | .equals => "EQUALS"
  | .notEqual => "NotEqual"
  | .lessThan => "LessThan"
  | .greaterThan => "GreaterThan"
  | .lessEqual => "LessEqual"
  | .greaterEqual => "GreaterEqual"
  | .plus => "PLUS"
  | .minus => "MINUS"
  | .multiply => "MULTIPLY"
  | .divide => "DIVIDE"
  | .modulo => "MODULO"
  | .semicolon => "SEMICOLON"
  | .comma => "COMMA"
  | .leftParen => "LeftParen"
  | .rightParen => "RightParen"
  | .dot => "DOT"

inductive Kind
  | keyword (word : Keyword)
  | symbol (sign : Symbol)
  | identifier (name : String)
  | string (value : String)
  | integer (value : Int64)
  | float (value : Binary64)
  | illegal (text : String)
  | endOfInput
  deriving DecidableEq, Repr

/-- The name of a kind of token, whatever the token holds. -/
def Kind.label : Kind → String
  | .keyword word => word.spelling
  | .symbol sign => sign.label
  | .identifier _ => "IDENTIFIER"
  | .string _ => "STRING"
  | .integer _ => "INTEGER"
  | .float _ => "FLOAT"
  | .illegal _ => "ILLEGAL"
  | .endOfInput => "EOF"

structure Token where
  kind : Kind
  literal : String
  line : Nat
  column : Nat
  deriving DecidableEq, Repr

def Token.describe (t : Token) : String :=
  if t.kind = .endOfInput then "end of input" else s!"'{t.literal}' at {t.line}:{t.column}"

end RowStore.Sql
