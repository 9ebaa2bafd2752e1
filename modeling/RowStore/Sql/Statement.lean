import RowStore.Text.Binary64
import RowStore.Text.Case
import RowStore.Value

namespace RowStore.Sql

inductive Literal
  | null
  | integer (v : Int64)
  | float (v : Binary64)
  | string (s : String)
  | boolean (b : Bool)
  deriving DecidableEq, Repr

inductive BinaryOperator
  | compare (c : Comparison)
  | and
  | or
  | plus
  | minus
  | times
  | divide
  | modulo
  deriving DecidableEq, Repr

namespace BinaryOperator

def symbol : BinaryOperator → String
  | compare c => c.symbol
  | and => "AND"
  | or => "OR"
  | plus => "+"
  | minus => "-"
  | times => "*"
  | divide => "/"
  | modulo => "%"

/-- How tightly an operator binds its operands. -/
def precedence : BinaryOperator → Nat
  | or => 1
  | and => 2
  | compare _ => 4
  | plus | minus => 5
  | times | divide | modulo => 6

end BinaryOperator

inductive UnaryOperator
  | minus
  | not
  deriving DecidableEq, Repr

namespace UnaryOperator

def symbol : UnaryOperator → String
  | minus => "-"
  | not => "NOT"

/-- NOT binds less tightly than a comparison, a sign more tightly than a product. -/
def precedence : UnaryOperator → Nat
  | not => 3
  | minus => 7

end UnaryOperator

structure ColumnName where
  table : Option String
  name : String
  deriving DecidableEq, Repr

def ColumnName.text (c : ColumnName) : String :=
  match c.table with
  | some table => table ++ "." ++ c.name
  | none => c.name

inductive Expression
  | literal (v : Literal)
  | column (c : ColumnName)
  | binary (op : BinaryOperator) (left right : Expression)
  | unary (op : UnaryOperator) (operand : Expression)
  | call (function : String) (arguments : List Expression)
  deriving Repr

inductive SelectItem
  | everything
  | column (c : ColumnName) (asName : Option String)
  | expression (e : Expression) (asName : Option String)
  deriving Repr

structure TableName where
  name : String
  asName : Option String
  deriving DecidableEq, Repr

structure Select where
  items : List SelectItem
  tables : List TableName
  condition : Option Expression
  limit : Option Expression
  deriving Repr

/-- No columns stand for all of them, in their order in the table. -/
structure Insert where
  table : String
  columns : List String
  tuples : List (List Expression)
  deriving Repr

structure ColumnDefinition where
  name : String
  type : String
  length : Option Int64
  deriving DecidableEq, Repr

structure Create where
  table : String
  columns : List ColumnDefinition
  deriving DecidableEq, Repr

structure Assignment where
  column : String
  value : Expression
  deriving Repr

structure Update where
  table : String
  assignments : List Assignment
  condition : Option Expression
  deriving Repr

structure Delete where
  table : String
  condition : Option Expression
  deriving Repr

inductive Statement
  | select (s : Select)
  | insert (s : Insert)
  /-- The target is in lower case. -/
  | show (target : String)
  | create (s : Create)
  | update (s : Update)
  | delete (s : Delete)
  deriving Repr

def Statement.title : Statement → String
  | .select _ => "SELECT statement"
  | .insert _ => "INSERT statement"
  | .show target => "SHOW " ++ Text.upper target ++ " statement"
  | .create _ => "CREATE statement"
  | .update _ => "UPDATE statement"
  | .delete _ => "DELETE statement"

end RowStore.Sql
