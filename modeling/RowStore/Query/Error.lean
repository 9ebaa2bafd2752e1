import RowStore.RowFormat
import RowStore.Sql.Parser
import RowStore.Storage.Entries

namespace RowStore

inductive CompileError
  | unsupportedStatement (what : String)
  | unsupportedLiteral (what : String)
  | unsupportedExpression (what : String)
  | invalidLimit (what : String)
  deriving DecidableEq, Repr

def CompileError.message : CompileError → String
  | .unsupportedStatement what => "Unsupported statement: " ++ what
  | .unsupportedLiteral what => "Unsupported literal: " ++ what
  | .unsupportedExpression what => "Unsupported expression: " ++ what
  | .invalidLimit what => "Invalid LIMIT: " ++ what

inductive ExecutionError
  | notOpen (operator : String)
  | typeMismatch (column : String) (expected : ColumnType) (value : Value)
  | valueOutOfRange (column : String) (type : ColumnType) (value : Value)
  | arityMismatch (table : String) (expected actual : Nat)
  | invalidPrimaryKey (table column : String) (type : ColumnType)
  | notScalar
  deriving DecidableEq, Repr

def ExecutionError.message : ExecutionError → String
  | .notOpen operator => s!"Operator {operator} used before open"
  | .typeMismatch column expected value =>
      s!"Cannot store {value.render} in column {column} of type {expected.name}"
  | .valueOutOfRange column type value =>
      s!"Value {value.render} is out of range for column {column} of type {type.name}"
  | .arityMismatch table expected actual => s!"Table {table} expects {expected} values, got {actual}"
  | .invalidPrimaryKey table column type =>
      s!"Column {column} of {table} has type {type.name} and cannot be a primary key"
  | .notScalar => "A comparison cannot be used as a value"

inductive QueryError
  | parse (e : Sql.ParseError)
  | compile (e : CompileError)
  | catalog (e : CatalogError)
  | codec (e : CodecError)
  | storage (e : StorageError)
  | execution (e : ExecutionError)
  deriving DecidableEq, Repr

namespace QueryError

def message : QueryError → String
  | parse e => "Parse error: " ++ e.message
  | compile e => "Compile error: " ++ e.message
  | catalog e => "Catalog error: " ++ e.message
  | codec e => "Codec error: " ++ e.message
  | storage e => "Storage error: " ++ e.message
  | execution e => "Execution error: " ++ e.message

/-- The causes below an error, the nearest first. -/
def causes : QueryError → List String
  | parse e => [e.message]
  | compile e => [e.message]
  | catalog (.io reason) => [(CatalogError.io reason).message, reason]
  | catalog e => [e.message]
  | codec e => [e.message]
  | storage (.io reason) => [(StorageError.io reason).message, reason]
  | storage e => [e.message]
  | execution e => [e.message]

end QueryError

/-- What comes of a query, or of a step of one. -/
abbrev Result (α : Type) := Except (Failure QueryError) α

end RowStore
