import RowStore.Text.Blank
import RowStore.Text.Decimal
import RowStore.Value

namespace RowStore

/-- What makes a layout unfit for a table. -/
inductive SchemaFault
  | unknownType (name : String)
  | lengthMissing (column : String)
  | lengthUnwanted (type column : String)
  | lengthUnreadable (length column : String) (error : Text.NumberError)
  | malformedLine (line : String)
  | emptyTableName
  | separatorInTableName (table : String)
  | noColumns (table : String)
  | dotInColumnName (column : String)
  | lengthUndeclared (column : String)
  deriving DecidableEq, Repr

def SchemaFault.message : SchemaFault → String
  | .unknownType name => "Unknown column type: " ++ name
  | .lengthMissing column => s!"FixedString column {column} needs a length"
  | .lengthUnwanted type column =>
      s!"Only FixedString columns take a length, found one on {type} {column}"
  | .lengthUnreadable length column error =>
      s!"Invalid length '{length}' for {column}: {error.message}"
  | .malformedLine line => s!"Malformed column line: '{line}'"
  | .emptyTableName => "Table name is empty"
  | .separatorInTableName table => s!"Table name {table} contains the key separator"
  | .noColumns table => s!"Table {table} has no columns"
  | .dotInColumnName column => s!"Column name {column} may not contain '.'"
  | .lengthUndeclared column => s!"FixedString column {column} has no length"

inductive CatalogError
  | unknownTable (name : String)
  | columnNotFound (name : String)
  | duplicateTable (name : String)
  | duplicateColumn (table column : String)
  | invalidSchema (fault : SchemaFault)
  | io (reason : String)
  deriving DecidableEq, Repr

def CatalogError.message : CatalogError → String
  | .unknownTable name => "Unknown table: " ++ name
  | .columnNotFound name => "Column not found: " ++ name
  | .duplicateTable name => "Table already exists: " ++ name
  | .duplicateColumn table column => s!"Duplicate column {column} in table {table}"
  | .invalidSchema fault => "Invalid schema: " ++ fault.message
  | .io reason => "IO error: " ++ reason

/-- The length counts bytes and matters for a FixedString only. -/
structure Column where
  name : String
  type : ColumnType
  length : Option UInt64
  deriving DecidableEq, Repr

namespace Column

def plain (type : ColumnType) (name : String) : Column := ⟨name, type, none⟩

def fixedString (name : String) (length : UInt64) : Column := ⟨name, .fixedString, some length⟩

/-- The bytes that the column takes in a stored row. -/
def width? (c : Column) : Option UInt64 :=
  match c.type with
  | .fixedString => c.length
  | type => type.width?

def renamed (c : Column) (name : String) : Column := { c with name }

def text (c : Column) : String :=
  match c.type, c.length with
  | .fixedString, some length => s!"{c.type.name} {c.name} {length.toNat}"
  | _, _ => s!"{c.type.name} {c.name}"

def typeNamed (name : String) : Except CatalogError ColumnType :=
  match ColumnType.ofName? name with
  | some type => .ok type
  | none => .error (.invalidSchema (.unknownType name))

/-- A type and a name, and for a FixedString its length. -/
def ofLine (line : List Char) : Except CatalogError Column :=
  match Text.words line with
  | [type, name] => do
      let name := String.ofList name
      let type ← typeNamed (String.ofList type)
      if type = .fixedString then throw (.invalidSchema (.lengthMissing name))
      return plain type name
  | [typeName, name, length] => do
      let name := String.ofList name
      let type ← typeNamed (String.ofList typeName)
      if type ≠ .fixedString then
        throw (.invalidSchema (.lengthUnwanted (String.ofList typeName) name))
      match Text.word length with
      | .ok length => return fixedString name length
      | .error e => throw (.invalidSchema (.lengthUnreadable (String.ofList length) name e))
  | _ => .error (.invalidSchema (.malformedLine (String.ofList line)))

end Column
end RowStore
