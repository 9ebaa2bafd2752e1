import RowStore.Column

namespace RowStore

/-- Made-up schemas may repeat a column name; those of tables are valid. -/
structure Schema where
  table : String
  columns : List Column
  deriving DecidableEq, Repr

namespace Schema

/-- The text that declares the columns, one to a line. -/
def text (s : Schema) : String := String.join (s.columns.map fun c => c.text ++ "\n")

/-- The first column of a name, with its place. -/
def find? (s : Schema) (name : String) : Option (Nat × Column) :=
  (s.columns.findIdx? (·.name = name)).bind fun i => s.columns[i]?.map fun c => (i, c)

def widths? (s : Schema) : Option (List UInt64) := s.columns.mapM Column.width?

/-- The width of a stored row, counted in a 64-bit word. -/
def rowWidth? (s : Schema) : Option UInt64 := s.widths?.map fun ws => ws.foldl (· + ·) 0

/-- What is wrong with the columns after those already seen. -/
def columnFault? (table : String) (seen : List String) : List Column → Option CatalogError
  | [] => none
  | c :: cs =>
      if c.name.toList.contains '.' then some (.invalidSchema (.dotInColumnName c.name))
      else if seen.contains c.name then some (.duplicateColumn table c.name)
      else if c.type = .fixedString ∧ c.length = none then
        some (.invalidSchema (.lengthUndeclared c.name))
      else columnFault? table (c.name :: seen) cs

/-- Ends the table's name within a row key, and so has no place in one. -/
def keySeparator : Char := ':'

/-- What keeps the schema from being a table's. -/
def fault? (s : Schema) : Option CatalogError :=
  if s.table = "" then some (.invalidSchema .emptyTableName)
  else if s.table.toList.contains keySeparator then
    some (.invalidSchema (.separatorInTableName s.table))
  else if s.columns = [] then some (.invalidSchema (.noColumns s.table))
  else columnFault? s.table [] s.columns

def validate (s : Schema) : Except CatalogError Unit :=
  match s.fault? with
  | some e => .error e
  | none => .ok ()

/-- Whether a line of a schema text declares nothing. -/
def isIdle (line : List Char) : Bool :=
  match line with
  | [] => true
  | c :: _ => c = '#'

def declarations (text : String) : List (List Char) :=
  ((Text.lines text.toList).map Text.trim).filter (! isIdle ·)

def parse (table text : String) : Except CatalogError Schema := do
  let columns ← (declarations text).mapM Column.ofLine
  let s : Schema := ⟨table, columns⟩
  s.validate
  return s

end Schema
end RowStore
