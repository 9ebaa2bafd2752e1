import RowStore.Schema

namespace RowStore

/-- There may be fewer or more values than columns. -/
structure Row where
  schema : Schema
  values : List Value
  deriving DecidableEq, Repr

namespace Row

/-- The value of the first column of a name. -/
def get? (r : Row) (name : String) : Option Value :=
  (r.schema.find? name).bind fun (i, _) => r.values[i]?

def names (r : Row) : List String := r.schema.columns.map Column.name

/-- Each value with the name of its column. -/
def fields (r : Row) : List (String × Value) := r.names.zip r.values

def render (r : Row) : String :=
  "\x7b" ++ ", ".intercalate (r.fields.map fun (name, v) => s!"{name}: {v.render}") ++ "\x7d"

end Row
end RowStore
