import RowStore.OrderedMap
import RowStore.Schema

namespace RowStore

structure Catalog where
  tables : OrderedMap String Schema
  deriving DecidableEq

namespace Catalog

def empty : Catalog := ⟨.empty⟩

def add (c : Catalog) (s : Schema) : Except CatalogError Catalog := do
  s.validate
  if c.tables.contains s.table then throw (.duplicateTable s.table)
  return ⟨c.tables.insert s.table s⟩

def ofSchemas (schemas : List Schema) : Except CatalogError Catalog := schemas.foldlM add empty

def table (c : Catalog) (name : String) : Except CatalogError Schema :=
  match c.tables.get? name with
  | some s => .ok s
  | none => .error (.unknownTable name)

def contains (c : Catalog) (name : String) : Bool := c.tables.contains name

/-- In ascending order. -/
def names (c : Catalog) : List String := c.tables.keys

def size (c : Catalog) : Nat := c.tables.size

def isEmpty (c : Catalog) : Bool := c.tables.isEmpty

end Catalog
end RowStore
