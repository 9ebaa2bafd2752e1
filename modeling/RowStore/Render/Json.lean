import RowStore.Json.Basic
import RowStore.OrderedMap
import RowStore.Row

namespace RowStore

/-- Integers become numbers, all else strings. -/
def Value.json : Value → Json
  | .fixedString s => .ofString s
  | .date d => .ofString d.render
  | .int32 v => .ofInt v.toInt
  | .int64 v => .ofInt v.toInt
  | .uint32 v => .ofInt v.toNat
  | .uint64 v => .ofInt v.toNat

/-- The members of a row in the order of the column names. Of columns with the same name
only the last is there. -/
def Row.members (r : Row) : OrderedMap String Value := .ofList r.fields

def Row.json (r : Row) : Json :=
  .object (r.members.entries.map fun (name, v) => (Json.escaped name, v.json))

def rowsJson (rows : List Row) : Json := .array (rows.map Row.json)

end RowStore
