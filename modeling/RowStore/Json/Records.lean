import RowStore.Config
import RowStore.Json.Read
import RowStore.Schema

/-! The JSON forms of values, columns, schemas and settings. A record is an object of its
fields, and is also read from an array of them in their order. -/
namespace RowStore

namespace ColumnType

def toJson (t : ColumnType) : Json := .ofString t.name

/-- A name, or an object whose one member has that name and is null. -/
def ofJson? : Json → Option ColumnType
  | .string body => (Json.textOf? body).bind ofName?
  | .object [(key, .null)] => (Json.textOf? key).bind ofName?
  | _ => none

end ColumnType

namespace Value

/-- One member, the type. -/
def toJson (v : Value) : Json :=
  let content := match v with
    | int32 v => .ofInt v.toInt
    | int64 v => .ofInt v.toInt
    | uint32 v => .ofInt v.toNat
    | uint64 v => .ofInt v.toNat
    | fixedString s => .ofString s
    | date d => .ofInt d.seconds.toInt
  .object [(v.type.name, content)]

def ofContent? (t : ColumnType) (j : Json) : Option Value :=
  match t with
  | .int32 => (j.intWithin? (-0x80000000) 0x80000000).map fun n => .int32 (Int32.ofInt n)
  | .int64 => (j.intWithin? (-0x8000000000000000) 0x8000000000000000).map fun n => .int64 (Int64.ofInt n)
  | .uint32 => (j.intWithin? 0 0x100000000).map fun n => .uint32 (UInt32.ofNat n.toNat)
  | .uint64 => (j.intWithin? 0 0x10000000000000000).map fun n => .uint64 (UInt64.ofNat n.toNat)
  | .fixedString => j.string?.map .fixedString
  | .date => (j.intWithin? (-0x8000000000000000) 0x8000000000000000).map fun n => .date ⟨Int64.ofInt n⟩

def ofJson? : Json → Option Value
  | .object [(key, content)] => do
      ofContent? (← (Json.textOf? key).bind ColumnType.ofName?) content
  | _ => none

end Value

namespace Column

def toJson (c : Column) : Json :=
  .object [("name", .ofString c.name), ("column_type", c.type.toJson),
    ("fixed_length", .ofOption (fun n => .ofInt n.toNat) c.length)]

def length? (j : Json) : Option UInt64 :=
  (j.intWithin? 0 0x10000000000000000).map fun n => UInt64.ofNat n.toNat

def ofFields? (name type length : Json) : Option Column := do
  return ⟨← name.string?, ← ColumnType.ofJson? type, ← length.optional? length?⟩

def ofJson? : Json → Option Column
  | .object members => do
      let [some name, some type, length] ←
        Json.select? ["name", "column_type", "fixed_length"] members | none
      ofFields? name type (length.getD .null)
  | .array [name, type, length] => ofFields? name type length
  | _ => none

end Column

namespace Schema

def toJson (s : Schema) : Json :=
  .object [("table_name", .ofString s.table), ("columns", .array (s.columns.map Column.toJson))]

def ofFields? (table columns : Json) : Option Schema := do
  return ⟨← table.string?, ← (← columns.list?).mapM Column.ofJson?⟩

def ofJson? : Json → Option Schema
  | .object members => do
      let [some table, some columns] ← Json.select? ["table_name", "columns"] members | none
      ofFields? table columns
  | .array [table, columns] => ofFields? table columns
  | _ => none

end Schema

namespace LogOptions

def toJson (o : LogOptions) : Json := .object [("sync_writes", .bool o.syncWrites)]

def ofJson? : Json → Option LogOptions
  | .object members => do
      let [some sync] ← Json.select? ["sync_writes"] members | none
      return ⟨← sync.bool?⟩
  | .array [sync] => sync.bool?.map fun b => ⟨b⟩
  | _ => none

end LogOptions

namespace Config

def toJson (c : Config) : Json :=
  .object [("data_path", .ofOption .ofString c.dataPath),
    ("schema_dir", .ofOption .ofString c.schemaDirectory), ("sync_writes", .bool c.syncWrites)]

/-- A missing field is unset, and writes are synced unless it is said otherwise. -/
def ofFields? (data schemas sync : Option Json) : Option Config := do
  return ⟨← (data.getD .null).optional? Json.string?, ← (schemas.getD .null).optional? Json.string?,
    ← (sync.getD (.bool true)).bool?⟩

def ofJson? : Json → Option Config
  | .object members => do
      let [data, schemas, sync] ← Json.select? ["data_path", "schema_dir", "sync_writes"] members | none
      ofFields? data schemas sync
  | .array items => if items.length ≤ 3 then ofFields? items[0]? items[1]? items[2]? else none
  | _ => none

end Config
end RowStore
