import RowStore.Catalog
import RowStore.Query.Error
import RowStore.RowKey

namespace RowStore

/-- No columns stand for all of them, in the order of the table. -/
structure Insertion where
  table : String
  columns : List String
  tuples : List (List Value)
  deriving DecidableEq, Repr

namespace Insertion

/-- The value that a column stores for a literal. A number stands for an integer of any
width that holds it or for the seconds of a date, and a text for the date that it spells. -/
def coerce (c : Column) (v : Value) : Except ExecutionError Value :=
  let mismatch := ExecutionError.typeMismatch c.name c.type v
  let outOfRange := ExecutionError.valueOutOfRange c.name c.type v
  match c.type, v with
  | .int32, .int64 n =>
      if -0x80000000 ≤ n.toInt ∧ n.toInt < 0x80000000 then .ok (.int32 n.toInt32) else .error outOfRange
  | .uint32, .int64 n =>
      if 0 ≤ n.toInt ∧ n.toInt < 0x100000000 then .ok (.uint32 n.toInt.toNat.toUInt32)
      else .error outOfRange
  | .uint64, .int64 n =>
      if 0 ≤ n.toInt then .ok (.uint64 n.toInt.toNat.toUInt64) else .error outOfRange
  | .date, .int64 n => .ok (.date ⟨n⟩)
  | .date, .fixedString s =>
      match Date.parse? s with
      | some d => .ok (.date d)
      | none => .error mismatch
  | type, v => if v.type = type then .ok v else .error mismatch

/-- The places in the schema of the declared columns, none of them twice. -/
def declaredOrdinals (table : String) (s : Schema) (seen : List Nat) :
    List String → Except QueryError (List Nat)
  | [] => .ok seen.reverse
  | name :: names =>
      match s.find? name with
      | none => .error (.catalog (.columnNotFound name))
      | some (i, _) =>
          if seen.contains i then .error (.catalog (.duplicateColumn table name))
          else declaredOrdinals table s (i :: seen) names

/-- For each column of the table, the position of its value in a tuple. -/
def positions (i : Insertion) (s : Schema) : Except QueryError (List Nat) := do
  if i.columns = [] then return List.range s.columns.length
  if i.columns.length ≠ s.columns.length then
    throw (.execution (.arityMismatch i.table s.columns.length i.columns.length))
  let ordinals ← declaredOrdinals i.table s [] i.columns
  return (List.range s.columns.length).filterMap fun ordinal => ordinals.idxOf? ordinal

/-- The first column is the primary key, and has to be an integer. -/
def keyColumn (i : Insertion) (s : Schema) : Except QueryError Column :=
  match s.columns with
  | [] => .error (.catalog (.invalidSchema (.noColumns i.table)))
  | c :: _ =>
      if c.type.isInteger then .ok c
      else .error (.execution (.invalidPrimaryKey i.table c.name c.type))

/-- What is settled before the first tuple. -/
structure Target where
  schema : Schema
  positions : List Nat
  key : Column
  deriving DecidableEq, Repr

def target (i : Insertion) (c : Catalog) : Except QueryError Target := do
  let schema ← (c.table i.table).mapError .catalog
  let positions ← i.positions schema
  return ⟨schema, positions, ← i.keyColumn schema⟩

/-- The value that a column takes from a tuple. -/
def pick (tuple : List Value) (c : Column) (position : Nat) : Except QueryError Value :=
  match tuple[position]? with
  | some v => (coerce c v).mapError .execution
  | none => .error (.execution (.arityMismatch c.name (position + 1) tuple.length))

/-- The values that the columns of the table take from a tuple. -/
def coerced (t : Target) (tuple : List Value) : Except QueryError (List Value) :=
  (t.schema.columns.zip t.positions).mapM fun (c, position) => pick tuple c position

/-- The key and the bytes of a tuple's row. -/
def entry (i : Insertion) (t : Target) (tuple : List Value) : Result (Bytes × Bytes) := do
  if tuple.length ≠ t.positions.length then
    throw (.reported (.execution (.arityMismatch i.table t.positions.length tuple.length)))
  let values ← (coerced t tuple).mapError .reported
  match values.head?.bind Value.keyText? with
  | none => throw (.reported (.execution (.invalidPrimaryKey i.table t.key.name t.key.type)))
  | some key => do
      let bytes ← (RowFormat.encode t.schema values).mapError (Failure.map .codec)
      return (RowKey.ofText i.table key, bytes)

variable {ω : Type} [Storage ω]

/-- Writes tuples until one fails, and counts those written. -/
def write (i : Insertion) (t : Target) : List (List Value) → ω → Result Unit × Nat × ω
  | [], store => (.ok (), 0, store)
  | tuple :: tuples, store =>
      match i.entry t tuple with
      | .error e => (.error e, 0, store)
      | .ok (key, bytes) =>
          match Storage.put key bytes store with
          | (.error e, store) => (.error (.reported (.storage e)), 0, store)
          | (.ok (), store) =>
              let (result, count, store) := i.write t tuples store
              (result, count + 1, store)

end Insertion
end RowStore
