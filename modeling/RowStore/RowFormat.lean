import RowStore.Failure
import RowStore.Row
import RowStore.Varint

/-! The bytes of a stored row: the fields of its columns one after another, each as wide as
its column. Integers and dates are varints followed by zeros. -/
namespace RowStore

inductive CodecError
  | truncated (expected actual : Nat)
  | valueCount (table : String) (expected actual : Nat)
  | textLength (column : String) (expected actual : Nat)
  | fieldOverflow (column : String) (width : Nat)
  | malformedVarint (column : String)
  | typeMismatch (column : String) (expected actual : ColumnType)
  | invalidUtf8 (column : String)
  | lengthUndeclared (column : String)
  deriving DecidableEq, Repr

def CodecError.message : CodecError → String
  | .truncated expected actual => s!"Buffer holds {actual} bytes but the row needs {expected}"
  | .valueCount table expected actual =>
      s!"Length mismatch for row of {table}: expected {expected}, found {actual}"
  | .textLength column expected actual =>
      s!"Length mismatch for column {column}: expected {expected}, found {actual}"
  | .fieldOverflow column width => s!"Value of column {column} does not fit in {width} bytes"
  | .malformedVarint column => s!"Malformed varint in column {column}"
  | .typeMismatch column expected actual =>
      s!"Column {column} has type {expected.name} but the value is {actual.name}"
  | .invalidUtf8 column => s!"Column {column} does not hold valid UTF-8"
  | .lengthUndeclared column => s!"FixedString column {column} has no declared length"

namespace RowFormat

/-- A column with its place among the bytes of a row. -/
structure Field where
  column : Column
  offset : Nat
  width : Nat
  deriving DecidableEq, Repr

def width (c : Column) : Except CodecError UInt64 :=
  match c.width? with
  | some w => .ok w
  | none => .error (.lengthUndeclared c.name)

def placed (offset : Nat) : List (Column × UInt64) → List Field
  | [] => []
  | (c, w) :: cs => ⟨c, offset, w.toNat⟩ :: placed (offset + w.toNat) cs

/-- The fields of a row, and its width as a 64-bit word. -/
def layout (s : Schema) : Except CodecError (List Field × Nat) := do
  let widths ← s.columns.mapM width
  return (placed 0 (s.columns.zip widths), (widths.foldl (· + ·) 0).toNat)

/-- A field is looked for among the bytes at hand. -/
def Field.check (f : Field) (size : Nat) : Except (Failure CodecError) Unit :=
  if size < f.offset + f.width then .error (.panic .outOfBounds) else .ok ()

def packed (f : Field) (v : UInt64) : Except CodecError Bytes :=
  match Varint.put (List.replicate f.width 0) v with
  | (bs, some _) => .ok bs
  | (_, none) => .error (.fieldOverflow f.column.name f.width)

def encodeField (f : Field) (v : Value) : Except CodecError Bytes :=
  match f.column.type, v with
  | .int32, .int32 n => packed f (Varint.zigzag n.toInt64)
  | .int64, .int64 n => packed f (Varint.zigzag n)
  | .uint32, .uint32 n => packed f n.toUInt64
  | .uint64, .uint64 n => packed f n
  | .date, .date d => packed f (Varint.zigzag d.seconds)
  | .fixedString, .fixedString s =>
      let bs := Text.utf8 s
      if bs.length = f.width then .ok bs
      else .error (.textLength f.column.name f.width bs.length)
  | expected, v => .error (.typeMismatch f.column.name expected v.type)

/-- The most bytes that one allocation has, and so the most that a slice can have. -/
def maxAllocation : Nat := 0x7fffffffffffffff

/-- A row has as many values as columns; then the first field at fault is the one reported. The
bytes of the row are allocated before any field is written. -/
def encode (s : Schema) (values : List Value) : Except (Failure CodecError) Bytes := do
  if values.length ≠ s.columns.length then
    throw (.reported (.valueCount s.table s.columns.length values.length))
  let (fields, size) ← (layout s).mapError .reported
  if maxAllocation < size then throw (.panic .capacityOverflow)
  let parts ← (fields.zip values).mapM fun (f, v) => do
    f.check size
    (encodeField f v).mapError .reported
  return parts.flatten

def signed (f : Field) (bs : Bytes) : Except CodecError Int64 :=
  match Varint.readSigned bs with
  | some (v, _) => .ok v
  | none => .error (.malformedVarint f.column.name)

def unsigned (f : Field) (bs : Bytes) : Except CodecError UInt64 :=
  match Varint.read bs with
  | some (v, _) => .ok v
  | none => .error (.malformedVarint f.column.name)

def decodeField (f : Field) (bs : Bytes) : Except CodecError Value :=
  match f.column.type with
  | .int32 => do
      let v ← signed f bs
      if -0x80000000 ≤ v.toInt ∧ v.toInt < 0x80000000 then return .int32 v.toInt32
      else throw (.malformedVarint f.column.name)
  | .int64 => return .int64 (← signed f bs)
  | .uint32 => do
      let v ← unsigned f bs
      if v.toNat < 0x100000000 then return .uint32 v.toUInt32
      else throw (.malformedVarint f.column.name)
  | .uint64 => return .uint64 (← unsigned f bs)
  | .date => return .date ⟨← signed f bs⟩
  | .fixedString =>
      match Text.ofUtf8? bs with
      | some s => .ok (.fixedString s)
      | none => .error (.invalidUtf8 f.column.name)

/-- Bytes past the width of the row are not looked at. -/
def decode (s : Schema) (bs : Bytes) : Except (Failure CodecError) Row := do
  let (fields, size) ← (layout s).mapError .reported
  if bs.length < size then throw (.reported (.truncated size bs.length))
  let values ← fields.mapM fun f => do
    f.check bs.length
    (decodeField f ((bs.drop f.offset).take f.width)).mapError .reported
  return ⟨s, values⟩

end RowFormat
end RowStore
