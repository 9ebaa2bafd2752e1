import RowStore.Date
import RowStore.Text.Utf8

namespace RowStore

inductive ColumnType
  | int32
  | int64
  | uint32
  | uint64
  | fixedString
  | date
  deriving DecidableEq, Repr

namespace ColumnType

def name : ColumnType → String
  | int32 => "Int32"
  | int64 => "Int64"
  | uint32 => "UInt32"
  | uint64 => "UInt64"
  | fixedString => "FixedString"
  | date => "Date"

def all : List ColumnType := [int32, int64, uint32, uint64, fixedString, date]

def ofName? (name : String) : Option ColumnType := all.find? (·.name = name)

/-- The width of a field in bytes, where the type fixes it. -/
def width? : ColumnType → Option UInt64
  | int32 | uint32 => some 4
  | int64 | uint64 | date => some 8
  | fixedString => none

def isInteger : ColumnType → Bool
  | int32 | int64 | uint32 | uint64 => true
  | fixedString | date => false

end ColumnType

inductive Value
  | int32 (v : Int32)
  | int64 (v : Int64)
  | uint32 (v : UInt32)
  | uint64 (v : UInt64)
  | fixedString (s : String)
  | date (d : Date)
  deriving DecidableEq, Repr

namespace Value

def type : Value → ColumnType
  | int32 _ => .int32
  | int64 _ => .int64
  | uint32 _ => .uint32
  | uint64 _ => .uint64
  | fixedString _ => .fixedString
  | date _ => .date

def toInt? : Value → Option Int
  | int32 v => some v.toInt
  | int64 v => some v.toInt
  | uint32 v => some v.toNat
  | uint64 v => some v.toNat
  | fixedString _ | date _ => none

/-- Integers of every width compare as numbers, texts by their bytes, dates by their seconds.
Values of different kinds do not compare. -/
def compare (a b : Value) : Option Ordering :=
  match a, b with
  | fixedString s, fixedString t => some (List.compareLex Ord.compare (Text.utf8 s) (Text.utf8 t))
  | date d, date e => some (Ord.compare d.seconds.toInt e.seconds.toInt)
  | _, _ =>
      match a.toInt?, b.toInt? with
      | some m, some n => some (Ord.compare m n)
      | _, _ => none

def isTruthy : Value → Bool
  | fixedString s => s ≠ ""
  | date d => d.seconds ≠ 0
  | int32 v => v ≠ 0
  | int64 v => v ≠ 0
  | uint32 v => v ≠ 0
  | uint64 v => v ≠ 0

/-- The decimal text of an integer, by which rows are keyed. -/
def keyText? (v : Value) : Option String := v.toInt?.map toString

def render : Value → String
  | int32 v => toString v.toInt
  | int64 v => toString v.toInt
  | uint32 v => toString v.toNat
  | uint64 v => toString v.toNat
  | fixedString s => s
  | date d => d.render

end Value

inductive Comparison
  | equal
  | notEqual
  | greater
  | greaterEqual
  | less
  | lessEqual
  deriving DecidableEq, Repr

namespace Comparison

def symbol : Comparison → String
  | equal => "="
  | notEqual => "!="
  | greater => ">"
  | greaterEqual => ">="
  | less => "<"
  | lessEqual => "<="

def admits : Comparison → Ordering → Bool
  | equal, o => o = .eq
  | notEqual, o => o ≠ .eq
  | greater, o => o = .gt
  | greaterEqual, o => o ≠ .lt
  | less, o => o = .lt
  | lessEqual, o => o ≠ .gt

/-- No comparison holds of values that do not compare, not even that they differ. -/
def holds (c : Comparison) (a b : Value) : Bool :=
  match a.compare b with
  | some o => c.admits o
  | none => false

end Comparison
end RowStore
