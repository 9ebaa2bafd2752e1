import RowStore.Query.Error

namespace RowStore

inductive Condition
  | literal (v : Value)
  | column (name : String)
  | comparison (c : Comparison) (left right : Condition)
  deriving DecidableEq, Repr

namespace Condition

/-- The value of a literal or a column; a comparison has none. -/
def value (row : Row) : Condition → Except QueryError Value
  | literal v => .ok v
  | column name =>
      match row.get? name with
      | some v => .ok v
      | none => .error (.catalog (.columnNotFound name))
  | comparison .. => .error (.execution .notScalar)

/-- Whether a row meets the condition; a bare value is met unless it is zero or empty. -/
def holds (row : Row) : Condition → Except QueryError Bool
  | comparison c left right => do
      let a ← left.value row
      let b ← right.value row
      return c.holds a b
  | scalar => return (← scalar.value row).isTruthy

def text : Condition → String
  | literal (.fixedString s) => s!"'{s}'"
  | literal v => v.render
  | column name => name
  | comparison c left right => s!"{left.text} {c.symbol} {right.text}"

end Condition
end RowStore
