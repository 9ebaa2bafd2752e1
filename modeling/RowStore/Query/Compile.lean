import RowStore.Query.Plan
import RowStore.Text.Quoted

/-! From statements to plans. Tables and columns are not looked up here. -/
namespace RowStore.Sql

abbrev Compiled := Except CompileError

def Literal.describe : Literal → String
  | .null => "Null"
  | .integer v => s!"Integer({v.toInt})"
  | .float v => s!"Float({v.render})"
  | .string s => s!"String({Text.quoted s})"
  | .boolean b => s!"Boolean({b})"

namespace Expression

/-- A short name for an expression, for messages. -/
def describe : Expression → String
  | literal v => v.describe
  | column c => c.text
  | binary op .. => "operator " ++ op.symbol
  | unary op _ => "unary " ++ op.symbol
  | call function _ => s!"function {function}()"

/-- The value of a literal, or of a sign before an integer. -/
def constant : Expression → Compiled Value
  | literal (.integer v) => .ok (.int64 v)
  | literal (.string s) => .ok (.fixedString s)
  | literal other => .error (.unsupportedLiteral other.describe)
  | unary .minus (literal (.integer v)) =>
      if v = Int64.minValue then .error (.unsupportedLiteral s!"-{v.toInt}") else .ok (.int64 (-v))
  | unary .minus e => .error (.unsupportedLiteral ("-" ++ e.describe))
  | e => .error (.unsupportedLiteral e.describe)

/-- A column or a constant. -/
def scalar : Expression → Compiled Condition
  | column c => .ok (.column c.text)
  | e@(literal _) => e.constant.map .literal
  | e@(unary .minus (literal (.integer _))) => e.constant.map .literal
  | binary (.compare _) .. => .error (.unsupportedExpression "comparison used as an operand")
  | e => .error (.unsupportedExpression e.describe)

/-- A scalar, or one comparison of two. -/
def condition : Expression → Compiled Condition
  | binary (.compare c) left right => do
      let left ← left.scalar
      let right ← right.scalar
      return .comparison c left right
  | e@(binary ..) => .error (.unsupportedExpression e.describe)
  | e => e.scalar

/-- A number of rows. -/
def count : Expression → Compiled Nat
  | literal (.integer v) =>
      if 0 ≤ v.toInt then .ok v.toInt.toNat else .error (.invalidLimit (toString v.toInt))
  | unary .minus e => .error (.invalidLimit ("-" ++ e.describe))
  | e => .error (.invalidLimit e.describe)

end Expression

namespace Select

def scan (t : TableName) : Plan Empty := .scan t.name t.asName

/-- The tables joined from left to right. -/
def source (s : Select) : Compiled (Plan Empty) :=
  match s.tables with
  | [] => .error (.unsupportedStatement "SELECT without FROM")
  | t :: ts => .ok (ts.foldl (fun p t => .join p (scan t)) (scan t))

def filtered (s : Select) (p : Plan Empty) : Compiled (Plan Empty) :=
  match s.condition with
  | none => .ok p
  | some e => return .selection p (← e.condition)

def limited (s : Select) (p : Plan Empty) : Compiled (Plan Empty) :=
  match s.limit with
  | none => .ok p
  | some e => return .limit p (← e.count)

def isEverything : SelectItem → Bool
  | .everything => true
  | _ => false

def outputName : SelectItem → Compiled (String × String)
  | .column c asName => .ok (c.text, asName.getD c.text)
  | .expression e _ => .error (.unsupportedExpression e.describe)
  | .everything => .ok ("*", "*")

/-- A star among the items leaves the rows as they are, whatever stands beside it. -/
def projected (s : Select) (p : Plan Empty) : Compiled (Plan Empty) :=
  if s.items.any isEverything then .ok p
  else return .projection p (← s.items.mapM outputName)

def compile (s : Select) : Compiled (Plan Empty) := do
  s.projected (← s.limited (← s.filtered (← s.source)))

end Select

def Insert.compile (s : Insert) : Compiled (Plan Empty) := do
  return .insertion ⟨s.table, s.columns, ← s.tuples.mapM (·.mapM Expression.constant)⟩

def Statement.compile : Statement → Compiled (Plan Empty)
  | select s => s.compile
  | insert s => s.compile
  | s@(.show target) => if target = "tables" then .ok .tables else .error (.unsupportedStatement s.title)
  | s => .error (.unsupportedStatement s.title)

end RowStore.Sql
