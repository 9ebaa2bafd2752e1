import Mathlib.Computability.Language
import Mathlib.Order.CompletePartialOrder
import RowStore.Sql.Parser

/-! The grammar of statements: for each statement the sequences of tokens that it is written as.
How an expression is written is a parameter, since there is more than one way. -/
namespace RowStore.Sql

def Literal.kind : Literal → Kind
  | .null => .keyword .NULL
  | .integer v => .integer v
  | .float v => .float v
  | .string s => .string s
  | .boolean b => .keyword (bif b then .TRUE else .FALSE)

def BinaryOperator.kind : BinaryOperator → Kind
  | .compare .equal => .symbol .equals
  | .compare .notEqual => .symbol .notEqual
  | .compare .less => .symbol .lessThan
  | .compare .greater => .symbol .greaterThan
  | .compare .lessEqual => .symbol .lessEqual
  | .compare .greaterEqual => .symbol .greaterEqual
  | .and => .keyword .AND
  | .or => .keyword .OR
  | .plus => .symbol .plus
  | .minus => .symbol .minus
  | .times => .symbol .multiply
  | .divide => .symbol .divide
  | .modulo => .symbol .modulo

def UnaryOperator.kind : UnaryOperator → Kind
  | .minus => .symbol .minus
  | .not => .keyword .NOT

def ColumnName.kinds (c : ColumnName) : List Kind :=
  match c.table with
  | none => [.identifier c.name]
  | some table => [.identifier table, .symbol .dot, .identifier c.name]

theorem literal?_eq_some_iff {k : Kind} {v : Literal} : Parse.literal? k = some v ↔ k = v.kind := by
  constructor
  · intro read
    cases k with
    | keyword word => cases word <;> cases read <;> rfl
    | integer | float | string =>
        cases read
        rfl
    | _ => cases read
  · rintro rfl
    cases v with
    | boolean b => cases b <;> rfl
    | _ => rfl

theorem binaryOperator?_eq_some_iff {k : Kind} {op : BinaryOperator} :
    Parse.binaryOperator? k = some op ↔ k = op.kind := by
  constructor
  · intro read
    cases k with
    | keyword word => cases word <;> cases read <;> rfl
    | symbol sign => cases sign <;> cases read <;> rfl
    | _ => cases read
  · rintro rfl
    cases op with
    | compare c => cases c <;> rfl
    | _ => rfl

theorem unaryOperator?_eq_some_iff {k : Kind} {op : UnaryOperator} :
    Parse.unaryOperator? k = some op ↔ k = op.kind := by
  constructor
  · intro read
    cases k with
    | keyword word =>
        cases word <;> cases read
        rfl
    | symbol sign =>
        cases sign <;> cases read
        rfl
    | _ => cases read
  · rintro rfl
    cases op <;> rfl

/-- How tightly a token binds what stands before it; zero if it is no binary operator. -/
def binding (k : Kind) : Nat :=
  match Parse.binaryOperator? k with
  | some op => op.precedence
  | none => 0

@[simp] theorem binding_kind (op : BinaryOperator) : binding op.kind = op.precedence := by
  rw [binding, binaryOperator?_eq_some_iff.mpr rfl]

/-- The argument that stands for all columns. -/
def star : Expression := .column ⟨none, "*"⟩

def separated (texts : List (List Kind)) : List Kind := [Kind.symbol .comma].intercalate texts

/-- The expressions, each with tokens that it can be written as where operators that bind no more
tightly than `m` cannot stand outside of parentheses, and where what follows binds as tightly as
`f`. Operators of one precedence associate to the left. -/
inductive Expression.Written : Nat → Nat → Expression → List Kind → Prop
  | literal {m f : Nat} (v : Literal) : Written m f (.literal v) [v.kind]
  | column {m f : Nat} (c : ColumnName) : Written m f (.column c) c.kinds
  | bracketed {m f : Nat} {e : Expression} {ks : List Kind} (inside : Written 0 0 e ks) :
      Written m f e (.symbol .leftParen :: (ks ++ [.symbol .rightParen]))
  | unary {m f : Nat} {op : UnaryOperator} {e : Expression} {ks : List Kind}
      (looser : f ≤ op.precedence) (operand : Written op.precedence f e ks) :
      Written m f (.unary op e) (op.kind :: ks)
  | binary {m f : Nat} {op : BinaryOperator} {l r : Expression} {ls rs : List Kind}
      (tighter : m < op.precedence) (looser : f ≤ op.precedence)
      (left : Written m op.precedence l ls) (right : Written op.precedence f r rs) :
      Written m f (.binary op l r) (ls ++ op.kind :: rs)
  | call {m f : Nat} {function : String} {arguments : List Expression} {texts : List (List Kind)}
      (each : arguments.length = texts.length)
      (inside : ∀ p ∈ arguments.zip texts, p ≠ (star, [.symbol .multiply]) → Written 0 0 p.1 p.2) :
      Written m f (.call function arguments)
        (.identifier function :: .symbol .leftParen :: (separated texts ++ [.symbol .rightParen]))

def Expression.isStar : Expression → Bool
  | .column ⟨none, name⟩ => name = "*"
  | _ => false

mutual

/-- The tokens of an expression with each operation in parentheses. -/
def Expression.kinds : Expression → List Kind
  | .literal v => [v.kind]
  | .column c => c.kinds
  | .binary op l r =>
      .symbol .leftParen :: ((l.kinds ++ op.kind :: r.kinds) ++ [.symbol .rightParen])
  | .unary op e => .symbol .leftParen :: ((op.kind :: e.kinds) ++ [.symbol .rightParen])
  | .call function arguments =>
      .identifier function :: .symbol .leftParen ::
        (separated (argumentKinds arguments) ++ [.symbol .rightParen])

def argumentKinds : List Expression → List (List Kind)
  | [] => []
  | e :: es => (bif e.isStar then [.symbol .multiply] else e.kinds) :: argumentKinds es

end

namespace Grammar

def key (word : Keyword) : Language Kind := {[.keyword word]}

def sign (s : Symbol) : Language Kind := {[.symbol s]}

def name (s : String) : Language Kind := {[.identifier s]}

/-- One item or more, with commas between. -/
def listed {α : Type} (G : α → Language Kind) : List α → Language Kind
  | [] => 0
  | [x] => G x
  | x :: y :: rest => G x * sign .comma * listed G (y :: rest)

def orNone {α : Type} (G : List α → Language Kind) : List α → Language Kind
  | [] => 1
  | xs => G xs

theorem separated_cons {text u : List Kind} {us : List (List Kind)} :
    separated (text :: u :: us) = text ++ [.symbol .comma] ++ separated (u :: us) :=
  List.intercalate_cons_cons

theorem forall_mem_separated {P : Kind → Prop} (comma : P (.symbol .comma))
    {texts : List (List Kind)} :
    (∀ k ∈ separated texts, P k) ↔ ∀ text ∈ texts, ∀ k ∈ text, P k := by
  induction texts with
  | nil => simp [separated]
  | cons text texts ih =>
      cases texts with
      | nil => simp [separated]
      | cons u us =>
          rw [separated_cons, List.forall_mem_append, List.forall_mem_append, ih,
            List.forall_mem_singleton, and_iff_left comma]
          simp only [List.forall_mem_cons]

/-- A list is written as one text for each of its items. -/
theorem mem_listed {α : Type} {G : α → Language Kind} {x : α} {xs : List α} {ks : List Kind} :
    ks ∈ listed G (x :: xs) ↔ ∃ texts, (x :: xs).length = texts.length ∧
      (∀ p ∈ (x :: xs).zip texts, p.2 ∈ G p.1) ∧ ks = separated texts := by
  induction xs generalizing x ks with
  | nil =>
      constructor
      · intro written
        exact ⟨[ks], rfl, by simpa [listed] using written, by simp [separated]⟩
      · rintro ⟨texts, one, inside, rfl⟩
        obtain ⟨text, rfl⟩ := List.length_eq_one_iff.mp one.symm
        simpa [separated, listed] using inside
  | cons y ys ih =>
      simp only [listed, Language.mem_mul, ih]
      constructor
      · rintro ⟨_, ⟨text, first, _, rfl, rfl⟩, _, ⟨texts, each, inside, rfl⟩, rfl⟩
        obtain ⟨u, us, rfl⟩ := List.exists_cons_of_length_eq_add_one each.symm
        exact ⟨text :: u :: us, congrArg (· + 1) each, List.forall_mem_cons.mpr ⟨first, inside⟩,
          separated_cons.symm⟩
      · rintro ⟨texts, each, inside, rfl⟩
        obtain ⟨text, rest, rfl⟩ := List.exists_cons_of_length_eq_add_one each.symm
        have others : (y :: ys).length = rest.length := Nat.succ.inj each
        obtain ⟨u, us, rfl⟩ := List.exists_cons_of_length_eq_add_one others.symm
        obtain ⟨first, inside⟩ := List.forall_mem_cons.mp inside
        exact ⟨text ++ [.symbol .comma], ⟨text, first, _, rfl, rfl⟩, _,
          ⟨u :: us, others, inside, rfl⟩, separated_cons.symm⟩

theorem mem_orNone_listed {α : Type} {G : α → Language Kind} {xs : List α} {ks : List Kind} :
    ks ∈ orNone (listed G) xs ↔ ∃ texts, xs.length = texts.length ∧
      (∀ p ∈ xs.zip texts, p.2 ∈ G p.1) ∧ ks = separated texts := by
  cases xs with
  | nil =>
      constructor
      · rintro rfl
        exact ⟨[], rfl, by simp, rfl⟩
      · rintro ⟨texts, same, _, rfl⟩
        obtain rfl := List.eq_nil_of_length_eq_zero same.symm
        rfl
  | cons x xs => exact mem_listed

def asName : Option String → Language Kind
  | none => 1
  | some s => (key .AS + 1) * name s

def table (t : TableName) : Language Kind := name t.name * asName t.asName

section

variable (E : Expression → Language Kind)

/-- An item that is a column is never one that is an expression. -/
def item : SelectItem → Language Kind
  | .everything => sign .multiply
  | .column c s => E (.column c) * asName s
  | .expression (.column _) _ => 0
  | .expression e s => E e * asName s

def clause (word : Keyword) : Option Expression → Language Kind
  | none => 1
  | some e => key word * E e

def select (s : Select) : Language Kind :=
  key .SELECT * listed (item E) s.items * key .FROM * listed table s.tables *
    clause E .WHERE s.condition * clause E .LIMIT s.limit

def tuple (es : List Expression) : Language Kind :=
  sign .leftParen * orNone (listed E) es * sign .rightParen

def columnList : List String → Language Kind :=
  orNone fun names => sign .leftParen * listed name names * sign .rightParen

def insert (s : Insert) : Language Kind :=
  key .INSERT * key .INTO * name s.table * columnList s.columns * key .VALUES *
    listed (tuple E) s.tuples

/-- What is asked for may be in any case. -/
def showTarget (target : String) : Language Kind :=
  {ks | ∃ s, Text.lower s = target ∧ ks = [.keyword .SHOW, .identifier s]}

def length : Option Int64 → Language Kind
  | none => 1
  | some n => sign .leftParen * {[.integer n]} * sign .rightParen

def columnDefinition (c : ColumnDefinition) : Language Kind :=
  name c.name * name c.type * length c.length

def create (s : Create) : Language Kind :=
  key .CREATE * key .TABLE * name s.table * sign .leftParen *
    listed columnDefinition s.columns * sign .rightParen

def assignment (a : Assignment) : Language Kind :=
  name a.column * sign .equals * E a.value

def update (s : Update) : Language Kind :=
  key .UPDATE * name s.table * key .SET * listed (assignment E) s.assignments *
    clause E .WHERE s.condition

def delete (s : Delete) : Language Kind :=
  key .DELETE * key .FROM * name s.table * clause E .WHERE s.condition

def body : Statement → Language Kind
  | .select s => select E s
  | .insert s => insert E s
  | .show target => showTarget target
  | .create s => create s
  | .update s => update E s
  | .delete s => delete E s

/-- A semicolon may end a statement. -/
def statement (s : Statement) : Language Kind := body E s * (sign .semicolon + 1)

end

section Mono

variable {α : Type} {G H : α → Language Kind} {E E' : Expression → Language Kind}

theorem listed_mono (more : ∀ x, G x ≤ H x) (xs : List α) : listed G xs ≤ listed H xs := by
  induction xs with
  | nil => exact le_rfl
  | cons x xs ih =>
      cases xs with
      | nil => exact more x
      | cons y ys => exact mul_le_mul' (mul_le_mul' (more x) le_rfl) ih

theorem orNone_mono (more : ∀ x, G x ≤ H x) (xs : List α) :
    orNone (listed G) xs ≤ orNone (listed H) xs := by
  cases xs with
  | nil => exact le_rfl
  | cons x xs => exact listed_mono more (x :: xs)

variable (more : ∀ e, E e ≤ E' e)
include more

theorem item_mono (x : SelectItem) : item E x ≤ item E' x := by
  cases x with
  | everything => exact le_rfl
  | column c s => exact mul_le_mul' (more _) le_rfl
  | expression e s =>
      cases e with
      | column c => exact le_rfl
      | _ => exact mul_le_mul' (more _) le_rfl

theorem clause_mono (word : Keyword) (e : Option Expression) :
    clause E word e ≤ clause E' word e := by
  cases e with
  | none => exact le_rfl
  | some e => exact mul_le_mul' le_rfl (more e)

theorem tuple_mono (es : List Expression) : tuple E es ≤ tuple E' es :=
  mul_le_mul' (mul_le_mul' le_rfl (orNone_mono more es)) le_rfl

theorem body_mono (s : Statement) : body E s ≤ body E' s := by
  cases s with
  | select s =>
      have items := listed_mono (item_mono more) s.items
      have front := mul_le_mul' (mul_le_mul' (le_refl (key .SELECT)) items) (le_refl (key .FROM))
      exact mul_le_mul' (mul_le_mul' (mul_le_mul' front le_rfl) (clause_mono more _ _))
        (clause_mono more _ _)
  | insert s => exact mul_le_mul' le_rfl (listed_mono (tuple_mono more) s.tuples)
  | update s =>
      have each : ∀ a, assignment E a ≤ assignment E' a :=
        fun a => mul_le_mul' le_rfl (more a.value)
      exact mul_le_mul' (mul_le_mul' le_rfl (listed_mono each s.assignments))
        (clause_mono more _ _)
  | delete s => exact mul_le_mul' le_rfl (clause_mono more _ _)
  | _ => exact le_rfl

/-- More ways to write expressions give more ways to write statements. -/
theorem statement_mono (s : Statement) : statement E s ≤ statement E' s :=
  mul_le_mul' (body_mono more s) le_rfl

end Mono

end Grammar

/-- The ways to write an expression between operators of the given precedences. -/
def Expression.textsAt (m f : Nat) (e : Expression) : Language Kind := {ks | e.Written m f ks}

@[simp] theorem mem_textsAt {m f : Nat} {e : Expression} {ks : List Kind} :
    ks ∈ e.textsAt m f ↔ e.Written m f ks := Iff.rfl

/-- The ways to write an expression that stands by itself. -/
def Expression.texts (e : Expression) : Language Kind := e.textsAt 0 0

def Expression.argumentTexts (e : Expression) : Language Kind :=
  {ks | (e, ks) ≠ (star, [.symbol .multiply]) → ks ∈ e.texts}

theorem isStar_iff {e : Expression} : e.isStar = true ↔ e = star := by
  unfold Expression.isStar star
  split <;> simp_all

theorem BinaryOperator.precedence_pos (op : BinaryOperator) : 0 < op.precedence := by
  cases op <;> simp [precedence]

/-- The arguments as each is written by itself, but a star as no more than its sign. -/
def argumentsBy (write : Expression → List Kind) (arguments : List Expression) :
    List (List Kind) :=
  arguments.map fun e => bif e.isStar then [.symbol .multiply] else write e

theorem argumentKinds_eq (arguments : List Expression) :
    argumentKinds arguments = argumentsBy Expression.kinds arguments := by
  induction arguments with
  | nil => rfl
  | cons e es ih =>
      rw [argumentKinds, ih]
      rfl

theorem Expression.Written.callBy {m f : Nat} {write : Expression → List Kind} {function : String}
    {arguments : List Expression}
    (each : ∀ a ∈ arguments, a.isStar = false → a.Written 0 0 (write a)) :
    (Expression.call function arguments).Written m f (.identifier function :: .symbol .leftParen ::
      (separated (argumentsBy write arguments) ++ [.symbol .rightParen])) := by
  refine .call (by rw [argumentsBy, List.length_map]) fun p member other => ?_
  rw [argumentsBy, ← List.map_prod_left_eq_zip] at member
  obtain ⟨a, inside, rfl⟩ := List.mem_map.mp member
  have proper : a.isStar = false := by
    rw [Bool.eq_false_iff]
    intro bare
    exact other (by rw [bare, isStar_iff.mp bare]; rfl)
  rw [proper]
  exact each a inside proper

/-- Parentheses around each operation leave nothing to precedence. -/
theorem Expression.kinds_written (m f : Nat) : ∀ e : Expression, e.Written m f e.kinds
  | .literal v => .literal v
  | .column c => .column c
  | .binary op l r => .bracketed (.binary op.precedence_pos (Nat.zero_le _)
      (l.kinds_written 0 op.precedence) (r.kinds_written op.precedence 0))
  | .unary op e => .bracketed (.unary (Nat.zero_le _) (e.kinds_written op.precedence 0))
  | .call function arguments => by
      rw [kinds, argumentKinds_eq]
      exact .callBy fun a inside _ => a.kinds_written 0 0

/-- The way to write an expression that needs no rule of precedence. -/
def Expression.rendering (e : Expression) : Language Kind := {e.kinds}

end RowStore.Sql
