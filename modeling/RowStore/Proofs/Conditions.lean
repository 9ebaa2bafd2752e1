import RowStore.Proofs.LeadingTuples

namespace RowStore.Sql

/-- Of all words the least alone has no negative. -/
theorem toInt_neg_of_ne {v : Int64} (bounded : v ≠ Int64.minValue) :
    (-v).toInt = -v.toInt := by
  have least : v.toInt ≠ -2 ^ 63 := by
    rw [← Int64.toInt_minValue]
    exact mt Int64.toInt_inj.mp bounded
  have low := Int64.le_toInt v
  have high := Int64.toInt_lt v
  rw [Int64.toInt_neg]
  apply Int.bmod_eq_of_le <;> omega

namespace Expression

/-- A column or a constant. -/
def isScalar : Expression → Bool
  | column _ => true
  | e => e.isConstant

/-- A scalar, or one comparison of two. -/
def isCondition : Expression → Bool
  | binary (.compare _) left right => left.isScalar && right.isScalar
  | e => e.isScalar

/-- The values of scalars. -/
inductive HasValue (row : Row) : Expression → Value → Prop
  | column {c : ColumnName} {v : Value} (present : row.get? c.text = some v) :
      HasValue row (.column c) v
  | integer (v : Int64) : HasValue row (.literal (.integer v)) (.int64 v)
  | string (s : String) : HasValue row (.literal (.string s)) (.fixedString s)
  | negative {v w : Int64} (opposite : w.toInt = -v.toInt) :
      HasValue row (.unary .minus (.literal (.integer v))) (.int64 w)

/-- The truth of conditions. -/
inductive Means (row : Row) : Expression → Bool → Prop
  | scalar {e : Expression} {v : Value} (value : e.HasValue row v) : Means row e v.isTruthy
  | comparison {op : Comparison} {left right : Expression} {v w : Value}
      (first : left.HasValue row v) (second : right.HasValue row w) :
      Means row (.binary (.compare op) left right) (op.holds v w)

/-- The columns of a condition, from left to right. -/
def columns : Expression → List String
  | column c => [c.text]
  | binary _ left right => left.columns ++ right.columns
  | _ => []

/-- The first of the columns that has no value in the row. -/
def missing? (row : Row) (e : Expression) : Option String :=
  e.columns.find? fun name => (row.get? name).isNone

section Scalars

variable {e : Expression} {c : Condition} {row : Row}

theorem hasValue_constant_iff {v w : Value} (known : e.constant = .ok v) :
    e.HasValue row w ↔ w = v := by
  constructor
  · intro value
    cases value with
    | column => cases known
    | integer | string => exact Except.ok.inj known
    | @negative n m opposite =>
        rw [constant] at known
        split at known
        · cases known
        · rename_i bounded
          rw [← toInt_neg_of_ne bounded] at opposite
          rw [Int64.toInt_inj.mp opposite]
          exact Except.ok.inj known
  · rintro rfl
    unfold constant at known
    split at known
    · cases known
      exact .integer _
    · cases known
      exact .string _
    · cases known
    · split at known
      · cases known
      · rename_i bounded
        cases known
        exact .negative (toInt_neg_of_ne bounded)
    · cases known
    · cases known

/-- The expression is lowered as the constant that it is, or else not at all. -/
def LoweredAsConstant (e : Expression) : Prop :=
  (∃ v, e.isScalar = true ∧ e.columns = [] ∧ e.constant = .ok v ∧ e.scalar = .ok (.literal v)) ∨
    e.isScalar = false ∧ ∃ why, e.scalar = .error why

theorem loweredAsConstant (lowered : e.scalar = e.constant.map .literal)
    (same : e.isScalar = e.isConstant) (bare : e.columns = []) : e.LoweredAsConstant := by
  rw [LoweredAsConstant, lowered, same]
  rcases e.constant_cases with ⟨supported, v, known⟩ | ⟨other, described, failed⟩
  · rw [known]
    exact .inl ⟨v, supported, bare, rfl, rfl⟩
  · rw [failed]
    exact .inr ⟨other, _, rfl⟩

theorem scalar_cases (e : Expression) : (∃ c, e = .column c) ∨ e.LoweredAsConstant := by
  cases e with
  | column c => exact .inl ⟨c, rfl⟩
  | literal v => exact .inr (loweredAsConstant rfl rfl rfl)
  | unary op operand =>
      right
      cases op with
      | not => exact .inr ⟨rfl, _, rfl⟩
      | minus =>
          cases operand with
          | literal v =>
              cases v with
              | integer v => exact loweredAsConstant rfl rfl rfl
              | _ => exact .inr ⟨rfl, _, rfl⟩
          | _ => exact .inr ⟨rfl, _, rfl⟩
  | binary op left right => cases op <;> exact .inr (.inr ⟨rfl, _, rfl⟩)
  | call function arguments => exact .inr (.inr ⟨rfl, _, rfl⟩)

theorem scalar_eq_ok_iff : (∃ c, e.scalar = .ok c) ↔ e.isScalar = true := by
  rcases e.scalar_cases with ⟨c, rfl⟩ | ⟨v, scalar, _, _, lowered⟩ | ⟨other, why, failed⟩
  · exact ⟨fun _ => rfl, fun _ => ⟨_, rfl⟩⟩
  · exact ⟨fun _ => scalar, fun _ => ⟨_, lowered⟩⟩
  · rw [other, failed]
    exact ⟨nofun, nofun⟩

/-- The outcome for a row is what the expression means there, or else its first column without a
value is the reason why there is none. -/
structure Answers {α : Type} (row : Row) (e : Expression) (meaning : α → Prop)
    (outcome : Except QueryError α) : Prop where
  ok : ∀ a, outcome = .ok a ↔ meaning a
  error : ∀ why, outcome = .error why ↔
    ∃ name, e.missing? row = some name ∧ why = .catalog (.columnNotFound name)

theorem answers_value (row : Row) (lowered : e.scalar = .ok c) :
    Answers row e (e.HasValue row) (c.value row) := by
  rcases e.scalar_cases with ⟨column, rfl⟩ | ⟨v, _, bare, known, literal⟩ | ⟨_, why, failed⟩
  · obtain rfl := Except.ok.inj lowered
    rw [Condition.value]
    cases present : row.get? column.text with
    | some v =>
        refine ⟨fun w => ⟨?_, ?_⟩, fun why => ?_⟩
        · rintro ⟨⟩
          exact .column present
        · rintro ⟨found⟩
          exact congrArg _ (Option.some.inj (present.symm.trans found))
        · simp [missing?, columns, present]
    | none =>
        refine ⟨fun w => ⟨nofun, ?_⟩, fun why => ?_⟩
        · rintro ⟨found⟩
          cases present.symm.trans found
        · simp [missing?, columns, present, eq_comm]
  · obtain rfl := Except.ok.inj (literal.symm.trans lowered)
    refine ⟨fun w => ?_, fun why => ?_⟩
    · rw [hasValue_constant_iff known, Condition.value, Except.ok.injEq, eq_comm]
    · simp [missing?, bare, Condition.value]
  · cases failed.symm.trans lowered

end Scalars

section Outcomes

variable {α : Type} {e left right : Expression} {row : Row} {meaning : α → Prop}
  {outcome : Except QueryError α}

theorem Answers.exists_ok_iff (answers : Answers row e meaning outcome) :
    (∃ a, outcome = .ok a) ↔ e.missing? row = none := by
  cases outcome with
  | ok a =>
      refine ⟨fun _ => Option.eq_none_iff_forall_ne_some.mpr fun name missing => ?_,
        fun _ => ⟨a, rfl⟩⟩
      cases (answers.error _).mpr ⟨name, missing, rfl⟩
  | error why =>
      obtain ⟨name, missing, _⟩ := (answers.error why).mp rfl
      rw [missing]
      exact ⟨nofun, nofun⟩

theorem missing?_binary (op : BinaryOperator) (left right : Expression) (row : Row) :
    (binary op left right).missing? row = (left.missing? row).or (right.missing? row) :=
  List.find?_append

end Outcomes

section Comparisons

variable {e left right : Expression} {c x y : Condition} {row : Row}

/-- All but comparisons are lowered as scalars. -/
theorem condition_cases (e : Expression) :
    (∃ op left right, e = .binary (.compare op) left right) ∨
      e.condition = e.scalar ∧ e.isCondition = e.isScalar := by
  cases e with
  | binary op left right =>
      cases op with
      | compare op => exact .inl ⟨op, left, right, rfl⟩
      | _ => exact .inr ⟨rfl, rfl⟩
  | _ => exact .inr ⟨rfl, rfl⟩

theorem condition_eq_ok_iff : (∃ c, e.condition = .ok c) ↔ e.isCondition = true := by
  rcases e.condition_cases with ⟨op, left, right, rfl⟩ | ⟨same, scalar⟩
  · rw [isCondition, Bool.and_eq_true, ← scalar_eq_ok_iff, ← scalar_eq_ok_iff, condition]
    constructor
    · rintro ⟨c, lowered⟩
      obtain ⟨x, first, lowered⟩ := bind_eq_ok_iff.mp lowered
      obtain ⟨y, second, _⟩ := bind_eq_ok_iff.mp lowered
      exact ⟨⟨x, first⟩, y, second⟩
    · rintro ⟨⟨x, first⟩, y, second⟩
      rw [first, second]
      exact ⟨_, rfl⟩
  · rw [same, scalar, scalar_eq_ok_iff]

/-- A scalar is met if its value is neither zero nor empty. -/
theorem answers_truth (lowered : e.scalar = .ok c) :
    Answers row e (e.Means row) (c.holds row) := by
  have value := answers_value row lowered
  have truth : c.holds row = (c.value row).map Value.isTruthy := by
    rcases e.scalar_cases with ⟨column, rfl⟩ | ⟨v, _, _, _, literal⟩ | ⟨_, why, failed⟩
    · obtain rfl := Except.ok.inj lowered
      rfl
    · obtain rfl := Except.ok.inj (literal.symm.trans lowered)
      rfl
    · cases failed.symm.trans lowered
  rw [truth]
  refine ⟨fun b => ?_, fun why => ?_⟩
  · rw [map_eq_ok_iff]
    constructor
    · rintro ⟨v, found, rfl⟩
      exact .scalar ((value.ok v).mp found)
    · rintro (⟨found⟩ | _)
      · exact ⟨_, (value.ok _).mpr found, rfl⟩
      · cases lowered
  · rw [← value.error why]
    cases c.value row <;> simp [Except.map]

theorem answers_comparison (op : Comparison) (first : left.scalar = .ok x)
    (second : right.scalar = .ok y) :
    Answers row (.binary (.compare op) left right) (Means row (.binary (.compare op) left right))
      ((Condition.comparison op x y).holds row) := by
  have one := answers_value row first
  have two := answers_value row second
  refine ⟨fun b => ?_, fun why => ?_⟩
  · rw [Condition.holds, bind_eq_ok_iff]
    constructor
    · rintro ⟨v, found, holds⟩
      obtain ⟨w, found', holds⟩ := bind_eq_ok_iff.mp holds
      cases holds
      exact .comparison ((one.ok v).mp found) ((two.ok w).mp found')
    · rintro (⟨⟨⟩⟩ | ⟨found, found'⟩)
      rw [(one.ok _).mpr found, (two.ok _).mpr found']
      exact ⟨_, rfl, rfl⟩
  · rw [missing?_binary, Condition.holds]
    cases found : x.value row with
    | error why' =>
        obtain ⟨name, missing, rfl⟩ := (one.error why').mp found
        rw [missing, Option.some_or, error_bind]
        simp [eq_comm]
    | ok v =>
        -- Only now is the right side looked at.
        have present := one.exists_ok_iff.mp ⟨v, found⟩
        rw [present, Option.none_or, ← two.error why, ok_bind]
        cases y.value row <;> simp [pure, Except.pure]

theorem answers_holds (lowered : e.condition = .ok c) :
    Answers row e (e.Means row) (c.holds row) := by
  rcases e.condition_cases with ⟨op, left, right, rfl⟩ | ⟨same, _⟩
  · rw [condition] at lowered
    obtain ⟨x, first, lowered⟩ := bind_eq_ok_iff.mp lowered
    obtain ⟨y, second, lowered⟩ := bind_eq_ok_iff.mp lowered
    cases lowered
    exact answers_comparison op first second
  · exact answers_truth (same ▸ lowered)

theorem isScalar_of_hasValue {v : Value} (value : e.HasValue row v) : e.isScalar = true := by
  cases value with
  | column | integer | string => rfl
  | @negative n w opposite =>
      have bounded : n ≠ Int64.minValue := by
        rintro rfl
        have least := Int64.toInt_lt w
        rw [opposite, Int64.toInt_minValue] at least
        omega
      exact decide_eq_true bounded

theorem isCondition_of_means {answer : Bool} (means : e.Means row answer) :
    e.isCondition = true := by
  cases means with
  | scalar value =>
      have scalar := isScalar_of_hasValue value
      rcases e.condition_cases with ⟨op, left, right, rfl⟩ | ⟨_, same⟩
      · cases scalar
      · rw [same, scalar]
  | comparison first second =>
      rw [isCondition, isScalar_of_hasValue first, isScalar_of_hasValue second]
      rfl

instance (row : Row) (e : Expression) (answer : Bool) : Decidable (e.Means row answer) :=
  match lowered : e.condition with
  | .ok c => decidable_of_iff (c.holds row = .ok answer) ((answers_holds lowered).ok answer)
  | .error _ => isFalse fun means => by
      obtain ⟨c, known⟩ := condition_eq_ok_iff.mpr (isCondition_of_means means)
      cases lowered.symm.trans known

end Comparisons

/-- An expression can be a condition if it is a scalar or one comparison of two scalars. Its
condition then says of a row what the expression means there. It fails only for a column without a
value, and for the first of them: never for a comparison that stands where a value should. -/
theorem conditions_mean_what_they_say (e : Expression) :
    ((∃ c, e.condition = .ok c) ↔ e.isCondition = true) ∧
      ∀ c, e.condition = .ok c → ∀ row : Row, Answers row e (e.Means row) (c.holds row) :=
  ⟨condition_eq_ok_iff, fun _ lowered _ => answers_holds lowered⟩

/-- The same comparison for a row with a value and for one without. -/
theorem conditions_mean_what_they_say_of_short_row :
    let e : Expression := .binary (.compare .notEqual) (.column ⟨some "t", "a"⟩)
      (.unary .minus (.literal (.integer 3)))
    let c : Condition := .comparison .notEqual (.column "t.a") (.literal (.int64 (-3)))
    let row : Row := ⟨⟨"t", [.plain .int32 "t.a"]⟩, [.int32 (-3)]⟩
    let short : Row := ⟨⟨"t", [.plain .int32 "t.a"]⟩, []⟩
    e.condition = .ok c ∧ e.isCondition = true ∧ e.Means row false ∧ c.holds row = .ok false ∧
      c.holds short = .error (.catalog (.columnNotFound "t.a")) := by
  intro e c row short
  obtain ⟨accepted, answers⟩ := conditions_mean_what_they_say e
  have lowered : e.condition = .ok c := by decide +kernel
  have means : e.Means row false := by
    have value : (Expression.column ⟨some "t", "a"⟩).HasValue row (.int32 (-3)) := .column (by decide)
    exact .comparison value (.negative (v := 3) (w := -3) (by decide))
  exact ⟨lowered, accepted.mp ⟨c, lowered⟩, means, ((answers c lowered row).ok false).mpr means,
    ((answers c lowered short).error _).mpr ⟨"t.a", by decide, rfl⟩⟩

end Expression
end RowStore.Sql
