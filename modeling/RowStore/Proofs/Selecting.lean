import RowStore.Proofs.Relations

namespace RowStore.Sql.Select

open Plan (opening)

variable {τ : Type} [Storage τ]

/-- Whether a row meets the condition. Every row meets none. -/
def meets (s : Select) (row : Row) : Except QueryError Bool :=
  match s.condition with
  | none => .ok true
  | some e => do (← e.condition.mapError .compile).holds row

def bound (s : Select) : Option Nat :=
  match s.limit with
  | some (.literal (.integer n)) => some n.toInt.toNat
  | _ => none

/-- What the projection makes of a row. -/
def output (s : Select) (row : Row) : Except QueryError Row :=
  if s.items.any isEverything then .ok row
  else do project (← (s.items.mapM outputName).mapError .compile) row

def limitedTo : Option Nat → Yield → Yield
  | none, xs => xs
  | some n, xs => xs.limited n

/-- What the operators above the tables make of what these yield. -/
def shaped (s : Select) (xs : Yield) : Yield :=
  (limitedTo s.bound (xs.selected s.meets)).projected s.output

section Compiled

variable {s : Select} {p q : Plan Empty}

theorem opening_filtered (compiled : s.filtered p = .ok q) (c : Catalog) (store : τ) :
    q.opening c store =
      ((p.opening c store).1.map (Yield.selected s.meets), (p.opening c store).2) := by
  cases given : s.condition with
  | none =>
      have all : Yield.selected s.meets = id := by
        funext xs
        have meets : s.meets = fun _ => .ok true := by funext row; simp [Select.meets, given]
        refine (List.filterMap_congr fun x _ => ?_).trans List.filterMap_some
        cases x <;> simp [Yield.kept, meets]
      simp only [filtered, given, Except.ok.injEq] at compiled
      rw [compiled, all, Except.map_id]
      rfl
  | some e =>
      simp only [filtered, given, bind_eq_ok_iff] at compiled
      obtain ⟨condition, known, compiled⟩ := compiled
      obtain rfl := Except.ok.inj compiled
      have meets : s.meets = fun row => condition.holds row := by
        funext row
        simp only [Select.meets, given, known]
        rfl
      rw [meets]
      rfl

theorem bound_of_count {e : Expression} {n : Nat} (given : s.limit = some e)
    (known : e.count = .ok n) : s.bound = some n := by
  rw [bound, given]
  unfold Expression.count at known
  split at known
  · split at known
    · exact congrArg some (Except.ok.inj known)
    · cases known
  · cases known
  · cases known

theorem opening_limited (compiled : s.limited p = .ok q) (c : Catalog) (store : τ) :
    q.opening c store =
      ((p.opening c store).1.map (limitedTo s.bound), (p.opening c store).2) := by
  cases given : s.limit with
  | none =>
      have all : limitedTo s.bound = id := by
        funext xs
        simp [bound, given, limitedTo]
      simp only [limited, given, Except.ok.injEq] at compiled
      rw [compiled, all, Except.map_id]
      rfl
  | some e =>
      simp only [limited, given, bind_eq_ok_iff] at compiled
      obtain ⟨count, known, compiled⟩ := compiled
      obtain rfl := Except.ok.inj compiled
      have limit : limitedTo s.bound = Yield.limited count := by
        funext xs
        rw [bound_of_count given known, limitedTo]
      rw [limit]
      rfl

theorem opening_projected (compiled : s.projected p = .ok q) (c : Catalog) (store : τ) :
    q.opening c store =
      ((p.opening c store).1.map (Yield.projected s.output), (p.opening c store).2) := by
  by_cases star : s.items.any isEverything = true
  · have all : Yield.projected s.output = id := by
      funext xs
      have output : s.output = fun row => .ok row := by funext row; simp [Select.output, star]
      refine (List.map_congr_left fun x _ => ?_).trans (List.map_id xs)
      rw [output]
      cases x <;> rfl
    simp only [projected, star, if_true, Except.ok.injEq] at compiled
    rw [compiled, all, Except.map_id]
    rfl
  · rw [projected, if_neg star] at compiled
    obtain ⟨columns, known, compiled⟩ := bind_eq_ok_iff.mp compiled
    obtain rfl := Except.ok.inj compiled
    have output : s.output = project columns := by
      funext row
      simp only [Select.output, star, known]
      rfl
    rw [output]
    rfl

/-- A compiled SELECT shapes what its tables yield. -/
theorem opening_compiled (compiled : s.compile = .ok p) (c : Catalog) (store : τ) :
    ∃ source, s.source = .ok source ∧
      p.opening c store =
        ((source.opening c store).1.map s.shaped, (source.opening c store).2) := by
  obtain ⟨source, opened, compiled⟩ := bind_eq_ok_iff.mp compiled
  obtain ⟨chosen, filtered, compiled⟩ := bind_eq_ok_iff.mp compiled
  obtain ⟨few, limited, projected⟩ := bind_eq_ok_iff.mp compiled
  refine ⟨source, opened, ?_⟩
  rw [opening_projected projected, opening_limited limited, opening_filtered filtered]
  cases (source.opening c store).1 <;> rfl

theorem exists_condition (compiled : s.compile = .ok p) {e : Expression}
    (given : s.condition = some e) : ∃ c, e.condition = .ok c := by
  obtain ⟨_, _, compiled⟩ := bind_eq_ok_iff.mp compiled
  obtain ⟨_, filtered, _⟩ := bind_eq_ok_iff.mp compiled
  rw [Select.filtered, given] at filtered
  obtain ⟨c, lowered, _⟩ := bind_eq_ok_iff.mp filtered
  exact ⟨c, lowered⟩

theorem exists_outputs (compiled : s.compile = .ok p) (plain : ¬ s.items.any isEverything = true) :
    ∃ columns, s.items.mapM outputName = .ok columns := by
  obtain ⟨_, _, compiled⟩ := bind_eq_ok_iff.mp compiled
  obtain ⟨_, _, compiled⟩ := bind_eq_ok_iff.mp compiled
  obtain ⟨_, _, projected⟩ := bind_eq_ok_iff.mp compiled
  rw [Select.projected, if_neg plain] at projected
  obtain ⟨columns, known, _⟩ := bind_eq_ok_iff.mp projected
  exact ⟨columns, known⟩

end Compiled

end RowStore.Sql.Select
