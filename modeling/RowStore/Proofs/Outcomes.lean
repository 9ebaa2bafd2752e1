import Mathlib.Data.List.Forall2

namespace RowStore

variable {ε ε' α β : Type}

@[simp] theorem ok_bind (a : α) (f : α → Except ε β) : (Except.ok a >>= f) = f a := rfl

@[simp] theorem error_bind (e : ε) (f : α → Except ε β) : (Except.error e >>= f) = .error e := rfl

@[simp] theorem throw_bind (e : ε) (f : α → Except ε β) :
    ((throw e : Except ε α) >>= f) = .error e := rfl

theorem bind_eq_ok_iff {x : Except ε α} {f : α → Except ε β} {b : β} :
    (x >>= f) = .ok b ↔ ∃ a, x = .ok a ∧ f a = .ok b := by
  cases x <;> simp

theorem bind_eq_error_iff {x : Except ε α} {f : α → Except ε β} {e : ε} :
    (x >>= f) = .error e ↔ x = .error e ∨ ∃ a, x = .ok a ∧ f a = .error e := by
  cases x <;> simp

theorem map_eq_ok_iff {x : Except ε α} {f : α → β} {b : β} :
    x.map f = .ok b ↔ ∃ a, x = .ok a ∧ f a = b := by
  cases x <;> simp [Except.map]

theorem mapError_eq_ok_iff {x : Except ε α} {f : ε → ε'} {a : α} :
    x.mapError f = .ok a ↔ x = .ok a := by
  cases x <;> simp [Except.mapError]

theorem mapError_map (x : Except ε α) (f : α → β) (g : ε → ε') :
    (x.map f).mapError g = (x.mapError g).map f := by
  cases x <;> rfl

theorem toOption_eq_some_iff {x : Except ε α} {a : α} : x.toOption = some a ↔ x = .ok a := by
  cases x <;> simp [Except.toOption]

theorem mapM_eq_ok_iff {f : α → Except ε β} {xs : List α} {ys : List β} :
    xs.mapM f = .ok ys ↔ List.Forall₂ (fun x y => f x = .ok y) xs ys := by
  induction xs generalizing ys with
  | nil =>
      rw [List.mapM_nil, List.forall₂_nil_left_iff]
      exact ⟨fun h => (Except.ok.inj h).symm, fun h => congrArg Except.ok h.symm⟩
  | cons x xs ih =>
      simp only [List.mapM_cons, bind_eq_ok_iff, ih, List.forall₂_cons_left_iff, pure, Except.pure,
        Except.ok.injEq]
      constructor
      · rintro ⟨y, first, ys', rest, rfl⟩
        exact ⟨y, ys', first, rest, rfl⟩
      · rintro ⟨y, ys', first, rest, rfl⟩
        exact ⟨y, first, ys', rest, rfl⟩

theorem mapM_ok_iff {f : α → Except ε β} {xs : List α} :
    (∃ ys, xs.mapM f = .ok ys) ↔ ∀ x ∈ xs, ∃ y, f x = .ok y := by
  induction xs with
  | nil => exact ⟨fun _ => by simp, fun _ => ⟨[], rfl⟩⟩
  | cons x xs ih =>
      simp only [List.mapM_cons, bind_eq_ok_iff, List.forall_mem_cons, ← ih]
      constructor
      · rintro ⟨_, y, first, ys, rest, _⟩
        exact ⟨⟨y, first⟩, ys, rest⟩
      · rintro ⟨⟨y, first⟩, ys, rest⟩
        exact ⟨_, y, first, ys, rest, rfl⟩

theorem mem_iff_of_mapM {f : α → Except ε β} {xs : List α} {ys : List β}
    (read : xs.mapM f = .ok ys) {y : β} : y ∈ ys ↔ ∃ x ∈ xs, f x = .ok y := by
  have each := mapM_eq_ok_iff.mp read
  clear read
  induction each with
  | nil => simp
  | cons first _ ih => simp [ih, first, eq_comm]

/-- The error of a computation that fails. -/
def failure? : Except ε α → Option ε
  | .ok _ => none
  | .error e => some e

theorem failure?_eq_some_iff {x : Except ε α} {e : ε} : failure? x = some e ↔ x = .error e := by
  cases x <;> simp [failure?]

theorem failure?_eq_none_iff {x : Except ε α} : failure? x = none ↔ ∃ a, x = .ok a := by
  cases x <;> simp [failure?]

theorem failure?_map (x : Except ε α) (f : α → β) : failure? (x.map f) = failure? x := by
  cases x <;> rfl

theorem failure?_mapError (x : Except ε α) (f : ε → ε') :
    failure? (x.mapError f) = (failure? x).map f := by
  cases x <;> rfl

/-- A run over a list fails as the first of its members that fails. -/
theorem failure?_mapM {f : α → Except ε β} {g : α → Option ε} {xs : List α}
    (each : ∀ x ∈ xs, failure? (f x) = g x) : failure? (xs.mapM f) = xs.findSome? g := by
  induction xs with
  | nil => rfl
  | cons x xs ih =>
      obtain ⟨first, rest⟩ := List.forall_mem_cons.mp each
      have later := ih rest
      rw [List.mapM_cons, List.findSome?_cons, ← first, ← later]
      cases f x with
      | error e => rfl
      | ok y => cases xs.mapM f <;> rfl

theorem failure?_mapM_eq_findSome? (f : α → Except ε β) (xs : List α) :
    failure? (xs.mapM f) = xs.findSome? fun x => failure? (f x) :=
  failure?_mapM fun _ _ => rfl

theorem exists_of_mapM_error {f : α → Except ε β} {xs : List α} {e : ε}
    (failed : xs.mapM f = .error e) : ∃ x ∈ xs, f x = .error e := by
  have first := failure?_mapM_eq_findSome? f xs
  rw [failed] at first
  obtain ⟨x, member, fails⟩ := List.exists_of_findSome?_eq_some first.symm
  exact ⟨x, member, failure?_eq_some_iff.mp fails⟩

/-- A run over a list in order fails as the least of its members that fail. -/
theorem mapM_eq_error_iff_of_pairwise {f : α → Except ε β} {r : α → α → Prop}
    (asymm : ∀ {x y}, r x y → ¬ r y x) {xs : List α} (ordered : xs.Pairwise r) {e : ε} :
    xs.mapM f = .error e ↔
      ∃ x ∈ xs, f x = .error e ∧ ∀ y ∈ xs, r y x → ∃ b, f y = .ok b := by
  rw [← failure?_eq_some_iff, failure?_mapM_eq_findSome?, List.findSome?_eq_some_iff]
  simp only [failure?_eq_some_iff, failure?_eq_none_iff]
  constructor
  · rintro ⟨before, x, behind, rfl, fails, passed⟩
    refine ⟨x, List.mem_append_right _ List.mem_cons_self, fails, fun y member less => ?_⟩
    rcases List.mem_append.mp member with member | member
    · exact passed y member
    · rcases List.mem_cons.mp member with rfl | member
      · exact absurd less (asymm less)
      · have later := (List.pairwise_append.mp ordered).2.1
        exact absurd less (asymm (List.rel_of_pairwise_cons later member))
  · rintro ⟨x, member, fails, passed⟩
    obtain ⟨before, behind, rfl⟩ := List.append_of_mem member
    refine ⟨before, x, behind, rfl, fails, fun y inside => ?_⟩
    have less := (List.pairwise_append.mp ordered).2.2 y inside x List.mem_cons_self
    exact passed y (List.mem_append_left _ inside) less

end RowStore
