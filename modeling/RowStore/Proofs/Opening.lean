import RowStore.Proofs.Pulling
import RowStore.Query.Run

namespace RowStore.Plan

variable {τ : Type} [Storage τ]

/-- The stored values of a table, each as the row that it decodes to, in the order of their keys. -/
def storedRows (s : Schema) (table : String) (asName : Option String) (store : τ) : Yield :=
  (Storage.scan store (RowKey.low table) (RowKey.high table)).map (decoded (exposed s asName))

/-- Both inputs open before the rows of either are read. -/
def joined (left right : Result Yield) : Result Yield := do
  let xs ← left
  let ys ← right
  let leftRows ← xs.rows
  let rightRows ← ys.rows
  return (crossProduct leftRows rightRows).map .ok

/-- What a plan yields once it is open, or why it does not open, with the store after it. -/
def opening (c : Catalog) : Plan Empty → τ → Result Yield × τ
  | scan table asName, store =>
      (((c.table table).mapError fun e => .reported (.catalog e)).map fun s =>
        storedRows s table asName store, store)
  | selection input condition, store =>
      let (below, store) := input.opening c store
      (below.map (Yield.selected fun row => condition.holds row), store)
  | projection input columns, store =>
      let (below, store) := input.opening c store
      (below.map (Yield.projected (project columns)), store)
  | limit input count, store =>
      let (below, store) := input.opening c store
      (below.map (Yield.limited count), store)
  | join left right, store =>
      match left.opening c store with
      | (.error e, store) => (.error e, store)
      | (.ok xs, store) =>
          let (ys, store) := right.opening c store
          (joined (.ok xs) ys, store)
  | insertion i, store =>
      match i.target c with
      | .error e => (.error (.reported e), store)
      | .ok target =>
          let (result, _, store) := i.write target i.tuples store
          (result.map fun () => [], store)
  | tables, store => (.ok (c.names.map (listed (listingSchema c.names))), store)

/-- A state that opening left, where it succeeded. -/
def Ready (p : Plan Empty) (outcome : Result Yield) (s : p.State) : Prop :=
  ∀ xs, outcome = .ok xs → p.Open s ∧ p.yields s = xs

theorem ready_error {p : Plan Empty} {e : Failure QueryError} {s : p.State} : p.Ready (.error e) s :=
  fun _ h => nomatch h

theorem start_eq_opening (c : Catalog) (p : Plan Empty) (s : p.State) (store : τ) :
    ∃ s', p.start c s ⟨store, ()⟩ =
        ((p.opening c store).1.map (fun _ => ()), s', ⟨(p.opening c store).2, ()⟩) ∧
      p.Ready (p.opening c store).1 s' := by
  induction p generalizing store with
  | scan table asName =>
      cases there : c.table table with
      | error e =>
          refine ⟨s, ?_, ?_⟩
          · simp only [start, opening, there, Except.mapError, Except.map]
          · simp only [opening, there, Except.mapError, Except.map, ready_error]
      | ok schema =>
          refine ⟨some ⟨exposed schema asName,
            Cursor.ofList (Storage.scan store (RowKey.low table) (RowKey.high table))⟩, ?_, ?_⟩
          · simp only [start, opening, there, Except.mapError, Except.map]
          · intro xs yielded
            simp only [opening, there, Except.mapError, Except.map, Except.ok.injEq] at yielded
            exact ⟨rfl, yielded⟩
  | selection input condition ih =>
      rcases (s : Passing input.State) with ⟨below, isOpen⟩
      obtain ⟨below', started, ready⟩ := ih below store
      rcases opens : input.opening c store with ⟨outcome, store'⟩
      rw [opens] at started ready
      simp only [start, started, opening, opens]
      cases outcome with
      | error e => exact ⟨⟨below', isOpen⟩, rfl, ready_error⟩
      | ok xs =>
          obtain ⟨opened, coming⟩ := ready xs rfl
          refine ⟨⟨below', true⟩, rfl, ?_⟩
          rintro _ ⟨⟩
          exact ⟨⟨rfl, opened⟩, congrArg (Yield.selected fun row => condition.holds row) coming⟩
  | projection input columns ih =>
      rcases (s : Projecting columns input.State) with ⟨below, layout, isOpen⟩
      obtain ⟨below', started, ready⟩ := ih below store
      rcases opens : input.opening c store with ⟨outcome, store'⟩
      rw [opens] at started ready
      simp only [start, started, opening, opens]
      cases outcome with
      | error e => exact ⟨⟨below', layout, isOpen⟩, rfl, ready_error⟩
      | ok xs =>
          obtain ⟨opened, coming⟩ := ready xs rfl
          refine ⟨⟨below', layout, true⟩, rfl, ?_⟩
          rintro _ ⟨⟩
          exact ⟨⟨rfl, opened⟩, congrArg (Yield.projected (project columns)) coming⟩
  | limit input count ih =>
      rcases (s : Limiting input.State) with ⟨below, returned, isOpen⟩
      obtain ⟨below', started, ready⟩ := ih below store
      rcases opens : input.opening c store with ⟨outcome, store'⟩
      rw [opens] at started ready
      simp only [start, started, opening, opens]
      cases outcome with
      | error e => exact ⟨⟨below', returned, isOpen⟩, rfl, ready_error⟩
      | ok xs =>
          obtain ⟨opened, coming⟩ := ready xs rfl
          refine ⟨⟨below', 0, true⟩, rfl, ?_⟩
          rintro _ ⟨⟩
          exact ⟨⟨rfl, opened⟩, congrArg (Yield.limited count) coming⟩
  | join left right ihl ihr =>
      rcases (s : Joining left.State right.State) with ⟨l, r, output, isOpen⟩
      obtain ⟨l₁, startedLeft, readyLeft⟩ := ihl l store
      rcases opensLeft : left.opening c store with ⟨outcome, store₁⟩
      rw [opensLeft] at startedLeft readyLeft
      cases outcome with
      | error e =>
          simp only [start, startedLeft, opening, opensLeft]
          exact ⟨⟨l₁, r, output, isOpen⟩, rfl, ready_error⟩
      | ok xs =>
          obtain ⟨openedLeft, comingLeft⟩ := readyLeft xs rfl
          obtain ⟨r₁, startedRight, readyRight⟩ := ihr r store₁
          rcases opensRight : right.opening c store₁ with ⟨outcome, store₂⟩
          rw [opensRight] at startedRight readyRight
          simp only [start, startedLeft, Except.map, startedRight, opening, opensLeft, opensRight]
          cases outcome with
          | error e => exact ⟨⟨l₁, r₁, output, isOpen⟩, rfl, ready_error⟩
          | ok ys =>
              obtain ⟨openedRight, comingRight⟩ := readyRight ys rfl
              obtain ⟨l₂, drainedLeft, _⟩ := drain_of_pulls (next_of_open left) ()
                (Nat.lt_succ_of_le (length_yields_le left l₁)) openedLeft
              obtain ⟨r₂, drainedRight, _⟩ := drain_of_pulls (next_of_open right) ()
                (Nat.lt_succ_of_le (length_yields_le right r₁)) openedRight
              rw [comingLeft] at drainedLeft
              rw [comingRight] at drainedRight
              simp only [joined, ok_bind, drainedLeft]
              cases xs.rows with
              | error e => exact ⟨⟨l₂, r₁, output, isOpen⟩, rfl, ready_error⟩
              | ok leftRows =>
                  simp only [drainedRight]
                  cases ys.rows with
                  | error e => exact ⟨⟨l₂, r₂, output, isOpen⟩, rfl, ready_error⟩
                  | ok rightRows =>
                      refine ⟨⟨l₂, r₂, crossProduct leftRows rightRows, true⟩, rfl, ?_⟩
                      rintro _ ⟨⟩
                      exact ⟨rfl, rfl⟩
  | insertion i =>
      rcases (s : Inserting) with ⟨affected, isOpen⟩
      cases known : i.target c with
      | error e =>
          simp only [start, opening, known]
          exact ⟨⟨affected, isOpen⟩, rfl, ready_error⟩
      | ok target =>
          rcases written : i.write target i.tuples store with ⟨result, count, store'⟩
          simp only [start, opening, known, written]
          cases result with
          | error e => exact ⟨⟨count, isOpen⟩, rfl, ready_error⟩
          | ok u =>
              refine ⟨⟨count, true⟩, rfl, ?_⟩
              rintro _ ⟨⟩
              exact ⟨rfl, rfl⟩
  | tables =>
      refine ⟨some ⟨listingSchema c.names, c.names⟩, rfl, ?_⟩
      rintro xs ⟨⟩
      exact ⟨rfl, rfl⟩
  | source s => exact s.elim

/-- What a plan yields after an opening that succeeded. -/
theorem opening_of_start {c : Catalog} {p : Plan Empty} {s : p.State} {store : τ}
    (started : (p.start c s ⟨store, ()⟩).1 = .ok ()) :
    ∃ xs, (p.opening c store).1 = .ok xs ∧ p.Open (p.start c s ⟨store, ()⟩).2.1 ∧
      p.yields (p.start c s ⟨store, ()⟩).2.1 = xs := by
  obtain ⟨s', same, ready⟩ := start_eq_opening c p s store
  rw [same] at started ⊢
  obtain ⟨xs, outcome, _⟩ := map_eq_ok_iff.mp started
  exact ⟨xs, outcome, ready xs outcome⟩

/-- Closing never fails. -/
theorem close_succeeds (p : Plan Empty) (s : p.State) : ∃ s', p.close s () = (.ok (), s', ()) := by
  induction p with
  | scan table asName => exact ⟨none, rfl⟩
  | selection input condition ih =>
      obtain ⟨below, closed⟩ := ih (s : Passing _).input
      exact ⟨⟨below, false⟩, by simp only [close, closed]⟩
  | projection input columns ih =>
      obtain ⟨below, closed⟩ := ih (s : Projecting _ _).input
      exact ⟨⟨below, none, false⟩, by simp only [close, closed]⟩
  | limit input count ih =>
      obtain ⟨below, closed⟩ := ih (s : Limiting _).input
      exact ⟨⟨below, (s : Limiting _).returned, false⟩, by simp only [close, closed]⟩
  | join left right ihl ihr =>
      obtain ⟨l, closedLeft⟩ := ihl (s : Joining _ _).left
      obtain ⟨r, closedRight⟩ := ihr (s : Joining _ _).right
      exact ⟨⟨l, r, [], false⟩, by simp only [close, closedLeft, closedRight, Except.bind]⟩
  | insertion i => exact ⟨{ (s : Inserting) with isOpen := false }, rfl⟩
  | tables => exact ⟨none, rfl⟩
  | source s => exact s.elim

/-- Executing a plan gives all that it yields, and fails where the first call does. What the plan
was used for before makes no difference. -/
theorem execute_eq (c : Catalog) (p : Plan Empty) (s : p.State) (store : τ) :
    ∃ s', p.execute c s ⟨store, ()⟩ =
      ((p.opening c store).1 >>= Yield.rows, s', ⟨(p.opening c store).2, ()⟩) := by
  obtain ⟨s₁, started, ready⟩ := start_eq_opening c p s store
  rcases opens : p.opening c store with ⟨outcome, store'⟩
  rw [opens] at started ready
  cases outcome with
  | error e =>
      obtain ⟨s', closed⟩ := close_succeeds p s₁
      cases e with
      | reported e =>
          refine ⟨s', ?_⟩
          simp only [execute, startAndDrain, started, Except.map, closed, Except.bind]
          rfl
      | panic reason =>
          refine ⟨s₁, ?_⟩
          simp only [execute, startAndDrain, started, Except.map]
          rfl
  | ok xs =>
      obtain ⟨opened, coming⟩ := ready xs rfl
      obtain ⟨s₂, drained, _⟩ := drain_of_pulls (next_of_open p) ()
        (Nat.lt_succ_of_le (length_yields_le p s₁)) opened
      obtain ⟨s', closed⟩ := close_succeeds p s₂
      rw [coming] at drained
      cases outcome : xs.rows with
      | error e =>
          rw [outcome] at drained
          cases e with
          | reported e =>
              refine ⟨s', ?_⟩
              simp only [execute, startAndDrain, started, Except.map, drained, closed, ok_bind,
                outcome, Except.bind]
          | panic reason =>
              refine ⟨s₂, ?_⟩
              simp only [execute, startAndDrain, started, Except.map, drained, ok_bind, outcome]
      | ok rows =>
          rw [outcome] at drained
          refine ⟨s', ?_⟩
          simp only [execute, startAndDrain, started, Except.map, drained, closed, ok_bind, outcome,
            Except.bind]

theorem runPlan_eq (c : Catalog) (p : Plan Empty) (store : τ) :
    Query.runPlan c p store = ((p.opening c store).1 >>= Yield.rows, (p.opening c store).2) := by
  obtain ⟨s', executed⟩ := execute_eq c p p.fresh store
  simp only [Query.runPlan, executed]

end RowStore.Plan
