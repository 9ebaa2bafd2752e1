import RowStore.Proofs.Calling
import RowStore.Proofs.Effects

/-! A plan that is opened again answers as a new one does. Its operators still hold what the calls
before have left in them, but none of that can be told from outside. -/
namespace RowStore.Plan

variable {τ : Type} [Storage τ]

/-- What so many calls of next return, one after another. -/
def results (p : Plan Empty) : Nat → p.State → List (Result (Option Row))
  | 0, _ => []
  | n + 1, s => (p.next s ()).1 :: p.results n (p.next s ()).2.1

/-- Open states that are about to yield the same cannot be told apart by next. -/
theorem results_of_yields {p : Plan Empty} {s s' : p.State} (opened : p.Open s)
    (opened' : p.Open s') (same : p.yields s = p.yields s') (n : Nat) :
    p.results n s = p.results n s' := by
  induction n generalizing s s' with
  | zero => rfl
  | succ n ih =>
      obtain ⟨later, called, kept, rest⟩ := next_of_open p s () opened
      obtain ⟨later', called', kept', rest'⟩ := next_of_open p s' () opened'
      have sameRest : p.yields later = p.yields later' := by rw [rest, rest', same]
      simp only [results, called, called', same, ih kept kept' sameRest]

/-- From any two states a plan opens with the same result and the same effect on the store. -/
theorem start_agrees (c : Catalog) (p : Plan Empty) (s s' : p.State) (store : τ) :
    (p.start c s ⟨store, ()⟩).1 = (p.start c s' ⟨store, ()⟩).1 ∧
      (p.start c s ⟨store, ()⟩).2.2 = (p.start c s' ⟨store, ()⟩).2.2 := by
  obtain ⟨_, started, _⟩ := start_eq_opening c p s store
  obtain ⟨_, started', _⟩ := start_eq_opening c p s' store
  rw [started, started']
  exact ⟨rfl, rfl⟩

theorem results_agree {c : Catalog} {p : Plan Empty} {store : τ} (s s' : p.State)
    (succeeds : (p.start c s ⟨store, ()⟩).1 = .ok ()) (n : Nat) :
    p.results n (p.start c s ⟨store, ()⟩).2.1 = p.results n (p.start c s' ⟨store, ()⟩).2.1 := by
  obtain ⟨xs, opens, opened, coming⟩ := opening_of_start succeeds
  have again := (start_agrees c p s s' store).1.symm.trans succeeds
  obtain ⟨_, opens', opened', coming'⟩ := opening_of_start again
  obtain rfl := Except.ok.inj (opens.symm.trans opens')
  exact results_of_yields opened opened' (coming.trans coming'.symm) n

theorem execute_agrees (c : Catalog) (p : Plan Empty) (s s' : p.State) (store : τ) :
    (p.execute c s ⟨store, ()⟩).1 = (p.execute c s' ⟨store, ()⟩).1 ∧
      (p.execute c s ⟨store, ()⟩).2.2 = (p.execute c s' ⟨store, ()⟩).2.2 := by
  obtain ⟨_, executed⟩ := execute_eq c p s store
  obtain ⟨_, executed'⟩ := execute_eq c p s' store
  rw [executed, executed']
  exact ⟨rfl, rfl⟩

/-- A plan that inserts nothing leaves the store as it was. -/
theorem execute_of_readsOnly {p : Plan Empty} {allowed : String → Prop}
    (reads : p.ReadsOnly allowed) (c : Catalog) (s : p.State) (store : τ) :
    (p.execute c s ⟨store, ()⟩).2.2 = ⟨store, ()⟩ := by
  obtain ⟨_, executed⟩ := execute_eq c p s store
  rw [executed, store_of_readsOnly reads]

/-- Whatever calls came before, opening a plan gives what opening a new one gives: the result, the
store after it and, where it succeeds, all that next then returns. Executed again over the same
store, it returns the same rows; if it inserts nothing, the store is the same. -/
theorem reopened_plan_answers_like_new (p : Plan Empty) (requests : List (Request τ)) (c : Catalog)
    (store : τ) :
    (p.start c (p.afterAll requests) ⟨store, ()⟩).1 = (p.start c p.fresh ⟨store, ()⟩).1 ∧
      (p.start c (p.afterAll requests) ⟨store, ()⟩).2.2 = (p.start c p.fresh ⟨store, ()⟩).2.2 ∧
      ((p.start c (p.afterAll requests) ⟨store, ()⟩).1 = .ok () → ∀ n,
        p.results n (p.start c (p.afterAll requests) ⟨store, ()⟩).2.1 =
          p.results n (p.start c p.fresh ⟨store, ()⟩).2.1) ∧
      let run := p.execute c (p.afterAll requests) ⟨store, ()⟩
      (p.execute c run.2.1 ⟨store, ()⟩).1 = run.1 ∧
        (p.execute c run.2.1 ⟨store, ()⟩).2.2 = run.2.2 ∧
        (p.ReadsOnly (fun _ => True) → run.2.2 = ⟨store, ()⟩) := by
  obtain ⟨result, effect⟩ := start_agrees c p (p.afterAll requests) p.fresh store
  refine ⟨result, effect, fun succeeds => results_agree _ _ succeeds, ?_⟩
  intro run
  obtain ⟨rows, after⟩ := execute_agrees c p run.2.1 (p.afterAll requests) store
  exact ⟨rows, after, fun reads => execute_of_readsOnly reads c _ store⟩

/-- Three of four joined rows were left when the plan failed to open again. Over a smaller store it
then returns the one row that there is, and stops. -/
theorem reopened_plan_answers_like_new_of_abandoned_run :
    let t : Schema := ⟨"t", [.plain .int32 "id"]⟩
    let c : Catalog := ⟨OrderedMap.empty.insert "t" t⟩
    let two : Entries := .ofList [(RowKey.ofText "t" "1", [2, 0, 0, 0]),
      (RowKey.ofText "t" "2", [4, 0, 0, 0])]
    let one : Entries := .ofList [(RowKey.ofText "t" "3", [6, 0, 0, 0])]
    let p : Plan Empty := .limit (.projection (.join (.scan "t" none) (.scan "t" (some "u")))
      [("u.id", "other")]) 2
    let requests : List (Request Entries) := [.start c two, .next, .start .empty two]
    (p.start .empty (p.afterAll requests) ⟨two, ()⟩).1 =
        .error (.reported (.catalog (.unknownTable "t"))) ∧
      (p.start c (p.afterAll requests) ⟨one, ()⟩).1 = .ok () ∧
      p.results 3 (p.start c (p.afterAll requests) ⟨one, ()⟩).2.1 =
        [.ok (some ⟨⟨"(t,u)", [.plain .int32 "other"]⟩, [.int32 3]⟩), .ok none, .ok none] ∧
      (p.execute c (p.execute c (p.afterAll requests) ⟨one, ()⟩).2.1 ⟨one, ()⟩).1 =
        .ok [⟨⟨"(t,u)", [.plain .int32 "other"]⟩, [.int32 3]⟩] := by
  intro t c two one p requests
  obtain ⟨_, _, again, rows, _⟩ := reopened_plan_answers_like_new p requests c one
  have succeeds : (p.start c (p.afterAll requests) ⟨one, ()⟩).1 = .ok () := rfl
  refine ⟨rfl, succeeds, ?_, ?_⟩
  · rw [again succeeds 3]
    rfl
  · rw [rows]
    rfl

end RowStore.Plan
