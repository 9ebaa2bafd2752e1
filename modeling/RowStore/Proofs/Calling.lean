import RowStore.Proofs.Opening

namespace RowStore.Plan

/-- A call on the root. Each opening may see another catalog and another store. -/
inductive Request (τ : Type)
  | start (c : Catalog) (store : τ)
  | next
  | close

variable {τ : Type} [Storage τ]

/-- The state that a call leaves, whether it succeeds or not. -/
def after (p : Plan Empty) (s : p.State) : Request τ → p.State
  | .start c store => (p.start c s ⟨store, ()⟩).2.1
  | .next => (p.next s ()).2.1
  | .close => (p.close s ()).2.1

/-- The state of a new plan after some calls. -/
def afterAll (p : Plan Empty) (requests : List (Request τ)) : p.State :=
  requests.foldl p.after p.fresh

/-- The rows that so many calls return. -/
def pulled (p : Plan Empty) : Nat → p.State → List Row
  | 0, _ => []
  | n + 1, s =>
      match p.next s () with
      | (.ok (some row), s, _) => row :: p.pulled n s
      | (_, s, _) => p.pulled n s

/-- What a new plan has and every call keeps holds after any calls. -/
theorem invariant_afterAll {p : Plan Empty} {I : p.State → Prop} (fresh : I p.fresh)
    (step : ∀ s (request : Request τ), I s → I (p.after s request))
    (requests : List (Request τ)) : I (p.afterAll requests) := by
  have run : ∀ s, I s → I (requests.foldl p.after s) := by
    induction requests with
    | nil => exact fun _ => id
    | cons request requests ih => exact fun s h => ih _ (step s request h)
  exact run p.fresh fresh

/-- A call keeps `I`, and a row that it returns is `good`. -/
def Keeps {S : Type} (next : S → Unit → Call (Option Row) S Unit) (I : S → Prop)
    (good : Row → Prop) : Prop :=
  ∀ s w, I s → I (next s w).2.1 ∧ ∀ row, (next s w).1 = .ok (some row) → good row

section Keeps

variable {S : Type} {next : S → Unit → Call (Option Row) S Unit} {I : S → Prop}
  {good : Row → Prop}

theorem not_returned_of_error {e : Failure QueryError} (row : Row)
    (returned : (.error e : Result (Option Row)) = .ok (some row)) : good row := by
  cases returned

theorem not_returned_of_none (row : Row)
    (returned : (.ok none : Result (Option Row)) = .ok (some row)) : good row := by
  cases returned

theorem seek_keeps (keeps : Keeps next I good) (condition : Condition) (fuel : Nat) :
    Keeps (seek condition next fuel) I good := by
  induction fuel with
  | zero => exact fun s w holds => ⟨holds, not_returned_of_none⟩
  | succ fuel ih =>
      intro s w holds
      obtain ⟨kept, returned⟩ := keeps s w holds
      rcases called : next s w with ⟨_ | _ | row, s', w'⟩ <;> rw [called] at kept returned <;>
        simp only [seek, called]
      · exact ⟨kept, not_returned_of_error⟩
      · exact ⟨kept, not_returned_of_none⟩
      · cases condition.holds row with
        | error e => exact ⟨kept, not_returned_of_error⟩
        | ok met =>
            cases met with
            | true => exact ⟨kept, returned⟩
            | false => exact ih s' w' kept

theorem drain_keeps (keeps : Keeps next I good) (fuel : Nat) {s : S} (holds : I s) (w : Unit) :
    I (drain next fuel s w).2.1 ∧
      ∀ rows, (drain next fuel s w).1 = .ok rows → ∀ row ∈ rows, good row := by
  induction fuel generalizing s w with
  | zero =>
      refine ⟨holds, fun rows drained => ?_⟩
      obtain rfl := Except.ok.inj drained
      exact List.forall_mem_nil _
  | succ fuel ih =>
      obtain ⟨kept, returned⟩ := keeps s w holds
      rcases called : next s w with ⟨_ | _ | row, s', w'⟩ <;> rw [called] at kept returned <;>
        simp only [drain, called]
      · exact ⟨kept, by simp⟩
      · refine ⟨kept, fun rows drained => ?_⟩
        obtain rfl := Except.ok.inj drained
        exact List.forall_mem_nil _
      · obtain ⟨later, rest⟩ := ih kept w'
        refine ⟨later, fun rows drained => ?_⟩
        obtain ⟨others, below, rfl⟩ := map_eq_ok_iff.mp drained
        exact List.forall_mem_cons.mpr ⟨returned row rfl, rest others below⟩

theorem pulled_keeps {p : Plan Empty} {I : p.State → Prop} {good : Row → Prop}
    (keeps : Keeps p.next I good) {s : p.State} (holds : I s) (n : Nat) :
    ∀ row ∈ p.pulled n s, good row := by
  induction n generalizing s with
  | zero => exact List.forall_mem_nil _
  | succ n ih =>
      obtain ⟨kept, returned⟩ := keeps s () holds
      unfold pulled
      split
      · rename_i row s' w called
        rw [called] at kept returned
        exact List.forall_mem_cons.mpr ⟨returned row rfl, ih kept⟩
      · rename_i s' w _ called
        rw [called] at kept
        exact ih kept

end Keeps

end RowStore.Plan
