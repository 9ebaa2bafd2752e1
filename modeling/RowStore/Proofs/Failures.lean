import RowStore.Proofs.Opening

/-! What plans fail for. Once a plan is open, and also while it opens, no operator is called before
it was opened itself: every error has its reason in a catalog, in a stored row or in a query. -/
namespace RowStore

/-- The error is not that an operator was used before it was open. -/
def QueryError.Settled (e : QueryError) : Prop := ∀ name, e ≠ .execution (.notOpen name)

def Failure.Settled : Failure QueryError → Prop
  | .reported e => e.Settled
  | .panic _ => True

/-- The computation fails for no other reasons than these. -/
def FailsOnly {ε α : Type} (reason : ε → Prop) : Except ε α → Prop
  | .ok _ => True
  | .error e => reason e

abbrev Settled {α : Type} (x : Result α) : Prop := FailsOnly Failure.Settled x

section FailsOnly

variable {α β ε ε' : Type} {reason : ε → Prop}

theorem failsOnly_mapError (x : Except ε' α) {f : ε' → ε} (each : ∀ e, reason (f e)) :
    FailsOnly reason (x.mapError f) := by
  cases x with
  | ok a => trivial
  | error e => exact each e

theorem failsOnly_bind {x : Except ε α} {f : α → Except ε β} (first : FailsOnly reason x)
    (second : ∀ a, FailsOnly reason (f a)) : FailsOnly reason (x >>= f) := by
  cases x with
  | ok a => exact second a
  | error e => exact first

theorem failsOnly_map {x : Except ε α} (f : α → β) (inner : FailsOnly reason x) :
    FailsOnly reason (x.map f) := by
  cases x with
  | ok a => trivial
  | error e => exact inner

theorem failsOnly_mapM {f : α → Except ε β} (xs : List α)
    (each : ∀ x ∈ xs, FailsOnly reason (f x)) : FailsOnly reason (xs.mapM f) := by
  induction xs with
  | nil => trivial
  | cons x xs ih =>
      obtain ⟨first, rest⟩ := List.forall_mem_cons.mp each
      rw [List.mapM_cons]
      apply failsOnly_bind first
      intro y
      apply failsOnly_bind (ih rest)
      intro ys
      trivial

theorem Settled.ne_notOpen {x : Result α} (settled : Settled x) (name : String) :
    x ≠ .error (.reported (.execution (.notOpen name))) := by
  rintro rfl
  exact settled name rfl

/-- What is settled stays so where it is reported. -/
theorem settled_reported {x : Except QueryError α} (inner : FailsOnly QueryError.Settled x) :
    Settled (x.mapError .reported) := by
  cases x with
  | ok a => trivial
  | error e => exact inner

theorem settled_codec (x : Except (Failure CodecError) α) :
    Settled (x.mapError (Failure.map .codec)) := by
  apply failsOnly_mapError
  rintro (e | p)
  · exact nofun
  · trivial

end FailsOnly

/-! Conditions, projections and insertions fail for reasons of their own. -/

theorem Condition.settled_value (row : Row) (c : Condition) :
    FailsOnly QueryError.Settled (c.value row) := by
  cases c with
  | literal v => trivial
  | column name =>
      simp only [value]
      split
      · trivial
      · exact nofun
  | comparison => exact nofun

theorem Condition.settled_holds (row : Row) (c : Condition) :
    FailsOnly QueryError.Settled (c.holds row) := by
  have scalar (c : Condition) : FailsOnly QueryError.Settled (do return (← c.value row).isTruthy) :=
    failsOnly_bind (c.settled_value row) fun _ => trivial
  cases c with
  | comparison op left right =>
      apply failsOnly_bind (left.settled_value row)
      intro a
      apply failsOnly_bind (right.settled_value row)
      intro b
      trivial
  | literal v => exact scalar (.literal v)
  | column name => exact scalar (.column name)

theorem settled_project (columns : List (String × String)) (row : Row) :
    FailsOnly QueryError.Settled (project columns row) := by
  have known : FailsOnly QueryError.Settled (projectedColumns row.schema columns) := by
    apply failsOnly_mapM
    intro pair _
    dsimp only
    split
    · trivial
    · exact nofun
  apply failsOnly_bind known
  intro taken
  refine failsOnly_bind (failsOnly_mapM taken ?_) fun _ => trivial
  intro pair _
  dsimp only
  split
  · trivial
  · exact nofun
  · exact nofun

namespace Insertion

theorem settled_declaredOrdinals (table : String) (s : Schema) (names : List String)
    (seen : List Nat) : FailsOnly QueryError.Settled (declaredOrdinals table s seen names) := by
  induction names generalizing seen with
  | nil => trivial
  | cons name names ih =>
      unfold declaredOrdinals
      split
      · exact nofun
      · split
        · exact nofun
        · exact ih _

theorem settled_target (i : Insertion) (c : Catalog) :
    FailsOnly QueryError.Settled (i.target c) := by
  apply failsOnly_bind (failsOnly_mapError _ fun _ => nofun)
  intro s
  have positions : FailsOnly QueryError.Settled (i.positions s) := by
    unfold positions
    split
    · trivial
    · split
      · exact nofun
      · exact failsOnly_bind (settled_declaredOrdinals _ _ _ _) fun _ => trivial
  have key : FailsOnly QueryError.Settled (i.keyColumn s) := by
    unfold keyColumn
    split
    · exact nofun
    · split
      · trivial
      · exact nofun
  apply failsOnly_bind positions
  intro places
  exact failsOnly_bind key fun _ => trivial

theorem coerce_ne_notOpen (c : Column) (v : Value) (name : String) :
    coerce c v ≠ .error (.notOpen name) := by
  unfold coerce
  dsimp only
  repeat' split
  all_goals nofun

theorem settled_entry (i : Insertion) (t : Target) (tuple : List Value) :
    Settled (i.entry t tuple) := by
  have picked (c : Column) (position : Nat) :
      FailsOnly QueryError.Settled (pick tuple c position) := by
    unfold pick
    split
    · rename_i v _
      cases done : coerce c v with
      | ok v' => trivial
      | error e =>
          rintro name ⟨⟩
          exact coerce_ne_notOpen c v name done
    · exact nofun
  unfold entry
  split
  · exact nofun
  · apply failsOnly_bind
      (settled_reported (failsOnly_mapM _ fun pair _ => picked pair.1 pair.2))
    intro values
    split
    · exact nofun
    · exact failsOnly_bind (settled_codec _) fun _ => trivial

theorem settled_write {τ : Type} [Storage τ] (i : Insertion) (t : Target)
    (tuples : List (List Value)) (store : τ) : Settled (i.write t tuples store).1 := by
  induction tuples generalizing store with
  | nil => trivial
  | cons tuple tuples ih =>
      have taken := i.settled_entry t tuple
      unfold write
      split
      · rename_i e failed
        rw [failed] at taken
        exact taken
      · split
        · exact nofun
        · exact ih _

end Insertion

theorem Yield.mem_of_mem_limited {n : Nat} {xs : Yield} {x : Result Row}
    (member : x ∈ limited n xs) : x ∈ xs := by
  induction xs generalizing n with
  | nil => cases n <;> exact member
  | cons y ys ih =>
      cases n with
      | zero => nomatch member
      | succ n =>
          cases y <;> rcases List.mem_cons.mp member with rfl | later
          · exact List.mem_cons_self
          · exact List.mem_cons_of_mem _ (ih later)
          · exact List.mem_cons_self
          · exact List.mem_cons_of_mem _ (ih later)

namespace Plan

theorem settled_yields (p : Plan Empty) (s : p.State) : ∀ x ∈ p.yields s, Settled x := by
  intro x member
  induction p generalizing x with
  | scan table asName =>
      cases (s : Option Scanning) with
      | none => cases member
      | some scanning =>
          obtain ⟨e, _, rfl⟩ := List.mem_map.mp member
          exact settled_codec _
  | selection input condition ih =>
      obtain ⟨y, below, kept⟩ := List.mem_filterMap.mp member
      have settled := ih (s : Passing _).input y below
      cases y with
      | error e => exact Option.some.inj kept ▸ settled
      | ok row =>
          have decided := condition.settled_holds row
          simp only [Yield.kept] at kept
          split at kept
          · exact Option.some.inj kept ▸ settled
          · cases kept
          · rename_i e failed
            rw [failed] at decided
            exact Option.some.inj kept ▸ decided
  | projection input columns ih =>
      obtain ⟨y, below, rfl⟩ := List.mem_map.mp member
      exact failsOnly_bind (ih (s : Projecting _ _).input y below) fun row =>
        settled_reported (settled_project columns row)
  | limit input count ih => exact ih (s : Limiting _).input x (Yield.mem_of_mem_limited member)
  | join left right =>
      obtain ⟨row, _, rfl⟩ := List.mem_map.mp member
      trivial
  | insertion i => cases member
  | tables =>
      cases (s : Option Listing) with
      | none => cases member
      | some listing =>
          obtain ⟨name, _, rfl⟩ := List.mem_map.mp member
          trivial
  | source s => exact s.elim

variable {τ : Type} [Storage τ]

theorem settled_rows {xs : Yield} (each : ∀ x ∈ xs, Settled x) : Settled xs.rows :=
  failsOnly_mapM xs each

/-- What an opened plan yields is settled, for some state of the plan yields it. -/
theorem settled_of_opening {p : Plan Empty} {c : Catalog} {store : τ} {xs : Yield}
    (opens : (p.opening c store).1 = .ok xs) : ∀ x ∈ xs, Settled x := by
  obtain ⟨s, _, ready⟩ := start_eq_opening c p p.fresh store
  obtain ⟨_, coming⟩ := ready xs opens
  rw [← coming]
  exact p.settled_yields s

/-- No opening meets an operator that is not open. A join reads its inputs after it opened them. -/
theorem settled_opening (c : Catalog) (p : Plan Empty) (store : τ) :
    Settled (p.opening c store).1 := by
  induction p generalizing store with
  | scan table asName => exact failsOnly_map _ (failsOnly_mapError _ fun _ => nofun)
  | selection input condition ih => exact failsOnly_map _ (ih store)
  | projection input columns ih => exact failsOnly_map _ (ih store)
  | limit input count ih => exact failsOnly_map _ (ih store)
  | join left right ihl ihr =>
      have settledLeft := ihl store
      rcases opensLeft : left.opening c store with ⟨_ | xs, store'⟩ <;>
        rw [opensLeft] at settledLeft
      · rw [opening, opensLeft]
        exact settledLeft
      · have settledRight := ihr store'
        rcases opensRight : right.opening c store' with ⟨_ | ys, store''⟩ <;>
          rw [opensRight] at settledRight <;> simp only [opening, opensLeft, opensRight, joined]
        · exact settledRight
        · have lefts : ∀ x ∈ xs, Settled x := settled_of_opening (congrArg Prod.fst opensLeft)
          have rights : ∀ y ∈ ys, Settled y := settled_of_opening (congrArg Prod.fst opensRight)
          apply failsOnly_bind (settled_rows lefts)
          intro leftRows
          exact failsOnly_bind (settled_rows rights) fun _ => trivial
  | insertion i =>
      have settled := i.settled_target c
      rcases known : i.target c with e | target <;> rw [known] at settled <;>
        simp only [opening, known]
      · exact settled
      · exact failsOnly_map _ (i.settled_write target i.tuples store)
  | tables => trivial
  | source s => exact s.elim

theorem settled_next {p : Plan Empty} {s : p.State} (opened : p.Open s) :
    Settled (p.next s ()).1 := by
  obtain ⟨s', called, _⟩ := next_of_open p s () opened
  have each := settled_yields p s
  rw [called]
  cases coming : p.yields s with
  | nil => trivial
  | cons x xs => exact failsOnly_map some (each x (coming ▸ List.mem_cons_self))

end Plan
end RowStore
