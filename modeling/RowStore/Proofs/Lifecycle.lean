import Mathlib.Data.List.Induction
import RowStore.Proofs.Calling
import RowStore.Proofs.Failures

/-! The lifecycle of a plan through any calls on its root. Two things are followed from call to
call: whether the root is open, and, once it is, that all the operators it pulls from are open
too. -/
namespace RowStore.Plan

variable {τ : Type} [Storage τ]

/-- Whether the operator itself is open. Most keep a flag; a scan is open while it holds a cursor,
and a listing of tables while it holds a schema. -/
def isOpen : (p : Plan Empty) → p.State → Bool
  | scan .., s => (s : Option Scanning).isSome
  | selection .., (s : Passing _) => s.isOpen
  | projection .., (s : Projecting _ _) => s.isOpen
  | limit .., (s : Limiting _) => s.isOpen
  | join .., (s : Joining _ _) => s.isOpen
  | insertion _, (s : Inserting) => s.isOpen
  | tables, s => (s : Option Listing).isSome

/-- No operator of the tree is open, holds a cursor, or holds rows or a layout for rows. -/
def Closed : (p : Plan Empty) → p.State → Prop
  | scan .., s => (s : Option Scanning) = none
  | selection input _, (s : Passing _) => s.isOpen = false ∧ input.Closed s.input
  | projection input _, (s : Projecting _ _) =>
      s.isOpen = false ∧ s.layout = none ∧ input.Closed s.input
  | limit input _, (s : Limiting _) => s.isOpen = false ∧ input.Closed s.input
  | join left right, (s : Joining _ _) =>
      s.isOpen = false ∧ s.output = [] ∧ left.Closed s.left ∧ right.Closed s.right
  | insertion _, (s : Inserting) => s.isOpen = false
  | tables, s => (s : Option Listing) = none

theorem isOpen_of_open {p : Plan Empty} {s : p.State} (opened : p.Open s) : p.isOpen s = true := by
  cases p with
  | scan | join | insertion | tables => exact opened
  | selection | projection | limit => exact opened.1
  | source s => exact s.elim

theorem isOpen_of_closed {p : Plan Empty} {s : p.State} (closed : p.Closed s) :
    p.isOpen s = false := by
  cases p with
  | scan | tables =>
      obtain rfl : s = none := closed
      rfl
  | selection | projection | limit | join => exact closed.1
  | insertion i => exact closed
  | source s => exact s.elim

theorem isOpen_fresh (p : Plan Empty) : p.isOpen p.fresh = false := by
  cases p with
  | source s => exact s.elim
  | _ => rfl

/-- An operator that is not open says so itself, whatever lies below it. -/
theorem next_of_shut {p : Plan Empty} {s : p.State} (shut : p.isOpen s = false) :
    p.next s () = (notOpen p.name, s, ()) := by
  cases p with
  | scan | tables =>
      cases s with
      | none => rfl
      | some => cases shut
  | selection | projection | limit | join | insertion =>
      cases s
      obtain rfl := shut
      rfl
  | source s => exact s.elim

/-! What one call does to openness. -/

theorem open_of_start {p : Plan Empty} {s : p.State} {c : Catalog} {store : τ}
    (started : (p.start c s ⟨store, ()⟩).1 = .ok ()) : p.Open (p.start c s ⟨store, ()⟩).2.1 := by
  obtain ⟨_, _, opened, _⟩ := opening_of_start started
  exact opened

/-- An opening that fails leaves the operator as open as it was, and what was open below it. -/
theorem openness_of_failed_start {p : Plan Empty} {s : p.State} {c : Catalog}
    {w : Surroundings τ Unit} {e : Failure QueryError} (failed : (p.start c s w).1 = .error e) :
    p.isOpen (p.start c s w).2.1 = p.isOpen s ∧ (p.Open s → p.Open (p.start c s w).2.1) := by
  induction p with
  | scan table asName =>
      cases there : c.table table with
      | error e =>
          rw [start, there]
          exact ⟨rfl, id⟩
      | ok schema =>
          simp only [start, there] at failed
          cases failed
  | selection input _ ih | projection input _ ih | limit input _ ih =>
      cases s with
      | mk below =>
          have kept := @ih below
          rcases called : input.start c below w with ⟨_ | _, below', w'⟩ <;>
            simp only [start, called] at failed kept ⊢
          · exact ⟨rfl, fun opened => ⟨opened.1, (kept failed).2 opened.2⟩⟩
          · cases failed
  | join left right =>
      -- Wherever it fails, only the inputs have changed, and an open join no longer pulls from them.
      rcases (s : Joining left.State right.State) with ⟨l, r, output, isOpen⟩
      rcases startedLeft : left.start c l w with ⟨_ | _, l₁, w₁⟩
      · simp only [start, startedLeft]
        exact ⟨rfl, id⟩
      rcases startedRight : right.start c r w₁ with ⟨_ | _, r₁, w₂⟩
      · simp only [start, startedLeft, startedRight]
        exact ⟨rfl, id⟩
      rcases drainedLeft : drain left.next (left.remaining l₁ + 1) l₁ w₂.world with
        ⟨_ | _, l₂, world⟩
      · simp only [start, startedLeft, startedRight, drainedLeft]
        exact ⟨rfl, id⟩
      rcases drainedRight : drain right.next (right.remaining r₁ + 1) r₁ world with
        ⟨_ | _, r₂, world'⟩
      · simp only [start, startedLeft, startedRight, drainedLeft, drainedRight]
        exact ⟨rfl, id⟩
      · simp only [start, startedLeft, startedRight, drainedLeft, drainedRight] at failed
        cases failed
  | insertion i =>
      rcases (s : Inserting) with ⟨affected, isOpen⟩
      cases known : i.target c with
      | error e =>
          rw [start, known]
          exact ⟨rfl, id⟩
      | ok target =>
          rcases written : i.write target i.tuples w.store with ⟨_ | _, count, store⟩
          · simp only [start, known, written]
            exact ⟨rfl, id⟩
          · simp only [start, known, written] at failed
            cases failed
  | tables => cases failed
  | source s => exact s.elim

theorem closed_close (p : Plan Empty) (s : p.State) (w : Unit) : p.Closed (p.close s w).2.1 := by
  induction p generalizing w with
  | scan table asName => rfl
  | selection input condition ih => exact ⟨rfl, ih _ w⟩
  | projection input columns ih => exact ⟨rfl, rfl, ih _ w⟩
  | limit input count ih => exact ⟨rfl, ih _ w⟩
  | join left right ihl ihr => exact ⟨rfl, rfl, ihl _ w, ihr _ _⟩
  | insertion i => rfl
  | tables => rfl
  | source s => exact s.elim

/-- Closing finds nothing to do where all is closed. -/
theorem close_of_closed {p : Plan Empty} {s : p.State} (closed : p.Closed s) :
    p.close s () = (.ok (), s, ()) := by
  induction p with
  | scan | tables =>
      obtain rfl : s = none := closed
      rfl
  | selection input condition ih =>
      rcases (s : Passing input.State) with ⟨below, isOpen⟩
      obtain ⟨rfl, closed⟩ := closed
      simp only [close, ih closed]
  | projection input columns ih =>
      rcases (s : Projecting columns input.State) with ⟨below, layout, isOpen⟩
      obtain ⟨rfl, rfl, closed⟩ := closed
      simp only [close, ih closed]
  | limit input count ih =>
      rcases (s : Limiting input.State) with ⟨below, returned, isOpen⟩
      obtain ⟨rfl, closed⟩ := closed
      simp only [close, ih closed]
  | join left right ihl ihr =>
      rcases (s : Joining left.State right.State) with ⟨l, r, output, isOpen⟩
      obtain ⟨rfl, rfl, closedLeft, closedRight⟩ := closed
      simp only [close, ihl closedLeft, ihr closedRight]
      rfl
  | insertion i =>
      rcases (s : Inserting) with ⟨affected, isOpen⟩
      obtain rfl := closed
      rfl
  | source s => exact s.elim

theorem open_after_next {p : Plan Empty} {s : p.State} (opened : p.Open s) :
    p.Open (p.after s (.next : Request τ)) := by
  obtain ⟨s', called, kept, _⟩ := next_of_open p s () opened
  rw [after, called]
  exact kept

theorem after_next_of_shut {p : Plan Empty} {s : p.State} (shut : p.isOpen s = false) :
    p.after s (.next : Request τ) = s := by
  rw [after, next_of_shut shut]

/-- If the operator is open, so are those below that it still pulls from. -/
def Connected (p : Plan Empty) (s : p.State) : Prop := p.isOpen s = true → p.Open s

theorem connected_after {p : Plan Empty} (s : p.State) (request : Request τ)
    (connected : p.Connected s) : p.Connected (p.after s request) := by
  intro opened
  cases request with
  | start c store =>
      rw [after] at opened ⊢
      cases started : (p.start c s ⟨store, ()⟩).1 with
      | ok => exact open_of_start started
      | error e =>
          obtain ⟨same, kept⟩ := openness_of_failed_start started
          rw [same] at opened
          exact kept (connected opened)
  | next =>
      cases before : p.isOpen s with
      | true => exact open_after_next (connected before)
      | false =>
          rw [after_next_of_shut before] at opened ⊢
          exact connected opened
  | close =>
      rw [after, isOpen_of_closed (closed_close p s ())] at opened
      cases opened

theorem isOpen_after_next {p : Plan Empty} {s : p.State} (connected : p.Connected s) :
    p.isOpen (p.after s (.next : Request τ)) = p.isOpen s := by
  cases before : p.isOpen s with
  | true => exact isOpen_of_open (open_after_next (connected before))
  | false => rw [after_next_of_shut before, before]

theorem connected_afterAll (p : Plan Empty) (requests : List (Request τ)) :
    p.Connected (p.afterAll requests) := by
  have fresh : p.Connected p.fresh := by
    intro opened
    rw [isOpen_fresh] at opened
    cases opened
  exact invariant_afterAll fresh connected_after requests

/-- Some opening has succeeded, and no closing has come after it. -/
def Opened (p : Plan Empty) (requests : List (Request τ)) : Prop :=
  ∃ before c store later, requests = before ++ .start c store :: later ∧
    (p.start c (p.afterAll before) ⟨store, ()⟩).1 = .ok () ∧ .close ∉ later

theorem opened_concat (p : Plan Empty) (requests : List (Request τ)) (request : Request τ) :
    p.Opened (requests ++ [request]) ↔
      (∃ c store, request = .start c store ∧
        (p.start c (p.afterAll requests) ⟨store, ()⟩).1 = .ok ()) ∨
      request ≠ .close ∧ p.Opened requests := by
  constructor
  · rintro ⟨before, c, store, later, same, started, unclosed⟩
    rcases List.eq_nil_or_concat later with rfl | ⟨later, last, rfl⟩
    · obtain ⟨rfl, last⟩ := List.append_inj' same rfl
      exact .inl ⟨c, store, List.singleton_inj.mp last, started⟩
    · have same' : requests ++ [request] = (before ++ .start c store :: later) ++ [last] := by
        simpa using same
      obtain ⟨earlier, last⟩ := List.append_inj' same' rfl
      obtain rfl := List.singleton_inj.mp last
      simp only [List.concat_eq_append, List.mem_append, List.mem_singleton, not_or] at unclosed
      exact .inr ⟨Ne.symm unclosed.2, before, c, store, later, earlier, started, unclosed.1⟩
  · rintro (⟨c, store, rfl, started⟩ | ⟨other, before, c, store, later, rfl, started, unclosed⟩)
    · exact ⟨requests, c, store, [], rfl, started, List.not_mem_nil⟩
    · refine ⟨before, c, store, later ++ [request], by simp, started, ?_⟩
      simp [unclosed, other.symm]

theorem afterAll_append (p : Plan Empty) (requests later : List (Request τ)) :
    p.afterAll (requests ++ later) = later.foldl p.after (p.afterAll requests) := by
  rw [afterAll, List.foldl_append]
  rfl

/-- The root is open when some opening has succeeded since it was last closed. -/
theorem isOpen_afterAll_iff (p : Plan Empty) (requests : List (Request τ)) :
    p.isOpen (p.afterAll requests) = true ↔ p.Opened requests := by
  -- From the last call back, for it decides unless it is a next or a start that failed.
  induction requests using List.reverseRecOn with
  | nil =>
      rw [afterAll, List.foldl_nil, isOpen_fresh]
      refine iff_of_false Bool.false_ne_true ?_
      rintro ⟨before, c, store, later, same, _⟩
      simp at same
  | append_singleton requests request ih =>
      rw [opened_concat, ← ih, afterAll_append, List.foldl_cons, List.foldl_nil]
      cases request with
      | start c store =>
          simp only [after]
          cases started : (p.start c (p.afterAll requests) ⟨store, ()⟩).1 with
          | ok => simp [isOpen_of_open (open_of_start started), started]
          | error e =>
              rw [(openness_of_failed_start started).1]
              simp [started]
      | next =>
          rw [isOpen_after_next (connected_afterAll p requests)]
          simp
      | close =>
          rw [after, isOpen_of_closed (closed_close p _ ())]
          simp

theorem open_of_opened {p : Plan Empty} {requests : List (Request τ)}
    (opened : p.Opened requests) : p.Open (p.afterAll requests) := by
  have isOpen := (isOpen_afterAll_iff p requests).mpr opened
  exact connected_afterAll p requests isOpen

theorem next_of_unopened {p : Plan Empty} {requests : List (Request τ)}
    (unopened : ¬ p.Opened requests) :
    (p.next (p.afterAll requests) ()).1 = .error (.reported (.execution (.notOpen p.name))) := by
  have isShut : p.isOpen (p.afterAll requests) = false := by
    rw [Bool.eq_false_iff, ne_eq, isOpen_afterAll_iff]
    exact unopened
  rw [next_of_shut isShut]
  rfl

/-- Once an open plan has ended, no call of next finds a row, however many are made. -/
theorem next_of_ended {p : Plan Empty} {s : p.State} (opened : p.Open s)
    (ended : p.yields s = []) (n : Nat) :
    (p.next ((List.replicate n (.next : Request τ)).foldl p.after s) ()).1 = .ok none := by
  induction n generalizing s with
  | zero =>
      obtain ⟨s', called, _⟩ := next_of_open p s () opened
      rw [List.replicate_zero, List.foldl_nil, called, ended]
      rfl
  | succ n ih =>
      obtain ⟨s', called, kept, rest⟩ := next_of_open p s () opened
      rw [ended] at rest
      rw [List.replicate_succ, List.foldl_cons, after, called]
      exact ih kept rest

/-- An open plan that returns no row has none left. -/
theorem yields_of_ended {p : Plan Empty} {s : p.State} (opened : p.Open s)
    (ended : (p.next s ()).1 = .ok none) : p.yields s = [] := by
  obtain ⟨s', called, _⟩ := next_of_open p s () opened
  rw [called] at ended
  cases coming : p.yields s with
  | nil => rfl
  | cons x xs =>
      rw [coming] at ended
      obtain ⟨row, _, found⟩ := map_eq_ok_iff.mp ended
      cases found

/-- After any calls on the root: next finds it closed just if no opening has succeeded since the
last closing, and never meets a closed operator below an open one; closing succeeds, closes the
whole tree and can be repeated; and a plan that has ended does not go on. -/
theorem calls_keep_lifecycle (p : Plan Empty) (requests : List (Request τ)) :
    ((p.next (p.afterAll requests) ()).1 = .error (.reported (.execution (.notOpen p.name))) ↔
        ¬ p.Opened requests) ∧
      (p.Opened requests → ∀ name,
        (p.next (p.afterAll requests) ()).1 ≠ .error (.reported (.execution (.notOpen name)))) ∧
      (∀ c (store : τ) name,
        (p.start c (p.afterAll requests) ⟨store, ()⟩).1 ≠
          .error (.reported (.execution (.notOpen name)))) ∧
      (∃ s, p.close (p.afterAll requests) () = (.ok (), s, ()) ∧ p.Closed s ∧
        p.close s () = (.ok (), s, ())) ∧
      ((p.next (p.afterAll requests) ()).1 = .ok none → ∀ n,
        (p.next (p.afterAll (requests ++ List.replicate n .next)) ()).1 = .ok none) := by
  have never : p.Opened requests → ∀ name,
      (p.next (p.afterAll requests) ()).1 ≠ .error (.reported (.execution (.notOpen name))) :=
    fun opened => (settled_next (open_of_opened opened)).ne_notOpen
  refine ⟨⟨?_, next_of_unopened⟩, never, ?_, ?_, ?_⟩
  · intro reported opened
    exact never opened p.name reported
  · intro c store
    obtain ⟨_, started, _⟩ := start_eq_opening c p (p.afterAll requests) store
    rw [started]
    exact Settled.ne_notOpen (failsOnly_map _ (settled_opening c p store))
  · obtain ⟨s, closing⟩ := close_succeeds p (p.afterAll requests)
    have closed := closed_close p (p.afterAll requests) ()
    rw [closing] at closed
    exact ⟨s, closing, closed, close_of_closed closed⟩
  · intro ended n
    by_cases opened : p.Opened requests
    · have finished := yields_of_ended (open_of_opened opened) ended
      rw [afterAll_append]
      exact next_of_ended (open_of_opened opened) finished n
    · rw [next_of_unopened opened] at ended
      cases ended

/-- The second catalog lacks the right table, so the left scan opens and the join does not. An open
plan goes on with the rows that it has; a closed one stays closed, but for the left scan. -/
theorem calls_keep_lifecycle_after_failed_opening :
    let t : Schema := ⟨"t", [.plain .int32 "id"]⟩
    let u : Schema := ⟨"u", [.plain .int32 "id"]⟩
    let both : Catalog := ⟨(OrderedMap.empty.insert "t" t).insert "u" u⟩
    let half : Catalog := ⟨OrderedMap.empty.insert "t" t⟩
    let store : Entries := .ofList [(RowKey.ofText "t" "1", [2, 0, 0, 0]),
      (RowKey.ofText "u" "3", [6, 0, 0, 0])]
    let p : Plan Empty := .limit (.join (.scan "t" none) (.scan "u" none)) 5
    let running : List (Request Entries) := [.start both store, .start half store]
    let stopped : List (Request Entries) := [.start both store, .close, .start half store]
    p.Opened running ∧
      (p.next (p.afterAll running) ()).1 =
        .ok (some ⟨joinedSchema t u, [.int32 1, .int32 3]⟩) ∧
      (∀ n, (p.next (p.afterAll ((running ++ [.next]) ++ List.replicate n .next)) ()).1 =
        .ok none) ∧
      ¬ p.Opened stopped ∧
      (p.next (p.afterAll stopped) ()).1 = .error (.reported (.execution (.notOpen "Limit"))) ∧
      ¬ p.Closed (p.afterAll stopped) ∧
      ∃ s, p.close (p.afterAll stopped) () = (.ok (), s, ()) ∧ p.Closed s := by
  intro t u both half store p running stopped
  have opened : p.Opened running := ⟨[], both, store, [.start half store], rfl, rfl, by simp⟩
  have reported : (p.next (p.afterAll stopped) ()).1 =
      .error (.reported (.execution (.notOpen "Limit"))) := rfl
  have loose : ¬ p.Closed (p.afterAll stopped) := by
    rintro ⟨_, _, _, left, _⟩
    cases left
  obtain ⟨_, _, _, _, finished⟩ := calls_keep_lifecycle p (running ++ [.next])
  obtain ⟨shut, _, _, ⟨s, closing, closed, _⟩, _⟩ := calls_keep_lifecycle p stopped
  exact ⟨opened, rfl, finished rfl, shut.mp reported, reported, loose, s, closing, closed⟩

end RowStore.Plan
