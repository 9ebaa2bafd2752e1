import RowStore.Proofs.LogStore
import RowStore.Proofs.Outcomes

/-! Using a store on a log side by side with one in memory. Whatever is written, compacted or
opened again, both hold the same entries, and cursors stay with the entries that they were opened
on. -/
namespace RowStore

/-- A store and the cursors that were opened on it, the oldest first. -/
structure Session (ω : Type) where
  store : ω
  cursors : List Cursor

namespace Session

inductive Operation
  | write (r : Record)
  | compact
  | reopen
  /-- Opens a cursor between two bounds, or on everything. -/
  | scan (range : Option (Bytes × Bytes))
  | advance (cursor : Nat)
  deriving DecidableEq

def Operation.Bounded : Operation → Prop
  | write r => r.Bounded
  | _ => True

instance : (op : Operation) → Decidable op.Bounded
  | .write r => inferInstanceAs (Decidable r.Bounded)
  | .compact | .reopen | .scan _ | .advance _ => inferInstanceAs (Decidable True)

section Cursors

variable {ω : Type} [Storage ω]

def found (store : ω) : Option (Bytes × Bytes) → List (Bytes × Bytes)
  | some (low, high) => Storage.scan store low high
  | none => Storage.scanAll store

def openCursor (s : Session ω) (range : Option (Bytes × Bytes)) : Session ω :=
  { s with cursors := s.cursors ++ [Cursor.ofList (found s.store range)] }

def advance (s : Session ω) (i : Nat) : Session ω :=
  { s with cursors := s.cursors.modify i Cursor.advance }

end Cursors

/-- A step on a log. Opening again reads the file that closing leaves. -/
def onLog (s : Session LogStore) : Operation → Except StorageError (Session LogStore)
  | .write r => (Storage.perform r s.store).map fun store => { s with store }
  | .compact =>
      let (result, store) := s.store.compact
      result.map fun () => { s with store }
  | .reopen => (LogStore.ofFile s.store.close).map fun store => { s with store }
  | .scan range => .ok (s.openCursor range)
  | .advance i => .ok (s.advance i)

/-- The same step in memory, where there is no file to rewrite or to read. -/
def inMemory (s : Session Entries) : Operation → Except StorageError (Session Entries)
  | .write r => (Storage.perform r s.store).map fun store => { s with store }
  | .compact | .reopen => .ok s
  | .scan range => .ok (s.openCursor range)
  | .advance i => .ok (s.advance i)

def runOnLog (ops : List Operation) : Except StorageError (Session LogStore) := do
  ops.foldlM onLog ⟨← LogStore.ofFile [], []⟩

def runInMemory (ops : List Operation) : Except StorageError (Session Entries) :=
  ops.foldlM inMemory ⟨.empty, []⟩

/-- The log is sound, and shows what memory holds. -/
structure Related (s : Session LogStore) (m : Session Entries) : Prop where
  sound : ∃ rs, s.store.Holds rs
  entries : s.store.entries = m.store
  cursors : s.cursors = m.cursors

theorem Related.found_eq {s : Session LogStore} {m : Session Entries} (h : Related s m)
    (range : Option (Bytes × Bytes)) : found s.store range = found m.store range := by
  have same : Storage.entries s.store = Storage.entries m.store := h.entries
  cases range <;> simp only [found, Storage.scan, Storage.scanAll, same]

theorem step_related {s : Session LogStore} {m : Session Entries} (h : Related s m)
    {op : Operation} (bounded : op.Bounded) :
    ∃ s' m', s.onLog op = .ok s' ∧ m.inMemory op = .ok m' ∧ Related s' m' := by
  obtain ⟨rs, holds⟩ := h.sound
  cases op with
  | write r =>
      obtain ⟨store, taken, holds'⟩ := holds.perform bounded
      refine ⟨{ s with store }, { m with store := r.apply m.store }, ?_, ?_, ⟨_, holds'⟩, ?_,
        h.cursors⟩
      · simp only [onLog, taken, Except.map]
      · simp only [inMemory, Storage.perform_memory, Except.map]
      · have applied := holds'.entries
        rw [Record.applyAll_append, ← holds.entries, h.entries] at applied
        exact applied
  | compact =>
      obtain ⟨store, done, holds', same⟩ := holds.compact
      refine ⟨{ s with store }, m, ?_, rfl, ⟨_, holds'⟩, same.trans h.entries, h.cursors⟩
      simp only [onLog, done, Except.map]
  | reopen =>
      refine ⟨s, m, ?_, rfl, h⟩
      simp only [onLog, holds.reopen, Except.map]
  | scan range =>
      refine ⟨_, _, rfl, rfl, h.sound, h.entries, ?_⟩
      simp only [openCursor, h.cursors, h.found_eq range]
  | advance i =>
      refine ⟨_, _, rfl, rfl, h.sound, h.entries, ?_⟩
      simp only [advance, h.cursors]

theorem steps_related {s : Session LogStore} {m : Session Entries} (h : Related s m)
    {ops : List Operation} (bounded : ∀ op ∈ ops, op.Bounded) :
    ∃ s' m', ops.foldlM onLog s = .ok s' ∧ ops.foldlM inMemory m = .ok m' ∧ Related s' m' := by
  induction ops generalizing s m with
  | nil => exact ⟨s, m, rfl, rfl, h⟩
  | cons op ops ih =>
      obtain ⟨first, others⟩ := List.forall_mem_cons.mp bounded
      obtain ⟨s₁, m₁, onLog₁, inMemory₁, related⟩ := step_related h first
      obtain ⟨s₂, m₂, onLog₂, inMemory₂, related'⟩ := ih related others
      refine ⟨s₂, m₂, ?_, ?_, related'⟩
      · rw [List.foldlM_cons, onLog₁]
        exact onLog₂
      · rw [List.foldlM_cons, inMemory₁]
        exact inMemory₂

theorem runOnLog_related {ops : List Operation} (bounded : ∀ op ∈ ops, op.Bounded) :
    ∃ s m, runOnLog ops = .ok s ∧ runInMemory ops = .ok m ∧ Related s m :=
  steps_related ⟨⟨[], LogStore.holds_empty⟩, rfl, rfl⟩ bounded

/-- What a cursor stands on after some advances: first before the entries, then on one after
another, and at last behind them. -/
def standing (es : List (Bytes × Bytes)) : Nat → Option (Bytes × Bytes)
  | 0 => none
  | n + 1 => es[n]?

/-- The cursor over some entries after some advances. -/
def moved (es : List (Bytes × Bytes)) (n : Nat) : Cursor := ⟨standing es n, es.drop n⟩

theorem advance_moved (es : List (Bytes × Bytes)) (n : Nat) :
    (moved es n).advance = moved es (n + 1) := by
  simp [moved, Cursor.advance, standing, List.head?_drop, List.tail_drop]

/-- A step moves a cursor only by an advance of that cursor. -/
theorem cursor_step {s s' : Session LogStore} {op : Operation} (step : s.onLog op = .ok s')
    {i n : Nat} {es : List (Bytes × Bytes)} (here : s.cursors[i]? = some (moved es n)) :
    s'.cursors[i]? = some (moved es (n + [op].count (.advance i))) := by
  cases op with
  | write r =>
      obtain ⟨store, _, rfl⟩ := map_eq_ok_iff.mp step
      simpa using here
  | compact =>
      obtain ⟨_, _, rfl⟩ := map_eq_ok_iff.mp step
      simpa using here
  | reopen =>
      obtain ⟨store, _, rfl⟩ := map_eq_ok_iff.mp step
      simpa using here
  | scan range =>
      obtain rfl := Except.ok.inj step
      have inside : i < s.cursors.length := (List.getElem?_eq_some_iff.mp here).1
      simpa [openCursor, List.getElem?_append_left inside] using here
  | advance j =>
      obtain rfl := Except.ok.inj step
      by_cases same : j = i
      · subst same
        simp [advance, here, advance_moved]
      · simp [advance, same, here]

theorem cursor_steps {s s' : Session LogStore} {ops : List Operation}
    (run : ops.foldlM onLog s = .ok s') {i n : Nat} {es : List (Bytes × Bytes)}
    (here : s.cursors[i]? = some (moved es n)) :
    s'.cursors[i]? = some (moved es (n + ops.count (.advance i))) := by
  induction ops generalizing s n with
  | nil =>
      obtain rfl := Except.ok.inj run
      simpa using here
  | cons op ops ih =>
      rw [List.foldlM_cons, bind_eq_ok_iff] at run
      obtain ⟨next, step, rest⟩ := run
      have later := ih rest (cursor_step step here)
      rw [Nat.add_assoc, ← List.count_append] at later
      exact later

/-- A cursor goes on over the entries of the moment when it was opened. -/
theorem cursor_run {s : Session LogStore} {before after : List Operation}
    {range : Option (Bytes × Bytes)} (run : runOnLog (before ++ .scan range :: after) = .ok s) :
    ∃ moment, runOnLog before = .ok moment ∧
      s.cursors[moment.cursors.length]? =
        some (moved (found moment.store range)
          (after.count (.advance moment.cursors.length))) := by
  obtain ⟨start, opens, run⟩ := bind_eq_ok_iff.mp run
  rw [List.foldlM_append, bind_eq_ok_iff] at run
  obtain ⟨moment, first, rest⟩ := run
  rw [List.foldlM_cons] at rest
  refine ⟨moment, bind_eq_ok_iff.mpr ⟨start, opens, first⟩, ?_⟩
  have fresh : (moment.openCursor range).cursors[moment.cursors.length]? =
      some (moved (found moment.store range) 0) := by
    simp [openCursor, moved, standing, Cursor.ofList]
  simpa using cursor_steps rest fresh

theorem scan_inverted {ω : Type} [Storage ω] (store : ω) {low high : Bytes} (h : ¬ low < high) :
    Storage.scan store low high = [] := by
  refine List.filter_eq_nil_iff.mpr fun e _ within => ?_
  simp only [before, Bool.and_eq_true, Bool.not_eq_true', decide_eq_false_iff_not,
    decide_eq_true_eq] at within
  exact h (List.lt_of_le_of_lt (List.not_lt.mp within.1) within.2)

/-- A store on a log that starts without a file answers like one in memory, after any steps. Its
file is always what a replay turns into its entries, with nothing to cut off, and every cursor
stands where it was moved to among the entries of the moment when it was opened. Every initial
part of a run is a run. -/
theorem log_answers_like_memory (ops : List Operation) (bounded : ∀ op ∈ ops, op.Bounded) :
    ∃ s m, runOnLog ops = .ok s ∧ runInMemory ops = .ok m ∧
      Log.replay s.store.file = .ok (s.store.entries, s.store.file.length) ∧
      (∀ key, Storage.get s.store key = Storage.get m.store key) ∧
      s.store.entries.size = m.store.size ∧
      (∀ low high, Storage.scan s.store low high = Storage.scan m.store low high ∧
        (¬ low < high → Storage.scan s.store low high = [])) ∧
      Storage.scanAll s.store = Storage.scanAll m.store ∧
      (Storage.scanAll s.store).Pairwise (fun a b => a.1 < b.1) ∧
      s.cursors = m.cursors ∧
      ∀ before range after, ops = before ++ .scan range :: after →
        ∃ moment c, runOnLog before = .ok moment ∧
          s.cursors[moment.cursors.length]? = some c ∧
          c.current = standing (found moment.store range)
            (after.count (.advance moment.cursors.length)) := by
  obtain ⟨s, m, onLog, inMemory, related⟩ := runOnLog_related bounded
  obtain ⟨rs, holds⟩ := related.sound
  have same : Storage.entries s.store = Storage.entries m.store := related.entries
  refine ⟨s, m, onLog, inMemory, holds.replay, fun key => ?_, ?_, fun low high => ⟨?_, ?_⟩, ?_, ?_,
    related.cursors, fun before range after split => ?_⟩
  · simp only [Storage.get, same]
  · rw [related.entries]
  · simp only [Storage.scan, same]
  · exact scan_inverted s.store
  · simp only [Storage.scanAll, same]
  · exact s.store.entries.ascending.imp fun h => of_decide_eq_true h
  · subst split
    obtain ⟨moment, first, cursor⟩ := cursor_run onLog
    exact ⟨moment, _, first, cursor, rfl⟩

/-- The cursor was opened before the value was overwritten, and stays with the old one. -/
theorem log_answers_like_memory_after_overwrite :
    let ops : List Operation :=
      [.write (.put [1] [10]), .scan none, .write (.put [1] [11]), .write (.delete [2]), .compact,
        .advance 0, .reopen, .scan (some ([2], [1])), .advance 1]
    (∀ op ∈ ops, op.Bounded) ∧ ∃ s m, runOnLog ops = .ok s ∧ runInMemory ops = .ok m ∧
      Log.replay s.store.file = .ok (s.store.entries, s.store.file.length) ∧
      s.cursors = m.cursors ∧ ∃ c, s.cursors[0]? = some c ∧ c.current = some ([1], [10]) := by
  intro ops
  have bounded : ∀ op ∈ ops, op.Bounded := by decide
  obtain ⟨s, m, onLog, inMemory, replayed, _, _, _, _, _, cursors, snapshots⟩ :=
    log_answers_like_memory ops bounded
  obtain ⟨moment, c, first, there, stands⟩ := snapshots [.write (.put [1] [10])] none _ rfl
  obtain rfl := Except.ok.inj first
  exact ⟨bounded, s, m, onLog, inMemory, replayed, cursors, c, there, stands⟩

end Session
end RowStore
