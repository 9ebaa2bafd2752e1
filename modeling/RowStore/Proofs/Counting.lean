import RowStore.Proofs.Calling
import RowStore.Proofs.LeadingTuples

namespace RowStore

/-- A store together with the entries that were put into it. -/
structure Journaled (τ : Type) where
  store : τ
  puts : List (Bytes × Bytes)

variable {τ : Type} [Storage τ]

/-- Of puts, those that succeed are noted. -/
instance : Storage (Journaled τ) where
  entries j := Storage.entries j.store
  put key value j :=
    match Storage.put key value j.store with
    | (.ok (), store) => (.ok (), ⟨store, j.puts ++ [(key, value)]⟩)
    | (.error e, store) => (.error e, ⟨store, j.puts⟩)
  delete key j :=
    let (result, store) := Storage.delete key j.store
    (result, { j with store })

namespace Journaled

variable {key value : Bytes} {store store' : τ}

theorem put_of_ok (put : Storage.put key value store = (.ok (), store'))
    (before : List (Bytes × Bytes)) :
    Storage.put key value (⟨store, before⟩ : Journaled τ) =
      (.ok (), ⟨store', before ++ [(key, value)]⟩) := by
  simp only [Storage.put, put]

theorem put_of_error {e : StorageError} (put : Storage.put key value store = (.error e, store'))
    (before : List (Bytes × Bytes)) :
    Storage.put key value (⟨store, before⟩ : Journaled τ) = (.error e, ⟨store', before⟩) := by
  simp only [Storage.put, put]

end Journaled

namespace Insertion

/-- Writing into a store with a journal comes to the same as without, and what is counted is what
is put. -/
theorem write_journaled (i : Insertion) (t : Target) (tuples : List (List Value)) (store : τ) :
    ∃ made, (i.write t tuples store).2.1 = made.length ∧
      ∀ before, i.write t tuples (⟨store, before⟩ : Journaled τ) =
        ((i.write t tuples store).1, made.length,
          ⟨(i.write t tuples store).2.2, before ++ made⟩) := by
  induction tuples generalizing store with
  | nil =>
      refine ⟨[], rfl, fun before => ?_⟩
      rw [List.append_nil]
      rfl
  | cons tuple tuples ih =>
      cases taken : i.entry t tuple with
      | error e =>
          refine ⟨[], ?_, fun before => ?_⟩ <;>
            simp only [write, taken, List.length_nil, List.append_nil]
      | ok e =>
          obtain ⟨key, bytes⟩ := e
          rcases put : Storage.put key bytes store with ⟨_ | _, store'⟩
          · refine ⟨[], ?_, fun before => ?_⟩ <;>
              simp only [write, taken, put, Journaled.put_of_error put, List.length_nil,
                List.append_nil]
          · obtain ⟨made, count, wrote⟩ := ih store'
            refine ⟨(key, bytes) :: made, ?_, fun before => ?_⟩
            · simp only [write, taken, put, count, List.length_cons]
            · simp only [write, taken, put, Journaled.put_of_ok put, wrote, List.length_cons,
                List.append_assoc, List.singleton_append]

end Insertion

namespace Plan

/-- The entries that an opening puts into the store. -/
def puts (i : Insertion) (c : Catalog) (store : τ) : List (Bytes × Bytes) :=
  ((insertion i : Plan Empty).start c (⟨0, false⟩ : Inserting)
    ⟨(⟨store, []⟩ : Journaled τ), ()⟩).2.2.store.puts

/-- The count after a call, if it was `count` before: only an opening that gets as far as the tuples
sets it. -/
def tally (i : Insertion) (count : Nat) : Request τ → Nat
  | .start c store =>
      match i.target c with
      | .ok _ => (puts i c store).length
      | .error _ => count
  | _ => count

/-- The rows that were put by the last opening that got as far as the tuples. -/
def counted (i : Insertion) (requests : List (Request τ)) : Nat := requests.foldl (tally i) 0

section Counting

variable {i : Insertion} {c : Catalog} {t : Insertion.Target}

theorem puts_of_refused {e : QueryError} (refused : i.target c = .error e) (store : τ) :
    puts i c store = [] := by
  rw [puts, start_of_refused refused]

/-- Neither the state that an opening finds nor a journal of the store makes a difference to it. -/
theorem start_journaled (i : Insertion) (c : Catalog) (s : Inserting) (store : τ)
    (before : List (Bytes × Bytes)) :
    (insertion i : Plan Empty).start c s ⟨(⟨store, before⟩ : Journaled τ), ()⟩ =
      let (outcome, s', left) := (insertion i : Plan Empty).start c s ⟨store, ()⟩
      (outcome, s', ⟨⟨left.store, before ++ puts i c store⟩, ()⟩) := by
  cases settled : i.target c with
  | error e =>
      rw [start_of_refused settled, start_of_refused settled, puts_of_refused settled,
        List.append_nil]
      rfl
  | ok t =>
      obtain ⟨made, count, wrote⟩ := i.write_journaled t i.tuples store
      have same : puts i c store = made := by
        simp only [puts, start, settled, wrote]
        rfl
      simp only [same, start, settled, wrote, count]

/-- An opening that gets as far as the tuples counts what it puts. -/
theorem affected?_start (settled : i.target c = .ok t) (s : Inserting) (store : τ) :
    affected? (insertion i : Plan Empty)
        ((insertion i : Plan Empty).start c s (⟨store, ()⟩ : Surroundings τ Unit)).2.1 =
      some (puts i c store).length := by
  obtain ⟨made, count, wrote⟩ := i.write_journaled t i.tuples store
  simp only [puts, start, settled, wrote, count]
  rfl

/-- What a call makes of the count. -/
theorem affected?_after {s : (insertion i : Plan Empty).State} {count : Nat}
    (known : affected? (insertion i) s = some count) (request : Request τ) :
    affected? (insertion i) (after (insertion i) s request) = some (tally i count request) := by
  cases request with
  | next | close => exact known
  | start c store =>
      cases settled : i.target c with
      | error e =>
          have kept : after (insertion i) s (.start c store) = s :=
            congrArg (·.2.1) (start_of_refused settled s (⟨store, ()⟩ : Surroundings τ Unit))
          rw [kept, known, tally, settled]
      | ok t => simp only [after, affected?_start settled s store, tally, settled]

theorem counted_concat (i : Insertion) (requests : List (Request τ)) (request : Request τ) :
    counted i (requests ++ [request]) = tally i (counted i requests) request :=
  List.foldl_concat ..

theorem affected?_afterAll (i : Insertion) (requests : List (Request τ)) :
    affected? (insertion i) (afterAll (insertion i) requests) = some (counted i requests) := by
  induction requests using List.reverseRecOn with
  | nil => rfl
  | append_singleton requests request ih =>
      rw [counted_concat, afterAll, List.foldl_concat]
      exact affected?_after ih request

/-- With the catalog that stops it now, an INSERT has not counted anything before. -/
theorem counted_eq_zero_of_refused {e : QueryError} (refused : i.target c = .error e)
    {requests : List (Request τ)} (same : ∀ c' store, .start c' store ∈ requests → c' = c) :
    counted i requests = 0 := by
  induction requests using List.reverseRecOn with
  | nil => rfl
  | append_singleton requests request ih =>
      have earlier := ih fun c' store member => same c' store (List.mem_append_left _ member)
      rw [counted_concat]
      cases request with
      | next | close => exact earlier
      | start c' store =>
          obtain rfl := same c' store List.mem_concat_self
          rw [tally, refused]
          exact earlier

end Counting

/-- After any calls, the count is that of the rows which the last opening that got as far as the
tuples has put. What an opening puts does not depend on the calls before it. One that is refused
before the tuples puts nothing and leaves the count as it is, which is wrong then unless it is zero.
If all openings see one catalog, the count is right after each. -/
theorem insert_counts_last_prepared_opening (i : Insertion) (requests : List (Request τ))
    (c : Catalog) (store : τ) :
    let p : Plan Empty := insertion i
    let opened := p.afterAll (requests ++ [.start c store])
    p.affected? (p.afterAll requests) = some (counted i requests) ∧
      (∀ before,
        (p.start c (p.afterAll requests) ⟨(⟨store, before⟩ : Journaled τ), ()⟩).2.2.store.puts =
          before ++ puts i c store) ∧
      ((∃ t, i.Prepared c t) → p.affected? opened = some (puts i c store).length) ∧
      ((∀ t, ¬ i.Prepared c t) →
        puts i c store = [] ∧ p.affected? opened = p.affected? (p.afterAll requests)) ∧
      (p.affected? opened = some (puts i c store).length ↔
        (∃ t, i.Prepared c t) ∨ counted i requests = 0) ∧
      ((∀ c' store', .start c' store' ∈ requests → c' = c) →
        p.affected? opened = some (puts i c store).length) := by
  intro p opened
  have before : p.affected? (p.afterAll requests) = some (counted i requests) :=
    affected?_afterAll i requests
  have count : p.affected? opened = some (tally i (counted i requests) (.start c store)) := by
    rw [← counted_concat]
    exact affected?_afterAll i _
  have journal (noted : List (Bytes × Bytes)) :
      (p.start c (p.afterAll requests) ⟨(⟨store, noted⟩ : Journaled τ), ()⟩).2.2.store.puts =
        noted ++ puts i c store :=
    congrArg (·.2.2.store.puts) (start_journaled i c (p.afterAll requests) store noted)
  simp only [Insertion.prepared_iff]
  rw [before, count]
  refine ⟨rfl, journal, ?_⟩
  cases settled : i.target c with
  | ok t =>
      have right : tally i (counted i requests) (.start c store) = (puts i c store).length := by
        rw [tally, settled]
      rw [right]
      exact ⟨fun _ => rfl, fun refused => absurd rfl (refused t),
        iff_of_true rfl (.inl ⟨t, rfl⟩), fun _ => rfl⟩
  | error e =>
      have kept : tally i (counted i requests) (.start c store) = counted i requests := by
        rw [tally, settled]
      have nothing := puts_of_refused settled store
      rw [kept, nothing]
      refine ⟨nofun, fun _ => ⟨rfl, rfl⟩, ?_, fun same => ?_⟩
      · simp
      · rw [counted_eq_zero_of_refused settled same]
        rfl

/-- The table is lost between two openings. The second puts nothing, and the row of the first is
still counted. -/
theorem insert_counts_last_prepared_opening_of_lost_table :
    let c : Catalog := ⟨OrderedMap.empty.insert "t" ⟨"t", [.plain .int64 "id"]⟩⟩
    let i : Insertion := ⟨"t", [], [[.int64 1]]⟩
    let p : Plan Empty := insertion i
    let requests : List (Request Entries) := [.start c .empty, .close]
    let opened := p.afterAll (requests ++ [.start .empty .empty])
    puts i c (OrderedMap.empty : Entries) = [(RowKey.ofText "t" "1", [2, 0, 0, 0, 0, 0, 0, 0])] ∧
      p.affected? (p.afterAll requests) = some 1 ∧
      puts i .empty (OrderedMap.empty : Entries) = [] ∧
      p.affected? opened = some 1 ∧
      ¬ p.affected? opened = some (puts i .empty (OrderedMap.empty : Entries)).length := by
  intro c i p requests opened
  obtain ⟨before, _, _, refused, right, _⟩ :=
    insert_counts_last_prepared_opening i requests .empty .empty
  have unknown : ∀ t, ¬ i.Prepared .empty t := fun t prepared => nomatch prepared.table
  have one : counted i requests = 1 := by decide +kernel
  obtain ⟨nothing, kept⟩ := refused unknown
  rw [one] at before right
  refine ⟨by decide +kernel, before, nothing, kept.trans before, fun counts => ?_⟩
  obtain ⟨t, prepared⟩ | zero := right.mp counts
  · exact unknown t prepared
  · cases zero

end Plan
end RowStore
