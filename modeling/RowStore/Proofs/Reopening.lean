import RowStore.Proofs.LogStore
import RowStore.Proofs.Outcomes

/-! Which logs open again. A writer takes any key and value whose lengths four bytes can hold, and
a reader refuses a record whose key and value together are longer than it accepts. A record
between the two bounds is written, counts as long as the store is open, and keeps the log from
being opened from then on. -/
namespace RowStore

open Record (applyAll)

namespace Log

theorem write_eq_ok {r : Record} {bs : Bytes} (written : write r = (bs, .ok ())) :
    r.Writable := by
  unfold write at written
  split at written
  · cases written
  · split at written
    · cases written
    · rename_i key value
      exact ⟨by simpa using key, by simpa using value⟩

theorem readRecord_oversized {r : Record} (writable : r.Writable) (oversized : ¬ r.Bounded)
    (rest : Bytes) :
    readRecord (bytes r ++ rest) = .corrupt (.tooLong (r.key.length + r.value.length)) := by
  have long : maxBody < r.key.length + r.value.length := Nat.lt_of_not_le oversized
  rw [readRecord_bytes_append r writable]
  simp only [readBody, code_known, long, if_false, if_true]

/-- The records before an oversized one are read, and it is reported at its place. -/
theorem replay_oversized {before after : List Record} {r : Record}
    (bounded : ∀ b ∈ before, b.Bounded) (writable : r.Writable) (oversized : ¬ r.Bounded) :
    replay (bytesOf (before ++ r :: after)) =
      .error (.corrupted (bytesOf before).length (.tooLong (r.key.length + r.value.length))) := by
  have first := length_le_bytesOf before
  have header := headerLength_le_bytes r
  obtain ⟨fuel, enough⟩ : ∃ fuel,
      (bytesOf (before ++ r :: after)).length = before.length + (fuel + 1) := by
    refine ⟨(bytesOf (before ++ r :: after)).length - before.length - 1, ?_⟩
    simp only [bytesOf_append, bytesOf_cons, List.length_append, headerLength] at *
    omega
  rw [replay, enough, bytesOf_append, bytesOf_cons, replayFrom_bytesOf bounded, replayFrom,
    readRecord_oversized writable oversized, Nat.zero_add]

end Log

/-- The first of some records that a property leaves out. -/
theorem exists_first_not {α : Type} {p : α → Prop} {xs : List α} (fails : ¬ ∀ x ∈ xs, p x) :
    ∃ before x after, xs = before ++ x :: after ∧ (∀ b ∈ before, p b) ∧ ¬ p x := by
  induction xs with
  | nil => exact absurd (List.forall_mem_nil _) fails
  | cons x xs ih =>
      by_cases holds : p x
      · have later : ¬ ∀ y ∈ xs, p y := fun all => fails (List.forall_mem_cons.mpr ⟨holds, all⟩)
        obtain ⟨before, y, after, rfl, kept, left⟩ := ih later
        exact ⟨x :: before, y, after, rfl, List.forall_mem_cons.mpr ⟨holds, kept⟩, left⟩
      · exact ⟨[], x, xs, rfl, List.forall_mem_nil _, holds⟩

namespace LogStore

/-- What a write that is not refused comes to. -/
theorem perform_eq_ok_iff {r : Record} {s t : LogStore} :
    Storage.perform r s = .ok t ↔
      r.Writable ∧ t = ⟨s.file ++ (s.pending ++ Log.bytes r), [], r.apply s.entries⟩ := by
  constructor
  · intro taken
    have writable : r.Writable := by
      rcases written : Log.write r with ⟨bs, result⟩
      cases result with
      | ok done => exact Log.write_eq_ok written
      | error e =>
          have refused : s.append r = (.error e, { s with pending := s.pending ++ bs }) := by
            simp only [append, written]
          cases r <;> simp only [Storage.perform, Storage.put, Storage.delete, refused,
            Except.map, reduceCtorEq] at taken
    rw [perform_of_writable writable] at taken
    exact ⟨writable, (Except.ok.inj taken).symm⟩
  · rintro ⟨writable, rfl⟩
    exact perform_of_writable writable s

/-- Writes that are not refused stand in the file one after another. -/
theorem performAll_eq_ok_iff {rs : List Record} {s t : LogStore} (settled : s.pending = []) :
    Storage.performAll rs s = .ok t ↔
      (∀ r ∈ rs, r.Writable) ∧
        t = ⟨s.file ++ Log.bytesOf rs, [], applyAll rs s.entries⟩ := by
  induction rs generalizing s with
  | nil =>
      have same : (⟨s.file ++ Log.bytesOf [], [], applyAll [] s.entries⟩ : LogStore) = s := by
        cases s
        simp_all
      rw [same]
      exact ⟨fun run => ⟨List.forall_mem_nil _, (Except.ok.inj run).symm⟩, fun h => h.2 ▸ rfl⟩
  | cons r rs ih =>
      simp only [Storage.performAll_cons, bind_eq_ok_iff, perform_eq_ok_iff, settled,
        List.nil_append, List.forall_mem_cons, Log.bytesOf_cons, Record.applyAll_cons]
      constructor
      · rintro ⟨_, ⟨writable, rfl⟩, run⟩
        obtain ⟨others, rfl⟩ := (ih rfl).mp run
        exact ⟨⟨writable, others⟩, by rw [List.append_assoc]⟩
      · rintro ⟨⟨writable, others⟩, rfl⟩
        exact ⟨_, ⟨writable, rfl⟩, (ih rfl).mpr ⟨others, by rw [List.append_assoc]⟩⟩

theorem ofFile_nil : ofFile [] = .ok ⟨[], [], .empty⟩ := rfl

/-- A log that puts and deletes have made, none of them refused, opens again exactly if a reader
accepts each of its records, and then with the entries that it had. Otherwise the first record
that is too long is reported, and no later one is looked at. -/
theorem opens_again_iff_bounded (rs : List Record) (log : LogStore)
    (ran : (ofFile [] >>= Storage.performAll rs) = .ok log) :
    ((∃ again, ofFile log.close = .ok again) ↔ ∀ r ∈ rs, r.Bounded) ∧
      (∀ again, ofFile log.close = .ok again → again.entries = log.entries) ∧
      ∀ before r after, rs = before ++ r :: after → (∀ b ∈ before, b.Bounded) → ¬ r.Bounded →
        ofFile log.close = .error
          (.corrupted (Log.bytesOf before).length (.tooLong (r.key.length + r.value.length))) := by
  rw [ofFile_nil, ok_bind, performAll_eq_ok_iff rfl] at ran
  obtain ⟨writable, rfl⟩ := ran
  have file : close ⟨[] ++ Log.bytesOf rs, [], applyAll rs .empty⟩ = Log.bytesOf rs := by
    simp [close, flush]
  have reported : ∀ before r after, rs = before ++ r :: after → (∀ b ∈ before, b.Bounded) →
      ¬ r.Bounded → ofFile (Log.bytesOf rs) = .error
        (.corrupted (Log.bytesOf before).length (.tooLong (r.key.length + r.value.length))) := by
    rintro before r after rfl bounded oversized
    have taken : r.Writable := writable r (by simp)
    rw [ofFile, Log.replay_oversized bounded taken oversized, error_bind]
  have reopened : (∀ r ∈ rs, r.Bounded) → ofFile (Log.bytesOf rs) =
      .ok ⟨Log.bytesOf rs, [], applyAll rs .empty⟩ := by
    intro bounded
    have again := (holds_of_records bounded).reopen
    simpa [close, flush] using again
  rw [file]
  refine ⟨⟨?_, fun bounded => ⟨_, reopened bounded⟩⟩, ?_, reported⟩
  · rintro ⟨again, opens⟩
    by_contra fails
    obtain ⟨before, r, after, split, bounded, oversized⟩ := exists_first_not fails
    rw [reported before r after split bounded oversized] at opens
    cases opens
  · intro again opens
    by_cases bounded : ∀ r ∈ rs, r.Bounded
    · rw [reopened bounded] at opens
      rw [← Except.ok.inj opens]
    · obtain ⟨before, r, after, split, kept, oversized⟩ := exists_first_not bounded
      rw [reported before r after split kept oversized] at opens
      cases opens

/-- One byte more than a reader accepts is far from what a writer refuses. -/
theorem accepted_put_shuts_log :
    ∃ value log, value.length = Log.maxBody + 1 ∧
      (ofFile [] >>= Storage.performAll [.put [] value]) = .ok log ∧
      ofFile log.close = .error (.corrupted 0 (.tooLong (Log.maxBody + 1))) := by
  -- Only the length counts, and so many bytes are better not written down.
  obtain ⟨value, long⟩ : ∃ value : Bytes, value.length = Log.maxBody + 1 :=
    ⟨List.replicate _ 0, List.length_replicate⟩
  have writable : (Record.put [] value).Writable :=
    ⟨rfl, decide_eq_true (by rw [Record.value, long]; decide)⟩
  have oversized : ¬ (Record.put [] value).Bounded := by
    rw [Record.Bounded, Record.key, Record.value, long, List.length_nil]
    omega
  have ran : (ofFile [] >>= Storage.performAll [.put [] value]) =
      .ok ⟨[] ++ Log.bytesOf [.put [] value], [], applyAll [.put [] value] .empty⟩ := by
    rw [ofFile_nil, ok_bind, performAll_eq_ok_iff rfl]
    exact ⟨List.forall_mem_singleton.mpr writable, rfl⟩
  obtain ⟨_, _, refused⟩ := opens_again_iff_bounded _ _ ran
  have reported := refused [] _ [] rfl (List.forall_mem_nil _) oversized
  rw [Record.key, Record.value, long, List.length_nil, Nat.zero_add] at reported
  exact ⟨value, _, long, ran, reported⟩

end LogStore
end RowStore
