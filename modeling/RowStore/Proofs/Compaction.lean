import RowStore.Proofs.LogGrammar
import RowStore.Proofs.Maps
import RowStore.Proofs.Sessions

namespace RowStore

open Record (applyAll)

section Maps

variable {κ ν : Type} [KeyOrder κ]

/-- Written out, an insertion adds no more than its own entry. -/
theorem length_flatMap_insertEntry_le (write : κ × ν → Bytes) (k : κ) (v : ν)
    (es : List (κ × ν)) :
    ((insertEntry k v es).flatMap write).length ≤
      (es.flatMap write).length + (write (k, v)).length := by
  induction es with
  | nil => simp [insertEntry]
  | cons e es ih =>
      obtain ⟨k', v'⟩ := e
      simp only [insertEntry]
      split
      · simp only [List.flatMap_cons, List.length_append]
        omega
      · split
        · simp only [List.flatMap_cons, List.length_append]
          omega
        · simp only [List.flatMap_cons, List.length_append]
          omega

theorem length_flatMap_eraseEntry_le (write : κ × ν → Bytes) (k : κ) (es : List (κ × ν)) :
    ((eraseEntry k es).flatMap write).length ≤ (es.flatMap write).length := by
  induction es with
  | nil => exact Nat.le_refl _
  | cons e es ih =>
      obtain ⟨k', v'⟩ := e
      simp only [eraseEntry]
      split
      · exact Nat.le_refl _
      · split
        · simp only [List.flatMap_cons, List.length_append]
          omega
        · simp only [List.flatMap_cons, List.length_append]
          omega

end Maps

namespace Log

variable {bs : Bytes} {rs : List Record} {o : Nat}

theorem Begins.bounded {r : Record} {n : Nat} (begins : Begins bs r n) : r.Bounded := by
  cases begins with
  | put short => exact short
  | delete short => exact Nat.le_trans (Nat.add_le_add_left (Nat.zero_le _) _) short

/-- A delete need not have been written by a writer, and may take more bytes than that. -/
theorem Begins.length_bytes_le {r : Record} {n : Nat} (begins : Begins bs r n) :
    (bytes r).length ≤ n := by
  cases begins with
  | put short | delete short =>
      rw [length_bytes, length_framed]
      simp only [Record.key, Record.value, List.length_nil]
      omega

theorem Walk.bounded (walk : Walk bs rs o) : ∀ r ∈ rs, r.Bounded := by
  induction walk with
  | stop => exact List.forall_mem_nil _
  | step first others ih => exact List.forall_mem_cons.mpr ⟨first.bounded, ih⟩

theorem Walk.length_bytesOf_le (walk : Walk bs rs o) : (bytesOf rs).length ≤ o := by
  induction walk with
  | stop => exact Nat.le_refl _
  | step first others ih =>
      rw [bytesOf_cons, List.length_append]
      exact Nat.add_le_add first.length_bytes_le ih

theorem walk_bytesOf {rs : List Record} (bounded : ∀ r ∈ rs, r.Bounded) :
    Walk (bytesOf rs) rs (bytesOf rs).length := by
  induction rs with
  | nil => exact walk_nil
  | cons r rs ih =>
      obtain ⟨first, others⟩ := List.forall_mem_cons.mp bounded
      rw [bytesOf_cons, List.length_append]
      refine .step ((begins_bytes first).append _) ?_
      rw [List.drop_left]
      exact ih others

end Log

namespace LogStore

theorem bytesOf_puts (m : Entries) :
    Log.bytesOf (puts m) = m.entries.flatMap fun e => Log.bytes (.put e.1 e.2) := by
  simp only [Log.bytesOf, puts, List.flatMap_map]

theorem length_puts_apply_le (r : Record) (m : Entries) :
    (Log.bytesOf (puts (r.apply m))).length ≤
      (Log.bytesOf (puts m)).length + (Log.bytes r).length := by
  rw [bytesOf_puts, bytesOf_puts]
  cases r with
  | put key value => exact length_flatMap_insertEntry_le _ key value m.entries
  | delete key => exact Nat.le_add_right_of_le (length_flatMap_eraseEntry_le _ key m.entries)

/-- One put for each entry takes no more than the records that the entries come from. -/
theorem length_puts_applyAll_le (rs : List Record) (m : Entries) :
    (Log.bytesOf (puts (applyAll rs m))).length ≤
      (Log.bytesOf (puts m)).length + (Log.bytesOf rs).length := by
  induction rs generalizing m with
  | nil => exact Nat.le_refl _
  | cons r rs ih =>
      have first := length_puts_apply_le r m
      have others := ih (r.apply m)
      rw [Record.applyAll_cons, Log.bytesOf_cons, List.length_append]
      omega

variable {s : LogStore} {rs : List Record}

theorem Logged.small (h : s.Logged rs) :
    ∀ e ∈ s.entries.entries, (Record.put e.1 e.2).Bounded := by
  rw [h.entries]
  exact Record.bounded_of_mem_applyAll h.walk.bounded (by simp [OrderedMap.empty])

theorem Logged.perform (h : s.Logged rs) {r : Record} (bounded : r.Bounded) :
    ∃ t, Storage.perform r s = .ok t ∧ t.Logged (rs ++ [r]) := by
  refine ⟨_, perform_of_writable bounded.writable s, ?_, rfl, ?_⟩
  · have last := Log.walk_bytesOf (List.forall_mem_singleton.mpr bounded)
    rw [Log.bytesOf_cons, Log.bytesOf_nil, List.append_nil] at last
    rw [h.settled, List.nil_append, List.length_append]
    exact h.walk.append last
  · rw [Record.applyAll_append, ← h.entries]
    rfl

theorem Logged.compact (h : s.Logged rs) :
    s.compact = (.ok (), ⟨Log.bytesOf (puts s.entries), [], s.entries⟩) ∧
      (⟨Log.bytesOf (puts s.entries), [], s.entries⟩ : LogStore).Logged (puts s.entries) :=
  ⟨compact_of_small h.small, Log.walk_bytesOf (bounded_of_mem_puts h.small), rfl,
    (applyAll_puts s.entries).symm⟩

/-- What compacting makes of a store: one put for each entry, in the order of their keys. -/
structure Compacted (s t : LogStore) : Prop where
  puts : ∃ es : List (Bytes × Bytes), t.file = Log.bytesOf (es.map fun e => .put e.1 e.2) ∧
    es.Pairwise (fun a b => a.1 < b.1) ∧
    ∀ key value, (key, value) ∈ es ↔ Storage.get s key = .ok value
  replay : Log.replay t.file = .ok (s.entries, t.file.length)
  shorter : t.file.length ≤ s.file.length
  again : t.compact = (.ok (), t)

theorem get_eq_ok_iff {key value : Bytes} :
    Storage.get s key = .ok value ↔ (key, value) ∈ s.entries.entries := by
  have found : Storage.get s key = .ok value ↔ s.entries.get? key = some value := by
    unfold Storage.get
    cases h : (Storage.entries s).get? key <;> simp_all [Storage.entries]
  rw [found, OrderedMap.get?_eq_some_iff]

theorem Logged.compacted (h : s.Logged rs) :
    ∃ t, s.compact = (.ok (), t) ∧ t.file = Log.bytesOf (LogStore.puts s.entries) ∧
      Compacted s t := by
  obtain ⟨done, logged⟩ := h.compact
  refine ⟨_, done, rfl, ⟨s.entries.entries, rfl, ?_, fun _ _ => get_eq_ok_iff.symm⟩,
    logged.replay, ?_, logged.compact.1⟩
  · exact s.entries.ascending.imp fun first => of_decide_eq_true first
  · have fromRecords := length_puts_applyAll_le rs .empty
    have inFile := h.walk.length_bytesOf_le
    rw [← h.entries] at fromRecords
    exact Nat.le_trans fromRecords (by simpa [LogStore.puts, OrderedMap.empty] using inFile)

end LogStore

namespace Session

/-- What comes of a store that is opened on a file. -/
def runOnFile (file : Bytes) (ops : List Operation) : Except StorageError (Session LogStore) := do
  ops.foldlM onLog ⟨← LogStore.ofFile file, []⟩

theorem step_logged {s : Session LogStore} {rs : List Record} (h : s.store.Logged rs)
    {op : Operation} (bounded : op.Bounded) :
    ∃ s', s.onLog op = .ok s' ∧ ∃ rs', s'.store.Logged rs' := by
  cases op with
  | write r =>
      obtain ⟨store, taken, logged⟩ := h.perform bounded
      exact ⟨{ s with store }, by simp only [onLog, taken, Except.map], _, logged⟩
  | compact =>
      obtain ⟨done, logged⟩ := h.compact
      exact ⟨{ s with store := _ }, by simp only [onLog, done, Except.map], _, logged⟩
  | reopen => exact ⟨s, by simp only [onLog, h.reopen, Except.map], rs, h⟩
  | scan range => exact ⟨_, rfl, rs, h⟩
  | advance i => exact ⟨_, rfl, rs, h⟩

theorem steps_logged {s : Session LogStore} {rs : List Record} (h : s.store.Logged rs)
    {ops : List Operation} (bounded : ∀ op ∈ ops, op.Bounded) :
    ∃ s', ops.foldlM onLog s = .ok s' ∧ ∃ rs', s'.store.Logged rs' := by
  induction ops generalizing s rs with
  | nil => exact ⟨s, rfl, rs, h⟩
  | cons op ops ih =>
      obtain ⟨first, others⟩ := List.forall_mem_cons.mp bounded
      obtain ⟨next, step, rs', logged⟩ := step_logged h first
      obtain ⟨last, rest, ends⟩ := ih logged others
      refine ⟨last, ?_, ends⟩
      rw [List.foldlM_cons, step]
      exact rest

/-- After any operations on any file that opens, the log is sound. -/
theorem runOnFile_logged {file : Bytes} (opens : ∃ start, LogStore.ofFile file = .ok start)
    {ops : List Operation} (bounded : ∀ op ∈ ops, op.Bounded) :
    ∃ s, runOnFile file ops = .ok s ∧ ∃ rs, s.store.Logged rs := by
  obtain ⟨start, opened⟩ := opens
  obtain ⟨rs, o, walk⟩ := Log.exists_walk file
  obtain ⟨s, ran, logged⟩ := steps_logged (s := ⟨start, []⟩)
    (LogStore.logged_of_ofFile walk opened).2 bounded
  exact ⟨s, bind_eq_ok_iff.mpr ⟨start, opened, ran⟩, logged⟩

/-- Two stores that hold the same after any operations on any two files are compacted to the same
bytes: one put for each key, in ascending order. Reading them back gives the same entries, they
are no more than there were before, and compacting again leaves them as they are. -/
theorem compaction_is_canonical (file file' : Bytes)
    (opens : ∃ start, LogStore.ofFile file = .ok start)
    (opens' : ∃ start, LogStore.ofFile file' = .ok start) (ops ops' : List Operation)
    (bounded : ∀ op ∈ ops, op.Bounded) (bounded' : ∀ op ∈ ops', op.Bounded) :
    ∃ s s' t t', runOnFile file ops = .ok s ∧ runOnFile file' ops' = .ok s' ∧
      s.store.compact = (.ok (), t) ∧ s'.store.compact = (.ok (), t') ∧
      ((∀ key, Storage.get s.store key = Storage.get s'.store key) → t.file = t'.file) ∧
      LogStore.Compacted s.store t ∧ LogStore.Compacted s'.store t' := by
  obtain ⟨s, ran, rs, logged⟩ := runOnFile_logged opens bounded
  obtain ⟨s', ran', rs', logged'⟩ := runOnFile_logged opens' bounded'
  obtain ⟨t, done, written, compacted⟩ := logged.compacted
  obtain ⟨t', done', written', compacted'⟩ := logged'.compacted
  refine ⟨s, s', t, t', ran, ran', done, done', fun same => ?_, compacted, compacted'⟩
  have entries : s.store.entries = s'.store.entries := by
    refine OrderedMap.ext_get? fun key => Option.ext fun value => ?_
    rw [OrderedMap.get?_eq_some_iff, OrderedMap.get?_eq_some_iff, ← LogStore.get_eq_ok_iff,
      ← LogStore.get_eq_ok_iff, same]
  rw [written, written', entries]

/-- The second file has a delete with a value in it and a torn put at its end. -/
theorem compaction_is_canonical_of_two_files :
    let ops : List Operation := [.write (.put [2] [20]), .write (.put [1] [9]), .compact,
      .write (.put [1] [10]), .write (.delete [3])]
    let file : Bytes := [2, 1, 0, 0, 0, 1, 0, 0, 0, 2, 0, 1]
    let ops' : List Operation := [.write (.put [1] [10]), .reopen, .write (.put [2] [20])]
    ∃ s s' t t', runOnFile [] ops = .ok s ∧ runOnFile file ops' = .ok s' ∧
      s.store.compact = (.ok (), t) ∧ s'.store.compact = (.ok (), t') ∧ t.file = t'.file ∧
      t.file = Log.bytesOf [.put [1] [10], .put [2] [20]] := by
  intro ops file ops'
  have opens : ∃ start, LogStore.ofFile file = .ok start := ⟨⟨file.take 11, [], .empty⟩, by decide⟩
  have bounded : ∀ op ∈ ops, op.Bounded := by decide
  have bounded' : ∀ op ∈ ops', op.Bounded := by decide
  obtain ⟨s, s', t, t', ran, ran', done, done', same, _⟩ :=
    compaction_is_canonical [] file ⟨_, rfl⟩ opens ops ops' bounded bounded'
  have entries : (runOnFile [] ops).map (fun s => Storage.entries s.store) =
      (runOnFile file ops').map fun s => Storage.entries s.store := by decide +kernel
  have written : (runOnFile [] ops).map (fun s => s.store.compact.2.file) =
      .ok (Log.bytesOf [.put [1] [10], .put [2] [20]]) := by decide +kernel
  simp only [ran, ran', done, Except.map, Except.ok.injEq] at entries written
  refine ⟨s, s', t, t', ran, ran', done, done', same fun key => ?_, written⟩
  rw [Storage.get, Storage.get, entries]

end Session
end RowStore
