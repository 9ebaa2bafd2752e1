import RowStore.OrderedMap.Lookup
import RowStore.Proofs.Replay

namespace RowStore

namespace Storage

variable {ω : Type} [Storage ω]

/-- One put or delete, and the store after it. -/
def perform (r : Record) (store : ω) : Except StorageError ω :=
  let (result, store) :=
    match r with
    | .put key value => put key value store
    | .delete key => delete key store
  result.map fun () => store

/-- Puts and deletes one after another, as long as none fails. -/
def performAll (rs : List Record) (store : ω) : Except StorageError ω :=
  rs.foldlM (fun store r => perform r store) store

theorem performAll_cons (r : Record) (rs : List Record) (store : ω) :
    performAll (r :: rs) store = perform r store >>= performAll rs :=
  List.foldlM_cons

/-- A store in memory refuses nothing. -/
theorem perform_memory (r : Record) (m : Entries) : perform r m = .ok (r.apply m) := by
  cases r <;> rfl

theorem performAll_memory (rs : List Record) (m : Entries) :
    performAll rs m = .ok (Record.applyAll rs m) := by
  induction rs generalizing m with
  | nil => rfl
  | cons r rs ih =>
      rw [performAll_cons, perform_memory]
      exact ih _

end Storage

namespace Record

/-- Every entry that short enough records leave is as short. -/
theorem bounded_of_mem_apply {r : Record} (bounded : r.Bounded) {m : Entries}
    (small : ∀ e ∈ m.entries, (put e.1 e.2).Bounded) :
    ∀ e ∈ (r.apply m).entries, (put e.1 e.2).Bounded := by
  intro e member
  cases r with
  | put key value =>
      rcases OrderedMap.mem_insert member with rfl | member
      · exact bounded
      · exact small e member
  | delete key => exact small e (OrderedMap.mem_of_mem_erase member)

theorem bounded_of_mem_applyAll {rs : List Record} (bounded : ∀ r ∈ rs, r.Bounded) {m : Entries}
    (small : ∀ e ∈ m.entries, (put e.1 e.2).Bounded) :
    ∀ e ∈ (applyAll rs m).entries, (put e.1 e.2).Bounded := by
  induction rs generalizing m with
  | nil => exact small
  | cons r rs ih =>
      obtain ⟨first, others⟩ := List.forall_mem_cons.mp bounded
      exact ih others (bounded_of_mem_apply first small)

end Record

namespace Log

theorem write_of_writable {r : Record} (writable : r.Writable) : write r = (bytes r, .ok ()) := by
  simp [write, writable.key, writable.value]

end Log

namespace LogStore

open Record (applyAll)

theorem applyAll_puts (m : Entries) : applyAll (puts m) .empty = m := by
  have fold : applyAll (puts m) .empty = .ofList m.entries := by
    simp only [applyAll, puts, List.foldl_map, OrderedMap.ofList, Record.apply]
  rw [fold, OrderedMap.ofList_entries]

theorem bounded_of_mem_puts {m : Entries} (small : ∀ e ∈ m.entries, (Record.put e.1 e.2).Bounded) :
    ∀ r ∈ puts m, r.Bounded := by
  intro r member
  obtain ⟨e, inside, rfl⟩ := List.mem_map.mp member
  exact small e inside

/-- The file is the bytes of the records and the entries are what they come to. -/
structure Holds (s : LogStore) (rs : List Record) : Prop where
  bounded : ∀ r ∈ rs, r.Bounded
  file : s.file = Log.bytesOf rs
  settled : s.pending = []
  entries : s.entries = applyAll rs .empty

variable {s : LogStore} {rs : List Record}

theorem Holds.eq (h : s.Holds rs) : s = ⟨Log.bytesOf rs, [], applyAll rs .empty⟩ := by
  obtain ⟨_, file, settled, entries⟩ := h
  cases s
  simp_all

theorem Holds.small (h : s.Holds rs) : ∀ e ∈ s.entries.entries, (Record.put e.1 e.2).Bounded := by
  rw [h.entries]
  exact Record.bounded_of_mem_applyAll h.bounded (by simp [OrderedMap.empty])

theorem holds_empty : (⟨[], [], .empty⟩ : LogStore).Holds [] :=
  ⟨by simp, rfl, rfl, rfl⟩

theorem holds_of_records {rs : List Record} (bounded : ∀ r ∈ rs, r.Bounded) :
    (⟨Log.bytesOf rs, [], applyAll rs .empty⟩ : LogStore).Holds rs :=
  ⟨bounded, rfl, rfl, rfl⟩

/-- A record that is short enough is taken whole. -/
theorem append_of_writable {r : Record} (writable : r.Writable) (s : LogStore) :
    s.append r = (.ok (), ⟨s.file ++ (s.pending ++ Log.bytes r), [], r.apply s.entries⟩) := by
  simp only [append, Log.write_of_writable writable, flush]

theorem perform_of_writable {r : Record} (writable : r.Writable) (s : LogStore) :
    Storage.perform r s =
      .ok ⟨s.file ++ (s.pending ++ Log.bytes r), [], r.apply s.entries⟩ := by
  have appended := append_of_writable writable s
  cases r with
  | put key value => simp only [Storage.perform, Storage.put, appended, Except.map]
  | delete key => simp only [Storage.perform, Storage.delete, appended, Except.map]

theorem Holds.perform (h : s.Holds rs) {r : Record} (bounded : r.Bounded) :
    ∃ t, Storage.perform r s = .ok t ∧ t.Holds (rs ++ [r]) := by
  refine ⟨_, perform_of_writable bounded.writable s, ?_, ?_, rfl, ?_⟩
  · exact List.forall_mem_append.mpr ⟨h.bounded, by simpa using bounded⟩
  · simp [h.file, h.settled, Log.bytesOf_append]
  · simp [h.entries, Record.applyAll_append]

theorem Holds.performAll (h : s.Holds rs) {more : List Record} (bounded : ∀ r ∈ more, r.Bounded) :
    ∃ t, Storage.performAll more s = .ok t ∧ t.Holds (rs ++ more) := by
  induction more generalizing s rs with
  | nil => exact ⟨s, rfl, by simpa using h⟩
  | cons r more ih =>
      obtain ⟨first, others⟩ := List.forall_mem_cons.mp bounded
      obtain ⟨t, taken, holds⟩ := h.perform first
      obtain ⟨u, run, holds'⟩ := ih holds others
      refine ⟨u, ?_, by simpa using holds'⟩
      rw [Storage.performAll_cons, taken]
      exact run

theorem mapM_bytes {rs : List Record} (bounded : ∀ r ∈ rs, r.Bounded) :
    (rs.mapM fun r => (Log.write r).2.map fun () => Log.bytes r) = .ok (rs.map Log.bytes) := by
  induction rs with
  | nil => rfl
  | cons r rs ih =>
      obtain ⟨first, others⟩ := List.forall_mem_cons.mp bounded
      rw [List.mapM_cons, Log.write_of_writable first.writable, ih others]
      rfl

/-- Compacting writes one put for each entry. -/
theorem compact_of_small {s : LogStore}
    (small : ∀ e ∈ s.entries.entries, (Record.put e.1 e.2).Bounded) :
    s.compact = (.ok (), ⟨Log.bytesOf (puts s.entries), [], s.entries⟩) := by
  simp only [compact, mapM_bytes (bounded_of_mem_puts small), Log.bytesOf, List.flatMap_def]

theorem Holds.compact (h : s.Holds rs) :
    ∃ t, s.compact = (.ok (), t) ∧ t.Holds (puts s.entries) ∧ t.entries = s.entries :=
  ⟨_, compact_of_small h.small,
    ⟨bounded_of_mem_puts h.small, rfl, rfl, (applyAll_puts s.entries).symm⟩, rfl⟩

theorem Holds.replay (h : s.Holds rs) : Log.replay s.file = .ok (s.entries, s.file.length) := by
  rw [h.file, h.entries, Log.replay_bytesOf h.bounded]

/-- A log read back up to a torn tail is cut to its whole records. -/
theorem ofFile_bytesOf_append {rs : List Record} (bounded : ∀ r ∈ rs, r.Bounded) {tail : Bytes}
    (torn : Log.readRecord tail = .torn) :
    ofFile (Log.bytesOf rs ++ tail) = .ok ⟨Log.bytesOf rs, [], applyAll rs .empty⟩ := by
  simp only [ofFile, Log.replay_bytesOf_append bounded torn, bind, Except.bind, pure, Except.pure,
    List.take_left]

/-- Closing and opening again changes nothing. -/
theorem Holds.reopen (h : s.Holds rs) : ofFile s.close = .ok s := by
  have torn : Log.readRecord [] = .torn := rfl
  rw [h.eq]
  simpa [close, flush] using ofFile_bytesOf_append h.bounded torn

end LogStore
end RowStore
