import RowStore.Proofs.Compaction

/-! What a refused write leaves behind. The entries stay as they were, but the bytes that came
before the length that does not fit wait in the buffer, and the next write sends them ahead of its
own. A reader takes the two together for one record, whose lengths are made of the wrong bytes. -/
namespace RowStore

namespace Log

/-- The header, and the bytes after it, that a reader finds where the start of a refused record
stands before a whole one. It counts the bytes of the lengths from the wrong place. -/
def misread (r w : Record) : Header × Bytes :=
  if fits r.key then
    (⟨r.code, r.key.length, w.code.toNat + 0x100 * (w.key.length % 0x1000000)⟩,
      UInt8.ofNat (w.key.length / 0x1000000) :: lengthBytes w.value.length ++ (w.key ++ w.value))
  else
    (⟨r.code, w.code.toNat + 0x100 * (w.key.length % 0x1000000),
        w.key.length / 0x1000000 + 0x100 * (w.value.length % 0x1000000)⟩,
      UInt8.ofNat (w.value.length / 0x1000000) :: (w.key ++ w.value))

section Refused

variable {r w : Record}

theorem known_of_code (keyLength valueLength : Nat) :
    Header.Known ⟨r.code, keyLength, valueLength⟩ := by
  cases r with
  | put key value => exact .inl rfl
  | delete key => exact .inr rfl

/-- Of a length only the three lower bytes follow another byte. -/
theorem lengthBytes_late (c : UInt8) (n : Nat) :
    lengthBytes (c.toNat + 0x100 * (n % 0x1000000)) =
      [c, UInt8.ofNat n, UInt8.ofNat (n / 0x100), UInt8.ofNat (n / 0x10000)] := by
  have small := c.toNat_lt
  simp only [lengthBytes, List.cons.injEq, and_true, ← UInt8.toNat_inj, UInt8.toNat_ofNat',
    Nat.reducePow]
  omega

theorem lengthBytes_split {n : Nat} (small : n < 0x100000000) (m : Nat) :
    lengthBytes (n / 0x1000000 + 0x100 * (m % 0x1000000)) =
      [UInt8.ofNat (n / 0x1000000), UInt8.ofNat m, UInt8.ofNat (m / 0x100),
        UInt8.ofNat (m / 0x10000)] := by
  have held : (UInt8.ofNat (n / 0x1000000)).toNat = n / 0x1000000 := by
    rw [UInt8.toNat_ofNat', Nat.mod_eq_of_lt (Nat.div_lt_of_lt_mul small)]
  rw [← lengthBytes_late, held]

theorem write_refused (refused : ¬ r.Writable) :
    ∃ e, write r = (if fits r.key then r.code :: lengthBytes r.key.length else [r.code],
      .error e) := by
  unfold write
  split
  next long =>
    rw [if_neg (by simpa using long)]
    exact ⟨_, rfl⟩
  next key =>
    have key : fits r.key = true := by simpa using key
    split
    next => exact ⟨_, rfl⟩
    next value => exact absurd ⟨key, by simpa using value⟩ refused

theorem length_write_refused (refused : ¬ r.Writable) : (write r).1.length < headerLength := by
  obtain ⟨e, written⟩ := write_refused refused
  rw [written]
  dsimp only
  split <;> simp [lengthBytes, headerLength]

theorem misread_known (r w : Record) : (misread r w).1.Known := by
  unfold misread
  split <;> exact known_of_code _ _

theorem misread_valid (r : Record) (writable : w.Writable) : (misread r w).1.Valid := by
  have key : w.key.length < 0x100000000 := of_decide_eq_true writable.key
  have code := w.code.toNat_lt
  unfold misread
  split
  next fit => exact ⟨of_decide_eq_true fit, by dsimp only; omega⟩
  next => constructor <;> dsimp only <;> omega

theorem write_append_bytes (refused : ¬ r.Writable) (writable : w.Writable) :
    (write r).1 ++ bytes w = (misread r w).1.bytes ++ (misread r w).2 := by
  have key : w.key.length < 0x100000000 := of_decide_eq_true writable.key
  obtain ⟨e, written⟩ := write_refused refused
  rw [written, misread]
  split <;>
    simp only [Header.bytes, lengthBytes_late, lengthBytes_split key] <;>
    simp [bytes, lengthBytes]

theorem length_misread_long (long : fits r.key = false) (w : Record) :
    (misread r w).2.length = w.key.length + w.value.length + 1 := by
  rw [misread, if_neg (by simp [long]), List.length_cons, List.length_append]

/-- Behind a key that does not fit, a short record is announced as some 256 times as long. -/
theorem announced_of_long (long : fits r.key = false)
    (small : w.key.length + w.value.length < 0x40000) :
    (misread r w).1.keyLength + (misread r w).1.valueLength =
      w.code.toNat + 0x100 * (w.key.length + w.value.length) := by
  rw [misread, if_neg (by simp [long])]
  dsimp only
  omega

/-- It is within what a reader accepts, and more than is there. -/
theorem readRecord_after_long (long : fits r.key = false)
    (nonempty : 0 < w.key.length + w.value.length)
    (small : w.key.length + w.value.length < 0x40000) :
    (misread r w).1.Short ∧
      (misread r w).2.length < (misread r w).1.keyLength + (misread r w).1.valueLength := by
  have code : 1 ≤ w.code.toNat ∧ w.code.toNat ≤ 2 := by
    cases w <;> simp [Record.code]
  rw [Header.Short, announced_of_long long small, length_misread_long long, maxBody]
  omega

end Refused
end Log

namespace LogStore

open Log (misread)

variable {s : LogStore} {rs : List Record}

theorem append_of_refused {r : Record} (refused : ¬ r.Writable) (s : LogStore) :
    ∃ e, s.append r = (.error e, { s with pending := s.pending ++ (Log.write r).1 }) := by
  obtain ⟨e, written⟩ := Log.write_refused refused
  exact ⟨e, by simp only [append, written]⟩

/-- What comes of a write after a refused one once the store is closed. It can be that the log is
shut, or that the write is lost. -/
structure Spoiled (s u : LogStore) (r w : Record) : Prop where
  shut : ¬ (misread r w).1.Short → ofFile u.close = .error (.corrupted s.file.length
    (.tooLong ((misread r w).1.keyLength + (misread r w).1.valueLength)))
  lost : (misread r w).1.Short →
    (misread r w).2.length < (misread r w).1.keyLength + (misread r w).1.valueLength →
    ofFile u.close = .ok s

theorem Logged.spoiled (h : s.Logged rs) {r w : Record} (refused : ¬ r.Writable)
    (writable : w.Writable) {u : LogStore} (settled : u.pending = [])
    (sent : u.file = s.file ++ ((Log.write r).1 ++ Log.bytes w)) : Spoiled s u r w := by
  have known := Log.misread_known r w
  have valid := Log.misread_valid r writable
  have closed : u.close = s.file ++ ((misread r w).1.bytes ++ (misread r w).2) := by
    rw [close, flush, settled, List.append_nil, sent, Log.write_append_bytes refused writable]
  constructor
  · intro long
    rw [closed, h.ofFile_faulty (.length valid known long)]
  · intro short cut
    have torn := Log.readBody_of_cut known short cut
    rw [closed, h.ofFile_torn (by rw [Log.readRecord_of_header valid, torn])]

end LogStore

namespace Session

/-- A refused write leaves the entries alone, and opening again or compacting forgets it. But a
write that comes before that is taken and then spoiled: without the refused one it would be there
when the store is opened again, and where a key did not fit, every short write is gone. -/
theorem refused_write_spoils_next (file : Bytes) (ops : List Operation)
    (bounded : ∀ op ∈ ops, op.Bounded) (session : Session LogStore)
    (ran : runOnFile file ops = .ok session) (r : Record) (refused : ¬ r.Writable) :
    ∃ e t, session.store.append r = (.error e, t) ∧ t.entries = session.store.entries ∧
      LogStore.ofFile t.close = .ok session.store ∧ t.compact = session.store.compact ∧
      ∀ w : Record, w.Bounded → ∃ u v, Storage.perform w t = .ok u ∧
        Storage.perform w session.store = .ok v ∧ LogStore.ofFile v.close = .ok v ∧
        u.entries = v.entries ∧ LogStore.Spoiled session.store u r w ∧
        (Log.fits r.key = false → 0 < w.key.length + w.value.length →
          w.key.length + w.value.length < 0x40000 →
          LogStore.ofFile u.close = .ok session.store) := by
  obtain ⟨start, opened, _⟩ := bind_eq_ok_iff.mp ran
  obtain ⟨s, ran', rs, logged⟩ := runOnFile_logged ⟨start, opened⟩ bounded
  obtain rfl := Except.ok.inj (ran.symm.trans ran')
  obtain ⟨e, stopped⟩ := LogStore.append_of_refused refused session.store
  refine ⟨e, _, stopped, rfl, ?_, ?_, fun w short => ?_⟩
  · rw [logged.settled, List.nil_append]
    exact logged.ofFile_torn (Log.readRecord_short (Log.length_write_refused refused))
  · rw [logged.compact.1]
    exact LogStore.compact_of_small logged.small
  · have spoiled := logged.spoiled refused short.writable (u := ⟨session.store.file ++
      ((Log.write r).1 ++ Log.bytes w), [], w.apply session.store.entries⟩) rfl rfl
    obtain ⟨v, taken, holds⟩ := logged.perform short
    have applied : w.apply session.store.entries = v.entries := by
      rw [holds.entries, Record.applyAll_append, ← logged.entries]
      rfl
    refine ⟨_, v, LogStore.perform_of_writable short.writable _, taken, holds.reopen, applied, ?_,
      fun long nonempty small => ?_⟩
    · rw [logged.settled]
      exact spoiled
    · rw [logged.settled]
      obtain ⟨within, cut⟩ := Log.readRecord_after_long long nonempty small
      exact spoiled.lost within cut

/-- A key that is too long by one byte, and then a put that an empty store takes and forgets. -/
theorem refused_write_spoils_next_put :
    ∃ key e t u v, key.length = 0x100000000 ∧
      LogStore.append (.put key []) ⟨[], [], .empty⟩ = (.error e, t) ∧
      Storage.perform (.put [0x6b] [0x76]) t = .ok u ∧
      Storage.perform (.put [0x6b] [0x76]) (⟨[], [], .empty⟩ : LogStore) = .ok v ∧
      Storage.get u [0x6b] = .ok [0x76] ∧ Storage.get v [0x6b] = .ok [0x76] ∧
      LogStore.ofFile u.close = .ok ⟨[], [], .empty⟩ ∧ LogStore.ofFile v.close = .ok v := by
  -- Only the length counts, and so many bytes are better not written down.
  obtain ⟨key, length⟩ : ∃ key : Bytes, key.length = 0x100000000 :=
    ⟨List.replicate _ 0, List.length_replicate⟩
  have long : Log.fits key = false := decide_eq_false (by rw [length]; decide)
  have refused : ¬ (Record.put key []).Writable := fun writable =>
    nomatch long.symm.trans writable.key
  obtain ⟨e, t, stopped, same, _, _, next⟩ := refused_write_spoils_next [] []
    (List.forall_mem_nil _) ⟨⟨[], [], .empty⟩, []⟩ rfl (.put key []) refused
  obtain ⟨u, v, taken, alone, again, entries, _, lost⟩ := next (.put [0x6b] [0x76]) (by decide)
  have found : Storage.get v [0x6b] = .ok [0x76] := by
    obtain rfl := Except.ok.inj alone
    rfl
  have seen : Storage.get u [0x6b] = .ok [0x76] := by
    have same : Storage.entries u = Storage.entries v := entries
    rw [← found, Storage.get, Storage.get, same]
  refine ⟨key, e, t, u, v, length, stopped, taken, alone, seen, found, ?_, again⟩
  exact lost long (by decide) (by decide)

end Session
end RowStore
