import RowStore.Proofs.LogStore
import RowStore.Proofs.Outcomes

/-! What any bytes are as a log: records one after another as long as one follows, and then bytes
that are cut short or that no record can begin with. Replaying finds just these records, and tells
the two kinds of rest apart. -/
namespace RowStore

open Record (applyAll)

namespace Log

/-- The nine bytes before a key and a value. -/
structure Header where
  op : UInt8
  keyLength : Nat
  valueLength : Nat

namespace Header

def bytes (h : Header) : Bytes := h.op :: lengthBytes h.keyLength ++ lengthBytes h.valueLength

/-- Four bytes hold each of the lengths. -/
structure Valid (h : Header) : Prop where
  key : h.keyLength < 0x100000000
  value : h.valueLength < 0x100000000

/-- It stands before a put or a delete. -/
def Known (h : Header) : Prop := h.op = 1 ∨ h.op = 2

/-- It announces no more than a reader accepts. -/
def Short (h : Header) : Prop := h.keyLength + h.valueLength ≤ maxBody

theorem Short.valid {h : Header} (short : h.Short) : h.Valid := by
  simp only [Short, maxBody] at short
  constructor <;> omega

end Header

section Headers

theorem lengthBytes_ofLengthBytes (a b c d : UInt8) :
    lengthBytes (ofLengthBytes a b c d) = [a, b, c, d] := by
  have first := a.toNat_lt
  have second := b.toNat_lt
  have third := c.toNat_lt
  have fourth := d.toNat_lt
  simp only [lengthBytes, ofLengthBytes, List.cons.injEq, and_true, ← UInt8.toNat_inj,
    UInt8.toNat_ofNat', Nat.reducePow]
  omega

theorem ofLengthBytes_lt (a b c d : UInt8) : ofLengthBytes a b c d < 0x100000000 := by
  have first := a.toNat_lt
  have second := b.toNat_lt
  have third := c.toNat_lt
  have fourth := d.toNat_lt
  simp only [ofLengthBytes]
  omega

/-- Any nine bytes are a header. -/
theorem exists_header {bs : Bytes} (long : headerLength ≤ bs.length) :
    ∃ (h : Header) (rest : Bytes), h.Valid ∧ bs = h.bytes ++ rest := by
  match bs, long with
  | op :: k₀ :: k₁ :: k₂ :: k₃ :: v₀ :: v₁ :: v₂ :: v₃ :: rest, _ =>
      refine ⟨⟨op, ofLengthBytes k₀ k₁ k₂ k₃, ofLengthBytes v₀ v₁ v₂ v₃⟩, rest,
        ⟨ofLengthBytes_lt .., ofLengthBytes_lt ..⟩, ?_⟩
      simp only [Header.bytes, lengthBytes_ofLengthBytes]
      rfl

theorem readRecord_of_header {h : Header} (valid : h.Valid) (rest : Bytes) :
    readRecord (h.bytes ++ rest) = readBody h.op h.keyLength h.valueLength rest :=
  readRecord_lengths h.op valid.key valid.value rest

variable {h : Header}

theorem readBody_of_unknown (unknown : ¬ h.Known) (body : Bytes) :
    readBody h.op h.keyLength h.valueLength body = .corrupt (.unknownOperation h.op) :=
  if_pos (not_or.mp unknown)

theorem readBody_of_known (known : h.Known) (body : Bytes) :
    readBody h.op h.keyLength h.valueLength body =
      if maxBody < h.keyLength + h.valueLength then
        .corrupt (.tooLong (h.keyLength + h.valueLength))
      else if body.length < h.keyLength + h.valueLength then .torn
      else .record
        (if h.op = 1 then .put (body.take h.keyLength)
            ((body.drop h.keyLength).take h.valueLength)
          else .delete (body.take h.keyLength))
        (headerLength + h.keyLength + h.valueLength) :=
  if_neg fun unnamed => not_or.mpr unnamed known

theorem readBody_of_long (known : h.Known) (long : ¬ h.Short) (body : Bytes) :
    readBody h.op h.keyLength h.valueLength body =
      .corrupt (.tooLong (h.keyLength + h.valueLength)) := by
  rw [readBody_of_known known, if_pos (Nat.lt_of_not_le long)]

theorem readBody_of_cut (known : h.Known) (short : h.Short) {body : Bytes}
    (cut : body.length < h.keyLength + h.valueLength) :
    readBody h.op h.keyLength h.valueLength body = .torn := by
  rw [readBody_of_known known, if_neg (Nat.not_lt.mpr short), if_pos cut]

theorem readBody_of_whole (known : h.Known) (short : h.Short) {key value : Bytes}
    (announced : h.keyLength = key.length ∧ h.valueLength = value.length) (rest : Bytes) :
    readBody h.op h.keyLength h.valueLength (key ++ (value ++ rest)) =
      .record (if h.op = 1 then .put key value else .delete key)
        (headerLength + h.keyLength + h.valueLength) := by
  obtain ⟨sameKey, sameValue⟩ := announced
  have whole : ¬ (key ++ (value ++ rest)).length < h.keyLength + h.valueLength := by
    simp only [List.length_append]
    omega
  rw [readBody_of_known known, if_neg (Nat.not_lt.mpr short), if_neg whole, sameKey, sameValue,
    List.take_left, List.drop_left, List.take_left]

end Headers

/-- A record of any operation, written out. -/
def framed (op : UInt8) (key value : Bytes) : Bytes :=
  Header.bytes ⟨op, key.length, value.length⟩ ++ (key ++ value)

theorem length_framed (op : UInt8) (key value : Bytes) :
    (framed op key value).length = headerLength + key.length + value.length := by
  simp only [framed, Header.bytes, lengthBytes, headerLength, List.cons_append, List.nil_append,
    List.length_cons, List.length_append]
  omega

/-- The first so many bytes are a record. What a delete has for a value is passed over. -/
inductive Begins : Bytes → Record → Nat → Prop
  | put {key value rest : Bytes} (short : Header.Short ⟨1, key.length, value.length⟩) :
      Begins (framed 1 key value ++ rest) (.put key value) (framed 1 key value).length
  | delete {key value rest : Bytes} (short : Header.Short ⟨2, key.length, value.length⟩) :
      Begins (framed 2 key value ++ rest) (.delete key) (framed 2 key value).length

/-- No record begins like this: nine bytes are there, and the first of them stands for nothing or
else they announce too much. -/
inductive Faulty : Bytes → RecordFault → Prop
  | operation {h : Header} {rest : Bytes} (valid : h.Valid) (unknown : ¬ h.Known) :
      Faulty (h.bytes ++ rest) (.unknownOperation h.op)
  | length {h : Header} {rest : Bytes} (valid : h.Valid) (known : h.Known) (long : ¬ h.Short) :
      Faulty (h.bytes ++ rest) (.tooLong (h.keyLength + h.valueLength))

section Reading

variable {bs : Bytes} {r : Record} {n : Nat}

theorem readRecord_framed {op : UInt8} {key value : Bytes}
    (known : Header.Known ⟨op, key.length, value.length⟩)
    (short : Header.Short ⟨op, key.length, value.length⟩) (rest : Bytes) :
    readRecord (framed op key value ++ rest) =
      .record (if op = 1 then .put key value else .delete key) (framed op key value).length := by
  rw [framed, List.append_assoc, List.append_assoc, readRecord_of_header short.valid,
    readBody_of_whole known short ⟨rfl, rfl⟩, ← framed, length_framed]

theorem readRecord_of_begins (begins : Begins bs r n) : readRecord bs = .record r n := by
  cases begins with
  | put short => exact readRecord_framed (.inl rfl) short _
  | delete short => exact readRecord_framed (.inr rfl) short _

theorem readRecord_of_faulty {fault : RecordFault} (faulty : Faulty bs fault) :
    readRecord bs = .corrupt fault := by
  cases faulty with
  | operation valid unknown => rw [readRecord_of_header valid, readBody_of_unknown unknown]
  | length valid known long => rw [readRecord_of_header valid, readBody_of_long known long]

theorem begins_of_header {h : Header} (known : h.Known) (short : h.Short) {body : Bytes}
    (whole : h.keyLength + h.valueLength ≤ body.length) :
    ∃ r n, Begins (h.bytes ++ body) r n := by
  obtain ⟨op, keyLength, valueLength⟩ := h
  obtain ⟨key, rest, rfl, rfl⟩ : ∃ key rest, body = key ++ rest ∧ keyLength = key.length :=
    ⟨body.take keyLength, body.drop keyLength, (List.take_append_drop ..).symm,
      (List.length_take_of_le (by dsimp only at whole; omega)).symm⟩
  obtain ⟨value, rest, rfl, rfl⟩ :
      ∃ value rest', rest = value ++ rest' ∧ valueLength = value.length :=
    ⟨rest.take valueLength, rest.drop valueLength, (List.take_append_drop ..).symm,
      (List.length_take_of_le (by simp only [List.length_append] at whole; omega)).symm⟩
  rw [← List.append_assoc, ← List.append_assoc, List.append_assoc _ key]
  rcases known with rfl | rfl
  · exact ⟨_, _, .put short⟩
  · exact ⟨_, _, .delete short⟩

/-- Any bytes begin with a record, or with what no record begins with, or are cut short. -/
theorem reading_cases (bs : Bytes) :
    (∃ r n, Begins bs r n) ∨ (∃ fault, Faulty bs fault) ∨ readRecord bs = .torn := by
  by_cases long : headerLength ≤ bs.length
  · obtain ⟨h, body, valid, rfl⟩ := exists_header long
    by_cases known : h.Known
    · by_cases short : h.Short
      · rcases Nat.lt_or_ge body.length (h.keyLength + h.valueLength) with cut | whole
        · exact .inr (.inr (by rw [readRecord_of_header valid, readBody_of_cut known short cut]))
        · exact .inl (begins_of_header known short whole)
      · exact .inr (.inl ⟨_, .length valid known short⟩)
    · exact .inr (.inl ⟨_, .operation valid known⟩)
  · exact .inr (.inr (readRecord_short (Nat.lt_of_not_le long)))

theorem readRecord_eq_record_iff : readRecord bs = .record r n ↔ Begins bs r n := by
  refine ⟨fun read => ?_, readRecord_of_begins⟩
  rcases reading_cases bs with ⟨r', n', begins⟩ | ⟨fault, faulty⟩ | torn
  · obtain ⟨rfl, rfl⟩ := Reading.record.inj ((readRecord_of_begins begins).symm.trans read)
    exact begins
  · nomatch (readRecord_of_faulty faulty).symm.trans read
  · nomatch torn.symm.trans read

theorem readRecord_eq_corrupt_iff {fault : RecordFault} :
    readRecord bs = .corrupt fault ↔ Faulty bs fault := by
  refine ⟨fun read => ?_, readRecord_of_faulty⟩
  rcases reading_cases bs with ⟨r', n', begins⟩ | ⟨fault', faulty⟩ | torn
  · nomatch (readRecord_of_begins begins).symm.trans read
  · obtain rfl := Reading.corrupt.inj ((readRecord_of_faulty faulty).symm.trans read)
    exact faulty
  · nomatch torn.symm.trans read

theorem Begins.unique {r' : Record} {n' : Nat} (begins : Begins bs r n)
    (begins' : Begins bs r' n') :
    r' = r ∧ n' = n :=
  Reading.record.inj ((readRecord_of_begins begins').symm.trans (readRecord_of_begins begins))

theorem Begins.within (begins : Begins bs r n) : headerLength ≤ n ∧ n ≤ bs.length := by
  cases begins with
  | put short | delete short =>
      rw [List.length_append, length_framed]
      omega

/-- Only the bytes of the record matter. -/
theorem Begins.append (begins : Begins bs r n) (more : Bytes) : Begins (bs ++ more) r n := by
  cases begins with
  | put short =>
      rw [List.append_assoc]
      exact .put short
  | delete short =>
      rw [List.append_assoc]
      exact .delete short

theorem Begins.take (begins : Begins bs r n) : Begins (bs.take n) r n := by
  cases begins with
  | @put key value rest short =>
      have alone : Begins (framed 1 key value ++ []) _ _ := .put short
      simpa only [List.take_left, List.append_nil] using alone
  | @delete key value rest short =>
      have alone : Begins (framed 2 key value ++ []) _ _ := .delete short
      simpa only [List.take_left, List.append_nil] using alone

/-- What a writer makes of a record is one. -/
theorem begins_bytes (bounded : r.Bounded) : Begins (bytes r) r (bytes r).length := by
  rw [← readRecord_eq_record_iff, ← readRecord_bytes bounded [], List.append_nil]

end Reading

/-- The records that follow each other from the front, as many as there are, and the place where
no other follows. -/
inductive Walk : Bytes → List Record → Nat → Prop
  | stop {bs : Bytes} (last : ∀ r n, ¬ Begins bs r n) : Walk bs [] 0
  | step {bs : Bytes} {r : Record} {n : Nat} {rs : List Record} {o : Nat} (first : Begins bs r n)
      (others : Walk (bs.drop n) rs o) : Walk bs (r :: rs) (n + o)

section Walking

variable {bs : Bytes} {rs : List Record} {o : Nat}

theorem walk_nil : Walk [] [] 0 := by
  refine .stop fun r n begins => ?_
  have within := begins.within
  simp only [List.length_nil, headerLength] at within
  omega

theorem exists_walk (bs : Bytes) : ∃ rs o, Walk bs rs o := by
  induction whole : bs.length using Nat.strongRecOn generalizing bs with
  | ind total ih =>
      by_cases follows : ∃ r n, Begins bs r n
      · obtain ⟨r, n, first⟩ := follows
        have within := first.within
        have shorter : (bs.drop n).length < total := by
          rw [List.length_drop, ← whole]
          simp only [headerLength] at within
          omega
        obtain ⟨rs, o, others⟩ := ih _ shorter _ rfl
        exact ⟨_, _, .step first others⟩
      · exact ⟨[], 0, .stop fun r n begins => follows ⟨r, n, begins⟩⟩

theorem Walk.unique {rs' : List Record} {o' : Nat} (walk : Walk bs rs o) (walk' : Walk bs rs' o') :
    rs' = rs ∧ o' = o := by
  induction walk generalizing rs' o' with
  | stop last =>
      cases walk' with
      | stop => exact ⟨rfl, rfl⟩
      | step first => exact absurd first (last _ _)
  | step first others ih =>
      cases walk' with
      | stop last => exact absurd first (last _ _)
      | step first' others' =>
          obtain ⟨rfl, rfl⟩ := first.unique first'
          obtain ⟨rfl, rfl⟩ := ih others'
          exact ⟨rfl, rfl⟩

theorem Walk.le_length (walk : Walk bs rs o) : o ≤ bs.length := by
  induction walk with
  | stop => exact Nat.zero_le _
  | step first others ih =>
      have within := first.within
      rw [List.length_drop] at ih
      omega

/-- Cut to its records, a log is walked to its end. -/
theorem Walk.take (walk : Walk bs rs o) : Walk (bs.take o) rs o := by
  induction walk with
  | stop last => exact walk_nil
  | @step bs r n rs o first others ih =>
      rw [List.take_add]
      refine .step (first.take.append _) ?_
      rwa [List.drop_left' (List.length_take_of_le first.within.2)]

theorem Walk.append (walk : Walk bs rs bs.length) {more : Bytes} {ts : List Record} {o : Nat}
    (walk' : Walk more ts o) : Walk (bs ++ more) (rs ++ ts) (bs.length + o) := by
  generalize whole : bs.length = n at walk
  induction walk with
  | stop last =>
      obtain rfl := List.eq_nil_of_length_eq_zero whole
      simpa using walk'
  | @step bs r n rs o first others ih =>
      rw [List.cons_append, Nat.add_assoc]
      refine .step (first.append more) ?_
      rw [List.drop_append_of_le_length first.within.2]
      exact ih (by rw [List.length_drop]; omega)

/-- What a replay comes to where no record follows. -/
def stopped (offset : Nat) (m : Entries) (rest : Bytes) : Except StorageError (Entries × Nat) :=
  match readRecord rest with
  | .corrupt fault => .error (.corrupted offset fault)
  | _ => .ok (m, offset)

theorem stopped_eq_error_iff {offset : Nat} {m : Entries} {rest : Bytes} {e : StorageError} :
    stopped offset m rest = .error e ↔ ∃ fault, Faulty rest fault ∧ e = .corrupted offset fault := by
  simp only [stopped, ← readRecord_eq_corrupt_iff]
  cases readRecord rest with
  | corrupt fault => simpa using eq_comm
  | record | torn => simp

theorem stopped_eq_ok_iff {offset : Nat} {m : Entries} {rest : Bytes} {found : Entries × Nat} :
    stopped offset m rest = .ok found ↔
      (∀ fault, ¬ Faulty rest fault) ∧ found = (m, offset) := by
  simp only [stopped, ← readRecord_eq_corrupt_iff]
  cases readRecord rest with
  | corrupt fault => simp
  | record | torn => simpa using eq_comm

theorem replayFrom_of_walk (walk : Walk bs rs o) {fuel : Nat} (enough : bs.length ≤ fuel)
    (offset : Nat) (m : Entries) :
    replayFrom fuel offset m bs = stopped (offset + o) (applyAll rs m) (bs.drop o) := by
  induction walk generalizing fuel offset m with
  | @stop bs last =>
      cases fuel with
      | zero =>
          obtain rfl := List.eq_nil_of_length_eq_zero (Nat.le_zero.mp enough)
          rfl
      | succ fuel =>
          simp only [replayFrom, stopped, List.drop_zero]
          cases read : readRecord bs with
          | record r n => exact absurd (readRecord_eq_record_iff.mp read) (last r n)
          | torn | corrupt => rfl
  | @step bs r n rs o first others ih =>
      have within := first.within
      simp only [headerLength] at within
      obtain ⟨fuel, rfl⟩ : ∃ less, fuel = less + 1 := ⟨fuel - 1, by omega⟩
      simp only [replayFrom, readRecord_of_begins first]
      rw [ih (by rw [List.length_drop]; omega), List.drop_drop, Nat.add_assoc]
      rfl

theorem replay_of_walk (walk : Walk bs rs o) :
    replay bs = stopped o (applyAll rs .empty) (bs.drop o) := by
  rw [replay, replayFrom_of_walk walk (Nat.le_refl _), Nat.zero_add]

/-- A log that is walked to its end is all read. -/
theorem replay_of_whole (walk : Walk bs rs bs.length) :
    replay bs = .ok (applyAll rs .empty, bs.length) := by
  rw [replay_of_walk walk, List.drop_length]
  rfl

end Walking

end Log

namespace LogStore

open Log (Begins Walk Faulty)

theorem ofFile_eq_map (file : Bytes) :
    ofFile file = (Log.replay file).map fun found => ⟨file.take found.2, [], found.1⟩ := by
  unfold ofFile
  cases Log.replay file <;> rfl

theorem ofFile_eq_error_iff {file : Bytes} {e : StorageError} :
    ofFile file = .error e ↔ Log.replay file = .error e := by
  rw [ofFile_eq_map]
  cases Log.replay file <;> simp [Except.map]

/-- The file is records to its end, whoever wrote them, and the entries are what they come to. -/
structure Logged (s : LogStore) (rs : List Record) : Prop where
  walk : Walk s.file rs s.file.length
  settled : s.pending = []
  entries : s.entries = applyAll rs .empty

theorem Logged.replay {s : LogStore} {rs : List Record} (h : s.Logged rs) :
    Log.replay s.file = .ok (s.entries, s.file.length) := by
  rw [Log.replay_of_whole h.walk, h.entries]

section Behind

variable {s : LogStore} {rs : List Record}

/-- What follows the records decides whether the file opens, and is gone if it does. -/
theorem Logged.ofFile_append (h : s.Logged rs) {tail : Bytes}
    (last : ∀ r n, ¬ Begins tail r n) :
    ofFile (s.file ++ tail) = (Log.stopped s.file.length s.entries tail).map fun _ => s := by
  have walked := Log.replay_of_walk (h.walk.append (.stop last))
  rw [Nat.add_zero, List.append_nil, ← h.entries, List.drop_left] at walked
  have whole : (⟨s.file, [], s.entries⟩ : LogStore) = s := by rw [← h.settled]
  rw [ofFile_eq_map, walked, Log.stopped]
  split
  next => rfl
  next => simp only [Except.map, List.take_left, whole]

theorem Logged.ofFile_torn (h : s.Logged rs) {tail : Bytes} (torn : Log.readRecord tail = .torn) :
    ofFile (s.file ++ tail) = .ok s := by
  have last : ∀ r n, ¬ Begins tail r n := fun r n begins =>
    nomatch torn.symm.trans (Log.readRecord_of_begins begins)
  rw [h.ofFile_append last, Log.stopped, torn]
  rfl

theorem Logged.ofFile_faulty (h : s.Logged rs) {tail : Bytes} {fault : RecordFault}
    (faulty : Log.Faulty tail fault) :
    ofFile (s.file ++ tail) = .error (.corrupted s.file.length fault) := by
  have read := Log.readRecord_of_faulty faulty
  have last : ∀ r n, ¬ Begins tail r n := fun r n begins =>
    nomatch read.symm.trans (Log.readRecord_of_begins begins)
  rw [h.ofFile_append last, Log.stopped, read]
  rfl

theorem Logged.reopen (h : s.Logged rs) : ofFile s.close = .ok s := by
  have torn : Log.readRecord [] = .torn := rfl
  simpa [close, flush, h.settled] using h.ofFile_torn torn

end Behind

/-- A store that opens has cut its file to the records. -/
theorem logged_of_ofFile {file : Bytes} {rs : List Record} {o : Nat} (walk : Walk file rs o)
    {s : LogStore} (opens : ofFile file = .ok s) : s.file = file.take o ∧ s.Logged rs := by
  rw [ofFile_eq_map, Log.replay_of_walk walk] at opens
  obtain ⟨found, replayed, rfl⟩ := map_eq_ok_iff.mp opens
  obtain ⟨_, rfl⟩ := Log.stopped_eq_ok_iff.mp replayed
  have kept : Walk (file.take o) rs (file.take o).length := by
    rw [List.length_take_of_le walk.le_length]
    exact walk.take
  exact ⟨rfl, kept, rfl, rfl⟩

/-- What a file holds once opening it was tried. Only a store that opens cuts anything off. -/
def fileAfterOpening (file : Bytes) : Bytes :=
  match ofFile file with
  | .ok s => s.file
  | .error _ => file

/-- Any file is walked in one way, record by record. A replay fails where the walk stops, and only
there, if no record begins with the bytes that follow; in every other case it gives what the
records come to and how many bytes they take. A file that does not open stays as it was. One that
opens is cut to its records, and opens again as it is. -/
theorem any_file_reads_as_its_records (file : Bytes) :
    ∃ rs o, Walk file rs o ∧ (∀ rs' o', Walk file rs' o' → rs' = rs ∧ o' = o) ∧
      (∀ e, Log.replay file = .error e ↔
        ∃ fault, Faulty (file.drop o) fault ∧ e = .corrupted o fault) ∧
      (∀ found, Log.replay file = .ok found ↔
        (∀ fault, ¬ Faulty (file.drop o) fault) ∧ found = (applyAll rs .empty, o)) ∧
      (∀ e, ofFile file = .error e ↔ Log.replay file = .error e) ∧
      (∀ e, ofFile file = .error e → fileAfterOpening file = file) ∧
      ∀ s, ofFile file = .ok s → fileAfterOpening file = s.file ∧ s.file = file.take o ∧
        s.entries = applyAll rs .empty ∧
        Log.replay s.file = .ok (s.entries, s.file.length) ∧ ofFile s.close = .ok s := by
  obtain ⟨rs, o, walk⟩ := Log.exists_walk file
  have replayed := Log.replay_of_walk walk
  refine ⟨rs, o, walk, fun _ _ => walk.unique, fun e => ?_, fun found => ?_,
    fun e => ofFile_eq_error_iff, fun e fails => ?_, fun s opens => ?_⟩
  · rw [replayed, Log.stopped_eq_error_iff]
  · rw [replayed, Log.stopped_eq_ok_iff]
  · rw [fileAfterOpening, fails]
  · obtain ⟨cut, logged⟩ := logged_of_ofFile walk opens
    exact ⟨by rw [fileAfterOpening, opens], cut, logged.entries, logged.replay, logged.reopen⟩

/-- A delete with a value, which no writer makes, and then a put of which only a byte is there. -/
example : (ofFile [2, 1, 0, 0, 0, 1, 0, 0, 0, 0x61, 0x62, 1]).map LogStore.file =
    .ok [2, 1, 0, 0, 0, 1, 0, 0, 0, 0x61, 0x62] := by decide

end LogStore
end RowStore
