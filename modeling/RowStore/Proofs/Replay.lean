import RowStore.Storage.Log

namespace RowStore

namespace Record

/-- Key and value together are no longer than a reader accepts. -/
def Bounded (r : Record) : Prop := r.key.length + r.value.length ≤ Log.maxBody

instance (r : Record) : Decidable r.Bounded := inferInstanceAs (Decidable (_ ≤ _))

/-- A writer takes the record, for four bytes hold the length of its key and of its value. -/
structure Writable (r : Record) : Prop where
  key : Log.fits r.key = true
  value : Log.fits r.value = true

theorem Bounded.writable {r : Record} (bounded : r.Bounded) : r.Writable := by
  simp only [Bounded, Log.maxBody] at bounded
  constructor <;> simp only [Log.fits, decide_eq_true_eq] <;> omega

def applyAll (rs : List Record) (m : Entries) : Entries := rs.foldl (fun m r => r.apply m) m

@[simp] theorem applyAll_nil (m : Entries) : applyAll [] m = m := rfl

@[simp] theorem applyAll_cons (r : Record) (rs : List Record) (m : Entries) :
    applyAll (r :: rs) m = applyAll rs (r.apply m) := rfl

theorem applyAll_append (rs more : List Record) (m : Entries) :
    applyAll (rs ++ more) m = applyAll more (applyAll rs m) :=
  List.foldl_append

end Record

namespace Log

open Record (applyAll)

/-- Four bytes hold any length that a writer accepts. -/
theorem ofLengthBytes_lengthBytes {n : Nat} (small : n < 0x100000000) :
    ofLengthBytes (UInt8.ofNat n) (UInt8.ofNat (n / 0x100)) (UInt8.ofNat (n / 0x10000))
      (UInt8.ofNat (n / 0x1000000)) = n := by
  simp only [ofLengthBytes, UInt8.toNat_ofNat', Nat.reducePow]
  omega

theorem length_bytes (r : Record) :
    (bytes r).length = headerLength + r.key.length + r.value.length := by
  simp only [bytes, lengthBytes, headerLength, List.cons_append, List.nil_append,
    List.length_cons, List.length_append]
  omega

theorem headerLength_le_bytes (r : Record) : headerLength ≤ (bytes r).length := by
  rw [length_bytes]
  omega

theorem readRecord_lengths (op : UInt8) {m n : Nat} (keySmall : m < 0x100000000)
    (valueSmall : n < 0x100000000) (rest : Bytes) :
    readRecord (op :: lengthBytes m ++ lengthBytes n ++ rest) = readBody op m n rest := by
  simp only [lengthBytes, List.cons_append, List.nil_append, readRecord,
    ofLengthBytes_lengthBytes keySmall, ofLengthBytes_lengthBytes valueSmall]

/-- A header of nine bytes, and then key and value. -/
theorem readRecord_header (r : Record) (writable : r.Writable) (rest : Bytes) :
    readRecord (r.code :: lengthBytes r.key.length ++ lengthBytes r.value.length ++ rest) =
      readBody r.code r.key.length r.value.length rest :=
  readRecord_lengths r.code (of_decide_eq_true writable.key) (of_decide_eq_true writable.value) rest

theorem readRecord_bytes_append (r : Record) (writable : r.Writable) (rest : Bytes) :
    readRecord (bytes r ++ rest) =
      readBody r.code r.key.length r.value.length (r.key ++ (r.value ++ rest)) := by
  rw [← readRecord_header r writable]
  simp [bytes]

theorem code_known (r : Record) : ¬ (r.code ≠ 1 ∧ r.code ≠ 2) := by
  cases r <;> simp [Record.code]

theorem readBody_of_bounded (r : Record) (bounded : r.Bounded) (body : Bytes) :
    readBody r.code r.key.length r.value.length body =
      if body.length < r.key.length + r.value.length then .torn
      else .record
        (if r.code = 1 then .put (body.take r.key.length)
            ((body.drop r.key.length).take r.value.length)
          else .delete (body.take r.key.length))
        (headerLength + r.key.length + r.value.length) := by
  have short : ¬ maxBody < r.key.length + r.value.length := Nat.not_lt.mpr bounded
  simp only [readBody, code_known, short, if_false]

theorem readRecord_bytes {r : Record} (bounded : r.Bounded) (rest : Bytes) :
    readRecord (bytes r ++ rest) = .record r (bytes r).length := by
  rw [readRecord_bytes_append r bounded.writable, readBody_of_bounded r bounded,
    if_neg (by simp), length_bytes]
  cases r with
  | put key value => simp [Record.code, Record.key, Record.value]
  | delete key => simp [Record.code, Record.key, Record.value]

/-- Less than a header is torn. -/
theorem readRecord_short {bs : Bytes} (short : bs.length < headerLength) :
    readRecord bs = .torn := by
  unfold readRecord
  split
  · simp only [List.length_cons, headerLength] at short
    omega
  · rfl

theorem readRecord_take {r : Record} (bounded : r.Bounded) {n : Nat}
    (cut : n < (bytes r).length) : readRecord ((bytes r).take n) = .torn := by
  by_cases header : n < headerLength
  · exact readRecord_short (by rw [List.length_take]; omega)
  · have lengths : (r.code :: lengthBytes r.key.length ++ lengthBytes r.value.length).length =
        headerLength := rfl
    have split : (bytes r).take n =
        r.code :: lengthBytes r.key.length ++ lengthBytes r.value.length ++
          (r.key ++ r.value).take (n - headerLength) := by
      rw [bytes, List.append_assoc _ r.key, List.take_append, lengths,
        List.take_of_length_le (by omega)]
    rw [length_bytes] at cut
    rw [split, readRecord_header r bounded.writable, readBody_of_bounded r bounded, if_pos]
    rw [List.length_take, List.length_append]
    omega

/-- The bytes of records, one after another. -/
def bytesOf (rs : List Record) : Bytes := rs.flatMap bytes

@[simp] theorem bytesOf_nil : bytesOf [] = [] := rfl

@[simp] theorem bytesOf_cons (r : Record) (rs : List Record) :
    bytesOf (r :: rs) = bytes r ++ bytesOf rs := List.flatMap_cons

theorem bytesOf_append (rs more : List Record) :
    bytesOf (rs ++ more) = bytesOf rs ++ bytesOf more := List.flatMap_append

theorem length_le_bytesOf (rs : List Record) : rs.length ≤ (bytesOf rs).length := by
  induction rs with
  | nil => exact Nat.le_refl _
  | cons r rs ih =>
      have header := headerLength_le_bytes r
      simp only [bytesOf_cons, List.length_cons, List.length_append, headerLength] at *
      omega

theorem replayFrom_bytesOf {rs : List Record} (bounded : ∀ r ∈ rs, r.Bounded) (tail : Bytes)
    (fuel offset : Nat) (m : Entries) :
    replayFrom (rs.length + fuel) offset m (bytesOf rs ++ tail) =
      replayFrom fuel (offset + (bytesOf rs).length) (applyAll rs m) tail := by
  induction rs generalizing offset m with
  | nil => simp
  | cons r rs ih =>
      obtain ⟨first, others⟩ := List.forall_mem_cons.mp bounded
      rw [List.length_cons, Nat.add_right_comm, bytesOf_cons, List.append_assoc, replayFrom,
        readRecord_bytes first]
      simp only [List.drop_left, Record.applyAll_cons, ih others, List.length_append, Nat.add_assoc]

theorem replayFrom_torn {tail : Bytes} (torn : readRecord tail = .torn) (fuel offset : Nat)
    (m : Entries) : replayFrom fuel offset m tail = .ok (m, offset) := by
  cases fuel with
  | zero => rfl
  | succ fuel => rw [replayFrom, torn]

/-- Whole records count, and nothing of a record that is cut short. -/
theorem replay_bytesOf_append {rs : List Record} (bounded : ∀ r ∈ rs, r.Bounded) {tail : Bytes}
    (torn : readRecord tail = .torn) :
    replay (bytesOf rs ++ tail) = .ok (applyAll rs .empty, (bytesOf rs).length) := by
  obtain ⟨fuel, enough⟩ := Nat.exists_eq_add_of_le
    (Nat.le_trans (length_le_bytesOf rs) (Nat.le_add_right _ tail.length))
  rw [replay, List.length_append, enough, replayFrom_bytesOf bounded, replayFrom_torn torn,
    Nat.zero_add]

theorem replay_bytesOf {rs : List Record} (bounded : ∀ r ∈ rs, r.Bounded) :
    replay (bytesOf rs) = .ok (applyAll rs .empty, (bytesOf rs).length) := by
  have torn : readRecord [] = .torn := rfl
  simpa using replay_bytesOf_append bounded torn

/-- How many leading records lie wholly within the first `n` bytes. -/
def wholeRecords : Nat → List Record → Nat
  | _, [] => 0
  | n, r :: rs =>
      if (bytes r).length ≤ n then wholeRecords (n - (bytes r).length) rs + 1 else 0

theorem wholeRecords_le (n : Nat) (rs : List Record) : wholeRecords n rs ≤ rs.length := by
  induction rs generalizing n with
  | nil => exact Nat.le_refl _
  | cons r rs ih =>
      simp only [wholeRecords]
      split
      · exact Nat.succ_le_succ (ih _)
      · exact Nat.zero_le _

/-- That many records fit, and no more. -/
theorem fits_iff_le_wholeRecords {rs : List Record} {n k : Nat} (inside : k ≤ rs.length) :
    (bytesOf (rs.take k)).length ≤ n ↔ k ≤ wholeRecords n rs := by
  induction rs generalizing n k with
  | nil =>
      obtain rfl : k = 0 := by simpa using inside
      simp
  | cons r rs ih =>
      cases k with
      | zero => simp
      | succ k =>
          have next := ih (n := n - (bytes r).length) (Nat.le_of_succ_le_succ inside)
          simp only [List.take_succ_cons, bytesOf_cons, List.length_append, wholeRecords]
          split <;> omega

theorem take_bytesOf {rs : List Record} (bounded : ∀ r ∈ rs, r.Bounded) (n : Nat) :
    ∃ tail, readRecord tail = .torn ∧
      (bytesOf rs).take n = bytesOf (rs.take (wholeRecords n rs)) ++ tail := by
  induction rs generalizing n with
  | nil => exact ⟨[], rfl, by simp [wholeRecords]⟩
  | cons r rs ih =>
      obtain ⟨first, others⟩ := List.forall_mem_cons.mp bounded
      by_cases whole : (bytes r).length ≤ n
      · obtain ⟨tail, torn, rest⟩ := ih others (n - (bytes r).length)
        refine ⟨tail, torn, ?_⟩
        simp only [wholeRecords, whole, if_true, bytesOf_cons, List.take_succ_cons,
          List.take_append, List.take_of_length_le whole, rest, List.append_assoc]
      · refine ⟨(bytes r).take n, readRecord_take first (by omega), ?_⟩
        simp only [wholeRecords, whole, if_false, bytesOf_cons, List.take_zero, bytesOf_nil,
          List.nil_append]
        exact List.take_append_of_le_length (by omega)

end Log
end RowStore
