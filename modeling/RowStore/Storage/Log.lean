import RowStore.Storage.Entries

/-! A log of writes: one record after another, each an operation byte, the lengths of key and
value in four bytes, low byte first, and then key and value. -/
namespace RowStore

inductive Record
  | put (key value : Bytes)
  | delete (key : Bytes)
  deriving DecidableEq, Repr

namespace Record

def code : Record → UInt8
  | put .. => 1
  | delete _ => 2

def key : Record → Bytes
  | put key _ => key
  | delete key => key

def value : Record → Bytes
  | put _ value => value
  | delete _ => []

def apply (r : Record) (m : Entries) : Entries :=
  match r with
  | put key value => m.insert key value
  | delete key => m.erase key

end Record

namespace Log

def headerLength : Nat := 9

/-- The most bytes of key and value together that a reader accepts. -/
def maxBody : Nat := 64 * 1024 * 1024

def lengthBytes (n : Nat) : Bytes :=
  [UInt8.ofNat n, UInt8.ofNat (n / 0x100), UInt8.ofNat (n / 0x10000), UInt8.ofNat (n / 0x1000000)]

def ofLengthBytes (a b c d : UInt8) : Nat :=
  a.toNat + b.toNat * 0x100 + c.toNat * 0x10000 + d.toNat * 0x1000000

def fits (bs : Bytes) : Bool := bs.length < 0x100000000

def tooLarge (bs : Bytes) : StorageError := .io s!"record field of {bs.length} bytes is too large"

def bytes (r : Record) : Bytes :=
  r.code :: lengthBytes r.key.length ++ lengthBytes r.value.length ++ r.key ++ r.value

/-- The bytes that reach the writer's buffer. A length that four bytes cannot hold stops the
record before that length. -/
def write (r : Record) : Bytes × Except StorageError Unit :=
  if !fits r.key then ([r.code], .error (tooLarge r.key))
  else if !fits r.value then (r.code :: lengthBytes r.key.length, .error (tooLarge r.value))
  else (bytes r, .ok ())

inductive Reading
  | record (r : Record) (length : Nat)
  | torn
  | corrupt (fault : RecordFault)
  deriving DecidableEq, Repr

def readBody (op : UInt8) (keyLength valueLength : Nat) (body : Bytes) : Reading :=
  if op ≠ 1 ∧ op ≠ 2 then .corrupt (.unknownOperation op)
  else if maxBody < keyLength + valueLength then .corrupt (.tooLong (keyLength + valueLength))
  else if body.length < keyLength + valueLength then .torn
  else
    let key := body.take keyLength
    let value := (body.drop keyLength).take valueLength
    .record (if op = 1 then .put key value else .delete key)
      (headerLength + keyLength + valueLength)

/-- The record at the front. One that is cut short is torn; the value of a delete is ignored. -/
def readRecord (bs : Bytes) : Reading :=
  match bs with
  | op :: k₀ :: k₁ :: k₂ :: k₃ :: v₀ :: v₁ :: v₂ :: v₃ :: body =>
      readBody op (ofLengthBytes k₀ k₁ k₂ k₃) (ofLengthBytes v₀ v₁ v₂ v₃) body
  | _ => .torn

def replayFrom : Nat → Nat → Entries → Bytes → Except StorageError (Entries × Nat)
  | 0, offset, m, _ => .ok (m, offset)
  | fuel + 1, offset, m, bs =>
      match readRecord bs with
      | .torn => .ok (m, offset)
      | .corrupt fault => .error (.corrupted offset fault)
      | .record r length => replayFrom fuel (offset + length) (r.apply m) (bs.drop length)

/-- The entries that a log leaves, and the length of its whole records. -/
def replay (bs : Bytes) : Except StorageError (Entries × Nat) :=
  replayFrom bs.length 0 .empty bs

end Log

/-- A store on a log. `pending` is what the buffered writer holds back. -/
structure LogStore where
  file : Bytes
  pending : Bytes
  entries : Entries
  deriving DecidableEq

namespace LogStore

/-- A torn tail is cut off. -/
def ofFile (file : Bytes) : Except StorageError LogStore := do
  let (entries, length) ← Log.replay file
  return ⟨file.take length, [], entries⟩

def flush (s : LogStore) : LogStore := { s with file := s.file ++ s.pending, pending := [] }

/-- A record that cannot be written leaves its first bytes pending. -/
def append (r : Record) (s : LogStore) : Except StorageError Unit × LogStore :=
  let (bs, result) := Log.write r
  let s := { s with pending := s.pending ++ bs }
  match result with
  | .error e => (.error e, s)
  | .ok () => (.ok (), { s.flush with entries := r.apply s.entries })

def puts (m : Entries) : List Record := m.entries.map fun (key, value) => .put key value

/-- A log of one put for each entry takes the place of the file. -/
def compact (s : LogStore) : Except StorageError Unit × LogStore :=
  match (puts s.entries).mapM fun r => ((Log.write r).2.map fun () => Log.bytes r) with
  | .error e => (.error e, s.flush)
  | .ok parts => (.ok (), ⟨parts.flatten, [], s.entries⟩)

/-- What the file holds once the writer has gone. -/
def close (s : LogStore) : Bytes := s.flush.file

end LogStore

instance : Storage LogStore where
  entries s := s.entries
  put key value s := s.append (.put key value)
  delete key s := s.append (.delete key)

inductive Store
  | memory (entries : Entries)
  | log (store : LogStore)
  deriving DecidableEq

instance : Storage Store where
  entries
    | .memory m => m
    | .log s => s.entries
  put key value
    | .memory m => (.ok (), .memory (m.insert key value))
    | .log s => let (result, s) := s.append (.put key value); (result, .log s)
  delete key
    | .memory m => (.ok (), .memory (m.erase key))
    | .log s => let (result, s) := s.append (.delete key); (result, .log s)

end RowStore
