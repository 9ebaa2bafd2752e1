import RowStore.OrderedMap
import RowStore.Text.Utf8

namespace RowStore

/-- What keeps a log from being read. -/
inductive RecordFault
  | unknownOperation (code : UInt8)
  | tooLong (length : Nat)
  deriving DecidableEq, Repr

def RecordFault.message : RecordFault → String
  | .unknownOperation code => s!"unknown record type {code.toNat}"
  | .tooLong length => s!"record body of {length} bytes"

inductive StorageError
  | notFound (key : Bytes)
  | io (reason : String)
  | corrupted (offset : Nat) (fault : RecordFault)
  deriving DecidableEq, Repr

def StorageError.message : StorageError → String
  | .notFound key => "Key not found: " ++ Text.lossy key
  | .io reason => "IO error: " ++ reason
  | .corrupted offset fault => s!"Corrupted log at offset {offset}: {fault.message}"

abbrev Entries := OrderedMap Bytes Bytes

/-- What a plan and its callers ask of a store. A failed write may change it too. -/
class Storage (ω : Type) where
  entries : ω → Entries
  put : Bytes → Bytes → ω → Except StorageError Unit × ω
  delete : Bytes → ω → Except StorageError Unit × ω

namespace Storage

variable {ω : Type} [Storage ω]

def get (store : ω) (key : Bytes) : Except StorageError Bytes :=
  match (entries store).get? key with
  | some value => .ok value
  | none => .error (.notFound key)

/-- The entries with keys from `low` up to, and without, `high`. -/
def scan (store : ω) (low high : Bytes) : List (Bytes × Bytes) := (entries store).range low high

def scanAll (store : ω) : List (Bytes × Bytes) := (entries store).entries

end Storage

/-- A store in memory is its entries. -/
instance : Storage Entries where
  entries m := m
  put key value m := (.ok (), m.insert key value)
  delete key m := (.ok (), m.erase key)

/-- Walks through entries as they were when it was made. It starts before the first. -/
structure Cursor where
  current : Option (Bytes × Bytes)
  rest : List (Bytes × Bytes)
  deriving DecidableEq, Repr

namespace Cursor

def ofList (es : List (Bytes × Bytes)) : Cursor := ⟨none, es⟩

def advance (c : Cursor) : Cursor := ⟨c.rest.head?, c.rest.tail⟩

end Cursor
end RowStore
