import RowStore.Directory
import RowStore.Query.Run
import RowStore.Storage.Log

namespace RowStore

structure Database where
  catalog : Catalog
  store : Store
  deriving DecidableEq

namespace Database

def inMemory (schemas : List Schema) : Except QueryError Database := do
  return ⟨← (Catalog.ofSchemas schemas).mapError .catalog, .memory .empty⟩

def loadCatalog : Option (Except String (List DirectoryEntry)) → Except QueryError Catalog
  | none => .ok .empty
  | some (.ok entries) => (Directory.load entries).mapError .catalog
  | some (.error reason) => .error (.catalog (.io reason))

def loadStore : Option (Except String Bytes) → Except QueryError Store
  | none => .ok (.memory .empty)
  | some (.ok file) => ((LogStore.ofFile file).mapError .storage).map .log
  | some (.error reason) => .error (.storage (.io reason))

/-- Opens what was found when the schema directory and the log were read, or why they could
not be. The catalog comes first. -/
def ofFiles (directory : Option (Except String (List DirectoryEntry)))
    (log : Option (Except String Bytes)) : Except QueryError Database := do
  let catalog ← loadCatalog directory
  return ⟨catalog, ← loadStore log⟩

def runStatement (db : Database) (s : Sql.Statement) : Result (List Row) × Database :=
  let (rows, store) := Query.runStatement db.catalog s db.store
  (rows, { db with store })

def run (db : Database) (text : String) : Result (List Row) × Database :=
  let (rows, store) := Query.run db.catalog text db.store
  (rows, { db with store })

/-- The bytes of the log once the database is closed. -/
def logAfter (db : Database) : Option Bytes :=
  match db.store with
  | .memory _ => none
  | .log s => some s.close

end Database
end RowStore
