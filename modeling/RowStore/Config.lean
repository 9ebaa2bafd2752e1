namespace RowStore

/-- Whether every write waits for the device. It shows in no answer. -/
structure LogOptions where
  syncWrites : Bool
  deriving DecidableEq, Repr

/-- Without a log the store is in memory, and without a directory the catalog is empty. -/
structure Config where
  dataPath : Option String
  schemaDirectory : Option String
  syncWrites : Bool
  deriving DecidableEq, Repr

end RowStore
