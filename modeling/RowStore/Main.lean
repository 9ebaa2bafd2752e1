import RowStore.Command

namespace RowStore.Main

def reason : IO.Error → String
  | .noFileOrDirectory .. => "No such file or directory (os error 2)"
  | .permissionDenied .. => "Permission denied (os error 13)"
  | e => toString e

def readEntry (entry : IO.FS.DirEntry) : IO DirectoryEntry := do
  let metadata ← entry.path.symlinkMetadata
  let content ←
    if metadata.type == .file then pure (some (← IO.FS.readBinFile entry.path).toList) else pure none
  return ⟨Text.utf8 entry.fileName, content⟩

def readDirectory (path : String) : IO (Except String (List DirectoryEntry)) := do
  try
    let entries ← ((← IO.currentDir) / path).readDir
    return .ok (← entries.toList.mapM readEntry)
  catch e => return .error (reason e)

def readLog (path : String) : IO (Except String Bytes) := do
  try
    return .ok (← IO.FS.readBinFile path).toList
  catch
    | .noFileOrDirectory .. => return .ok []
    | e => return .error (reason e)

def read {α : Type} (path : Option String) (reader : String → IO (Except String α)) :
    IO (String → Except String α) := do
  match path with
  | some path =>
      let found ← reader path
      return fun _ => found
  | none => return fun _ => .error ""

/-- Writes the log where it has changed, in a directory that is made if need be. -/
def writeLog (path : Option String) (before after : Option Bytes) : IO Unit := do
  match path, after with
  | some path, some bytes =>
      if before ≠ after then
        if let some directory := ((← IO.currentDir) / path).parent then
          IO.FS.createDirAll directory
        IO.FS.writeBinFile path ⟨bytes.toArray⟩
  | _, _ => return

partial def converse (i : Invocation) (db : Database) : IO UInt32 := do
  let line ← (← IO.getStdin).getLine
  if line.isEmpty then return 0
  let r := Shell.reply i.format db (line.toList.filter (· ≠ '\n'))
  IO.print r.output
  (← IO.getStdout).flush
  writeLog i.config.dataPath db.logAfter r.database.logAfter
  match r.exitCode with
  | none => converse i r.database
  | some code => return code.toUInt32

def invoke (i : Invocation) : IO UInt32 := do
  let disk : Command.Disk :=
    ⟨← read i.config.schemaDirectory readDirectory, ← read i.config.dataPath readLog⟩
  match Command.openDatabase i disk, i.task with
  | .ok db, .shell =>
      writeLog i.config.dataPath none db.logAfter
      IO.print Shell.welcome
      converse i db
  | _, _ =>
      let outcome := Command.invoke i disk ""
      IO.print outcome.output
      IO.eprint outcome.errors
      writeLog i.config.dataPath none outcome.log
      return outcome.exitCode.toUInt32

end RowStore.Main

def main (args : List String) : IO UInt32 := do
  match RowStore.Command.parse args with
  | .ok i => RowStore.Main.invoke i
  | .error why =>
      let outcome := RowStore.Command.declined why
      IO.print outcome.output
      IO.eprint outcome.errors
      return outcome.exitCode.toUInt32
