import RowStore.Config
import RowStore.Shell

namespace RowStore

inductive Task
  | shell
  | query (text : String)
  deriving DecidableEq, Repr

structure Invocation where
  config : Config
  format : OutputFormat
  task : Task
  deriving DecidableEq, Repr

/-- Why a command line asks for nothing to be run. -/
inductive Declined
  | usage
  | help
  | version
  deriving DecidableEq, Repr

namespace Command

/-- The options read so far. None may be given twice. -/
structure Options where
  dataPath : Option String
  schemaDirectory : Option String
  noSync : Bool
  format : Option OutputFormat
  deriving DecidableEq, Repr

def noOptions : Options := ⟨none, none, false, none⟩

inductive ValueOption
  | dataPath
  | schemaDirectory
  | format
  deriving DecidableEq, Repr

def longOption? : String → Option ValueOption
  | "data-path" => some .dataPath
  | "schema-dir" => some .schemaDirectory
  | "format" => some .format
  | _ => none

def shortOption? : Char → Option ValueOption
  | 'd' => some .dataPath
  | 's' => some .schemaDirectory
  | 'f' => some .format
  | _ => none

def format? : String → Option OutputFormat
  | "table" => some .table
  | "json" => some .json
  | _ => none

def setPath (old : Option String) (path : String) : Except Declined (Option String) :=
  if old.isSome ∨ path = "" then .error .usage else .ok (some path)

def set (o : Options) (v : ValueOption) (text : String) : Except Declined Options :=
  match v with
  | .dataPath => return { o with dataPath := ← setPath o.dataPath text }
  | .schemaDirectory => return { o with schemaDirectory := ← setPath o.schemaDirectory text }
  | .format =>
      match o.format, format? text with
      | none, some f => .ok { o with format := some f }
      | _, _ => .error .usage

/-- Whether an argument is an option and so no value; a lone dash is a value. -/
def looksLikeOption (arg : String) : Bool :=
  match arg.toList with
  | '-' :: _ :: _ => true
  | _ => false

/-- One positional argument, where a double dash makes all that follow it positional. -/
def queryText : List String → Except Declined String
  | ["--", text] => .ok text
  | [text] => if text = "-h" ∨ text = "--help" then .error .help
      else if looksLikeOption text then .error .usage else .ok text
  | args => if args.any fun a => a = "-h" ∨ a = "--help" then .error .help else .error .usage

def noArguments : List String → Except Declined Unit
  | [] | ["--"] => .ok ()
  | arg :: _ => if arg = "-h" ∨ arg = "--help" then .error .help else .error .usage

def task (name : String) (args : List String) : Except Declined Task :=
  match name with
  | "shell" => do
      noArguments args
      return .shell
  | "query" => return .query (← queryText args)
  | "help" => .error .help
  | _ => .error .usage

/-- A short option with what is written right after it. -/
def shortParts? (arg : String) : Option (Char × List Char) :=
  match arg.toList with
  | '-' :: c :: cs => if c = '-' then none else some (c, cs)
  | _ => none

/-- A long option with what is written after an equals sign. -/
def longParts? (arg : String) : Option (String × Option String) :=
  match arg.toList with
  | '-' :: '-' :: cs =>
      match cs.dropWhile (· ≠ '=') with
      | '=' :: value => some (String.ofList (cs.takeWhile (· ≠ '=')), some (String.ofList value))
      | _ => some (String.ofList cs, none)
  | _ => none

/-- What an argument in the place of an option or a command asks for. -/
inductive Meaning
  | option (v : ValueOption) (value : Option String)
  | noSync
  | endOfOptions
  | command
  | declined (why : Declined)
  deriving DecidableEq, Repr

def shortMeaning (c : Char) (attached : List Char) : Meaning :=
  match shortOption? c, attached with
  | some v, [] => .option v none
  | some v, '=' :: cs => .option v (some (String.ofList cs))
  | some v, cs => .option v (some (String.ofList cs))
  | none, _ => if c = 'h' then .declined .help else if c = 'V' then .declined .version
      else .declined .usage

def longMeaning (name : String) (value : Option String) : Meaning :=
  match longOption? name with
  | some v => .option v value
  | none =>
      match name, value with
      | "", none => .endOfOptions
      | "no-sync", none => .noSync
      | "help", none => .declined .help
      | "version", none => .declined .version
      | _, _ => .declined .usage

def meaning (arg : String) : Meaning :=
  match shortParts? arg, longParts? arg with
  | some (c, attached), _ => shortMeaning c attached
  | none, some (name, value) => longMeaning name value
  | none, none => .command

def arguments (o : Options) : List String → Except Declined (Options × Task)
  | [] => .ok (o, .shell)
  | arg :: args =>
      match meaning arg, args with
      | .option v (some value), args => do arguments (← set o v value) args
      | .option v none, value :: args =>
          if looksLikeOption value then .error .usage else do arguments (← set o v value) args
      | .option _ none, [] => .error .usage
      | .noSync, args => if o.noSync then .error .usage else arguments { o with noSync := true } args
      | .endOfOptions, [] => .ok (o, .shell)
      | .endOfOptions, _ :: _ => .error .usage
      | .command, args => do return (o, ← task arg args)
      | .declined why, _ => .error why

def parse (args : List String) : Except Declined Invocation := do
  let (o, task) ← arguments noOptions args
  return ⟨⟨o.dataPath, o.schemaDirectory, !o.noSync⟩, o.format.getD .table, task⟩

def name : String := "leafdb"

def usage : String := s!"Usage: {name} [OPTIONS] [COMMAND]\n"

def helpText : String :=
  usage ++
  "\nCommands:\n" ++
  "  shell  Start an interactive shell\n" ++
  "  query  Execute a SQL query directly\n" ++
  "  help   Print this message\n" ++
  "\nOptions:\n" ++
  "  -d, --data-path <DATA_PATH>    Log file of a persistent store; in-memory when omitted\n" ++
  "  -s, --schema-dir <SCHEMA_DIR>  Directory of table schema files\n" ++
  "      --no-sync                  Skip fsync after each write\n" ++
  "  -f, --format <FORMAT>          Output format for result rows: table or json\n" ++
  "  -h, --help                     Print help\n" ++
  "  -V, --version                  Print version\n"

/-- The directories and logs within reach. A log that is not there yet is empty. -/
structure Disk where
  directory : String → Except String (List DirectoryEntry)
  log : String → Except String Bytes

/-- What a run leaves: the log as it is to be on disk, where the run opened one. -/
structure Outcome where
  exitCode : Nat
  output : String
  errors : String
  log : Option Bytes
  deriving DecidableEq, Repr

def declined : Declined → Outcome
  | .usage => ⟨2, "", usage, none⟩
  | .help => ⟨0, helpText, "", none⟩
  | .version => ⟨0, s!"{name} 0.1.0\n", "", none⟩

def openDatabase (i : Invocation) (disk : Disk) : Except QueryError Database :=
  Database.ofFiles (i.config.schemaDirectory.map disk.directory) (i.config.dataPath.map disk.log)

def openFailed (e : QueryError) : Outcome := ⟨1, "", e.report "Failed to open database", none⟩

def queryOutcome (format : OutputFormat) (db : Database) (text : String) : Outcome :=
  match db.run text with
  | (.ok rows, db) => ⟨0, format.render rows ++ "\n", "", db.logAfter⟩
  | (.error (.reported e), db) => ⟨1, "", e.report "Query failed", db.logAfter⟩
  | (.error (.panic _), db) => ⟨panicCode, "", "", db.logAfter⟩

/-- The lines of an input. Nothing after the last line feed is no line. -/
def inputLines (input : String) : List (List Char) :=
  let ls := Text.lines input.toList
  if ls.getLast? = some [] then ls.dropLast else ls

def invoke (i : Invocation) (disk : Disk) (input : String) : Outcome :=
  match openDatabase i disk with
  | .error e => openFailed e
  | .ok db =>
      match i.task with
      | .query text => queryOutcome i.format db text
      | .shell =>
          let (output, code, db) := Shell.session i.format db (inputLines input)
          ⟨code, Shell.welcome ++ output, "", db.logAfter⟩

/-- One run of the command line. -/
def run (args : List String) (disk : Disk) (input : String) : Outcome :=
  match parse args with
  | .error why => declined why
  | .ok i => invoke i disk input

end Command
end RowStore
