import RowStore.Database
import RowStore.Render.Json
import RowStore.Render.Table

namespace RowStore

inductive OutputFormat
  | table
  | json
  deriving DecidableEq, Repr

def OutputFormat.render (rows : List Row) : OutputFormat → String
  | table => Render.table rows
  | json => (rowsJson rows).pretty

/-- A cause with its number; further lines of its text are indented as far. -/
def causeLine (n : Nat) (text : String) : String :=
  s!"    {n}: " ++ "\n       ".intercalate ((Text.lines text.toList).map String.ofList)

/-- What failed, and the chain of its causes. -/
def QueryError.report (what : String) (e : QueryError) : String :=
  let causes := (e.message :: e.causes).zipIdx.map fun (text, n) => causeLine n text
  s!"Error: {what}\n\nCaused by:\n" ++ "\n".intercalate causes ++ "\n"

/-- The exit code of a program that panics. What it says before it ends is left out. -/
def panicCode : Nat := 101

namespace Shell

def welcome : String := "Welcome to leafdb. Type 'help' for assistance or 'exit' to quit.\n"

def farewell : String := "Goodbye!\n"

def help : String :=
  "Available commands:\n" ++
  "  SELECT cols|* FROM t [, t2] [WHERE a = b] [LIMIT n]\n" ++
  "  INSERT INTO t [(cols)] VALUES (...), (...)\n" ++
  "  SHOW TABLES\n" ++
  "  help                          - Display this help message\n" ++
  "  exit                          - Exit the shell\n"

/-- What a line is answered with, and the exit code if the session is over with it. -/
structure Reply where
  output : String
  database : Database
  exitCode : Option Nat

def isMark (c : Char) : Bool := Text.covers Text.graphemeExtendRanges c.toNat

/-- A backspace takes back the character before it with its marks. -/
def erased (kept : List Char) : List Char → List Char
  | [] => kept.reverse
  | '\x08' :: cs => erased ((kept.dropWhile isMark).drop 1) cs
  | c :: cs => erased (c :: kept) cs

def reply (format : OutputFormat) (db : Database) (line : List Char) : Reply :=
  let text := String.ofList (Text.trim (erased [] line))
  let word := Text.lower text
  if text = "" then ⟨"", db, none⟩
  else if word = "exit" ∨ word = "quit" then ⟨farewell, db, some 0⟩
  else if word = "help" then ⟨help, db, none⟩
  else
    match db.run text with
    | (.ok rows, db) => ⟨format.render rows ++ "\n", db, none⟩
    | (.error (.reported e), db) => ⟨s!"Error: {e.message}\n", db, none⟩
    | (.error (.panic _), db) => ⟨"", db, some panicCode⟩

/-- All replies up to the one that ends the session, as one. -/
def session (format : OutputFormat) (db : Database) : List (List Char) → String × Nat × Database
  | [] => ("", 0, db)
  | line :: lines =>
      let r := reply format db line
      match r.exitCode with
      | none =>
          let (output, code, db) := session format r.database lines
          (r.output ++ output, code, db)
      | some code => (r.output, code, r.database)

end Shell
end RowStore
