import RowStore.Catalog

/-! A directory that holds a file for each table: its name is the table's, its lines declare
the columns. -/
namespace RowStore

/-- An entry's name need not be a text. Only plain files have a content. -/
structure DirectoryEntry where
  name : Bytes
  content : Option Bytes
  deriving DecidableEq, Repr

namespace Directory

def insertByName (e : DirectoryEntry) : List DirectoryEntry → List DirectoryEntry
  | [] => [e]
  | f :: fs => if before f.name e.name then f :: insertByName e fs else e :: f :: fs

def sortByName (es : List DirectoryEntry) : List DirectoryEntry := es.foldr insertByName []

/-- The table's name and the bytes that declare it. Other entries than plain files, names
that are no text and names that begin with a point stand for no table. -/
def declaration? (e : DirectoryEntry) : Option (String × Bytes) :=
  match Text.ofUtf8? e.name, e.content with
  | some name, some content => if name.toList.head? = some '.' then none else some (name, content)
  | _, _ => none

def schema (table : String) (content : Bytes) : Except CatalogError Schema :=
  match Text.ofUtf8? content with
  | some text => Schema.parse table text
  | none => .error (.io "stream did not contain valid UTF-8")

def addDeclaration (c : Catalog) (d : String × Bytes) : Except CatalogError Catalog := do
  c.add (← schema d.1 d.2)

/-- Files are read in the order of their names' bytes. -/
def load (es : List DirectoryEntry) : Except CatalogError Catalog :=
  ((sortByName es).filterMap declaration?).foldlM addDeclaration .empty

end Directory
end RowStore
