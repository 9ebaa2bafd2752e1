import RowStore.Query.Condition
import RowStore.Query.Insertion

namespace RowStore

/-- Rows that come from outside a plan. Whatever else a source reads or changes is in `ω`. -/
class Source (σ : Type) (ω : outParam Type) where
  name : σ → String
  start : σ → ω → Result Unit × σ × ω
  next : σ → ω → Result (Option Row) × σ × ω
  close : σ → ω → Result Unit × σ × ω
  /-- A bound on the rows still to come. -/
  remaining : σ → Nat

instance : Source Empty Unit where
  name s := nomatch s
  start s := nomatch s
  next s := nomatch s
  close s := nomatch s
  remaining s := nomatch s

inductive Plan (σ : Type)
  | scan (table : String) (asName : Option String)
  | selection (input : Plan σ) (condition : Condition)
  /-- Pairs of a column and the name that it takes. -/
  | projection (input : Plan σ) (columns : List (String × String))
  | limit (input : Plan σ) (count : Nat)
  | join (left right : Plan σ)
  | insertion (i : Insertion)
  | tables
  | source (s : σ)

/-- The columns that go by the first names of the pairs, each with its place and under the second
name. Of columns with one name the first is taken. -/
def projectedColumns (s : Schema) (columns : List (String × String)) :
    Except QueryError (List (Nat × Column)) :=
  columns.mapM fun (source, target) =>
    match s.find? source with
    | some (i, c) => .ok (i, c.renamed target)
    | none => .error (.catalog (.columnNotFound source))

/-- What a projection takes from the rows of one schema. -/
structure Layout (columns : List (String × String)) where
  input : Schema
  taken : List (Nat × Column)
  derived : projectedColumns input columns = .ok taken
  deriving DecidableEq, Repr

/-- A scan under way. -/
structure Scanning where
  schema : Schema
  cursor : Cursor
  deriving DecidableEq, Repr

/-- The state of a selection, which keeps nothing but whether it is open. -/
structure Passing (α : Type) where
  input : α
  isOpen : Bool
  deriving DecidableEq, Repr

/-- A projection keeps the layout of the row that it saw last. -/
structure Projecting (columns : List (String × String)) (α : Type) where
  input : α
  layout : Option (Layout columns)
  isOpen : Bool
  deriving DecidableEq, Repr

structure Limiting (α : Type) where
  input : α
  returned : Nat
  isOpen : Bool
  deriving DecidableEq, Repr

/-- A join holds the joined rows that it has not yet returned. -/
structure Joining (α β : Type) where
  left : α
  right : β
  output : List Row
  isOpen : Bool
  deriving DecidableEq, Repr

structure Inserting where
  affected : Nat
  isOpen : Bool
  deriving DecidableEq, Repr

/-- The tables that are still to be listed. -/
structure Listing where
  schema : Schema
  names : List String
  deriving DecidableEq, Repr

namespace Plan

variable {σ : Type}

/-- What the operators of a plan hold between calls. -/
def State : Plan σ → Type
  | scan .. => Option Scanning
  | selection input _ => Passing input.State
  | projection input columns => Projecting columns input.State
  | limit input _ => Limiting input.State
  | join left right => Joining left.State right.State
  | insertion _ => Inserting
  | tables => Option Listing
  | source _ => σ

def fresh : (p : Plan σ) → p.State
  | scan .. => (none : Option Scanning)
  | selection input _ => (⟨input.fresh, false⟩ : Passing _)
  | projection input columns => (⟨input.fresh, none, false⟩ : Projecting columns _)
  | limit input _ => (⟨input.fresh, 0, false⟩ : Limiting _)
  | join left right => (⟨left.fresh, right.fresh, [], false⟩ : Joining _ _)
  | insertion _ => (⟨0, false⟩ : Inserting)
  | tables => (none : Option Listing)
  | source s => s

end Plan

/-- The row that is made of the columns taken. -/
def projectTaken (taken : List (Nat × Column)) (row : Row) : Except QueryError Row := do
  let values ← taken.mapM fun (i, _) =>
    match row.values[i]?, row.schema.columns[i]? with
    | some v, _ => .ok v
    | none, some c => .error (.catalog (.columnNotFound c.name))
    | none, none => .error (.catalog (.columnNotFound ""))
  return ⟨⟨row.schema.table, taken.map Prod.snd⟩, values⟩

/-- The row under the names that a projection gives. -/
def project (columns : List (String × String)) (row : Row) : Except QueryError Row := do
  projectTaken (← projectedColumns row.schema columns) row

namespace Layout

variable {columns : List (String × String)}

def ofSchema (columns : List (String × String)) (s : Schema) : Except QueryError (Layout columns) :=
  match known : projectedColumns s columns with
  | .ok taken => .ok ⟨s, taken, known⟩
  | .error e => .error e

/-- The layout for a schema is the one that was kept, if that is for the same schema. -/
def find (kept : Option (Layout columns)) (s : Schema) : Except QueryError (Layout columns) :=
  match kept with
  | some l => if l.input = s then .ok l else ofSchema columns s
  | none => ofSchema columns s

/-- The projected row, and the layout that is kept for the next one. -/
def project (kept : Option (Layout columns)) (row : Row) :
    Except QueryError Row × Option (Layout columns) :=
  let layout := find kept row.schema
  (layout.bind fun l => projectTaken l.taken row, layout.toOption)

end Layout

/-- A column of a joined row goes by its table's name and its own. -/
def qualified (s : Schema) : List Column :=
  s.columns.map fun c => c.renamed (s.table ++ "." ++ c.name)

def joinedSchema (left right : Schema) : Schema :=
  ⟨s!"({left.table},{right.table})", qualified left ++ qualified right⟩

/-- Every row of the left with every row of the right. The first rows name the columns. -/
def crossProduct (left right : List Row) : List Row :=
  match left, right with
  | l :: _, r :: _ =>
      let schema := joinedSchema l.schema r.schema
      left.flatMap fun a => right.map fun b => ⟨schema, a.values ++ b.values⟩
  | _, _ => []

/-- The one column of a listing of tables is as wide as the longest name. -/
def listingSchema (names : List String) : Schema :=
  let width := (names.map fun name => (Text.utf8 name).length).foldl max 0
  ⟨"tables", [.fixedString "tables" width.toUInt64]⟩

/-- The rows of a table go by its alias, where it has one. -/
def exposed (s : Schema) : Option String → Schema
  | some asName => { s with table := asName }
  | none => s

namespace Plan

variable {σ ω : Type} [Source σ ω]

def name : Plan σ → String
  | scan .. => "TableScan"
  | selection .. => "Selection"
  | projection .. => "Projection"
  | limit .. => "Limit"
  | join .. => "Join"
  | insertion _ => "Insert"
  | tables => "ShowTables"
  | source s => Source.name s

/-- The count of rows that an insertion keeps. -/
def affected? : (p : Plan σ) → p.State → Option Nat
  | insertion _, (s : Inserting) => some s.affected
  | _, _ => none

/-- A bound on the rows that a plan can still return. -/
def remaining : (p : Plan σ) → p.State → Nat
  | scan .., s =>
      match (s : Option Scanning) with
      | some s => s.cursor.rest.length
      | none => 0
  | selection input _, (s : Passing _) => input.remaining s.input
  | projection input _, (s : Projecting _ _) => input.remaining s.input
  | limit input _, (s : Limiting _) => input.remaining s.input
  | join .., (s : Joining _ _) => s.output.length
  | insertion _, _ => 0
  | tables, s =>
      match (s : Option Listing) with
      | some s => s.names.length
      | none => 0
  | source _, s => @Source.remaining σ ω _ s

/-- The result of a call, with what the call leaves behind. -/
abbrev Call (α S ω : Type) := Result α × S × ω

def notOpen {α : Type} (name : String) : Result α :=
  .error (.reported (.execution (.notOpen name)))

/-- The first row that meets the condition, among no more than the given number. -/
def seek {S : Type} (condition : Condition) (next : S → ω → Call (Option Row) S ω) :
    Nat → S → ω → Call (Option Row) S ω
  | 0, s, w => (.ok none, s, w)
  | count + 1, s, w =>
      match next s w with
      | (.ok (some row), s, w) =>
          match condition.holds row with
          | .ok true => (.ok (some row), s, w)
          | .ok false => seek condition next count s w
          | .error e => (.error (.reported e), s, w)
      | other => other

/-- All rows to the end, which comes after no more than the given number. -/
def drain {S : Type} (next : S → ω → Call (Option Row) S ω) : Nat → S → ω → Call (List Row) S ω
  | 0, s, w => (.ok [], s, w)
  | count + 1, s, w =>
      match next s w with
      | (.ok (some row), s, w) =>
          let (rows, s, w) := drain next count s w
          (rows.map (row :: ·), s, w)
      | (.ok none, s, w) => (.ok [], s, w)
      | (.error e, s, w) => (.error e, s, w)

def next : (p : Plan σ) → p.State → ω → Call (Option Row) p.State ω
  | scan .., s, w =>
      match (s : Option Scanning) with
      | none => (notOpen "TableScan", s, w)
      | some scanning =>
          let cursor := scanning.cursor.advance
          let row := match cursor.current with
            | none => .ok none
            | some (_, bytes) =>
                ((RowFormat.decode scanning.schema bytes).mapError (Failure.map .codec)).map some
          (row, (some { scanning with cursor } : Option Scanning), w)
  | selection input condition, (s : Passing _), w =>
      if s.isOpen then
        let (row, below, w) := seek condition input.next (input.remaining s.input + 1) s.input w
        (row, ({ s with input := below } : Passing _), w)
      else (notOpen "Selection", s, w)
  | projection input columns, (s : Projecting _ _), w =>
      if s.isOpen then
        let (row, below, w) := input.next s.input w
        let (projected, layout) := match row with
          | .ok (some row) =>
              let (out, layout) := Layout.project s.layout row
              ((out.map some).mapError .reported, layout)
          | other => (other, s.layout)
        (projected, (⟨below, layout, s.isOpen⟩ : Projecting columns _), w)
      else (notOpen "Projection", s, w)
  | limit input count, (s : Limiting _), w =>
      if s.isOpen then
        if count ≤ s.returned then (.ok none, s, w)
        else
          let (row, below, w) := input.next s.input w
          let returned := match row with
            | .ok (some _) => s.returned + 1
            | _ => s.returned
          (row, (⟨below, returned, s.isOpen⟩ : Limiting _), w)
      else (notOpen "Limit", s, w)
  | join .., (s : Joining _ _), w =>
      if s.isOpen then (.ok s.output.head?, ({ s with output := s.output.tail } : Joining _ _), w)
      else (notOpen "Join", s, w)
  | insertion _, (s : Inserting), w =>
      (if s.isOpen then .ok none else notOpen "Insert", s, w)
  | tables, s, w =>
      match (s : Option Listing) with
      | none => (notOpen "ShowTables", s, w)
      | some listing =>
          let row := listing.names.head?.map fun name => ⟨listing.schema, [.fixedString name]⟩
          (.ok row, (some { listing with names := listing.names.tail } : Option Listing), w)
  | source _, s, w => @Source.next σ ω _ s w

/-- Closing closes every operator below too; the first failure is the one reported. -/
def close : (p : Plan σ) → p.State → ω → Call Unit p.State ω
  | scan .., _, w => (.ok (), (none : Option Scanning), w)
  | selection input _, (s : Passing _), w =>
      let (result, below, w) := input.close s.input w
      (result, (⟨below, false⟩ : Passing _), w)
  | projection input columns, (s : Projecting _ _), w =>
      let (result, below, w) := input.close s.input w
      (result, (⟨below, none, false⟩ : Projecting columns _), w)
  | limit input _, (s : Limiting _), w =>
      let (result, below, w) := input.close s.input w
      (result, (⟨below, s.returned, false⟩ : Limiting _), w)
  | join left right, (s : Joining _ _), w =>
      let (first, l, w) := left.close s.left w
      let (second, r, w) := right.close s.right w
      (first.bind fun () => second, (⟨l, r, [], false⟩ : Joining _ _), w)
  | insertion _, (s : Inserting), w => (.ok (), ({ s with isOpen := false } : Inserting), w)
  | tables, _, w => (.ok (), (none : Option Listing), w)
  | source _, s, w => @Source.close σ ω _ s w

variable {τ : Type} [Storage τ]

/-- What `start` works on besides the state of the plan. -/
structure Surroundings (τ ω : Type) where
  store : τ
  world : ω

/-- Opens a plan. Inputs open before the operator above them, and an operator whose opening
fails stays as it was. Inserting happens here. -/
def start (c : Catalog) : (p : Plan σ) → p.State → Surroundings τ ω →
    Call Unit p.State (Surroundings τ ω)
  | scan table asName, s, w =>
      match c.table table with
      | .error e => (.error (.reported (.catalog e)), s, w)
      | .ok schema =>
          let cursor := Cursor.ofList (Storage.scan w.store (RowKey.low table) (RowKey.high table))
          (.ok (), (some ⟨exposed schema asName, cursor⟩ : Option Scanning), w)
  | selection input _, (s : Passing _), w =>
      match input.start c s.input w with
      | (.ok (), below, w) => (.ok (), (⟨below, true⟩ : Passing _), w)
      | (.error e, below, w) => (.error e, ({ s with input := below } : Passing _), w)
  | projection input columns, (s : Projecting _ _), w =>
      match input.start c s.input w with
      | (.ok (), below, w) => (.ok (), (⟨below, s.layout, true⟩ : Projecting columns _), w)
      | (.error e, below, w) => (.error e, ({ s with input := below } : Projecting columns _), w)
  | limit input _, (s : Limiting _), w =>
      match input.start c s.input w with
      | (.ok (), below, w) => (.ok (), (⟨below, 0, true⟩ : Limiting _), w)
      | (.error e, below, w) => (.error e, ({ s with input := below } : Limiting _), w)
  | join left right, (s : Joining _ _), w =>
      match left.start c s.left w with
      | (.error e, l, w) => (.error e, ({ s with left := l } : Joining _ _), w)
      | (.ok (), l, w) =>
          match right.start c s.right w with
          | (.error e, r, w) => (.error e, ({ s with left := l, right := r } : Joining _ _), w)
          | (.ok (), r, w) =>
              match drain left.next (left.remaining l + 1) l w.world with
              | (.error e, l, world) =>
                  (.error e, ({ s with left := l, right := r } : Joining _ _), { w with world })
              | (.ok leftRows, l, world) =>
                  match drain right.next (right.remaining r + 1) r world with
                  | (.error e, r, world) =>
                      (.error e, ({ s with left := l, right := r } : Joining _ _), { w with world })
                  | (.ok rightRows, r, world) =>
                      (.ok (), (⟨l, r, crossProduct leftRows rightRows, true⟩ : Joining _ _),
                        { w with world })
  | insertion i, (s : Inserting), w =>
      match i.target c with
      | .error e => (.error (.reported e), s, w)
      | .ok target =>
          let (result, count, store) := i.write target i.tuples w.store
          let isOpen := match result with
            | .ok () => true
            | .error _ => s.isOpen
          (result, (⟨count, isOpen⟩ : Inserting), { w with store })
  | tables, _, w =>
      (.ok (), (some ⟨listingSchema c.names, c.names⟩ : Option Listing), w)
  | source _, s, w =>
      let (result, s, world) := @Source.start σ ω _ s w.world
      (result, s, { w with world })

def startAndDrain (c : Catalog) (p : Plan σ) (s : p.State) (w : Surroundings τ ω) :
    Call (List Row) p.State (Surroundings τ ω) :=
  match p.start c s w with
  | (.error e, s, w) => (.error e, s, w)
  | (.ok (), s, w) =>
      let (rows, s, world) := drain p.next (p.remaining s + 1) s w.world
      (rows, s, { w with world })

/-- Opens a plan, pulls all its rows and closes it, also after an error on the way. After a panic
nothing is closed. -/
def execute (c : Catalog) (p : Plan σ) (s : p.State) (w : Surroundings τ ω) :
    Call (List Row) p.State (Surroundings τ ω) :=
  match startAndDrain c p s w with
  | (.error (.panic reason), s, w) => (.error (.panic reason), s, w)
  | (rows, s, w) =>
      let (closed, s, world) := p.close s w.world
      (rows.bind fun rows => closed.map fun () => rows, s, { w with world })

end Plan
end RowStore
