import RowStore.Query.Compile

namespace RowStore.Query

variable {τ : Type} [Storage τ]

/-- The rows of a new plan, and the store after it. -/
def runPlan (c : Catalog) (p : Plan Empty) (store : τ) : Result (List Row) × τ :=
  let (rows, _, w) := p.execute c p.fresh ⟨store, ()⟩
  (rows, w.store)

def runStatement (c : Catalog) (s : Sql.Statement) (store : τ) : Result (List Row) × τ :=
  match s.compile with
  | .error e => (.error (.reported (.compile e)), store)
  | .ok p => runPlan c p store

def run (c : Catalog) (text : String) (store : τ) : Result (List Row) × τ :=
  match Sql.parse text with
  | .error e => (.error (.reported (.parse e)), store)
  | .ok s => runStatement c s store

end RowStore.Query
