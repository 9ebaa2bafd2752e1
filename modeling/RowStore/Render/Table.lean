import RowStore.Row

namespace RowStore.Render

def padded (width : Nat) (cell : String) : String :=
  cell ++ String.ofList (List.replicate (width - cell.length) ' ')

/-- The widths that hold the cells too; more cells than widths are left out. -/
def widened (widths : List Nat) (cells : List String) : List Nat :=
  match widths, cells with
  | w :: ws, c :: cs => max w c.length :: widened ws cs
  | ws, _ => ws

def widths (headings : List String) (lines : List (List String)) : List Nat :=
  lines.foldl widened (headings.map String.length)

def border (left middle right : String) (widths : List Nat) : String :=
  left ++ middle.intercalate (widths.map fun w => String.ofList (List.replicate (w + 2) '─')) ++ right

def line (widths : List Nat) (cells : List String) : String :=
  "│" ++ "│".intercalate ((cells.zip widths).map fun (cell, w) => " " ++ padded w cell ++ " ") ++ "│"

def countLine (n : Nat) : String := if n = 1 then "(1 row)" else s!"({n} rows)"

/-- The lines of a table, the count of its rows last. The first row names the columns. -/
def tableLines (rows : List Row) : List String :=
  match rows with
  | [] => [countLine 0]
  | first :: _ =>
      let cells := rows.map fun r => r.values.map Value.render
      let ws := widths first.names cells
      [border "┌" "┬" "┐" ws, line ws first.names, border "├" "┼" "┤" ws] ++ cells.map (line ws) ++
        [border "└" "┴" "┘" ws, countLine rows.length]

def table (rows : List Row) : String := String.join ((tableLines rows).map (· ++ "\n"))

end RowStore.Render
