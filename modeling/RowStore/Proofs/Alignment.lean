import Mathlib.Algebra.BigOperators.Group.List.Basic
import Mathlib.Algebra.GroupWithZero.Nat
import Mathlib.Data.List.Forall2
import Mathlib.Order.Bounds.Basic
import RowStore.Proofs.RowKeys
import RowStore.Proofs.Splitting
import RowStore.Render.Table

namespace RowStore.Render

section Widths

variable {ws : List Nat} {cells : List String} {grid lines : List (List String)}

/-- The lengths of the texts of a column, in any of the rows of texts. -/
def lengthsAt (grid : List (List String)) (i : Nat) : Set Nat :=
  {n | ∃ texts ∈ grid, texts[i]?.map String.length = some n}

/-- Each width is that of the longest text of its column. -/
def Widest (grid : List (List String)) (ws : List Nat) : Prop :=
  ∀ i w, ws[i]? = some w → IsGreatest (lengthsAt grid i) w

theorem length_widened (ws : List Nat) (cells : List String) :
    (widened ws cells).length = ws.length := by
  fun_induction widened ws cells with
  | case1 w ws c cs ih => exact congrArg (· + 1) ih
  | case2 => rfl

theorem getElem?_widened (fits : cells.length = ws.length) (i : Nat) :
    (widened ws cells)[i]? = ws[i]?.bind fun w => cells[i]?.map fun c => max w c.length := by
  induction ws generalizing cells i with
  | nil => cases cells <;> rfl
  | cons w ws ih =>
      cases cells with
      | nil => cases fits
      | cons c cs =>
          cases i with
          | zero => rfl
          | succ i => exact ih (Nat.succ.inj fits) i

theorem widest_headings (headings : List String) :
    Widest [headings] (headings.map String.length) := by
  intro i w width
  rw [List.getElem?_map] at width
  refine ⟨⟨headings, List.mem_singleton_self _, width⟩, ?_⟩
  rintro n ⟨texts, member, length⟩
  obtain rfl := List.mem_singleton.mp member
  exact (Option.some.inj (length.symm.trans width)).le

/-- Another row of texts widens the columns that it does not fit. -/
theorem Widest.widened (widest : Widest grid ws) (fits : cells.length = ws.length) :
    Widest (grid ++ [cells]) (widened ws cells) := by
  intro i v width
  rw [getElem?_widened fits, Option.bind_eq_some_iff] at width
  obtain ⟨w, before, width⟩ := width
  obtain ⟨c, here, rfl⟩ := Option.map_eq_some_iff.mp width
  have all : lengthsAt (grid ++ [cells]) i = insert c.length (lengthsAt grid i) := by
    ext n
    simp only [lengthsAt, List.mem_append, List.mem_singleton, or_and_right, exists_or,
      exists_eq_left, here, Option.map_some, Option.some.injEq, Set.mem_insert_iff,
      Set.mem_ofPred_eq]
    rw [or_comm, eq_comm]
  rw [all, max_comm]
  exact (widest i w before).insert _

theorem Widest.foldl (widest : Widest grid ws) (fits : ∀ cells ∈ lines, cells.length = ws.length) :
    Widest (grid ++ lines) (lines.foldl Render.widened ws) ∧
      (lines.foldl Render.widened ws).length = ws.length := by
  induction lines generalizing grid ws with
  | nil =>
      rw [List.append_nil]
      exact ⟨widest, rfl⟩
  | cons cells lines ih =>
      obtain ⟨first, others⟩ := List.forall_mem_cons.mp fits
      have wide := length_widened ws cells
      have rest := ih (widest.widened first) fun cells member =>
        (others cells member).trans wide.symm
      rw [List.append_assoc, wide] at rest
      exact rest

theorem widest_widths {headings : List String}
    (fits : ∀ cells ∈ lines, cells.length = headings.length) :
    Widest (headings :: lines) (widths headings lines) ∧
      (widths headings lines).length = headings.length := by
  have inside : ∀ cells ∈ lines, cells.length = (headings.map String.length).length := by
    intro cells member
    rw [fits cells member, List.length_map]
  have both := (widest_headings headings).foldl inside
  rwa [List.length_map] at both

/-- The texts have room in the widths. -/
abbrev Fit (texts : List String) (ws : List Nat) : Prop :=
  List.Forall₂ (fun text w => text.length ≤ w) texts ws

theorem Widest.fit (widest : Widest grid ws) {texts : List String} (member : texts ∈ grid)
    (fits : texts.length = ws.length) : Fit texts ws := by
  refine List.forall₂_iff_get.mpr ⟨fits, fun i inside inside' => ?_⟩
  refine (widest i _ (List.getElem?_eq_getElem inside')).2 ⟨texts, member, ?_⟩
  rw [List.getElem?_eq_getElem inside]
  rfl

end Widths

section Lines

variable {ws : List Nat} {texts : List String}

/-- The characters of a line between its first and its last one, the last one included. -/
def total (ws : List Nat) : Nat := (ws.map (· + 3)).sum

theorem intercalate_fence {α : Type} (fence : α) {pieces : List (List α)} (nonempty : pieces ≠ []) :
    [fence].intercalate pieces ++ [fence] = pieces.flatMap (· ++ [fence]) := by
  induction pieces with
  | nil => exact absurd rfl nonempty
  | cons piece pieces ih =>
      cases pieces with
      | nil => rw [List.intercalate_singleton, List.flatMap_singleton]
      | cons next pieces =>
          rw [List.intercalate_cons_cons, List.append_assoc, ih (List.cons_ne_nil _ _)]
          rfl

/-- A line of the box, whose middle marks are the fences between runs of dashes. -/
theorem toList_border {left middle right : String} {l m r : Char} (nonempty : ws ≠ [])
    (first : left.toList = [l]) (fence : middle.toList = [m]) (last : right.toList = [r]) :
    ∃ dashes, (border left middle right ws).toList = l :: dashes ++ [r] ∧
      dashes ++ [m] = (ws.map fun w => List.replicate (w + 2) '─' ++ [m]).flatten := by
  refine ⟨[m].intercalate (ws.map fun w => List.replicate (w + 2) '─'), ?_, ?_⟩
  · simp only [border, String.toList_append, String.toList_intercalate, List.map_map, first, fence,
      last, Function.comp_def, String.toList_ofList]
    rfl
  · rw [intercalate_fence m (by simpa using nonempty), List.flatMap_map, List.flatMap_def]

/-- A line that is not broken, and as long as the widths ask for. -/
structure Level (ws : List Nat) (l : List Char) : Prop where
  single : '\n' ∉ l
  length : l.length = 1 + total ws

theorem level_border {left middle right : String} {l m r : Char} (nonempty : ws ≠ [])
    (first : left.toList = [l]) (fence : middle.toList = [m]) (last : right.toList = [r])
    (marks : '\n' ∉ [l, m, r]) : Level ws (border left middle right ws).toList := by
  obtain ⟨dashes, line, fenced⟩ := toList_border nonempty first fence last
  simp only [List.mem_cons, List.not_mem_nil, or_false, not_or] at marks
  obtain ⟨notLeft, notMiddle, notRight⟩ := marks
  constructor
  · have inside : '\n' ∉ dashes := by
      intro member
      have all : '\n' ∈ dashes ++ [m] := List.mem_append_left _ member
      rw [fenced, List.mem_flatten] at all
      obtain ⟨piece, among, here⟩ := all
      obtain ⟨w, _, rfl⟩ := List.mem_map.mp among
      rcases List.mem_append.mp here with dash | mark
      · cases List.eq_of_mem_replicate dash
      · exact notMiddle (List.mem_singleton.mp mark)
    simp [line, notLeft, inside, notRight]
  · have size := congrArg List.length fenced
    have each : (List.length ∘ fun w => List.replicate (w + 2) '─' ++ [m]) = (· + 3) := by
      funext w
      simp
    rw [List.length_flatten, List.map_map, each, List.length_append, List.length_singleton] at size
    rw [line, List.length_append, List.length_cons, List.length_singleton, total, ← size]
    omega

/-- A text with the blanks that fill its cell. -/
def filled (text : String) (w : Nat) : List Char :=
  text.toList ++ List.replicate (w - text.length) ' '

/-- A cell with a blank on each side and the fence behind it. -/
def cell (entry : String × Nat) : List Char := ' ' :: (filled entry.1 entry.2 ++ [' ', '│'])

theorem length_filled {text : String} {w : Nat} (fit : text.length ≤ w) :
    (filled text w).length = w := by
  rw [filled, List.length_append, String.length_toList, List.length_replicate]
  omega

theorem length_cells (fit : Fit texts ws) :
    ((texts.zip ws).map cell).map List.length = ws.map (· + 3) := by
  induction fit with
  | nil => rfl
  | cons first _ ih =>
      rw [List.zip_cons_cons, List.map_cons, List.map_cons, List.map_cons, ih]
      simp [cell, length_filled first]

theorem toList_line (nonempty : ws ≠ []) (fit : Fit texts ws) :
    (line ws texts).toList = '│' :: ((texts.zip ws).map cell).flatten := by
  have pieces :
      (texts.zip ws).map (fun entry => ' ' :: (filled entry.1 entry.2 ++ [' '])) ≠ [] := by
    have size := fit.length_eq
    intro empty
    rw [List.map_eq_nil_iff, ← List.length_eq_zero_iff, List.length_zip] at empty
    exact nonempty (List.length_eq_zero_iff.mp (by omega))
  have fenced := intercalate_fence '│' pieces
  simp only [List.flatMap_map, List.cons_append, List.append_assoc] at fenced
  have mark : "│".toList = ['│'] := rfl
  have blank : " ".toList = [' '] := rfl
  simp only [line, padded, String.toList_append, String.toList_intercalate, List.map_map, mark,
    blank, Function.comp_def, String.toList_ofList, List.singleton_append]
  exact congrArg _ (fenced.trans (List.flatMap_def ..))

theorem level_line (nonempty : ws ≠ []) (fit : Fit texts ws)
    (single : ∀ text ∈ texts, '\n' ∉ text.toList) : Level ws (line ws texts).toList := by
  rw [toList_line nonempty fit]
  constructor
  · rw [List.mem_cons, List.mem_flatten]
    rintro (mark | ⟨piece, among, here⟩)
    · cases mark
    · obtain ⟨⟨text, w⟩, entry, rfl⟩ := List.mem_map.mp among
      have inside := single text (List.of_mem_zip entry).1
      simp [cell, filled, inside] at here
  · rw [List.length_cons, List.length_flatten, length_cells fit, total, Nat.add_comm]

/-- The line has each text at the place of its column, and blanks behind it up to the width. -/
def Shows (ws : List Nat) (l : List Char) (texts : List String) : Prop :=
  ∀ i text w, texts[i]? = some text → ws[i]? = some w →
    (l.drop (2 + total (ws.take i))).take w = filled text w

theorem shows_line (nonempty : ws ≠ []) (fit : Fit texts ws) :
    Shows ws (line ws texts).toList texts := by
  intro i text w here width
  have entry : (texts.zip ws)[i]? = some (text, w) := List.getElem?_zip_eq_some.mpr ⟨here, width⟩
  have before : (((texts.zip ws).map cell).map List.length).take i = (ws.take i).map (· + 3) := by
    rw [length_cells fit, List.map_take]
  have fits : text.length ≤ w := by
    obtain ⟨inTexts, rfl⟩ := List.getElem?_eq_some_iff.mp here
    obtain ⟨inWidths, rfl⟩ := List.getElem?_eq_some_iff.mp width
    exact fit.get inTexts inWidths
  obtain ⟨inside, same⟩ := List.getElem?_eq_some_iff.mp entry
  -- What stands before the column is the first bar and the whole cells of the columns before.
  have rest := List.drop_sum_flatten ((texts.zip ws).map cell) i
  rw [before, ← List.map_drop, List.drop_eq_getElem_cons inside, same, List.map_cons,
    List.flatten_cons, cell, List.cons_append, List.append_assoc] at rest
  rw [toList_line nonempty fit, total, Nat.add_comm 2, List.drop_succ_cons, ← List.drop_drop, rest,
    List.drop_succ_cons, List.drop_zero, List.take_left' (length_filled fits)]

end Lines

theorem newline_not_mem_countLine (n : Nat) : '\n' ∉ (countLine n).toList := by
  unfold countLine
  split
  · decide
  · have digits : '\n' ∉ (toString n).toList := by
      intro member
      rw [Nat.toString_eq_repr, Nat.toList_repr] at member
      exact absurd (RowKey.digits_toDigits n _ member) (by decide)
    simp [toString] at digits ⊢
    exact digits

theorem toList_table (rows : List Row) :
    (table rows).toList = ((tableLines rows).map String.toList).flatMap (· ++ ['\n']) := by
  rw [table, String.toList_join, List.flatMap_map, List.flatMap_map]
  congr 1
  funext l
  exact String.toList_append

section Box

variable {ws : List Nat} {names : List String} {texts : List (List String)}

/-- The lines of a table before its count. -/
def box (ws : List Nat) (names : List String) (texts : List (List String)) : List (List Char) :=
  (border "┌" "┬" "┐" ws).toList :: (line ws names).toList :: (border "├" "┼" "┤" ws).toList ::
    texts.map (fun cells => (line ws cells).toList) ++ [(border "└" "┴" "┘" ws).toList]

theorem toList_tableLines {s : Schema} {rows : List Row} (nonempty : rows ≠ [])
    (labelled : ∀ row ∈ rows, row.schema = s)
    (named : names = s.columns.map Column.name)
    (shown : texts = rows.map fun row => row.values.map Value.render) :
    (tableLines rows).map String.toList =
      box (widths names texts) names texts ++ [(countLine rows.length).toList] := by
  obtain ⟨first, others, rfl⟩ := List.exists_cons_of_ne_nil nonempty
  have heading : first.names = names := by
    rw [Row.names, labelled first List.mem_cons_self, named]
  simp [tableLines, box, heading, shown]

theorem level_box (nonempty : ws ≠ []) (inNames : Fit names ws)
    (inTexts : ∀ cells ∈ texts, Fit cells ws)
    (single : ∀ cells ∈ names :: texts, ∀ text ∈ cells, '\n' ∉ text.toList) :
    ∀ l ∈ box ws names texts, Level ws l := by
  obtain ⟨singleNames, singleTexts⟩ := List.forall_mem_cons.mp single
  have body : ∀ l ∈ texts.map (fun cells => (line ws cells).toList), Level ws l :=
    List.forall_mem_map.mpr fun cells member =>
      level_line nonempty (inTexts cells member) (singleTexts cells member)
  simp only [box, List.cons_append, List.forall_mem_cons, List.forall_mem_append]
  exact ⟨level_border nonempty rfl rfl rfl (by decide), level_line nonempty inNames singleNames,
    level_border nonempty rfl rfl rfl (by decide), body,
    level_border nonempty rfl rfl rfl (by decide), List.forall_mem_nil _⟩

end Box

/-- Whatever the rows, as long as they are of one schema with one value for each column and no text
breaks its line, a table is a box of four lines more than there are rows, and their count. All lines
of the box are of one length, in which each column has the width of its longest text and three
characters more; and in the heading and in each row every text begins where its column begins and
is followed by blanks. -/
theorem table_is_aligned {s : Schema} {rows : List Row} (nonempty : rows ≠ [])
    (columns : s.columns ≠ [])
    (labelled : ∀ row ∈ rows, row.schema = s)
    (full : ∀ row ∈ rows, row.values.length = s.columns.length)
    (headings : ∀ c ∈ s.columns, '\n' ∉ c.name.toList)
    (cells : ∀ row ∈ rows, ∀ v ∈ row.values, '\n' ∉ v.render.toList) :
    let names := s.columns.map Column.name
    let texts := rows.map fun row => row.values.map Value.render
    ∃ ws top head rule body bottom,
      Text.lines (table rows).toList =
        (top :: head :: rule :: body ++ [bottom]) ++ [(countLine rows.length).toList, []] ∧
      (top :: head :: rule :: body ++ [bottom]).length = rows.length + 4 ∧
      (∀ l ∈ top :: head :: rule :: body ++ [bottom], l.length = 1 + total ws) ∧
      ws.length = s.columns.length ∧ Widest (names :: texts) ws ∧
      Shows ws head names ∧ List.Forall₂ (Shows ws) body texts := by
  intro names texts
  have count : names.length = s.columns.length := List.length_map _
  have fits : ∀ cells ∈ texts, cells.length = names.length :=
    List.forall_mem_map.mpr fun row member => by rw [List.length_map, full row member, count]
  obtain ⟨widest, wide⟩ := widest_widths fits
  have lines := toList_tableLines nonempty labelled (rfl : names = _) (rfl : texts = _)
  generalize widths names texts = ws at *
  have nonempty : ws ≠ [] := by
    rw [← List.length_pos_iff, wide, count]
    exact List.length_pos_iff.mpr columns
  have inNames : Fit names ws := widest.fit List.mem_cons_self wide.symm
  have inTexts : ∀ cells ∈ texts, Fit cells ws := fun cells member =>
    widest.fit (List.mem_cons_of_mem _ member) ((fits cells member).trans wide.symm)
  have unbroken : ∀ cells ∈ names :: texts, ∀ text ∈ cells, '\n' ∉ text.toList :=
    List.forall_mem_cons.mpr ⟨List.forall_mem_map.mpr headings,
      List.forall_mem_map.mpr fun row among => List.forall_mem_map.mpr (cells row among)⟩
  have levels := level_box nonempty inNames inTexts unbroken
  have single : ∀ l ∈ box ws names texts ++ [(countLine rows.length).toList], '\n' ∉ l :=
    List.forall_mem_append.mpr ⟨fun l member => (levels l member).single,
      List.forall_mem_singleton.mpr (newline_not_mem_countLine _)⟩
  refine ⟨ws, _, _, _, _, _, ?_, ?_, fun l member => (levels l member).length, wide.trans count,
    widest, shows_line nonempty inNames, ?_⟩
  · rw [toList_table, lines, Text.lines_flatMap single, List.append_assoc]
    rfl
  · simp [texts]
  · exact List.forall₂_map_left_iff.mpr
      (List.forall₂_same.mpr fun cells member => shows_line nonempty (inTexts cells member))

/-- Two rows of which the second has the wider number and the first the longer text, and a heading
that is longer than both its cells. -/
theorem table_is_aligned_of_two_rows :
    let s : Schema := ⟨"t", [.plain .int64 "n", .fixedString "größe" 3]⟩
    let rows : List Row := [⟨s, [.int64 1, .fixedString "abc"]⟩, ⟨s, [.int64 22, .fixedString "ü "]⟩]
    rows ≠ [] ∧ s.columns ≠ [] ∧ (∀ row ∈ rows, row.values.length = s.columns.length) ∧
      ∃ ws box, Text.lines (table rows).toList = box ++ [(countLine 2).toList, []] ∧
        box.length = 6 ∧ (∀ l ∈ box, l.length = 1 + total ws) ∧
        Widest [["n", "größe"], ["1", "abc"], ["22", "ü "]] ws := by
  intro s rows
  have full : ∀ row ∈ rows, row.values.length = s.columns.length := by decide
  obtain ⟨ws, top, head, rule, body, bottom, lines, count, level, _, widest, _⟩ :=
    @table_is_aligned s rows (by decide) (by decide) (by decide) full (by decide)
      (by decide +kernel)
  exact ⟨by decide, by decide, full, ws, _, lines, count, level, widest⟩

end RowStore.Render
