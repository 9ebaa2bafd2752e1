import RowStore.Proofs.Conditions
import RowStore.Proofs.Qualifying
import RowStore.Proofs.Selecting
import RowStore.Proofs.Typing

namespace RowStore

/-- The values of a row, each with its column. -/
def Row.cells (r : Row) : List (Column × Value) := r.schema.columns.zip r.values

/-- The first column of a name, with its value. -/
def Row.cell? (r : Row) (name : String) : Option (Column × Value) :=
  r.cells.find? fun cell => cell.1.name = name

def Row.Full (r : Row) : Prop := r.values.length = r.schema.columns.length

section Cells

theorem Row.cell?_eq (row : Row) (name : String) :
    row.cell? name =
      (row.schema.find? name).bind fun found => row.values[found.1]?.map fun v => (found.2, v) := by
  obtain ⟨⟨t, columns⟩, values⟩ := row
  simp only [cell?, cells]
  induction columns generalizing values with
  | nil => rfl
  | cons c cs ih =>
      rw [Schema.find?_cons]
      cases values with
      | nil => split <;> simp
      | cons v vs =>
          rw [List.zip_cons_cons, List.find?_cons]
          by_cases same : c.name = name
          · simp [same]
          · simp [same, ih, Option.bind_map]

/-- The value of a name is that of the first column that goes by it. -/
theorem Row.get?_eq_cell? (row : Row) (name : String) :
    row.get? name = (row.cell? name).map Prod.snd := by
  rw [get?, cell?_eq]
  cases row.schema.find? name with
  | none => rfl
  | some found => simp [Function.comp_def]

/-- Where no value is wanting, a column is found with a value or not at all. -/
theorem Row.Full.find?_cases {row : Row} (full : row.Full) (name : String) :
    (row.schema.find? name = none ∧ row.cell? name = none) ∨
      ∃ i c v, row.schema.find? name = some (i, c) ∧ row.values[i]? = some v ∧
        row.cell? name = some (c, v) := by
  rw [cell?_eq]
  cases found : row.schema.find? name with
  | none => exact .inl ⟨rfl, rfl⟩
  | some place =>
      obtain ⟨i, c⟩ := place
      have inside : i < row.schema.columns.length :=
        (List.getElem?_eq_some_iff.mp (Schema.getElem?_of_find? found)).1
      have inside' : i < row.values.length := full ▸ inside
      refine .inr ⟨i, c, row.values[i], rfl, List.getElem?_eq_getElem inside', ?_⟩
      simp [inside']

end Cells

def Relation.Full (r : Relation) : Prop := ∀ row ∈ r.rows, row.Full

theorem Relation.Full.product {r u : Relation} (left : r.Full) (right : u.Full) :
    (r.product u).Full := by
  simp only [Full, rows, Row.Full, List.forall_mem_map] at left right ⊢
  intro values member
  obtain ⟨a, first, member⟩ := List.mem_flatMap.mp member
  obtain ⟨b, second, rfl⟩ := List.mem_map.mp member
  simp only [Relation.product, joinedSchema, qualified, List.length_append, List.length_map,
    left a first, right b second]

namespace Sql.Select

/-- The column that an item names, and the name that it gives it. -/
def named : SelectItem → Option (String × String)
  | .column c asName => some (c.text, asName.getD c.text)
  | .expression .. | .everything => none

/-- The cell of a column in a row, under the name that it is given. -/
def shownCell (row : Row) (item : String × String) : Except QueryError (Column × Value) :=
  match row.cell? item.1 with
  | some (column, v) => .ok ({ column with name := item.2 }, v)
  | none => .error (.catalog (.columnNotFound item.1))

/-- The row that is returned for a row: with a star the row itself, and else a cell for each
item. -/
def returned (s : Select) (row : Row) : Except QueryError Row :=
  if s.items.any isEverything then .ok row
  else do
    let cells ← (s.items.filterMap named).mapM (shownCell row)
    return ⟨⟨row.schema.table, cells.map Prod.fst⟩, cells.map Prod.snd⟩

/-- What the condition says of a row. Every row satisfies none. -/
def Judges (s : Select) (row : Row) (answer : Bool) : Prop :=
  match s.condition with
  | none => answer = true
  | some e => e.Means row answer

instance (s : Select) (row : Row) (answer : Bool) : Decidable (s.Judges row answer) :=
  match given : s.condition with
  | none => decidable_of_iff (answer = true) (by simp [Judges, given])
  | some e => decidable_of_iff (e.Means row answer) (by simp [Judges, given])

def Satisfies (s : Select) (x : Result Row) : Prop := ∃ row, x = .ok row ∧ s.Judges row true

theorem satisfies_ok_iff {s : Select} {row : Row} :
    s.Satisfies (.ok row) ↔ s.Judges row true := by
  simp [Satisfies]

instance (s : Select) (x : Result Row) : Decidable (s.Satisfies x) :=
  match x with
  | .ok row => decidable_of_iff (s.Judges row true) satisfies_ok_iff.symm
  | .error _ => isFalse nofun

/-- What is looked at to find rows that satisfy the condition, as many as the limit. -/
def walked (s : Select) : Option Nat → Yield → Yield
  | some 0, _ => []
  | _, [] => []
  | limit, x :: xs => x :: s.walked (if s.Satisfies x then limit.map (· - 1) else limit) xs

/-- A row that can be read and judged, and returned if it satisfies the condition. -/
def Sound (s : Select) (x : Result Row) : Prop :=
  ∃ row answer, x = .ok row ∧ s.Judges row answer ∧
    (answer = true → ∃ out, s.returned row = .ok out)

/-- Why a row cannot be judged, or cannot be returned although it satisfies the condition. -/
def reason? (s : Select) (row : Row) : Option QueryError :=
  match s.condition.bind fun e => e.missing? row with
  | some name => some (.catalog (.columnNotFound name))
  | none => if s.Judges row true then failure? (s.returned row) else none

/-- Why a stored value cannot be read, or its row cannot be judged or returned. -/
def fault? (s : Select) : Result Row → Option (Failure QueryError)
  | .error e => some e
  | .ok row => (s.reason? row).map .reported

def upTo {α : Type} : Option Nat → List α → List α
  | none, xs => xs
  | some n, xs => xs.take n

/-- The first rows that satisfy the condition, as many as the limit. -/
def chosen (s : Select) (limit : Option Nat) (xs : Yield) : List Row :=
  upTo limit (xs.good.filter fun row => s.Judges row true)

section Projected

variable {row : Row}

/-- A column at its place in the row, and its cell. -/
def Takes (row : Row) (taken : Nat × Column) (cell : Column × Value) : Prop :=
  taken.2 = cell.1 ∧ row.values[taken.1]? = some cell.2

theorem projectTaken_of_cells {taken : List (Nat × Column)} {cells : List (Column × Value)}
    (each : List.Forall₂ (Takes row) taken cells) :
    projectTaken taken row =
      .ok ⟨⟨row.schema.table, cells.map Prod.fst⟩, cells.map Prod.snd⟩ := by
  have columns : taken.map Prod.snd = cells.map Prod.fst := by
    rw [← List.forall₂_eq_eq_eq, List.forall₂_map_left_iff, List.forall₂_map_right_iff]
    exact each.imp fun _ _ takes => takes.1
  rw [projectTaken, columns]
  refine bind_eq_ok_iff.mpr ⟨cells.map Prod.snd, mapM_eq_ok_iff.mpr ?_, rfl⟩
  rw [List.forall₂_map_right_iff]
  exact each.imp fun _ _ takes => by simp [takes.2]

/-- The columns of a projection are found in a row with all its values just if their cells are. -/
theorem shownCells_cases (full : row.Full) (items : List (String × String)) :
    (∃ e, projectedColumns row.schema items = .error e ∧
      items.mapM (shownCell row) = .error e) ∨
      ∃ taken cells, projectedColumns row.schema items = .ok taken ∧
        items.mapM (shownCell row) = .ok cells ∧ List.Forall₂ (Takes row) taken cells := by
  induction items with
  | nil => exact .inr ⟨[], [], rfl, rfl, .nil⟩
  | cons item items ih =>
      obtain ⟨name, given⟩ := item
      rw [projectedColumns] at ih ⊢
      rw [List.mapM_cons, List.mapM_cons, shownCell]
      rcases full.find?_cases name with ⟨unknown, absent⟩ | ⟨i, c, v, found, value, cell⟩
      · simp only [unknown, absent]
        exact .inl ⟨_, rfl, rfl⟩
      · simp only [found, cell, ok_bind]
        rcases ih with ⟨e, failed, failed'⟩ | ⟨taken, cells, known, shown, each⟩
        · rw [failed, failed']
          exact .inl ⟨e, rfl, rfl⟩
        · rw [known, shown]
          exact .inr ⟨_, _, rfl, rfl, .cons ⟨rfl, value⟩ each⟩

theorem project_eq_cells (full : row.Full) (items : List (String × String)) :
    project items row = (items.mapM (shownCell row)).map fun cells =>
      ⟨⟨row.schema.table, cells.map Prod.fst⟩, cells.map Prod.snd⟩ := by
  rcases shownCells_cases full items with ⟨e, failed, failed'⟩ | ⟨taken, cells, known, shown, each⟩
  · rw [project, failed, failed']
    rfl
  · rw [project, known, shown, ok_bind, projectTaken_of_cells each]
    rfl

end Projected

section Compiled

variable {s : Select} {p : Plan Empty} {row : Row}

theorem named_of_outputs {items : List SelectItem} (plain : items.any isEverything = false)
    {columns : List (String × String)} (known : items.mapM outputName = .ok columns) :
    columns = items.filterMap named := by
  have each := mapM_eq_ok_iff.mp known
  clear known
  induction each with
  | nil => rfl
  | @cons item pair items _ first _ ih =>
      rw [List.any_cons, Bool.or_eq_false_iff] at plain
      rw [List.filterMap_cons, ih plain.2]
      cases item with
      | column c asName =>
          obtain rfl := Except.ok.inj first
          rfl
      | expression e asName => cases first
      | everything => cases plain.1

theorem output_eq_returned (compiled : s.compile = .ok p) (full : row.Full) :
    s.output row = s.returned row := by
  unfold output returned
  by_cases star : s.items.any isEverything = true
  · rw [if_pos star, if_pos star]
  · obtain ⟨columns, known⟩ := exists_outputs compiled star
    have named := named_of_outputs (Bool.eq_false_iff.mpr star) known
    rw [if_neg star, if_neg star, known, named]
    exact project_eq_cells full _

/-- The condition of a SELECT has an answer for a row that has all the columns that it looks at. -/
theorem judged_cases (compiled : s.compile = .ok p) (row : Row) :
    (∃ name, (s.condition.bind fun e => e.missing? row) = some name ∧
      s.meets row = .error (.catalog (.columnNotFound name)) ∧
      ∀ answer, ¬ s.Judges row answer) ∨
      ∃ answer, (s.condition.bind fun e => e.missing? row) = none ∧ s.meets row = .ok answer ∧
        ∀ other, s.Judges row other ↔ other = answer := by
  unfold meets Judges
  cases given : s.condition with
  | none => exact .inr ⟨true, rfl, rfl, fun _ => Iff.rfl⟩
  | some e =>
      obtain ⟨c, lowered⟩ := exists_condition compiled given
      have answers : Expression.Answers row e (e.Means row) (c.holds row) :=
        Expression.answers_holds lowered
      simp only [lowered, Except.mapError, ok_bind, Option.bind_some]
      cases judged : c.holds row with
      | error why =>
          obtain ⟨name, missing, rfl⟩ := (answers.error why).mp judged
          refine .inl ⟨name, missing, rfl, fun answer means => ?_⟩
          cases judged.symm.trans ((answers.ok answer).mpr means)
      | ok answer =>
          refine .inr ⟨answer, answers.exists_ok_iff.mp ⟨answer, judged⟩, rfl, fun other => ?_⟩
          rw [← answers.ok, judged, Except.ok.injEq, eq_comm]

end Compiled

section Walk

variable {s : Select} {p : Plan Empty} {limit : Option Nat}

@[simp] theorem walked_zero (xs : Yield) : s.walked (some 0) xs = [] := by
  cases xs <;> rfl

@[simp] theorem limitedTo_zero (xs : Yield) : limitedTo (some 0) xs = [] := Yield.limited_zero xs

@[simp] theorem chosen_zero (xs : Yield) : s.chosen (some 0) xs = [] := rfl

theorem walked_cons (room : limit ≠ some 0) (x : Result Row) (xs : Yield) :
    s.walked limit (x :: xs) =
      x :: s.walked (if s.Satisfies x then limit.map (· - 1) else limit) xs := by
  obtain _ | _ | n := limit
  · rfl
  · exact absurd rfl room
  · rfl

theorem limitedTo_cons_ok (room : limit ≠ some 0) (row : Row) (xs : Yield) :
    limitedTo limit (.ok row :: xs) = .ok row :: limitedTo (limit.map (· - 1)) xs := by
  obtain _ | _ | n := limit
  · rfl
  · exact absurd rfl room
  · rfl

theorem limitedTo_cons_error (room : limit ≠ some 0) (e : Failure QueryError) (xs : Yield) :
    limitedTo limit (.error e :: xs) = .error e :: limitedTo limit xs := by
  obtain _ | _ | n := limit
  · rfl
  · exact absurd rfl room
  · rfl

theorem chosen_cons_of_unsatisfied {row : Row} (unsatisfied : ¬ s.Judges row true) (xs : Yield) :
    s.chosen limit (.ok row :: xs) = s.chosen limit xs := by
  have good : Yield.good (.ok row :: xs) = row :: Yield.good xs := rfl
  rw [chosen, good, List.filter_cons_of_neg (by simpa using unsatisfied), chosen]

theorem chosen_cons_of_satisfied (room : limit ≠ some 0) {row : Row}
    (satisfied : s.Judges row true) (xs : Yield) :
    s.chosen limit (.ok row :: xs) = row :: s.chosen (limit.map (· - 1)) xs := by
  have good : Yield.good (.ok row :: xs) = row :: Yield.good xs := rfl
  rw [chosen, good, List.filter_cons_of_pos (by simpa using satisfied), chosen]
  obtain _ | _ | n := limit
  · rfl
  · exact absurd rfl room
  · rfl

theorem sound_ok_iff {row : Row} :
    s.Sound (.ok row) ↔
      ∃ answer, s.Judges row answer ∧ (answer = true → ∃ out, s.returned row = .ok out) := by
  constructor
  · rintro ⟨_, answer, ⟨⟩, sound⟩
    exact ⟨answer, sound⟩
  · rintro ⟨answer, sound⟩
    exact ⟨row, answer, rfl, sound⟩

theorem sound_iff (compiled : s.compile = .ok p) (x : Result Row) :
    s.Sound x ↔ s.fault? x = none := by
  cases x with
  | error e =>
      constructor
      · rintro ⟨_, _, ⟨⟩, _⟩
      · exact nofun
  | ok row =>
      rw [sound_ok_iff, fault?, Option.map_eq_none_iff, reason?]
      rcases judged_cases compiled row with
        ⟨name, missing, _, unjudged⟩ | ⟨answer, present, _, only⟩
      · rw [missing]
        constructor
        · rintro ⟨answer, judged, _⟩
          exact absurd judged (unjudged answer)
        · exact nofun
      · simp only [present, only, exists_eq_left]
        cases answer with
        | false => simp
        | true => simp [failure?_eq_none_iff]

section Selected

variable {row : Row} {xs : Yield}

theorem selected_cons_error (e : Failure QueryError) :
    Yield.selected s.meets (.error e :: xs) = .error e :: Yield.selected s.meets xs := rfl

theorem selected_cons_of_failed {e : QueryError} (failed : s.meets row = .error e) :
    Yield.selected s.meets (.ok row :: xs) =
      .error (.reported e) :: Yield.selected s.meets xs := by
  simp [Yield.selected, Yield.kept, failed]

theorem selected_cons_of_false (judged : s.meets row = .ok false) :
    Yield.selected s.meets (.ok row :: xs) = Yield.selected s.meets xs := by
  simp [Yield.selected, Yield.kept, judged]

theorem selected_cons_of_true (judged : s.meets row = .ok true) :
    Yield.selected s.meets (.ok row :: xs) = .ok row :: Yield.selected s.meets xs := by
  simp [Yield.selected, Yield.kept, judged]

end Selected

/-- What the operators make of rows with all their values. They fail as the first of those walked
that is not sound, and else return the rows chosen. -/
theorem rows_shaped (compiled : s.compile = .ok p) (limit : Option Nat) {xs : Yield}
    (full : ∀ row, .ok row ∈ xs → row.Full) :
    failure? ((limitedTo limit (xs.selected s.meets)).projected s.output).rows =
        (s.walked limit xs).findSome? s.fault? ∧
      ∀ rows, ((limitedTo limit (xs.selected s.meets)).projected s.output).rows = .ok rows →
        (s.chosen limit xs).mapM s.returned = .ok rows := by
  induction xs generalizing limit with
  | nil =>
      obtain _ | _ | n := limit <;>
        simp [limitedTo, Yield.selected, Yield.projected, walked, chosen, upTo, Yield.limited,
          Yield.good, failure?, pure, Except.pure]
  | cons x xs ih =>
      by_cases reached : limit = some 0
      · subst reached
        simp [Yield.projected, failure?, pure, Except.pure]
      have later : ∀ row, .ok row ∈ xs → row.Full := fun row member =>
        full row (List.mem_cons_of_mem _ member)
      rw [walked_cons reached, List.findSome?_cons]
      cases x with
      | error e =>
          simp [selected_cons_error, limitedTo_cons_error reached, Yield.projected, failure?,
            fault?]
      | ok row =>
          rcases judged_cases compiled row with
            ⟨name, missing, failed, _⟩ | ⟨answer, present, judged, only⟩
          · simp [selected_cons_of_failed failed, limitedTo_cons_error reached, Yield.projected,
              failure?, fault?, reason?, missing]
          · have rest := fun limit => ih limit later
            cases answer with
            | false =>
                have unsatisfied : ¬ s.Judges row true := by simp [only]
                have sound : s.fault? (.ok row) = none := by
                  simp [fault?, reason?, present, unsatisfied]
                rw [selected_cons_of_false judged, sound,
                  if_neg (mt satisfies_ok_iff.mp unsatisfied),
                  chosen_cons_of_unsatisfied unsatisfied]
                exact rest limit
            | true =>
                have satisfied : s.Judges row true := (only true).mpr rfl
                have taken : s.output row = s.returned row :=
                  output_eq_returned compiled (full row List.mem_cons_self)
                have fault : s.fault? (.ok row) = (failure? (s.returned row)).map .reported := by
                  simp [fault?, reason?, present, satisfied]
                rw [selected_cons_of_true judged, limitedTo_cons_ok reached, fault,
                  if_pos (satisfies_ok_iff.mpr satisfied),
                  chosen_cons_of_satisfied reached satisfied, Yield.projected, List.map_cons,
                  ok_bind, taken, List.mapM_cons]
                cases returned : s.returned row with
                | error e =>
                    refine ⟨rfl, fun rows other => ?_⟩
                    cases other
                | ok out =>
                    obtain ⟨fails, returns⟩ := rest (limit.map (· - 1))
                    have front (xs : Yield) :
                        Yield.rows (((Except.ok out).mapError .reported : Result Row) :: xs) =
                          xs.rows.map (out :: ·) := Yield.rows_ok_cons out xs
                    rw [front, failure?_map]
                    refine ⟨fails, fun rows shaped => ?_⟩
                    obtain ⟨others, below, rfl⟩ := map_eq_ok_iff.mp shaped
                    have remaining := returns others below
                    rw [remaining]
                    rfl

end Walk

section Drawn

variable {τ : Type} [Storage τ] {c : Catalog} {store : τ}

/-- What is read of a table has a value for each of its columns. -/
theorem full_of_mem_tableRows {t : TableName} {row : Row}
    (member : .ok row ∈ tableRows c store t) : row.Full := by
  unfold tableRows at member
  split at member
  · obtain ⟨e, _, read⟩ := List.mem_map.mp member
    exact (RowFormat.typed_of_decode (mapError_eq_ok_iff.mp read)).length_eq.symm
  · nomatch member

theorem full_relation (c : Catalog) (store : τ) (t : TableName) : (relation c store t).Full := by
  intro row member
  by_cases known : Known c t
  · rw [rows_relation known] at member
    obtain ⟨x, stored, good⟩ := List.mem_filterMap.mp member
    obtain rfl := toOption_eq_some_iff.mp good
    exact full_of_mem_tableRows stored
  · unfold relation at member
    split at member
    · rename_i s there
      exact absurd ⟨s, there⟩ known
    · nomatch member

theorem full_products {r : Relation} (full : r.Full) (ts : List TableName) :
    (ts.foldl (fun r u => r.product (relation c store u)) r).Full := by
  induction ts generalizing r with
  | nil => exact full
  | cons t ts ih => exact ih (full.product (full_relation c store t))

/-- The rows that are drawn have a value for each of their columns. -/
theorem full_of_mem_drawn {tables : List TableName} {row : Row}
    (member : .ok row ∈ drawn c store tables) : row.Full := by
  unfold drawn at member
  split at member
  · nomatch member
  · exact full_of_mem_tableRows member
  · obtain ⟨_, inside, same⟩ := List.mem_map.mp member
    obtain rfl := Except.ok.inj same
    exact full_products (full_relation c store _) _ _ inside

variable {s : Select} {p : Plan Empty}

/-- The tables of a SELECT can be opened, and several of them can be read to the end. -/
def Drawable (s : Select) (c : Catalog) (store : τ) : Prop :=
  (∀ t ∈ s.tables, Known c t) ∧ (2 ≤ s.tables.length → ∀ t ∈ s.tables, Readable c store t)

/-- A SELECT comes to what the operators above its tables make of the rows drawn from these. -/
theorem runPlan_compiled (compiled : s.compile = .ok p) (c : Catalog) (store : τ) :
    (Query.runPlan c p store).2 = store ∧
      (∀ rows, (Query.runPlan c p store).1 = .ok rows → s.Drawable c store) ∧
      (s.Drawable c store →
        (Query.runPlan c p store).1 = (s.shaped (drawn c store s.tables)).rows) := by
  obtain ⟨source, opened, shape⟩ := opening_compiled compiled c store
  obtain ⟨unchanged, yields⟩ := opening_source opened c store
  rw [Plan.runPlan_eq, shape]
  refine ⟨unchanged, fun rows answered => ?_, fun ready => ?_⟩
  · obtain ⟨_, yielded, _⟩ := bind_eq_ok_iff.mp answered
    obtain ⟨xs, opens, _⟩ := map_eq_ok_iff.mp yielded
    exact ((yields xs).mp opens).1
  · rw [(yields _).mpr ⟨ready, rfl⟩]
    rfl

/-- When a SELECT answers, its tables can be drawn from, and the answer is made of the rows
chosen. -/
theorem chosen_of_answer (compiled : s.compile = .ok p) {rows : List Row}
    (answered : (Query.runPlan c p store).1 = .ok rows) :
    s.Drawable c store ∧
      (s.chosen s.bound (drawn c store s.tables)).mapM s.returned = .ok rows := by
  obtain ⟨_, ready, shape⟩ := runPlan_compiled compiled c store
  have drawable := ready rows answered
  rw [shape drawable] at answered
  have full : ∀ row, .ok row ∈ drawn c store s.tables → row.Full := fun _ => full_of_mem_drawn
  exact ⟨drawable, (rows_shaped compiled s.bound full).2 rows answered⟩

/-- A SELECT answers exactly when all its tables are known, all rows of several tables can be read,
and every row walked can be read and judged, and returned if it satisfies the condition. The
answer are the rows that satisfy the condition, in order and up to the limit, each with the columns
of the items. If it is only for a row that there is no answer, the first row walked that is at fault
is the reason. The store stays as it was. -/
theorem select_filters_limits_projects (s : Select) (p : Plan Empty) (compiled : s.compile = .ok p)
    (c : Catalog) (store : τ) :
    ((∃ rows, (Query.runPlan c p store).1 = .ok rows) ↔
      (∀ t ∈ s.tables, Known c t) ∧
      (2 ≤ s.tables.length → ∀ t ∈ s.tables, Readable c store t) ∧
      ∀ x ∈ s.walked s.bound (drawn c store s.tables), s.Sound x) ∧
    (∀ rows, (Query.runPlan c p store).1 = .ok rows →
      (upTo s.bound ((drawn c store s.tables).good.filter fun row => s.Judges row true)).mapM
        s.returned = .ok rows) ∧
    ((∀ t ∈ s.tables, Known c t) →
      (2 ≤ s.tables.length → ∀ t ∈ s.tables, Readable c store t) →
      ∀ e, (Query.runPlan c p store).1 = .error e ↔
        (s.walked s.bound (drawn c store s.tables)).findSome? s.fault? = some e) ∧
    (Query.runPlan c p store).2 = store := by
  obtain ⟨unchanged, ready, shape⟩ := runPlan_compiled compiled c store
  have full : ∀ row, .ok row ∈ drawn c store s.tables → row.Full := fun _ => full_of_mem_drawn
  have fails := (rows_shaped compiled s.bound full).1
  have answers (drawable : s.Drawable c store) :
      (∃ rows, (Query.runPlan c p store).1 = .ok rows) ↔
        ∀ x ∈ s.walked s.bound (drawn c store s.tables), s.Sound x := by
    simp only [shape drawable, ← failure?_eq_none_iff, sound_iff compiled,
      ← List.findSome?_eq_none_iff]
    exact Eq.congr fails rfl
  refine ⟨⟨?_, ?_⟩, fun rows answered => (chosen_of_answer compiled answered).2, ?_, unchanged⟩
  · rintro ⟨rows, answered⟩
    have drawable := ready rows answered
    exact ⟨drawable.1, drawable.2, (answers drawable).mp ⟨rows, answered⟩⟩
  · rintro ⟨known, readable, sound⟩
    exact (answers ⟨known, readable⟩).mpr sound
  · intro known readable e
    rw [shape ⟨known, readable⟩, ← failure?_eq_some_iff]
    exact Eq.congr fails rfl

/-- The pairs come in the order of the first table, and the second of them is the first to satisfy
the condition. Of one table, a row that cannot be read lies behind the limit. -/
theorem select_stops_at_limit :
    let pairs : Select :=
      ⟨[.column ⟨some "x", "name"⟩ (some "who"), .column ⟨some "u", "id"⟩ none],
        [⟨"t", some "x"⟩, ⟨"u", none⟩],
        some (.binary (.compare .less) (.column ⟨some "x", "id"⟩) (.column ⟨some "u", "id"⟩)),
        some (.literal (.integer 1))⟩
    let first : Select := ⟨[.everything], [⟨"u", none⟩], none, some (.literal (.integer 1))⟩
    let p : Plan Empty :=
      .projection (.limit (.selection (.join (.scan "t" (some "x")) (.scan "u" none))
        (.comparison .less (.column "x.id") (.column "u.id"))) 1)
        [("x.name", "who"), ("u.id", "u.id")]
    let q : Plan Empty := .limit (.scan "u" none) 1
    let t : Schema := ⟨"t", [.plain .int32 "id", .fixedString "name" 2]⟩
    let u : Schema := ⟨"u", [.plain .int32 "id"]⟩
    let c : Catalog := ⟨(OrderedMap.empty.insert "t" t).insert "u" u⟩
    let store : Entries := .ofList
      [(RowKey.ofText "t" "1", [2, 0, 0, 0, 97, 98]),
        (RowKey.ofText "t" "2", [4, 0, 0, 0, 99, 100]),
        (RowKey.ofText "u" "1", [2, 0, 0, 0]), (RowKey.ofText "u" "3", [6, 0, 0, 0])]
    let spoilt : Entries := .ofList
      [(RowKey.ofText "u" "1", [2, 0, 0, 0]), (RowKey.ofText "u" "2", [0x80])]
    pairs.compile = .ok p ∧
      (Query.runPlan c p store).1 =
        .ok [⟨⟨"(x,u)", [.fixedString "who" 2, .plain .int32 "u.id"]⟩,
          [.fixedString "ab", .int32 3]⟩] ∧
      first.compile = .ok q ∧
      (Query.runPlan c q spoilt).1 = .ok [⟨u, [.int32 1]⟩] := by
  intro pairs first p q t u c store spoilt
  have compiled : pairs.compile = .ok p := rfl
  have compiled' : first.compile = .ok q := rfl
  obtain ⟨accepts, returns, _⟩ := select_filters_limits_projects pairs p compiled c store
  obtain ⟨accepts', returns', _⟩ := select_filters_limits_projects first q compiled' c spoilt
  have known : ∀ x ∈ pairs.tables, Known c x :=
    List.forall_mem_cons.mpr ⟨⟨t, rfl⟩, List.forall_mem_singleton.mpr ⟨u, rfl⟩⟩
  have known' : ∀ x ∈ first.tables, Known c x := List.forall_mem_singleton.mpr ⟨u, rfl⟩
  have readable : ∀ x ∈ pairs.tables, Readable c store x := by
    have each : ∀ x ∈ pairs.tables, ∃ rows, (tableRows c store x).rows = .ok rows :=
      List.forall_mem_cons.mpr ⟨⟨_, rfl⟩, List.forall_mem_singleton.mpr ⟨_, rfl⟩⟩
    intro x member
    obtain ⟨rows, read⟩ := each x member
    exact (Yield.rows_eq_ok_iff.mp read).1
  have sound : ∀ x ∈ pairs.walked pairs.bound (drawn c store pairs.tables), pairs.Sound x := by
    simp only [sound_iff compiled, ← List.findSome?_eq_none_iff]
    decide +kernel
  have sound' : ∀ x ∈ first.walked first.bound (drawn c spoilt first.tables), first.Sound x := by
    simp only [sound_iff compiled', ← List.findSome?_eq_none_iff]
    decide +kernel
  obtain ⟨rows, answered⟩ := accepts.mpr ⟨known, fun _ => readable, sound⟩
  obtain ⟨rows', answered'⟩ :=
    accepts'.mpr ⟨known', fun several => absurd several (by decide), sound'⟩
  have made := returns rows answered
  have made' := returns' rows' answered'
  refine ⟨compiled, answered.trans (congrArg Except.ok ?_), compiled',
    answered'.trans (congrArg Except.ok ?_)⟩
  · exact Except.ok.inj (made.symm.trans (by decide +kernel))
  · exact Except.ok.inj (made'.symm.trans (by decide +kernel))

end Drawn

end Sql.Select
end RowStore
