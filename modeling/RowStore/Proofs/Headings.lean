import RowStore.Proofs.Answering
import RowStore.Proofs.References
import RowStore.Proofs.TypeSoundness

namespace RowStore

namespace Sql.Select

variable {τ : Type} [Storage τ]

/-- The name that an item gives its column. -/
def itemName : SelectItem → Option String
  | .column c asName => some (asName.getD c.text)
  | .expression .. | .everything => none

/-- The names of the columns of the answer, in their order. -/
def heading (c : Catalog) (s : Select) : List String :=
  if s.items.any isEverything then (drawnSchema c s.tables).names else s.items.filterMap itemName

theorem names_of_shownCells {row : Row} {items : List (String × String)}
    {cells : List (Column × Value)} (shown : items.mapM (shownCell row) = .ok cells) :
    (cells.map Prod.fst).map Column.name = items.map Prod.snd := by
  have each := mapM_eq_ok_iff.mp shown
  clear shown
  induction each with
  | nil => rfl
  | @cons item cell _ _ first _ ih =>
      rw [List.map_cons, List.map_cons, List.map_cons, ih]
      unfold shownCell at first
      split at first
      · obtain rfl := Except.ok.inj first
        rfl
      · cases first

theorem names_of_named (items : List SelectItem) :
    (items.filterMap named).map Prod.snd = items.filterMap itemName := by
  rw [List.map_filterMap]
  congr 1
  funext item
  cases item <;> rfl

section Answer

variable {s : Select} {p : Plan Empty} {c : Catalog} {store : τ} {rows : List Row}

theorem names_of_returned {row out : Row} (labelled : row.schema = drawnSchema c s.tables)
    (made : s.returned row = .ok out) : out.names = s.heading c := by
  unfold returned at made
  unfold heading
  split at made
  · rename_i star
    obtain rfl := Except.ok.inj made
    rw [if_pos star, Row.names, labelled]
    rfl
  · rename_i plain
    obtain ⟨cells, shown, made⟩ := bind_eq_ok_iff.mp made
    obtain rfl := Except.ok.inj made
    rw [if_neg plain, ← names_of_named]
    exact names_of_shownCells shown

theorem mem_of_mem_upTo {α : Type} {limit : Option Nat} {xs : List α} {x : α}
    (member : x ∈ upTo limit xs) : x ∈ xs := by
  cases limit with
  | none => exact member
  | some n => exact List.mem_of_mem_take member

/-- Each row of an answer is made of one that was drawn from the tables. -/
theorem drawn_of_answer (compiled : s.compile = .ok p)
    (answered : (Query.runPlan c p store).1 = .ok rows) :
    ∀ out ∈ rows, ∃ row, .ok row ∈ drawn c store s.tables ∧ s.returned row = .ok out := by
  intro out member
  obtain ⟨row, among, made⟩ :=
    (mem_iff_of_mapM (chosen_of_answer compiled answered).2).mp member
  have good := (List.mem_filter.mp (mem_of_mem_upTo among)).1
  obtain ⟨x, there, read⟩ := List.mem_filterMap.mp good
  obtain rfl := toOption_eq_some_iff.mp read
  exact ⟨row, there, made⟩

/-- Each row of an answer has a value for every column of the heading. -/
theorem names_of_answer (compiled : s.compile = .ok p)
    (answered : (Query.runPlan c p store).1 = .ok rows) :
    ∀ row ∈ rows, row.names = s.heading c ∧ row.values.length = row.names.length := by
  intro out member
  obtain ⟨row, there, made⟩ := drawn_of_answer compiled answered out member
  refine ⟨names_of_returned (schema_of_mem_drawn there) made, ?_⟩
  rw [Plan.runPlan_eq] at answered
  obtain ⟨S, fit⟩ := Plan.fit_of_opening p c store answered
  rw [Row.names, List.length_map]
  exact (fit out member).2.length_eq.symm

end Answer

section Star

variable {schemas : List Schema} {c : Catalog} {s : Select}

/-- The columns of one table have names of their own. Those of several tables have, unless the first
two tables are shown under one name and share a column. -/
theorem nodup_heading_of_star (made : Catalog.ofSchemas schemas = .ok c)
    (star : s.items.any isEverything = true) (known : ∀ t ∈ s.tables, Known c t) :
    (∀ t, s.tables = [t] → (s.heading c).Nodup) ∧
      ∀ t u rest, s.tables = t :: u :: rest → (∀ t ∈ s.tables, isName t.shownName = true) →
        ((s.heading c).Nodup ↔
          t.shownName ≠ u.shownName ∨ ∀ a, columnOf c t a = none ∨ columnOf c u a = none) := by
  have columns : s.heading c = (drawnSchema c s.tables).names := if_pos star
  refine ⟨fun t only => ?_, fun t u rest all named => ?_⟩
  · obtain ⟨schema, there⟩ := known t (only ▸ List.mem_singleton_self t)
    obtain ⟨_, _, valid⟩ := Catalog.table_of_ofSchemas made there
    have alone : drawnSchema c [t] = shown c t := rfl
    rw [columns, only, alone, Schema.names, columns_shown there]
    exact (Schema.names_of_valid valid).1
  · have listed : ∀ t ∈ s.tables, Listed c t := fun t member =>
      listed_of_known made (known t member) (named t member)
    rw [all] at listed
    obtain ⟨first, later⟩ := List.forall_mem_cons.mp listed
    obtain ⟨second, others⟩ := List.forall_mem_cons.mp later
    rw [columns, all]
    exact nodup_drawn first second others

end Star

end Sql.Select
end RowStore
