import RowStore.Catalog
import RowStore.OrderedMap.Lookup
import RowStore.Proofs.Outcomes

namespace RowStore

namespace Schema

theorem columnFault?_eq_none_iff {table : String} {seen : List String} {c : Column}
    {cs : List Column} :
    columnFault? table seen (c :: cs) = none ↔
      '.' ∉ c.name.toList ∧ c.name ∉ seen ∧ (c.type = .fixedString → c.length ≠ none) ∧
        columnFault? table (c.name :: seen) cs = none := by
  rw [columnFault?]
  split
  · simp_all
  · split
    · simp_all
    · split <;> simp_all

theorem fault?_eq_none_iff {s : Schema} :
    s.fault? = none ↔
      s.table ≠ "" ∧ keySeparator ∉ s.table.toList ∧ s.columns ≠ [] ∧
        columnFault? s.table [] s.columns = none := by
  unfold fault?
  split
  · simp [*]
  · split
    · rename_i there
      simp only [reduceCtorEq, false_iff]
      rintro ⟨_, free, _⟩
      exact free (List.contains_iff_mem.mp there)
    · rename_i free
      rw [List.contains_iff_mem] at free
      split <;> simp [*]

theorem validate_eq_ok_iff {s : Schema} : s.validate = .ok () ↔ s.fault? = none := by
  unfold validate
  cases s.fault? <;> simp

theorem separator_free {s : Schema} (valid : s.fault? = none) :
    keySeparator ∉ s.table.toList :=
  (fault?_eq_none_iff.mp valid).2.1

theorem lengths_of_columnFault? {table : String} {seen : List String} {cs : List Column}
    (valid : columnFault? table seen cs = none) :
    ∀ c ∈ cs, c.type = .fixedString → c.length ≠ none := by
  induction cs generalizing seen with
  | nil => exact List.forall_mem_nil _
  | cons c cs ih =>
      obtain ⟨_, _, length, later⟩ := columnFault?_eq_none_iff.mp valid
      exact List.forall_mem_cons.mpr ⟨length, ih later⟩

theorem lengths_of_validate {s : Schema} (valid : s.validate = .ok ()) :
    ∀ c ∈ s.columns, c.type = .fixedString → c.length ≠ none :=
  lengths_of_columnFault? (fault?_eq_none_iff.mp (validate_eq_ok_iff.mp valid)).2.2.2

end Schema

namespace Catalog

theorem table_eq_ok_iff {c : Catalog} {name : String} {s : Schema} :
    c.table name = .ok s ↔ c.tables.get? name = some s := by
  unfold table
  cases c.tables.get? name <;> simp

/-- A table is added if it is valid and its name is new. -/
theorem add_eq_ok_iff {c c' : Catalog} {s : Schema} :
    c.add s = .ok c' ↔
      s.fault? = none ∧ c.tables.contains s.table = false ∧
        c' = ⟨c.tables.insert s.table s⟩ := by
  unfold add Schema.validate
  cases s.fault? with
  | some e => simp
  | none =>
      cases c.tables.contains s.table with
      | true => exact ⟨nofun, fun ⟨_, known, _⟩ => nomatch known⟩
      | false =>
          simp only [ok_bind, Bool.false_eq_true, if_false, true_and]
          exact ⟨fun h => (Except.ok.inj h).symm, fun h => congrArg Except.ok h.symm⟩

/-- A table that a catalog holds after additions was there before or is one of those added. -/
theorem table_of_addAll {schemas : List Schema} {c c' : Catalog}
    (added : schemas.foldlM add c = .ok c') {name : String} {s : Schema}
    (known : c'.table name = .ok s) :
    c.table name = .ok s ∨ (s ∈ schemas ∧ s.table = name ∧ s.fault? = none) := by
  induction schemas generalizing c with
  | nil =>
      obtain rfl := Except.ok.inj added
      exact .inl known
  | cons first schemas ih =>
      rw [List.foldlM_cons, bind_eq_ok_iff] at added
      obtain ⟨next, extended, added⟩ := added
      obtain ⟨valid, _, rfl⟩ := add_eq_ok_iff.mp extended
      rcases ih added with there | ⟨member, named, sound⟩
      · rw [table_eq_ok_iff] at there
        by_cases same : name = first.table
        · subst same
          rw [OrderedMap.get?_insert_self, Option.some.injEq] at there
          subst there
          exact .inr ⟨List.mem_cons_self, rfl, valid⟩
        · rw [OrderedMap.get?_insert_of_ne _ same] at there
          exact .inl (table_eq_ok_iff.mpr there)
      · exact .inr ⟨List.mem_cons_of_mem _ member, named, sound⟩

/-- The tables of a new catalog are those that it was made from. -/
theorem table_of_ofSchemas {schemas : List Schema} {c : Catalog} (made : ofSchemas schemas = .ok c)
    {name : String} {s : Schema} (known : c.table name = .ok s) :
    s ∈ schemas ∧ s.table = name ∧ s.fault? = none :=
  (table_of_addAll made known).resolve_left nofun

end Catalog
end RowStore
