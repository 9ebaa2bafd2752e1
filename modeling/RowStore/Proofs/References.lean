import RowStore.Proofs.Calling
import RowStore.Proofs.Catalogs
import RowStore.Proofs.Qualifying
import RowStore.Proofs.Relations

namespace RowStore

theorem Relation.schema_of_mem {r : Relation} {row : Row} (member : row ∈ r.rows) :
    row.schema = r.schema := by
  obtain ⟨values, _, rfl⟩ := List.mem_map.mp member
  rfl

namespace Plan

/-- An open plan returns what it yields. -/
theorem keeps_of_yields (p : Plan Empty) (good : Row → Prop) :
    Keeps p.next (fun s => p.Open s ∧ ∀ row, .ok row ∈ p.yields s → good row) good := by
  rintro s w ⟨isOpen, all⟩
  obtain ⟨s', called, opened, rest⟩ := next_of_open p s w isOpen
  rw [called]
  refine ⟨⟨opened, fun row member => ?_⟩, fun row returned => ?_⟩
  · rw [rest] at member
    exact all row (List.mem_of_mem_tail member)
  · cases coming : p.yields s with
    | nil =>
        rw [coming] at returned
        cases returned
    | cons x xs =>
        rw [coming, Yield.first, map_eq_ok_iff] at returned
        obtain ⟨_, rfl, same⟩ := returned
        obtain rfl := Option.some.inj same
        exact all _ (coming ▸ List.mem_cons_self)

end Plan

namespace Sql

/-- What stands before a column of the table. -/
def TableName.shownName (t : TableName) : String := t.asName.getD t.name

namespace Select

open Schema (joinedAll placed)

variable {τ : Type} [Storage τ]

/-- The schema of a table's rows. -/
def shown (c : Catalog) (t : TableName) : Schema :=
  match c.table t.name with
  | .ok s => exposed s t.asName
  | .error _ => ⟨t.name, []⟩

/-- The schema of the rows that a SELECT draws from its tables. -/
def drawnSchema (c : Catalog) (tables : List TableName) : Schema := joinedAll (tables.map (shown c))

/-- The column of a name in a table, with its place there. -/
def columnOf (c : Catalog) (t : TableName) (name : String) : Option (Nat × Column) :=
  (c.table t.name).toOption.bind fun s => s.find? name

section Rows

variable {c : Catalog} {store : τ}

theorem schema_relation (c : Catalog) (store : τ) (t : TableName) :
    (relation c store t).schema = shown c t := by
  unfold relation shown
  cases c.table t.name with
  | ok s => exact (exposed_eq_aliased t s).symm
  | error e => rfl

theorem schema_products (ts : List TableName) (r : Relation) :
    (ts.foldl (fun r u => r.product (relation c store u)) r).schema =
      (ts.map (shown c)).foldl joinedSchema r.schema := by
  induction ts generalizing r with
  | nil => rfl
  | cons t ts ih =>
      rw [List.foldl_cons, List.map_cons, List.foldl_cons, ih, Relation.product, schema_relation]

theorem schema_of_mem_drawn {tables : List TableName} {row : Row}
    (member : .ok row ∈ drawn c store tables) : row.schema = drawnSchema c tables := by
  cases tables with
  | nil => cases member
  | cons t ts =>
      cases ts with
      | nil =>
          have known : Known c t := by
            cases there : c.table t.name with
            | ok s => exact ⟨s, there⟩
            | error e => simp [drawn, tableRows, there] at member
          have good : row ∈ (tableRows c store t).good := List.mem_filterMap.mpr ⟨_, member, rfl⟩
          rw [← rows_relation known] at good
          exact (Relation.schema_of_mem good).trans (schema_relation c store t)
      | cons u us =>
          obtain ⟨_, drawn, same⟩ := List.mem_map.mp member
          obtain rfl := Except.ok.inj same
          rw [Relation.schema_of_mem drawn, schema_products, schema_relation]
          rfl

/-- Whatever the operators were used for before, the rows that they yield once they open have the
schema of the tables. -/
theorem schema_of_pulled {s : Select} {p : Plan Empty} (compiled : s.source = .ok p)
    {state opened : p.State} {w : Plan.Surroundings τ Unit}
    (opens : p.start c state ⟨store, ()⟩ = (.ok (), opened, w)) (n : Nat) :
    ∀ row ∈ p.pulled n opened, row.schema = drawnSchema c s.tables := by
  obtain ⟨xs, outcome, isOpen, coming⟩ := Plan.opening_of_start (congrArg Prod.fst opens)
  rw [opens] at isOpen coming
  obtain ⟨_, rfl⟩ := ((opening_source compiled c store).2 xs).mp outcome
  exact Plan.pulled_keeps (Plan.keeps_of_yields p _)
    ⟨isOpen, fun row member => schema_of_mem_drawn (coming ▸ member)⟩ n

end Rows

/-- The column that a name refers to in the rows drawn from some tables, with its place. It is
looked up by the text of the name. -/
def resolve (c : Catalog) (tables : List TableName) (name : ColumnName) : Option (Nat × Column) :=
  (drawnSchema c tables).find? name.text

/-- The catalog has the table, and the name that it is shown under can be written. -/
structure Listed (c : Catalog) (t : TableName) : Prop where
  known : Known c t
  table : (shown c t).table = t.shownName
  plain : (shown c t).Plain

section Tables

variable {schemas : List Schema} {c : Catalog} {t u : TableName} {tables : List TableName}
  {x a : String}

theorem columns_shown {s : Schema} (there : c.table t.name = .ok s) :
    (shown c t).columns = s.columns := by
  rw [shown, there]
  cases t.asName <;> rfl

theorem listed_of_known (made : Catalog.ofSchemas schemas = .ok c) (known : Known c t)
    (named : isName t.shownName = true) : Listed c t := by
  obtain ⟨s, there⟩ := known
  obtain ⟨_, called, valid⟩ := Catalog.table_of_ofSchemas made there
  obtain ⟨distinct, dotless⟩ := Schema.names_of_valid valid
  have table : (shown c t).table = t.shownName := by
    rw [shown, there, TableName.shownName]
    cases t.asName with
    | none => exact called
    | some asName => rfl
  have names : (shown c t).names = s.names := congrArg (List.map Column.name) (columns_shown there)
  exact ⟨⟨s, there⟩, table, table ▸ named, names ▸ distinct, names ▸ dotless⟩

theorem Listed.find?_shown (listed : Listed c t) (name : String) :
    (shown c t).find? name = columnOf c t name := by
  obtain ⟨s, there⟩ := listed.known
  simp only [columnOf, there, Except.toOption, Option.bind_some, Schema.find?, columns_shown there]

theorem resolve_one (listed : Listed c t) (a : String) :
    resolve c [t] ⟨none, a⟩ = columnOf c t a ∧ ∀ x, resolve c [t] ⟨some x, a⟩ = none := by
  refine ⟨listed.find?_shown a, fun x => Schema.find?_eq_none_iff.mpr fun member => ?_⟩
  exact listed.plain.dotless _ member (by simp [ColumnName.text])

theorem forall_plain (listed : ∀ t ∈ tables, Listed c t) : ∀ s ∈ tables.map (shown c), s.Plain :=
  List.forall_mem_map.mpr fun t member => (listed t member).plain

/-- The part before the dot is the name of what stands before the last table, or its own. -/
theorem resolve_last (nonempty : tables ≠ []) (listed : ∀ t ∈ tables, Listed c t)
    (last : Listed c u) (named : isName x = true) (a : String) :
    resolve c (tables ++ [u]) ⟨some x, a⟩ =
      (if x = (drawnSchema c tables).table then
          ((drawnSchema c tables).find? a).map (placed 0 x) else none).or
        (if x = u.shownName then
          (columnOf c u a).map (placed (drawnSchema c tables).columns.length x) else none) := by
  have inputs : tables.map (shown c) ≠ [] := fun empty => nonempty (List.map_eq_nil_iff.mp empty)
  have found := Schema.find?_joinedAll inputs (forall_plain listed) last.plain named a
  rw [last.table, last.find?_shown] at found
  rw [resolve, drawnSchema, List.map_append]
  refine found.trans ?_
  congr 1
  · exact ite_congr rfl (fun same => by rw [same]; rfl) fun _ => rfl
  · exact ite_congr rfl (fun same => by rw [same]; rfl) fun _ => rfl

theorem resolve_two (first : Listed c t) (last : Listed c u) (named : isName x = true)
    (a : String) :
    resolve c [t, u] ⟨some x, a⟩ =
      (if x = t.shownName then (columnOf c t a).map (placed 0 x) else none).or
        (if x = u.shownName then
          (columnOf c u a).map (placed (drawnSchema c [t]).columns.length x) else none) := by
  have both := resolve_last (List.cons_ne_nil t []) (List.forall_mem_singleton.mpr first) last
    named a
  have alone : drawnSchema c [t] = shown c t := rfl
  rw [alone, first.table, first.find?_shown] at both
  exact both

theorem resolve_later (several : 2 ≤ tables.length) (listed : ∀ t ∈ tables, Listed c t)
    (last : Listed c u) (named : isName x = true) (a : String) :
    resolve c (tables ++ [u]) ⟨some x, a⟩ =
      if x = u.shownName then
        (columnOf c u a).map (placed (drawnSchema c tables).columns.length x) else none := by
  have nonempty : tables ≠ [] := by
    rintro rfl
    simp at several
  have bracketed : x ≠ (drawnSchema c tables).table :=
    Schema.ne_table_joinedAll (by rwa [List.length_map]) named
  rw [resolve_last nonempty listed last named, if_neg bracketed]
  rfl

theorem resolve_bare (several : 2 ≤ tables.length) (named : isName a = true) :
    resolve c tables ⟨none, a⟩ = none :=
  Schema.find?_joinedAll_bare (by rwa [List.length_map]) (dotless_of_isName named)

theorem nodup_drawn {rest : List TableName} (first : Listed c t) (second : Listed c u)
    (others : ∀ v ∈ rest, Listed c v) :
    (drawnSchema c (t :: u :: rest)).names.Nodup ↔
      t.shownName ≠ u.shownName ∨ ∀ a, columnOf c t a = none ∨ columnOf c u a = none := by
  have apart := Schema.nodup_joinedAll first.plain second.plain (forall_plain others)
  rw [first.table, second.table] at apart
  refine apart.trans (or_congr_right (forall_congr' fun a => ?_))
  rw [← first.find?_shown, ← second.find?_shown, Schema.find?_eq_none_iff,
    Schema.find?_eq_none_iff]
  exact imp_iff_not_or

end Tables

/-- Of one table each column goes by its own name. Of two tables a column goes by the names of its
table and its own, and the first table goes first. Of more tables only the columns of the last can
be named, and of several tables no column can be named alone. The columns of several tables have
names of their own unless the first two are shown under one name and share a column; then a row
has each value under the name of its column. -/
theorem references_resolve (schemas : List Schema) (c : Catalog)
    (made : Catalog.ofSchemas schemas = .ok c) (s : Select) (p : Plan Empty)
    (compiled : s.source = .ok p) (known : ∀ t ∈ s.tables, Known c t)
    (named : ∀ t ∈ s.tables, isName t.shownName = true) :
    (∀ (store : τ) state opened w, p.start c state ⟨store, ()⟩ = (.ok (), opened, w) →
      ∀ n, ∀ row ∈ p.pulled n opened, row.schema = drawnSchema c s.tables) ∧
    (∀ t, s.tables = [t] → ∀ a, isName a = true → resolve c s.tables ⟨none, a⟩ = columnOf c t a ∧
      ∀ x, isName x = true → resolve c s.tables ⟨some x, a⟩ = none) ∧
    (∀ t u, s.tables = [t, u] → ∀ x a, isName x = true → isName a = true →
      resolve c s.tables ⟨some x, a⟩ =
        (if x = t.shownName then (columnOf c t a).map (placed 0 x) else none).or
          (if x = u.shownName then
            (columnOf c u a).map (placed (drawnSchema c [t]).columns.length x) else none)) ∧
    (∀ before u, s.tables = before ++ [u] → 2 ≤ before.length →
      ∀ x a, isName x = true → isName a = true →
        resolve c s.tables ⟨some x, a⟩ =
          if x = u.shownName then
            (columnOf c u a).map (placed (drawnSchema c before).columns.length x) else none) ∧
    (2 ≤ s.tables.length → ∀ a, isName a = true → resolve c s.tables ⟨none, a⟩ = none) ∧
    (∀ t u rest, s.tables = t :: u :: rest →
      ((drawnSchema c s.tables).names.Nodup ↔
        t.shownName ≠ u.shownName ∨ ∀ a, columnOf c t a = none ∨ columnOf c u a = none)) ∧
    ((drawnSchema c s.tables).names.Nodup → ∀ row : Row, row.schema = drawnSchema c s.tables →
      ∀ (i : Nat) (column : Column), row.schema.columns[i]? = some column →
        row.get? column.name = row.values[i]?) := by
  have listed : ∀ t ∈ s.tables, Listed c t := fun t member =>
    listed_of_known made (known t member) (named t member)
  refine ⟨fun store state opened w => schema_of_pulled compiled, fun t only a _ => ?_,
    fun t u both x a table _ => ?_, fun before u all several x a table _ => ?_,
    fun several a bare => resolve_bare several bare, fun t u rest all => ?_,
    fun distinct row labelled i column there => Row.get?_own (labelled ▸ distinct) there⟩
  · rw [only] at listed ⊢
    obtain ⟨own, qualified⟩ := resolve_one (List.forall_mem_singleton.mp listed) a
    exact ⟨own, fun x _ => qualified x⟩
  · rw [both] at listed ⊢
    obtain ⟨first, last⟩ := List.forall_mem_cons.mp listed
    exact resolve_two first (List.forall_mem_singleton.mp last) table a
  · rw [all] at listed ⊢
    obtain ⟨others, last⟩ := List.forall_mem_append.mp listed
    exact resolve_later several others (List.forall_mem_singleton.mp last) table a
  · rw [all] at listed ⊢
    obtain ⟨first, later⟩ := List.forall_mem_cons.mp listed
    obtain ⟨second, others⟩ := List.forall_mem_cons.mp later
    exact nodup_drawn first second others

/-- Two tables under one name, of which the second has a column that the first lacks, and a table
beside itself and another one. -/
theorem references_resolve_of_shared_name :
    let a : Schema := ⟨"a", [.plain .int32 "id", .plain .date "v"]⟩
    let b : Schema := ⟨"b", [.plain .int64 "id", .plain .date "w"]⟩
    let c : Catalog := ⟨(OrderedMap.empty.insert "a" a).insert "b" b⟩
    let two : List TableName := [⟨"a", none⟩, ⟨"b", some "a"⟩]
    let three : List TableName := [⟨"a", none⟩, ⟨"a", some "y"⟩, ⟨"b", none⟩]
    Catalog.ofSchemas [a, b] = .ok c ∧
      resolve c two ⟨some "a", "id"⟩ = some (0, .plain .int32 "a.id") ∧
      resolve c two ⟨some "a", "w"⟩ = some (3, .plain .date "a.w") ∧
      ¬ (drawnSchema c two).names.Nodup ∧
      resolve c three ⟨some "b", "w"⟩ = some (5, .plain .date "b.w") ∧
      resolve c three ⟨some "y", "v"⟩ = none ∧ (drawnSchema c three).names.Nodup := by
  intro a b c two three
  have made : Catalog.ofSchemas [a, b] = .ok c := by decide +kernel
  have known : ∀ t ∈ two ++ three, Known c t := by
    simp only [two, three, List.cons_append, List.nil_append, List.forall_mem_cons]
    exact ⟨⟨a, rfl⟩, ⟨b, rfl⟩, ⟨a, rfl⟩, ⟨a, rfl⟩, ⟨b, rfl⟩, List.forall_mem_nil _⟩
  obtain ⟨knownTwo, knownThree⟩ := List.forall_mem_append.mp known
  obtain ⟨_, _, ofTwo, _, _, distinctTwo, _⟩ := @references_resolve Entries _ [a, b] c made
    ⟨[.everything], two, none, none⟩ _ rfl knownTwo (by decide +kernel)
  obtain ⟨_, _, _, ofThree, _, distinctThree, _⟩ := @references_resolve Entries _ [a, b] c made
    ⟨[.everything], three, none, none⟩ _ rfl knownThree (by decide +kernel)
  refine ⟨made, ?_, ?_, fun distinct => ?_, ?_, ?_, ?_⟩
  · rw [ofTwo _ _ rfl "a" "id" (by decide +kernel) (by decide +kernel)]
    decide +kernel
  · rw [ofTwo _ _ rfl "a" "w" (by decide +kernel) (by decide +kernel)]
    decide +kernel
  · rcases (distinctTwo _ _ _ rfl).mp distinct with other | apart
    · exact other rfl
    · exact absurd (apart "id") (by decide +kernel)
  · rw [ofThree [_, _] _ rfl (Nat.le_refl _) "b" "w" (by decide +kernel) (by decide +kernel)]
    decide +kernel
  · rw [ofThree [_, _] _ rfl (Nat.le_refl _) "y" "v" (by decide +kernel) (by decide +kernel)]
    decide +kernel
  · exact (distinctThree _ _ _ rfl).mpr (.inl (by decide))

end Select
end Sql
end RowStore
