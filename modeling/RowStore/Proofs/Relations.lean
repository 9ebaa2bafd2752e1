import RowStore.Proofs.Opening

namespace RowStore

/-- Rows under one schema. -/
structure Relation where
  schema : Schema
  tuples : List (List Value)

namespace Relation

def rows (r : Relation) : List Row := r.tuples.map fun values => ⟨r.schema, values⟩

/-- Every tuple of the left with every tuple of the right, the left ones in the outer order. -/
def product (left right : Relation) : Relation :=
  ⟨joinedSchema left.schema right.schema,
    left.tuples.flatMap fun a => right.tuples.map fun b => a ++ b⟩

/-- The first rows name the columns as all of them would. -/
theorem crossProduct_rows (left right : Relation) :
    crossProduct left.rows right.rows = (left.product right).rows := by
  obtain ⟨leftSchema, lefts⟩ := left
  obtain ⟨rightSchema, rights⟩ := right
  cases lefts with
  | nil => rfl
  | cons l ls =>
      cases rights with
      | nil => simp [crossProduct, rows, product]
      | cons r rs =>
          simp only [crossProduct, rows, product, List.map_cons, List.flatMap_cons,
            List.map_append, List.map_flatMap, List.map_map, List.flatMap_map]
          rfl

end Relation

namespace RowFormat

theorem schema_of_decode {s : Schema} {bs : Bytes} {row : Row} (h : decode s bs = .ok row) :
    row.schema = s := by
  obtain ⟨⟨fields, size⟩, _, h⟩ := bind_eq_ok_iff.mp h
  by_cases short : bs.length < size
  · simp [short] at h
  · simp only [short, if_false] at h
    obtain ⟨values, _, h⟩ := bind_eq_ok_iff.mp h
    obtain rfl := Except.ok.inj h
    rfl

end RowFormat

namespace Yield

/-- The rows among what is yielded. -/
def good (xs : Yield) : List Row := xs.filterMap Except.toOption

theorem rows_eq_ok_iff {xs : Yield} {rs : List Row} :
    xs.rows = .ok rs ↔ (∀ x ∈ xs, ∃ row, x = .ok row) ∧ rs = xs.good := by
  induction xs generalizing rs with
  | nil =>
      simp only [rows_nil, Except.ok.injEq, good, List.filterMap_nil, List.not_mem_nil]
      exact ⟨fun h => ⟨by simp, h.symm⟩, fun h => h.2.symm⟩
  | cons x xs ih =>
      cases x with
      | error e => simp [rows_cons]
      | ok row =>
          simp only [rows_cons, ok_bind, bind_eq_ok_iff, ih, pure, Except.pure, Except.ok.injEq,
            List.forall_mem_cons, good, List.filterMap_cons, Except.toOption]
          constructor
          · rintro ⟨_, ⟨all, rfl⟩, rfl⟩
            exact ⟨⟨⟨row, rfl⟩, all⟩, rfl⟩
          · rintro ⟨⟨_, all⟩, rfl⟩
            exact ⟨_, ⟨all, rfl⟩, rfl⟩

end Yield

namespace Sql.Select

open Plan (opening joined storedRows)

variable {τ : Type} [Storage τ]

/-- The rows of a table go by its alias, if it is given one. -/
def aliased (t : TableName) (s : Schema) : Schema := ⟨t.asName.getD s.table, s.columns⟩

/-- The stored values of a table in the order of their keys, read as its rows. -/
def tableRows (c : Catalog) (store : τ) (t : TableName) : Yield :=
  match c.table t.name with
  | .ok s => (Storage.scan store (RowKey.low t.name) (RowKey.high t.name)).map fun e =>
      (RowFormat.decode (aliased t s) e.2).mapError (Failure.map .codec)
  | .error _ => []

/-- What can be read of a table. -/
def relation (c : Catalog) (store : τ) (t : TableName) : Relation :=
  match c.table t.name with
  | .ok s => ⟨aliased t s, (tableRows c store t).good.map Row.values⟩
  | .error _ => ⟨⟨t.name, []⟩, []⟩

/-- The rows that a SELECT draws from: those of one table as they are read, or the product of
several tables from left to right. -/
def drawn (c : Catalog) (store : τ) : List TableName → Yield
  | [] => []
  | [t] => tableRows c store t
  | t :: ts =>
      (ts.foldl (fun r u => r.product (relation c store u)) (relation c store t)).rows.map .ok

def Known (c : Catalog) (t : TableName) : Prop := ∃ s, c.table t.name = .ok s

def Readable (c : Catalog) (store : τ) (t : TableName) : Prop :=
  ∀ x ∈ tableRows c store t, ∃ row, x = .ok row

theorem exposed_eq_aliased (t : TableName) (s : Schema) : exposed s t.asName = aliased t s := by
  unfold exposed aliased
  cases t.asName <;> rfl

theorem storedRows_eq_tableRows {c : Catalog} {t : TableName} {s : Schema}
    (there : c.table t.name = .ok s) (store : τ) :
    storedRows s t.name t.asName store = tableRows c store t := by
  simp only [storedRows, tableRows, there, exposed_eq_aliased]
  rfl

theorem opening_scan (c : Catalog) (store : τ) (t : TableName) {xs : Yield} :
    ((scan t).opening c store).1 = .ok xs ↔ Known c t ∧ xs = tableRows c store t := by
  simp only [scan, opening, Known, map_eq_ok_iff, mapError_eq_ok_iff]
  constructor
  · rintro ⟨s, there, rfl⟩
    exact ⟨⟨s, there⟩, storedRows_eq_tableRows there store⟩
  · rintro ⟨⟨s, there⟩, rfl⟩
    exact ⟨s, there, storedRows_eq_tableRows there store⟩

theorem rows_relation {c : Catalog} {t : TableName} (known : Known c t) (store : τ) :
    (relation c store t).rows = (tableRows c store t).good := by
  obtain ⟨s, there⟩ := known
  simp only [relation, there, Relation.rows, List.map_map]
  refine (List.map_congr_left fun row member => ?_).trans (List.map_id _)
  obtain ⟨x, stored, good⟩ := List.mem_filterMap.mp member
  simp only [tableRows, there] at stored
  obtain ⟨e, _, rfl⟩ := List.mem_map.mp stored
  have decoded : RowFormat.decode (aliased t s) e.2 = .ok row :=
    mapError_eq_ok_iff.mp (toOption_eq_some_iff.mp good)
  simp only [Function.comp, ← RowFormat.schema_of_decode decoded]
  rfl

/-- Opening a plan and draining it gives the rows of a relation, on a condition. -/
structure Draws (c : Catalog) (store : τ) (p : Plan Empty) (ready : Prop) (r : Relation) :
    Prop where
  store_eq : (p.opening c store).2 = store
  rows_iff : ∀ rs, (p.opening c store).1 >>= Yield.rows = .ok rs ↔ ready ∧ rs = r.rows

theorem draws_scan (c : Catalog) (store : τ) (t : TableName) :
    Draws c store (scan t) (Known c t ∧ Readable c store t) (relation c store t) where
  store_eq := rfl
  rows_iff := by
    intro rs
    simp only [bind_eq_ok_iff, opening_scan, Yield.rows_eq_ok_iff]
    constructor
    · rintro ⟨_, ⟨known, rfl⟩, readable, rfl⟩
      exact ⟨⟨known, readable⟩, (rows_relation known store).symm⟩
    · rintro ⟨⟨known, readable⟩, rfl⟩
      exact ⟨_, ⟨known, rfl⟩, readable, rows_relation known store⟩

theorem rows_joined {left right : Result Yield} {P Q : Prop} {r u : Relation}
    (fromLeft : ∀ rs, left >>= Yield.rows = .ok rs ↔ P ∧ rs = r.rows)
    (fromRight : ∀ rs, right >>= Yield.rows = .ok rs ↔ Q ∧ rs = u.rows) (xs : Yield) :
    joined left right = .ok xs ↔ (P ∧ Q) ∧ xs = (r.product u).rows.map .ok := by
  rw [← Relation.crossProduct_rows]
  constructor
  · intro h
    simp only [joined, bind_eq_ok_iff] at h
    obtain ⟨ls, opensLeft, rs, opensRight, leftRows, drainedLeft, rightRows, drainedRight, h⟩ := h
    obtain ⟨p, rfl⟩ := (fromLeft _).mp (bind_eq_ok_iff.mpr ⟨ls, opensLeft, drainedLeft⟩)
    obtain ⟨q, rfl⟩ := (fromRight _).mp (bind_eq_ok_iff.mpr ⟨rs, opensRight, drainedRight⟩)
    exact ⟨⟨p, q⟩, (Except.ok.inj h).symm⟩
  · rintro ⟨⟨p, q⟩, rfl⟩
    obtain ⟨ls, opensLeft, drainedLeft⟩ := bind_eq_ok_iff.mp ((fromLeft _).mpr ⟨p, rfl⟩)
    obtain ⟨rs, opensRight, drainedRight⟩ := bind_eq_ok_iff.mp ((fromRight _).mpr ⟨q, rfl⟩)
    simp only [joined, opensLeft, opensRight, ok_bind, drainedLeft, drainedRight]
    rfl

/-- A join opens when both its inputs open and can be read to the end, and then every row of it
is there. -/
theorem opening_join {c : Catalog} {store : τ} {p q : Plan Empty} {P Q : Prop} {r u : Relation}
    (left : Draws c store p P r) (right : Draws c store q Q u) :
    ((Plan.join p q).opening c store).2 = store ∧
      ∀ xs : Yield, ((Plan.join p q).opening c store).1 = .ok xs ↔
        (P ∧ Q) ∧ xs = (r.product u).rows.map .ok := by
  have both := rows_joined left.rows_iff right.rows_iff
  have unchanged := left.store_eq
  rcases opensLeft : p.opening c store with ⟨outcome, after⟩
  rw [opensLeft] at both unchanged
  obtain rfl : after = store := unchanged
  cases outcome with
  | error e =>
      simp only [opening, opensLeft]
      exact ⟨trivial, both⟩
  | ok xs =>
      simp only [opening, opensLeft]
      exact ⟨right.store_eq, both⟩

theorem draws_join {c : Catalog} {store : τ} {p q : Plan Empty} {P Q : Prop} {r u : Relation}
    (left : Draws c store p P r) (right : Draws c store q Q u) :
    Draws c store (.join p q) (P ∧ Q) (r.product u) where
  store_eq := (opening_join left right).1
  rows_iff := by
    intro rs
    simp only [bind_eq_ok_iff, (opening_join left right).2]
    constructor
    · rintro ⟨_, ⟨ready, rfl⟩, drained⟩
      rw [Yield.rows_map_ok, Except.ok.injEq] at drained
      exact ⟨ready, drained.symm⟩
    · rintro ⟨ready, rfl⟩
      exact ⟨_, ⟨ready, rfl⟩, Yield.rows_map_ok _⟩

/-- The joins of a FROM list, from left to right, after what stands before them. -/
theorem opening_joins {c : Catalog} {store : τ} {p : Plan Empty} {P : Prop} {r : Relation}
    (before : Draws c store p P r) (t : TableName) (ts : List TableName) :
    let q := (t :: ts).foldl (fun p u => Plan.join p (scan u)) p
    (q.opening c store).2 = store ∧
      ∀ xs : Yield, (q.opening c store).1 = .ok xs ↔
        (P ∧ ∀ u ∈ t :: ts, Known c u ∧ Readable c store u) ∧
          xs = ((t :: ts).foldl (fun r u => r.product (relation c store u)) r).rows.map .ok := by
  induction ts generalizing p P r t with
  | nil => simpa using opening_join before (draws_scan c store t)
  | cons u us ih =>
      have rest := ih (draws_join before (draws_scan c store t)) u
      simpa only [List.foldl_cons, List.forall_mem_cons, and_assoc] using rest

/-- When the tables of a SELECT can be opened, and what they then yield. -/
theorem opening_source {s : Select} {p : Plan Empty} (compiled : s.source = .ok p) (c : Catalog)
    (store : τ) :
    (p.opening c store).2 = store ∧
      ∀ xs : Yield, (p.opening c store).1 = .ok xs ↔
        ((∀ t ∈ s.tables, Known c t) ∧
          (2 ≤ s.tables.length → ∀ t ∈ s.tables, Readable c store t)) ∧
            xs = drawn c store s.tables := by
  cases tables : s.tables with
  | nil => simp [source, tables] at compiled
  | cons t ts =>
      simp only [source, tables, Except.ok.injEq] at compiled
      subst compiled
      cases ts with
      | nil =>
          refine ⟨rfl, fun xs => ?_⟩
          simpa [drawn] using opening_scan c store t
      | cons u us =>
          have opens := opening_joins (draws_scan c store t) u us
          refine ⟨opens.1, fun xs => (opens.2 xs).trans ?_⟩
          have several : 2 ≤ (t :: u :: us).length := by simp
          have first : (Known c t ∧ Readable c store t) ∧
              (∀ v ∈ u :: us, Known c v ∧ Readable c store v) ↔
              ∀ v ∈ t :: u :: us, Known c v ∧ Readable c store v :=
            (List.forall_mem_cons (p := fun v => Known c v ∧ Readable c store v)).symm
          rw [first]
          simp only [several, true_implies, ← forall_and, drawn]

end Sql.Select
end RowStore
