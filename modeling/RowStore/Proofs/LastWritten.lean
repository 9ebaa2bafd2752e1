import RowStore.Proofs.Conditions
import RowStore.Proofs.Literals
import RowStore.Proofs.Registering

namespace RowStore

namespace Sql

/-- The value of an expression, whatever the row. -/
def Expression.Denotes (e : Expression) (v : Value) : Prop := ∀ row, e.HasValue row v

namespace Expression

variable {e : Expression} {v : Value}

theorem denotes_iff : e.Denotes v ↔ e.constant = .ok v := by
  constructor
  · intro denotes
    have value := denotes ⟨⟨"", []⟩, []⟩
    rcases e.constant_cases with ⟨_, w, known⟩ | ⟨other, _⟩
    · rw [known, (hasValue_constant_iff known).mp value]
    · -- Only a column is a scalar without being a constant, and no row without values has one.
      have scalar := isScalar_of_hasValue value
      cases value with
      | column present => cases present
      | integer | string | negative => exact absurd (scalar.symm.trans other) nofun
  · intro known row
    exact (hasValue_constant_iff known).mpr rfl

theorem isLiteral_of_denotes (denotes : e.Denotes v) : v.IsLiteral := by
  cases denotes ⟨⟨"", []⟩, []⟩ with
  | column present => cases present
  | integer | string | negative => trivial

end Expression

theorem constants_iff {es : List (List Expression)} {tuples : List (List Value)} :
    es.mapM (·.mapM Expression.constant) = .ok tuples ↔
      List.Forall₂ (List.Forall₂ Expression.Denotes) es tuples := by
  have tuple : List.Forall₂ Expression.Denotes =
      fun es vs => es.mapM Expression.constant = .ok vs := by
    funext es vs
    simp only [mapM_eq_ok_iff, ← Expression.denotes_iff]
  rw [tuple, mapM_eq_ok_iff]

theorem Insert.compile_eq_ok_iff {q : Insert} {i : Insertion} :
    q.compile = .ok (.insertion i) ↔
      i.table = q.table ∧ i.columns = q.columns ∧
        List.Forall₂ (List.Forall₂ Expression.Denotes) q.tuples i.tuples := by
  rw [← constants_iff]
  unfold compile
  obtain ⟨table, columns, tuples⟩ := i
  cases q.tuples.mapM (·.mapM Expression.constant) with
  | error e => simp
  | ok values => simp [pure, Except.pure, eq_comm]

/-- An INSERT of constants into a table with an integer for its first column. It names no columns or
all of them, in any order. -/
structure Insert.Ready (q : Insert) (schemas : List Schema) (s : Schema)
    (tuples : List (List Value)) : Prop where
  constant : List.Forall₂ (List.Forall₂ Expression.Denotes) q.tuples tuples
  known : s ∈ schemas
  named : s.table = q.table
  listed : q.columns = [] ∨ q.columns.Perm s.names
  keyed : ∃ key ∈ s.columns.head?, key.type.isInteger = true

theorem Insert.Ready.literals {q : Insert} {schemas : List Schema} {s : Schema}
    {tuples : List (List Value)} (ready : q.Ready schemas s tuples) :
    ∀ tuple ∈ tuples, ∀ v ∈ tuple, v.IsLiteral := by
  intro tuple member v inside
  obtain ⟨es, _, lowered⟩ := (mem_iff_of_mapM (constants_iff.mpr ready.constant)).mp member
  obtain ⟨e, _, constant⟩ := (mem_iff_of_mapM lowered).mp inside
  exact Expression.isLiteral_of_denotes (Expression.denotes_iff.mpr constant)

end Sql

namespace Schema

/-- The row that a tuple makes of a table whose columns are listed. Every column stores the literal
that stands for its name. -/
structure Makes (s : Schema) (columns : List String) (tuple : List Value) (row : Row) : Prop where
  schema : row.schema = s
  arity : tuple.length = s.columns.length
  narrow : s.span ≤ RowFormat.maxAllocation
  values : List.Forall₂
    (fun c v => ∃ literal, (c.name, literal) ∈ (s.listed columns).zip tuple ∧
      c.Admits literal ∧ c.Keeps literal v) s.columns row.values

/-- The rows of tuples, up to the first that makes none. -/
inductive Leading (s : Schema) (columns : List String) : List (List Value) → List Row → Prop
  | nil : Leading s columns [] []
  | stop {tuple : List Value} {tuples : List (List Value)} :
      (∀ row, ¬ s.Makes columns tuple row) → Leading s columns (tuple :: tuples) []
  | cons {tuple : List Value} {tuples : List (List Value)} {row : Row} {rows : List Row} :
      s.Makes columns tuple row → Leading s columns tuples rows →
      Leading s columns (tuple :: tuples) (row :: rows)

end Schema

namespace Query

/-- What a text writes. Other texts than INSERTs that are ready write nothing. -/
inductive Writes (schemas : List Schema) (text : String) : List Written → Prop
  | insertion {q : Sql.Insert} {s : Schema} {tuples : List (List Value)} {rows : List Row} :
      Sql.parse text = .ok (.insert q) → q.Ready schemas s tuples →
      s.Leading q.columns tuples rows → Writes schemas text (rows.map (.mk s.table))
  | nothing :
      (∀ q, Sql.parse text = .ok (.insert q) → ∀ s tuples, ¬ q.Ready schemas s tuples) →
      Writes schemas text []

/-- What texts write, run one after another. -/
def Wrote (schemas : List Schema) (texts : List String) (ws : List Written) : Prop :=
  ∃ each, List.Forall₂ (Writes schemas) texts each ∧ ws = each.flatten

end Query

/-- A value is known from its type and from the number or the text that it stands for. -/
theorem Value.eq_of_content {v w : Value} (type : v.type = w.type) (number : v.number? = w.number?)
    (text : v.text? = w.text?) : v = w := by
  cases v <;> cases w <;> cases type
  case int32.int32 => exact congrArg _ (Int32.toInt_inj.mp (Option.some.inj number))
  case int64.int64 => exact congrArg _ (Int64.toInt_inj.mp (Option.some.inj number))
  case uint32.uint32 =>
    exact congrArg _ (UInt32.toNat_inj.mp (Int.ofNat.inj (Option.some.inj number)))
  case uint64.uint64 =>
    exact congrArg _ (UInt64.toNat_inj.mp (Int.ofNat.inj (Option.some.inj number)))
  case fixedString.fixedString => exact congrArg _ (Option.some.inj text)
  case date.date d f =>
    have seconds : d.seconds = f.seconds := Int64.toInt_inj.mp (Option.some.inj number)
    exact congrArg (fun seconds => date ⟨seconds⟩) seconds

/-- A column stores one value for a literal. -/
theorem Column.Keeps.unique {c : Column} {literal v w : Value} (first : c.Keeps literal v)
    (second : c.Keeps literal w) : v = w :=
  Value.eq_of_content (first.type.trans second.type.symm) (first.number.trans second.number.symm)
    (first.text.trans second.text.symm)

namespace Schema

variable {s : Schema} {columns : List String} {tuple : List Value}

/-- Names that differ stand for one literal each. -/
theorem mem_zip_iff_lookup {names : List String} (distinct : names.Nodup) {name : String}
    {literal : Value} :
    (name, literal) ∈ names.zip tuple ↔ (names.zip tuple).lookup name = some literal := by
  induction names generalizing tuple with
  | nil => simp
  | cons first names ih =>
      obtain ⟨fresh, distinct⟩ := List.nodup_cons.mp distinct
      cases tuple with
      | nil => simp
      | cons v tuple =>
          by_cases same : name = first
          · subst same
            have absent : (name, literal) ∉ names.zip tuple :=
              fun member => fresh (List.of_mem_zip member).1
            simp [absent, eq_comm]
          · rw [List.zip_cons_cons, List.lookup_cons, beq_false_of_ne same]
            simp [same, ih distinct]

/-- The columns are given the literals that stand for their names. -/
theorem forall₂_given_iff (related : Column → Value → Value → Prop)
    (distinct : (s.listed columns).Nodup)
    (complete : (s.given columns tuple).map Prod.fst = s.columns) {values : List Value} :
    List.Forall₂ (fun e v => related e.1 e.2 v) (s.given columns tuple) values ↔
      List.Forall₂ (fun c v => ∃ literal, (c.name, literal) ∈ (s.listed columns).zip tuple ∧
        related c literal v) s.columns values := by
  have found : ∀ c ∈ s.columns, ∃ literal,
      ((s.listed columns).zip tuple).lookup c.name = some literal := by
    intro c member
    rw [← complete] at member
    obtain ⟨e, inside, rfl⟩ := List.mem_map.mp member
    obtain ⟨_, _, there⟩ := List.mem_filterMap.mp inside
    obtain ⟨literal, found, rfl⟩ := Option.map_eq_some_iff.mp there
    exact ⟨literal, found⟩
  simp only [mem_zip_iff_lookup distinct]
  unfold given
  generalize s.columns = cs at found
  induction cs generalizing values with
  | nil => simp only [List.filterMap_nil, List.forall₂_nil_left_iff]
  | cons c cs ih =>
      obtain ⟨⟨literal, here⟩, rest⟩ := List.forall_mem_cons.mp found
      rw [List.filterMap_cons, here, Option.map_some, List.forall₂_cons_left_iff,
        List.forall₂_cons_left_iff]
      simp only [ih rest, here, Option.some.injEq, exists_eq_left']

end Schema

namespace Insertion

/-- A tuple passes as one row only. -/
theorem Passes.unique {i : Insertion} {t : Target} {tuple : List Value} {v w : Written}
    (first : i.Passes t tuple v) (second : i.Passes t tuple w) : v = w := by
  have table := first.table.trans second.table.symm
  have schema := first.schema.trans second.schema.symm
  have values := Except.ok.inj (first.coercion.symm.trans second.coercion)
  obtain ⟨_, _, _⟩ := v
  cases table
  cases schema
  cases values
  rfl

section Tuples

variable {c : Catalog} {i : Insertion} {t : Target} (valid : c.Validated)
  (prepared : i.Prepared c t) (fits : t.schema.Fits)

include valid prepared fits

theorem passes_iff_keeps {tuple : List Value} (laid : Laid i t tuple) {row : Row} :
    i.Passes t tuple ⟨i.table, row⟩ ↔
      row.schema = t.schema ∧ t.schema.span ≤ RowFormat.maxAllocation ∧
        (∀ e ∈ t.schema.given i.columns tuple, e.1.Admits e.2) ∧
        List.Forall₂ (fun e v => e.1.Keeps e.2 v) (t.schema.given i.columns tuple)
          row.values := by
  have reason := failure?_entry valid prepared fits laid
  have admitted := reason?_eq_none_iff (s := t.schema) laid.literal
  constructor
  · intro passes
    rw [passes.entry_eq] at reason
    obtain ⟨narrow, admits⟩ := admitted.mp reason.symm
    exact ⟨passes.schema, narrow, admits, keeps_of_passes laid passes⟩
  · rintro ⟨schema, narrow, admits, keeps⟩
    rw [admitted.mpr ⟨narrow, admits⟩, failure?_eq_none_iff] at reason
    obtain ⟨_, taken⟩ := reason
    obtain ⟨⟨table, other⟩, passes, _⟩ := exists_passes_of_entry taken
    obtain rfl : table = i.table := passes.table
    -- What passes stores the literals that this row stores, and so it is this row.
    have functional : Relator.RightUnique fun (e : Column × Value) v => e.1.Keeps e.2 v :=
      fun _ _ _ => Column.Keeps.unique
    have same : other.values = row.values :=
      List.right_unique_forall₂' functional (keeps_of_passes laid passes) keeps
    have own : other = row := by
      obtain ⟨_, _⟩ := other
      obtain ⟨_, _⟩ := row
      exact Row.mk.injEq .. ▸ ⟨passes.schema.trans schema.symm, same⟩
    exact own ▸ passes

/-- A tuple of literals passes every check as the row that it makes, and as no other. -/
theorem passes_iff_makes {tuple : List Value} (literals : ∀ v ∈ tuple, v.IsLiteral) {row : Row} :
    i.Passes t tuple ⟨i.table, row⟩ ↔ t.schema.Makes i.columns tuple row := by
  obtain ⟨_, sound⟩ := valid _ _ prepared.table
  have names := (Schema.names_of_valid sound).1
  obtain ⟨accepted, _⟩ := (positions_eq_ok_iff names).mp prepared.declared
  have distinct := (Schema.perm_listed accepted).nodup_iff.mpr names
  have stored (laid : Laid i t tuple) := @Schema.forall₂_given_iff t.schema i.columns tuple
    (fun c literal v => c.Admits literal ∧ c.Keeps literal v) distinct laid.columns row.values
  constructor
  · intro passes
    have arity := passes.arity.trans (length_positions names prepared.declared)
    have laid := laid_of_prepared valid prepared arity literals
    obtain ⟨schema, narrow, admits, keeps⟩ :=
      (passes_iff_keeps valid prepared fits laid).mp passes
    exact ⟨schema, arity, narrow,
      (stored laid).mp ((List.forall₂_and_left _ _).mpr ⟨admits, keeps⟩)⟩
  · rintro ⟨schema, arity, narrow, values⟩
    have laid := laid_of_prepared valid prepared arity literals
    obtain ⟨admits, keeps⟩ := (List.forall₂_and_left _ _).mp ((stored laid).mpr values)
    exact (passes_iff_keeps valid prepared fits laid).mpr ⟨schema, narrow, admits, keeps⟩

/-- The rows that are written are those of the leading tuples. -/
theorem leading_iff {tuples : List (List Value)}
    (literals : ∀ tuple ∈ tuples, ∀ v ∈ tuple, v.IsLiteral) {rows : List Row} :
    t.schema.Leading i.columns tuples rows ↔ rows.map (.mk i.table) = i.written t tuples := by
  induction tuples generalizing rows with
  | nil =>
      rw [written, List.map_eq_nil_iff]
      constructor
      · rintro ⟨⟩
        rfl
      · rintro rfl
        exact .nil
  | cons tuple tuples ih =>
      obtain ⟨first, rest⟩ := List.forall_mem_cons.mp literals
      have makes {row : Row} :
          i.Passes t tuple ⟨i.table, row⟩ ↔ t.schema.Makes i.columns tuple row :=
        passes_iff_makes valid prepared fits first
      cases taken : i.entry t tuple with
      | error e =>
          have refused : ∀ row, ¬ t.schema.Makes i.columns tuple row := by
            intro row made
            rw [(makes.mpr made).entry_eq] at taken
            cases taken
          rw [written_of_failed taken, List.map_eq_nil_iff]
          constructor
          · intro leading
            cases leading with
            | stop => rfl
            | cons made _ => exact absurd made (refused _)
          · rintro rfl
            exact .stop refused
      | ok e =>
          obtain ⟨⟨table, row⟩, passes, _, more⟩ := exists_passes_of_entry taken
          obtain rfl : table = i.table := passes.table
          rw [more, List.map_eq_cons_iff]
          constructor
          · intro leading
            cases leading with
            | stop refused => exact absurd (makes.mp passes) (refused row)
            | @cons _ _ other later made leading =>
                have same := (makes.mpr made).unique passes
                exact ⟨other, later, rfl, same, (ih rest).mp leading⟩
          · rintro ⟨other, later, rfl, same, written⟩
            obtain rfl : other = row := congrArg Written.row same
            exact .cons (makes.mp passes) ((ih rest).mpr written)

end Tuples

end Insertion

namespace Query

theorem insertion?_eq_some_iff {c : Catalog} {q : Sql.Insert} {i : Insertion}
    {t : Insertion.Target} :
    insertion? c (.insert q) = some (i, t) ↔
      q.compile = .ok (.insertion i) ∧ i.target c = .ok t := by
  rcases compiled : q.compile with e | p
  · simp [insertion?, compiled]
  · cases p with
    | insertion other =>
        simp only [insertion?, compiled, Option.map_eq_some_iff, toOption_eq_some_iff,
          Prod.mk.injEq, Except.ok.injEq, Plan.insertion.injEq]
        constructor
        · rintro ⟨_, target, rfl, rfl⟩
          exact ⟨rfl, target⟩
        · rintro ⟨rfl, target⟩
          exact ⟨t, target, rfl, rfl⟩
    | _ => simp [insertion?, compiled]

section Texts

variable {schemas : List Schema} {c : Catalog} (made : Catalog.ofSchemas schemas = .ok c)

include made

theorem ready_of_settled {q : Sql.Insert} {i : Insertion} {t : Insertion.Target}
    (settled : insertion? c (.insert q) = some (i, t)) :
    q.Ready schemas t.schema i.tuples ∧ i.table = q.table ∧ i.columns = q.columns := by
  obtain ⟨compiled, target⟩ := insertion?_eq_some_iff.mp settled
  obtain ⟨table, columns, constant⟩ := Sql.Insert.compile_eq_ok_iff.mp compiled
  obtain ⟨there, declared, first, integer⟩ := Insertion.prepared_iff.mpr target
  obtain ⟨known, named, sound⟩ := Catalog.table_of_ofSchemas made there
  have names := (Schema.names_of_valid sound).1
  have listed := ((Insertion.positions_eq_ok_iff names).mp declared).1
  exact ⟨⟨constant, known, named.trans table, columns ▸ listed, t.key, first, integer⟩, table,
    columns⟩

theorem exists_target_of_ready {q : Sql.Insert} {s : Schema} {tuples : List (List Value)}
    (ready : q.Ready schemas s tuples) :
    ∃ t, insertion? c (.insert q) = some (⟨q.table, q.columns, tuples⟩, t) ∧ t.schema = s := by
  obtain ⟨constant, known, named, listed, key, first, integer⟩ := ready
  have there := (Catalog.table_ofSchemas_iff made).mpr ⟨known, named⟩
  obtain ⟨_, _, sound⟩ := Catalog.table_of_ofSchemas made there
  have names := (Schema.names_of_valid sound).1
  refine ⟨⟨s, s.names.map (s.listed q.columns).idxOf, key⟩, ?_, rfl⟩
  refine insertion?_eq_some_iff.mpr ⟨Sql.Insert.compile_eq_ok_iff.mpr ⟨rfl, rfl, constant⟩, ?_⟩
  have declared := (Insertion.positions_eq_ok_iff (i := ⟨q.table, q.columns, tuples⟩) names).mpr
    ⟨listed, rfl⟩
  exact Insertion.prepared_iff.mp ⟨there, declared, first, integer⟩

/-- A text writes the tuples of the INSERT that it is, or nothing. -/
theorem history_cases (text : String) :
    ((∀ q, Sql.parse text = .ok (.insert q) → ∀ s tuples, ¬ q.Ready schemas s tuples) ∧
      history c [text] = []) ∨
    ∃ q i t, Sql.parse text = .ok (.insert q) ∧ insertion? c (.insert q) = some (i, t) ∧
      history c [text] = i.written t i.tuples := by
  rw [history, List.flatMap_singleton]
  cases read : Sql.parse text with
  | error e =>
      refine .inl ⟨fun q other => ?_, rfl⟩
      cases other
  | ok s =>
      simp only [writtenBy_eq]
      cases s with
      | insert q =>
          cases settled : insertion? c (.insert q) with
          | none =>
              refine .inl ⟨fun other same s tuples ready => ?_, rfl⟩
              obtain ⟨⟩ := same
              obtain ⟨t, known, _⟩ := exists_target_of_ready made ready
              rw [settled] at known
              cases known
          | some e => exact .inr ⟨q, e.1, e.2, rfl, settled, rfl⟩
      | _ =>
          refine .inl ⟨fun q other => ?_, rfl⟩
          cases other

theorem writes_iff (fits : ∀ s ∈ schemas, s.Fits) {text : String} {ws : List Written} :
    Writes schemas text ws ↔ history c [text] = ws := by
  rcases history_cases made text with ⟨idle, nothing⟩ | ⟨q, i, t, read, settled, written⟩
  · rw [nothing]
    constructor
    · intro writes
      cases writes with
      | insertion read ready _ => exact absurd ready (idle _ read _ _)
      | nothing => rfl
    · rintro rfl
      exact .nothing idle
  · obtain ⟨ready, table, columns⟩ := ready_of_settled made settled
    have valid := Catalog.validated_of_ofSchemas made
    have prepared := Insertion.prepared_iff.mpr (insertion?_eq_some_iff.mp settled).2
    have leading {rows : List Row} :
        t.schema.Leading i.columns i.tuples rows ↔
          rows.map (.mk i.table) = i.written t i.tuples :=
      Insertion.leading_iff valid prepared (fits _ ready.known) ready.literals
    have named : t.schema.table = i.table := ready.named.trans table.symm
    rw [columns, ← named, ← written] at leading
    constructor
    · intro writes
      cases writes with
      | @insertion other s tuples rows again ready rows =>
          obtain ⟨⟩ := read.symm.trans again
          obtain ⟨u, known, rfl⟩ := exists_target_of_ready made ready
          obtain ⟨⟩ := settled.symm.trans known
          exact (leading.mp rows).symm
      | nothing idle => exact absurd ready (idle _ read _ _)
    · rintro rfl
      have same : ((i.written t i.tuples).map Written.row).map (.mk t.schema.table) =
          history c [text] := by
        rw [written, List.map_map]
        refine (List.map_congr_left fun w member => ?_).trans (List.map_id _)
        rw [named, ← (Insertion.sound_of_written member).2.1]
        rfl
      exact same ▸ .insertion read ready (leading.mpr same)

/-- Texts write what is known as their history, and nothing else. -/
theorem wrote_iff (fits : ∀ s ∈ schemas, s.Fits) {texts : List String} {ws : List Written} :
    Wrote schemas texts ws ↔ ws = history c texts := by
  have text : Writes schemas = fun text ws => history c [text] = ws := by
    funext text ws
    exact propext (writes_iff made fits)
  rw [Wrote, text]
  simp only [← List.forall₂_map_left_iff (f := fun text => history c [text]),
    List.forall₂_eq_eq_eq, exists_eq_left']
  simp [history, List.flatMap_def]

end Texts

end Query

namespace Database

/-- `SELECT *` from a table. -/
def everythingOf (table : String) : Sql.Statement :=
  .select ⟨[.everything], [⟨table, none⟩], none, none⟩

theorem runStatement_everythingOf (db : Database) {table : String} {s : Schema}
    (known : db.catalog.table table = .ok s) :
    db.runStatement (everythingOf table) =
      (Yield.rows ((Storage.scan db.store (RowKey.low table) (RowKey.high table)).map
        (Plan.decoded s)), db) := by
  have compiled : (everythingOf table).compile = .ok (.scan table none) := rfl
  unfold runStatement Query.runStatement
  simp only [compiled, Plan.runPlan_eq, Plan.opening, known]
  rfl

/-- After any texts, whether they succeed or not, every table answers with one row for each key
that was written to it: the row that was written last, in the order of the keys' decimal texts. What
was written are the rows of each INSERT's leading tuples, with every literal under the name of its
column. -/
theorem table_answers_last_written {schemas : List Schema} {db : Database}
    (made : inMemory schemas = .ok db) (fits : ∀ s ∈ schemas, s.Fits) (texts : List String)
    {s : Schema} (member : s ∈ schemas) :
    ∃ ws, (∀ vs, Query.Wrote schemas texts vs ↔ vs = ws) ∧
      ∃ (keys : List Int) (rows : List Row),
        (db.runAll texts).runStatement (everythingOf s.table) = (.ok rows, db.runAll texts) ∧
        keys.Pairwise (fun a b => Text.utf8 (toString a) < Text.utf8 (toString b)) ∧
        (∀ key, key ∈ keys ↔ ∃ w ∈ ws, w.table = s.table ∧ w.row.key? = some key) ∧
        List.Forall₂ (fun key row => Written.last? s.table key ws = some row ∧ row.schema = s)
          keys rows := by
  obtain ⟨c, catalogued, made⟩ := bind_eq_ok_iff.mp made
  obtain rfl := Except.ok.inj made
  rw [mapError_eq_ok_iff] at catalogued
  have known := (Catalog.table_ofSchemas_iff catalogued).mpr ⟨member, rfl⟩
  have usable : c.Usable := by
    intro name s known
    obtain ⟨member, named, valid⟩ := Catalog.table_of_ofSchemas catalogued known
    exact ⟨named, valid, fits s member⟩
  have placed : ∀ w ∈ Query.history c texts, w.Placed c := fun w => Query.sound_of_history
  have store := runAll_memory c texts .empty
  rw [← OrderedMap.ofList_eq_insertAll] at store
  refine ⟨Query.history c texts, fun vs => Query.wrote_iff catalogued fits, ?_⟩
  generalize Query.history c texts = ws at placed store ⊢
  obtain ⟨keys, rows, places, reads, lasts⟩ :=
    Written.rows_of_range usable placed known (fun e member => member)
  refine ⟨keys, rows, ?_, ?_, Written.mem_keys_iff usable placed known places, lasts⟩
  · have answer := runStatement_everythingOf ⟨c, .memory (.ofList (ws.map Written.entry))⟩ known
    rw [store, answer, Prod.mk.injEq]
    exact ⟨(congrArg Yield.rows reads).trans (Yield.rows_map_ok rows), rfl⟩
  · exact RowKey.pairwise_of_ascending (OrderedMap.ascending_range _ _ _) places

/-- The columns of the last text stand in another order than in the table: what it writes under key
2 is 1 and the name. It stops at a name that is too long, after its first row. -/
theorem table_answers_last_written_of_listed_columns :
    let s : Schema := ⟨"t", [.plain .int32 "a", .plain .int32 "b", .fixedString "name" 2]⟩
    let texts := ["INSERT INTO t VALUES (2, 9, 'ab'), (10, 9, 'cd')", "SELECT",
      "INSERT INTO t (b, name, a) VALUES (1, 'ef', 2), (3, 'long', 7), (5, 'gh', 8)"]
    let db : Database := ⟨⟨OrderedMap.empty.insert "t" s⟩, .memory .empty⟩
    inMemory [s] = .ok db ∧ (∀ u ∈ [s], u.Fits) ∧ s ∈ [s] ∧
      Sql.parse "SELECT * FROM t" = .ok (everythingOf "t") ∧
      ∃ ws keys rows, Query.Wrote [s] texts ws ∧
        (db.runAll texts).runStatement (everythingOf "t") = (.ok rows, db.runAll texts) ∧
        (∀ key, key ∈ keys ↔ key = 10 ∨ key = 2) ∧
        List.Forall₂ (fun key row => Written.last? "t" key ws = some row ∧ row.schema = s)
          keys rows ∧
        Written.last? "t" 2 ws = some ⟨s, [.int32 2, .int32 1, .fixedString "ef"]⟩ := by
  intro s texts db
  have made : inMemory [s] = .ok db := by
    unfold db s
    rfl
  have fits : ∀ u ∈ [s], u.Fits := by decide
  have member : s ∈ [s] := List.mem_cons_self
  obtain ⟨ws, wrote, keys, rows, answered, _, written, lasts⟩ :=
    table_answers_last_written made fits texts member
  have catalogued : Catalog.ofSchemas [s] = .ok db.catalog := by decide +kernel
  have history : Query.history db.catalog texts =
      [⟨"t", s, [.int32 2, .int32 9, .fixedString "ab"]⟩,
        ⟨"t", s, [.int32 10, .int32 9, .fixedString "cd"]⟩,
        ⟨"t", s, [.int32 2, .int32 1, .fixedString "ef"]⟩] := by rfl
  obtain rfl := (wrote _).mp ((Query.wrote_iff catalogued fits).mpr rfl)
  refine ⟨made, fits, member, by rfl, _, keys, rows, (wrote _).mpr rfl, answered, fun key => ?_,
    lasts, by rfl⟩
  rw [written, history, show s.table = "t" from rfl]
  simp only [List.mem_cons, List.not_mem_nil, or_false, exists_eq_or_imp, exists_eq_left,
    Row.key?, List.head?_cons, Option.bind_some, Value.toInt?, true_and, Option.some.injEq]
  show 2 = key ∨ 10 = key ∨ 2 = key ↔ key = 10 ∨ key = 2
  omega

end Database
end RowStore
