import RowStore.Directory
import RowStore.Proofs.Registering
import RowStore.Proofs.SchemaTexts

/-! Loading a directory, whose entries have different names. Sorting makes one list of them however
they are listed, so both the catalog and the first file to be refused depend on the names alone; and
no two files declare the same table. -/
namespace RowStore

theorem Column.fault_of_ofLine {line : List Char} {err : CatalogError}
    (refused : ofLine line = .error err) : ∃ fault, err = .invalidSchema fault := by
  have unknown {name : String} (refused : typeNamed name = .error err) :
      ∃ fault, err = .invalidSchema fault := by
    unfold typeNamed at refused
    split at refused
    · cases refused
    · exact ⟨_, (Except.error.inj refused).symm⟩
  unfold ofLine at refused
  split at refused
  · obtain refused | ⟨type, _, refused⟩ := bind_eq_error_iff.mp refused
    · exact unknown refused
    · split at refused
      · exact ⟨_, (Except.error.inj refused).symm⟩
      · cases refused
  · rename_i length _
    obtain refused | ⟨type, _, refused⟩ := bind_eq_error_iff.mp refused
    · exact unknown refused
    · by_cases typed : type = .fixedString
      · rw [if_neg (not_not_intro typed)] at refused
        cases counted : Text.word length with
        | ok n =>
            rw [counted] at refused
            cases refused
        | error e =>
            rw [counted] at refused
            exact ⟨_, (Except.error.inj refused).symm⟩
      · rw [if_pos typed] at refused
        exact ⟨_, (Except.error.inj refused).symm⟩
  · exact ⟨_, (Except.error.inj refused).symm⟩

namespace Schema

theorem columnFault?_ne_duplicateTable {table other : String} {seen : List String}
    {cs : List Column} : columnFault? table seen cs ≠ some (.duplicateTable other) := by
  induction cs generalizing seen with
  | nil => simp [columnFault?]
  | cons c cs ih =>
      rw [columnFault?]
      split
      · simp
      · split
        · simp
        · split
          · simp
          · exact ih

theorem fault?_ne_duplicateTable {s : Schema} {other : String} :
    s.fault? ≠ some (.duplicateTable other) := by
  unfold fault?
  split
  · simp
  · split
    · simp
    · split
      · simp
      · exact columnFault?_ne_duplicateTable

/-- Whether a table is there already is not for its text to say. -/
theorem parse_ne_duplicateTable {table text other : String} :
    parse table text ≠ .error (.duplicateTable other) := by
  intro refused
  obtain unread | ⟨columns, _, refused⟩ := bind_eq_error_iff.mp refused
  · obtain ⟨line, _, unread⟩ := exists_of_mapM_error unread
    obtain ⟨fault, same⟩ := Column.fault_of_ofLine unread
    cases same
  · obtain invalid | ⟨_, _, refused⟩ := bind_eq_error_iff.mp refused
    · unfold validate at invalid
      split at invalid
      · rename_i fault
        obtain rfl := Except.error.inj invalid
        exact fault?_ne_duplicateTable fault
      · cases invalid
    · cases refused

end Schema

namespace DirectoryEntry

/-- The entry is the file of a table. -/
structure Declares (e : DirectoryEntry) (table : String) (content : Bytes) : Prop where
  named : e.name = Text.utf8 table
  visible : table.toList.head? ≠ some '.'
  file : e.content = some content

/-- The text of a table's file declares the columns of the schema. -/
def Gives (e : DirectoryEntry) (table : String) (s : Schema) : Prop :=
  ∃ text, e.Declares table (Text.utf8 text) ∧ Schema.parse table text = .ok s

/-- What a table's file holds is no text, or not that of a valid schema. -/
def Spoils (e : DirectoryEntry) (err : CatalogError) : Prop :=
  ∃ table content, e.Declares table content ∧
    ((∀ text, content ≠ Text.utf8 text) ∧ err = .io "stream did not contain valid UTF-8" ∨
      ∃ text, content = Text.utf8 text ∧ Schema.parse table text = .error err)

end DirectoryEntry

namespace Directory

variable {e : DirectoryEntry} {es fs : List DirectoryEntry} {table : String} {content : Bytes}

section Entries

theorem declaration?_eq_some_iff :
    declaration? e = some (table, content) ↔ e.Declares table content := by
  unfold declaration?
  constructor
  · intro declared
    split at declared
    · rename_i named file
      split at declared
      · cases declared
      · rename_i visible
        obtain ⟨rfl, rfl⟩ := Prod.mk.inj (Option.some.inj declared)
        exact ⟨Text.ofUtf8?_eq_some_iff.mp named, visible, file⟩
    · cases declared
  · rintro ⟨named, visible, file⟩
    rw [Text.ofUtf8?_eq_some_iff.mpr named, file]
    exact if_neg visible

theorem schema_eq_ok_iff {s : Schema} :
    schema table content = .ok s ↔
      ∃ text, content = Text.utf8 text ∧ Schema.parse table text = .ok s := by
  unfold schema
  simp only [← Text.ofUtf8?_eq_some_iff]
  cases Text.ofUtf8? content <;> simp

theorem schema_eq_error_iff {err : CatalogError} :
    schema table content = .error err ↔
      (∀ text, content ≠ Text.utf8 text) ∧ err = .io "stream did not contain valid UTF-8" ∨
        ∃ text, content = Text.utf8 text ∧ Schema.parse table text = .error err := by
  unfold schema
  simp only [ne_eq, ← Text.ofUtf8?_eq_some_iff]
  cases Text.ofUtf8? content <;> simp [eq_comm]

theorem gives_iff {s : Schema} :
    e.Gives table s ↔ ∃ content, e.Declares table content ∧ schema table content = .ok s := by
  simp only [schema_eq_ok_iff]
  constructor
  · rintro ⟨text, declared, read⟩
    exact ⟨_, declared, text, rfl, read⟩
  · rintro ⟨_, declared, text, rfl, read⟩
    exact ⟨text, declared, read⟩

theorem spoils_iff {err : CatalogError} :
    e.Spoils err ↔
      ∃ table content, e.Declares table content ∧ schema table content = .error err := by
  simp only [schema_eq_error_iff, DirectoryEntry.Spoils]

end Entries

section Sorted

/-- The first may be read before the second. -/
def InOrder (e f : DirectoryEntry) : Prop := e.name ≤ f.name

instance : DecidableRel InOrder := fun e f => inferInstanceAs (Decidable (e.name ≤ f.name))

instance : Std.Total InOrder := ⟨fun e f => List.le_total e.name f.name⟩

instance : IsTrans DirectoryEntry InOrder := ⟨fun _ _ _ => List.le_trans⟩

theorem insertByName_eq_orderedInsert (e : DirectoryEntry) (es : List DirectoryEntry) :
    insertByName e es = es.orderedInsert InOrder e := by
  induction es with
  | nil => rfl
  | cons f fs ih =>
      rw [insertByName, List.orderedInsert_cons, ih]
      by_cases first : f.name < e.name
      · have later : ¬ InOrder e f := fun ordered => List.not_lt.mpr ordered first
        rw [if_pos (show before f.name e.name = true from decide_eq_true first), if_neg later]
      · have ordered : InOrder e f := List.not_lt.mp first
        rw [if_neg (show ¬ before f.name e.name = true by simpa [before] using first),
          if_pos ordered]

theorem sortByName_eq_insertionSort (es : List DirectoryEntry) :
    sortByName es = es.insertionSort InOrder := by
  induction es with
  | nil => rfl
  | cons e es ih =>
      rw [List.insertionSort_cons, ← ih, ← insertByName_eq_orderedInsert]
      rfl

theorem sortByName_perm (es : List DirectoryEntry) : (sortByName es).Perm es := by
  rw [sortByName_eq_insertionSort]
  exact List.perm_insertionSort InOrder es

variable (distinct : (es.map DirectoryEntry.name).Nodup)

include distinct

theorem sortByName_ascends : (sortByName es).Pairwise fun e f => e.name < f.name := by
  have ordered : (sortByName es).Pairwise InOrder := by
    rw [sortByName_eq_insertionSort]
    exact List.pairwise_insertionSort InOrder es
  have apart : ((sortByName es).map DirectoryEntry.name).Nodup :=
    ((sortByName_perm es).map _).nodup_iff.mpr distinct
  refine ordered.imp₂ (fun e f notAfter other => ?_) (List.pairwise_map.mp apart)
  by_contra notBefore
  exact other (List.le_antisymm notAfter (List.not_lt.mp notBefore))

theorem sortByName_eq_of_perm (perm : es.Perm fs) : sortByName es = sortByName fs := by
  have distinct' : (fs.map DirectoryEntry.name).Nodup := (perm.map _).nodup_iff.mp distinct
  have sorted : (sortByName es).Perm (sortByName fs) :=
    ((sortByName_perm es).trans perm).trans (sortByName_perm fs).symm
  refine sorted.eq_of_pairwise (fun _ _ _ _ first last => ?_) (sortByName_ascends distinct)
    (sortByName_ascends distinct')
  exact absurd last (List.lt_asymm first)

end Sorted

section Declarations

/-- The declarations that the files of a directory hold, as they are read. -/
def declarations (es : List DirectoryEntry) : List (String × Bytes) :=
  (sortByName es).filterMap declaration?

theorem mem_declarations_iff :
    (table, content) ∈ declarations es ↔ ∃ e ∈ es, e.Declares table content := by
  simp only [declarations, List.mem_filterMap, declaration?_eq_some_iff,
    (sortByName_perm es).mem_iff]

theorem declarations_ascend (distinct : (es.map DirectoryEntry.name).Nodup) :
    (declarations es).Pairwise fun d d' => Text.utf8 d.1 < Text.utf8 d'.1 := by
  refine List.pairwise_filterMap.mpr ((sortByName_ascends distinct).imp ?_)
  intro e f first d declared d' declared'
  rw [← (declaration?_eq_some_iff.mp declared).named,
    ← (declaration?_eq_some_iff.mp declared').named]
  exact first

theorem tables_distinct (distinct : (es.map DirectoryEntry.name).Nodup) :
    ((declarations es).map Prod.fst).Nodup := by
  refine List.pairwise_map.mpr ((declarations_ascend distinct).imp fun first same => ?_)
  rw [same] at first
  exact List.lt_irrefl _ first

theorem schema_valid {s : Schema} (read : schema table content = .ok s) :
    s.table = table ∧ s.fault? = none := by
  obtain ⟨_, _, parsed⟩ := schema_eq_ok_iff.mp read
  obtain ⟨_, named, valid⟩ := Schema.parse_eq_ok_iff.mp parsed
  exact ⟨named, Schema.validate_eq_ok_iff.mp valid⟩

/-- Reading files that declare different tables: only what a file holds can stop it, and never a
table that is there already. -/
theorem foldlM_addDeclaration {ds : List (String × Bytes)} {c : Catalog}
    (distinct : (ds.map Prod.fst).Nodup) (absent : ∀ d ∈ ds, c.tables.contains d.1 = false) :
    ds.foldlM addDeclaration c =
      (ds.mapM fun d => schema d.1 d.2).map fun schemas =>
        ⟨c.tables.insertAll (schemas.map fun s => (s.table, s))⟩ := by
  induction ds generalizing c with
  | nil => rfl
  | cons d ds ih =>
      rw [List.map_cons, List.nodup_cons] at distinct
      obtain ⟨fresh, distinct⟩ := distinct
      obtain ⟨new, absent⟩ := List.forall_mem_cons.mp absent
      rw [List.foldlM_cons, List.mapM_cons, addDeclaration]
      cases read : schema d.1 d.2 with
      | error e => rfl
      | ok s =>
          obtain ⟨named, valid⟩ := schema_valid read
          have added : c.add s = .ok ⟨c.tables.insert s.table s⟩ :=
            Catalog.add_eq_ok_iff.mpr ⟨valid, named ▸ new, rfl⟩
          have absent' : ∀ d' ∈ ds, (c.tables.insert s.table s).contains d'.1 = false := by
            intro d' member
            refine OrderedMap.contains_insert_eq_false_iff.mpr ⟨?_, absent d' member⟩
            rintro same
            exact fresh (List.mem_map.mpr ⟨d', member, same.trans named⟩)
          have later := ih (c := ⟨c.tables.insert s.table s⟩) distinct absent'
          rw [ok_bind, added, ok_bind, ok_bind, later]
          cases ds.mapM fun d => schema d.1 d.2 <;> rfl

end Declarations

section Load

variable (distinct : (es.map DirectoryEntry.name).Nodup)

include distinct

theorem load_eq_of_perm (perm : es.Perm fs) : load es = load fs := by
  unfold load
  rw [sortByName_eq_of_perm distinct perm]

theorem load_eq :
    load es =
      ((declarations es).mapM fun d => schema d.1 d.2).map fun schemas =>
        ⟨.ofList (schemas.map fun s => (s.table, s))⟩ :=
  foldlM_addDeclaration (tables_distinct distinct) fun _ _ => rfl

/-- The tables of a catalog that is loaded are what was read of the declarations, each once. -/
theorem entries_of_load {c : Catalog} (loaded : load es = .ok c) :
    ∃ schemas, ((declarations es).mapM fun d => schema d.1 d.2) = .ok schemas ∧
      schemas.map Schema.table = (declarations es).map Prod.fst ∧
      c.tables.entries.Perm (schemas.map fun s => (s.table, s)) := by
  rw [load_eq distinct, map_eq_ok_iff] at loaded
  obtain ⟨schemas, read, rfl⟩ := loaded
  have named : schemas.map Schema.table = (declarations es).map Prod.fst := by
    rw [← List.forall₂_eq_eq_eq, List.forall₂_map_left_iff, List.forall₂_map_right_iff]
    exact (mapM_eq_ok_iff.mp read).flip.imp fun _ _ read => (schema_valid read).1
  have keyed : ((schemas.map fun s => (s.table, s)).map Prod.fst).Nodup := by
    rw [List.map_map]
    exact named ▸ tables_distinct distinct
  exact ⟨schemas, read, named, OrderedMap.entries_ofList_perm keyed⟩

theorem table_of_load {c : Catalog} (loaded : load es = .ok c) {s : Schema} :
    c.table table = .ok s ↔ ∃ e ∈ es, e.Gives table s := by
  obtain ⟨schemas, read, _, entries⟩ := entries_of_load distinct loaded
  rw [Catalog.table_eq_ok_iff, OrderedMap.get?_eq_some_iff, entries.mem_iff]
  simp only [List.mem_map, Prod.mk.injEq, mem_iff_of_mapM read, gives_iff]
  constructor
  · rintro ⟨_, ⟨⟨name, content⟩, declared, read⟩, named, rfl⟩
    obtain rfl : name = table := (schema_valid read).1.symm.trans named
    obtain ⟨e, member, declares⟩ := mem_declarations_iff.mp declared
    exact ⟨e, member, content, declares, read⟩
  · rintro ⟨e, member, content, declares, read⟩
    exact ⟨s, ⟨_, mem_declarations_iff.mpr ⟨e, member, declares⟩, read⟩, (schema_valid read).1, rfl⟩

/-- There are as many tables as files that declare one. -/
theorem names_of_load {c : Catalog} (loaded : load es = .ok c) :
    c.names.Perm ((es.filterMap declaration?).map Prod.fst) := by
  obtain ⟨schemas, _, named, entries⟩ := entries_of_load distinct loaded
  have keys : c.names.Perm ((schemas.map fun s => (s.table, s)).map Prod.fst) :=
    entries.map Prod.fst
  rw [List.map_map] at keys
  exact (named ▸ keys).trans (((sortByName_perm es).filterMap declaration?).map Prod.fst)

/-- Of the files that spoil a directory, the first by name is the one that is reported. -/
theorem load_eq_error_iff {err : CatalogError} :
    load es = .error err ↔
      ∃ e ∈ es, e.Spoils err ∧ ∀ f ∈ es, f.name < e.name → ∀ err', ¬ f.Spoils err' := by
  rw [← failure?_eq_some_iff, load_eq distinct, failure?_map, failure?_eq_some_iff,
    mapM_eq_error_iff_of_pairwise List.lt_asymm (declarations_ascend distinct)]
  constructor
  · rintro ⟨⟨table, content⟩, declared, fails, passed⟩
    obtain ⟨e, member, declares⟩ := mem_declarations_iff.mp declared
    refine ⟨e, member, spoils_iff.mpr ⟨table, content, declares, fails⟩, ?_⟩
    intro f inside first err spoils
    obtain ⟨table', content', declares', fails'⟩ := spoils_iff.mp spoils
    rw [declares.named, declares'.named] at first
    obtain ⟨s, read⟩ := passed _ (mem_declarations_iff.mpr ⟨f, inside, declares'⟩) first
    cases fails'.symm.trans read
  · rintro ⟨e, member, spoils, passed⟩
    obtain ⟨table, content, declares, fails⟩ := spoils_iff.mp spoils
    refine ⟨_, mem_declarations_iff.mpr ⟨e, member, declares⟩, fails, ?_⟩
    rintro ⟨table', content'⟩ declared first
    obtain ⟨f, inside, declares'⟩ := mem_declarations_iff.mp declared
    rw [← declares.named, ← declares'.named] at first
    cases read : schema table' content' with
    | ok s => exact ⟨s, rfl⟩
    | error err =>
        have spoils' := spoils_iff.mpr ⟨table', content', declares', read⟩
        exact absurd spoils' (passed f inside first err)

/-- A directory can be loaded if none of its files spoils it. -/
theorem loads_iff : (∃ c, load es = .ok c) ↔ ∀ e ∈ es, ∀ err, ¬ e.Spoils err := by
  rw [← failure?_eq_none_iff, load_eq distinct, failure?_map, failure?_eq_none_iff, mapM_ok_iff]
  simp only [← failure?_eq_none_iff, Option.eq_none_iff_forall_ne_some, ne_eq,
    failure?_eq_some_iff, Prod.forall, mem_declarations_iff, spoils_iff]
  constructor
  · rintro passed e member err ⟨table, content, declares, fails⟩
    exact passed table content ⟨e, member, declares⟩ err fails
  · rintro passed table content ⟨e, member, declares⟩ err fails
    exact passed e member err ⟨table, content, declares, fails⟩

end Load

/-- What loading makes of a directory does not depend on the order in which its entries are listed.
There is one table for each file that declares one, as its text says; if some of them are not the
texts of valid schemas, the first of those by name is the one that is reported, and it never is that
a table is there already. -/
theorem load_ignores_listing_order (distinct : (es.map DirectoryEntry.name).Nodup) :
    (∀ listed, es.Perm listed → load listed = load es) ∧
      (∀ c, load es = .ok c →
        (∀ table s, c.table table = .ok s ↔ ∃ e ∈ es, e.Gives table s) ∧
          c.names.Perm ((es.filterMap declaration?).map Prod.fst)) ∧
      ((∃ err, load es = .error err) ↔ ∃ e ∈ es, ∃ err, e.Spoils err) ∧
      (∀ err, load es = .error err ↔
        ∃ e ∈ es, e.Spoils err ∧ ∀ f ∈ es, f.name < e.name → ∀ err', ¬ f.Spoils err') ∧
      ∀ table, load es ≠ .error (.duplicateTable table) := by
  refine ⟨fun listed perm => (load_eq_of_perm distinct perm).symm,
    fun c loaded => ⟨fun table s => table_of_load distinct loaded, names_of_load distinct loaded⟩,
    ?fails, fun err => load_eq_error_iff distinct, ?collides⟩
  case fails =>
    have failed : (∃ err, load es = .error err) ↔ ¬ ∃ c, load es = .ok c := by
      cases load es <;> simp
    rw [failed, loads_iff distinct]
    push Not
    rfl
  case collides =>
    intro table collides
    obtain ⟨e, _, ⟨_, _, _, ⟨_, same⟩ | ⟨_, _, refused⟩⟩, _⟩ :=
      (load_eq_error_iff distinct).mp collides
    · cases same
    · exact Schema.parse_ne_duplicateTable refused

/-- Directories, hidden files and names that are no text stand for nothing, whatever they hold. Of
`binary` and `broken` the first is reported, in whichever order they are listed. -/
theorem load_ignores_listing_order_of_seven_entries :
    let users : DirectoryEntry :=
      ⟨Text.utf8 "users", some (Text.utf8 "Int64 id\nFixedString name 5\n")⟩
    let orders : DirectoryEntry :=
      ⟨Text.utf8 "orders", some (Text.utf8 "# of users\nInt64 id\n\nDate placed")⟩
    let hidden : DirectoryEntry := ⟨Text.utf8 ".hidden", some (Text.utf8 "garbage")⟩
    let nested : DirectoryEntry := ⟨Text.utf8 "nested", none⟩
    let odd : DirectoryEntry := ⟨[0xFF], some (Text.utf8 "garbage")⟩
    let broken : DirectoryEntry := ⟨Text.utf8 "broken", some (Text.utf8 "Text name\n")⟩
    let binary : DirectoryEntry := ⟨Text.utf8 "binary", some [0xFF]⟩
    let laid : Schema := ⟨"orders", [.plain .int64 "id", .plain .date "placed"]⟩
    let sound := [users, odd, hidden, orders, nested]
    let spoilt := [broken, users, odd, hidden, binary, nested]
    (∃ c, load sound = .ok c ∧ load sound.reverse = .ok c ∧ c.names.Perm ["users", "orders"] ∧
        c.table "orders" = .ok laid) ∧
      load spoilt = .error (.io "stream did not contain valid UTF-8") ∧
      load spoilt.reverse = .error (.io "stream did not contain valid UTF-8") := by
  intro users orders hidden nested odd broken binary laid sound spoilt
  obtain ⟨order, made, _⟩ :=
    load_ignores_listing_order (show (sound.map DirectoryEntry.name).Nodup by decide +kernel)
  obtain ⟨order', _⟩ :=
    load_ignores_listing_order (show (spoilt.map DirectoryEntry.name).Nodup by decide +kernel)
  obtain ⟨c, loaded⟩ : ∃ c, load sound = .ok c := failure?_eq_none_iff.mp (by decide +kernel)
  obtain ⟨tables, names⟩ := made c loaded
  rw [show (sound.filterMap declaration?).map Prod.fst = ["users", "orders"] by decide +kernel]
    at names
  have declares : orders.Declares "orders" _ := ⟨rfl, by decide, rfl⟩
  have given : c.table "orders" = .ok laid :=
    (tables _ _).mpr ⟨orders, by decide, _, declares, by decide +kernel⟩
  have refused : load spoilt = .error (.io "stream did not contain valid UTF-8") := by
    decide +kernel
  exact ⟨⟨c, loaded, (order _ sound.reverse_perm.symm).trans loaded, names, given⟩, refused,
    (order' _ spoilt.reverse_perm.symm).trans refused⟩

end Directory
end RowStore
