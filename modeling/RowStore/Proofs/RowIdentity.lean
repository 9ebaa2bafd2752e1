import RowStore.Proofs.Catalogs
import RowStore.Proofs.Comparing
import RowStore.Proofs.RowKeys
import RowStore.Proofs.Writing

namespace RowStore

namespace RowKey

/-- The key lies between the least of the table's keys and the bound above them. -/
def InRange (table : String) (key : Bytes) : Prop := low table ≤ key ∧ key < high table

theorem inRange_iff {table : String} {key : Bytes} :
    InRange table key ↔ Text.utf8 table ++ [separator] <+: key := by
  rw [← low, ← mem_range_iff_prefix, InRange]
  simp only [before, Bool.and_eq_true, Bool.not_eq_true', decide_eq_false_iff_not, List.not_lt,
    decide_eq_true_eq]

theorem disjoint_of_ne {t u : String} (freeLeft : Schema.keySeparator ∉ t.toList)
    (freeRight : Schema.keySeparator ∉ u.toList) (other : t ≠ u) (key : Bytes) :
    ¬ (InRange t key ∧ InRange u key) := by
  rintro ⟨left, right⟩
  rw [inRange_iff] at left right
  exact other (table_unique freeLeft freeRight left right)

/-- The first separator of a key ends the name, so the text behind it is told too. -/
theorem ofText_inj_iff {t u a b : String} (freeLeft : Schema.keySeparator ∉ t.toList)
    (freeRight : Schema.keySeparator ∉ u.toList) :
    ofText t a = ofText u b ↔ t = u ∧ a = b := by
  constructor
  · intro same
    have left := low_prefix_ofText t a
    have right := low_prefix_ofText u b
    obtain rfl := table_unique freeLeft freeRight left (same ▸ right)
    exact ⟨rfl, ofText_inj.mp same⟩
  · rintro ⟨rfl, rfl⟩
    rfl

end RowKey

namespace Value

/-- Integers of any widths have one key text just if they compare as equal. -/
theorem keyText?_eq_iff {a b : Value} (left : a.type.isInteger = true)
    (right : b.type.isInteger = true) : a.keyText? = b.keyText? ↔ a.compare b = some .eq := by
  obtain ⟨m, number⟩ := exists_toInt? left
  obtain ⟨n, number'⟩ := exists_toInt? right
  have order : a.compare b = some (Ord.compare m n) := by
    rw [compare_eq, rank_of_toInt? number, rank_of_toInt? number']
    rfl
  rw [order, keyText?, keyText?, number, number', Option.map_some, Option.map_some,
    Option.some.injEq, Option.some.injEq, RowKey.toString_inj, Std.compare_eq_iff_eq]

end Value

namespace Row

/-- The key that the row is stored under, for a row that is keyed by an integer. -/
def storageKey? (r : Row) : Option Bytes :=
  (r.values.head?.bind Value.keyText?).map (RowKey.ofText r.schema.table)

/-- Rows of valid tables share a key just if they are of one table and their primary keys compare as
equal. -/
theorem storageKey?_eq_iff {r q : Row} (valid : r.schema.validate = .ok ())
    (valid' : q.schema.validate = .ok ()) {v w : Value} (first : r.values.head? = some v)
    (first' : q.values.head? = some w) (integer : v.type.isInteger = true)
    (integer' : w.type.isInteger = true) :
    r.storageKey? = q.storageKey? ↔
      r.schema.table = q.schema.table ∧ v.compare w = some .eq := by
  have free := Schema.separator_free (Schema.validate_eq_ok_iff.mp valid)
  have free' := Schema.separator_free (Schema.validate_eq_ok_iff.mp valid')
  obtain ⟨m, number⟩ := Value.exists_toInt? integer
  obtain ⟨n, number'⟩ := Value.exists_toInt? integer'
  have text : v.keyText? = some (toString m) := by rw [Value.keyText?, number, Option.map_some]
  have text' : w.keyText? = some (toString n) := by rw [Value.keyText?, number', Option.map_some]
  rw [← Value.keyText?_eq_iff integer integer', storageKey?, storageKey?, first, first',
    Option.bind_some, Option.bind_some, text, text', Option.map_some, Option.map_some,
    Option.some.injEq, Option.some.injEq, RowKey.ofText_inj_iff free free']

end Row

namespace Insertion

/-- What INSERT puts a tuple under is the key of the row that it is stored as. -/
theorem storageKey?_of_entry {c : Catalog} {schemas : List Schema}
    (made : Catalog.ofSchemas schemas = .ok c) {i : Insertion} {t : Target}
    (settled : i.target c = .ok t) {tuple : List Value} {e : Bytes × Bytes}
    (taken : i.entry t tuple = .ok e) :
    ∃ r : Row, r.schema = t.schema ∧ coerced t tuple = .ok r.values ∧ r.storageKey? = some e.1 := by
  obtain ⟨_, named, _⟩ := Catalog.table_of_ofSchemas made (table_of_target settled)
  obtain ⟨_, values, known, key, keyed, _, place⟩ := entry_eq_ok_iff.mp taken
  refine ⟨⟨t.schema, values⟩, rfl, known, ?_⟩
  rw [Row.storageKey?, keyText_eq t.schema, keyed, place, named]
  rfl

end Insertion

/-- The range of a table holds the keys that begin with its name and the separator. Ranges of tables
whose names are free of the separator are disjoint, and a key tells the name and the text that it
was made of. Integers have one key text just if they compare as equal. So rows of valid tables
share a key just if they are of one table and their primary keys are equal as numbers, and INSERT
puts each row under its key. -/
theorem keys_identify_rows :
    (∀ table key, RowKey.InRange table key ↔ Text.utf8 table ++ [RowKey.separator] <+: key) ∧
      (∀ t u : String, Schema.keySeparator ∉ t.toList → Schema.keySeparator ∉ u.toList →
        (t ≠ u → ∀ key, ¬ (RowKey.InRange t key ∧ RowKey.InRange u key)) ∧
        ∀ a b, RowKey.ofText t a = RowKey.ofText u b ↔ t = u ∧ a = b) ∧
      (∀ a b : Value, a.type.isInteger = true → b.type.isInteger = true →
        (a.keyText? = b.keyText? ↔ a.compare b = some .eq)) ∧
      (∀ r q : Row, r.schema.validate = .ok () → q.schema.validate = .ok () →
        ∀ v w, r.values.head? = some v → q.values.head? = some w →
          v.type.isInteger = true → w.type.isInteger = true →
          (r.storageKey? = q.storageKey? ↔
            r.schema.table = q.schema.table ∧ v.compare w = some .eq)) ∧
      ∀ (schemas : List Schema) (c : Catalog), Catalog.ofSchemas schemas = .ok c →
        ∀ (i : Insertion) (t : Insertion.Target) (tuple : List Value) (e : Bytes × Bytes),
          i.target c = .ok t → i.entry t tuple = .ok e →
          ∃ r : Row, r.schema = t.schema ∧ Insertion.coerced t tuple = .ok r.values ∧
            r.storageKey? = some e.1 := by
  refine ⟨fun _ _ => RowKey.inRange_iff, ?_, fun _ _ => Value.keyText?_eq_iff, ?_, ?_⟩
  · intro t u free free'
    exact ⟨RowKey.disjoint_of_ne free free', fun _ _ => RowKey.ofText_inj_iff free free'⟩
  · intro r q valid valid' v w first first'
    exact Row.storageKey?_eq_iff valid valid' first first'
  · intro schemas c made i t tuple e settled taken
    exact Insertion.storageKey?_of_entry made settled taken

/-- Names that begin alike, a number in two widths, and a negative one that an unsigned word takes
for its greatest. -/
theorem keys_identify_rows_of_two_widths :
    let narrow : Row := ⟨⟨"é", [.plain .int32 "id"]⟩, [.int32 (-1)]⟩
    let wide : Row := ⟨⟨"é", [.plain .int64 "id", .plain .date "day"]⟩, [.int64 (-1), .date ⟨0⟩]⟩
    let greatest : Row := ⟨⟨"é", [.plain .uint64 "id"]⟩, [.uint64 18446744073709551615]⟩
    let other : Row := ⟨⟨"é1", [.plain .int32 "id"]⟩, [.int32 (-1)]⟩
    let i : Insertion := ⟨"é", [], [[.int64 (-1)]]⟩
    RowKey.InRange "é" [0xC3, 0xA9, 0x3A, 0x2D, 0x31] ∧
      ¬ RowKey.InRange "é" [0xC3, 0xA9, 0x31, 0x3A, 0x2D, 0x31] ∧
      (∀ key, ¬ (RowKey.InRange "é" key ∧ RowKey.InRange "é1" key)) ∧
      RowKey.ofText "é" "1:1" ≠ RowKey.ofText "é1" ":1" ∧
      (Value.int32 (-1)).keyText? = (Value.int64 (-1)).keyText? ∧
      narrow.storageKey? = wide.storageKey? ∧ narrow.storageKey? ≠ greatest.storageKey? ∧
      narrow.storageKey? ≠ other.storageKey? ∧
      ∃ (c : Catalog) (t : Insertion.Target) (bytes : Bytes),
        Catalog.ofSchemas [narrow.schema] = .ok c ∧ i.target c = .ok t ∧
        i.entry t [.int64 (-1)] = .ok (RowKey.ofText "é" "-1", bytes) ∧
        ∃ r : Row, r.schema = t.schema ∧ Insertion.coerced t [.int64 (-1)] = .ok r.values ∧
          r.storageKey? = some (RowKey.ofText "é" "-1") := by
  intro narrow wide greatest other i
  obtain ⟨inRange, tables, texts, rows, entries⟩ := keys_identify_rows
  obtain ⟨disjoint, injective⟩ := tables "é" "é1" (by decide) (by decide)
  have shared (q : Row) := rows narrow q (by decide +kernel)
  have made : Catalog.ofSchemas [narrow.schema] =
      .ok ⟨OrderedMap.empty.insert "é" narrow.schema⟩ := by
    decide +kernel
  have settled : i.target ⟨OrderedMap.empty.insert "é" narrow.schema⟩ =
      .ok ⟨narrow.schema, [0], .plain .int32 "id"⟩ := by
    decide +kernel
  have taken : i.entry ⟨narrow.schema, [0], .plain .int32 "id"⟩ [.int64 (-1)] =
      .ok (RowKey.ofText "é" "-1", [1, 0, 0, 0]) := by
    decide +kernel
  refine ⟨(inRange _ _).mpr (by decide +kernel), ?_, disjoint (by decide), ?_,
    (texts _ _ rfl rfl).mpr (by decide), ?_, ?_, ?_,
    _, _, _, made, settled, taken, entries _ _ made i _ _ _ settled taken⟩
  · rw [inRange]
    decide +kernel
  · rw [ne_eq, injective]
    decide
  · exact (shared wide (by decide +kernel) _ _ rfl rfl rfl rfl).mpr ⟨rfl, by decide⟩
  · rw [ne_eq, shared greatest (by decide +kernel) _ _ rfl rfl rfl rfl]
    decide
  · rw [ne_eq, shared other (by decide +kernel) _ _ rfl rfl rfl rfl]
    decide

end RowStore
