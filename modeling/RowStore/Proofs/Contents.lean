import RowStore.Proofs.Catalogs
import RowStore.Proofs.History
import RowStore.Proofs.RowCodec
import RowStore.Proofs.RowKeys

namespace RowStore

/-- The tables of a catalog are valid, go by their own names, and their rows are no wider than a
word can count. -/
def Catalog.Usable (c : Catalog) : Prop :=
  ∀ name s, c.table name = .ok s → s.table = name ∧ s.fault? = none ∧ s.Fits

namespace Written

/-- Written to a table of the catalog, under a key and with bytes. -/
def Placed (c : Catalog) (w : Written) : Prop :=
  w.Sound ∧ c.table w.table = .ok w.row.schema

/-- The row that was last written to a table under a key. -/
def last? (table : String) (key : Int) (ws : List Written) : Option Row :=
  (ws.filter fun w => w.table = table ∧ w.row.key? = some key).getLast?.map row

variable {c : Catalog} {w : Written}

theorem separator_free (usable : c.Usable) {name : String} {s : Schema}
    (known : c.table name = .ok s) : Schema.keySeparator ∉ name.toList := by
  obtain ⟨named, valid, _⟩ := usable name s known
  exact named ▸ Schema.separator_free valid

/-- No key starts with the names of two tables. -/
theorem table_unique (usable : c.Usable) {t u : String} {s r : Schema}
    (left : c.table t = .ok s) (right : c.table u = .ok r) {key : Bytes}
    (first : RowKey.low t <+: key) (second : RowKey.low u <+: key) : t = u :=
  RowKey.table_unique (separator_free usable left) (separator_free usable right) first second

theorem entry_of_key {key : Int} (keyed : w.row.key? = some key) :
    w.entry.1 = RowKey.ofText w.table (toString key) := by
  simp only [entry, keyed, Option.getD_some]

/-- A row lies under the key of its table and its number. -/
theorem entry_eq_iff (usable : c.Usable) (placed : w.Placed c) {name : String} {s : Schema}
    (known : c.table name = .ok s) (key : Int) :
    w.entry.1 = RowKey.ofText name (toString key) ↔ w.table = name ∧ w.row.key? = some key := by
  obtain ⟨⟨⟨own, keyed⟩, _⟩, there⟩ := placed
  rw [entry_of_key keyed]
  constructor
  · intro same
    have first := RowKey.low_prefix_ofText w.table (toString own)
    have second := RowKey.low_prefix_ofText name (toString key)
    obtain rfl := table_unique usable there known first (same ▸ second)
    rw [RowKey.ofText_inj, RowKey.toString_inj] at same
    exact ⟨rfl, same ▸ keyed⟩
  · rintro ⟨rfl, same⟩
    obtain rfl := Option.some.inj (keyed.symm.trans same)
    rfl

theorem decode_of_sound (sound : w.Sound) (fits : w.row.schema.Fits) :
    RowFormat.decode w.row.schema w.entry.2 = .ok w.row := by
  obtain ⟨_, bytes, encoded⟩ := sound
  have read := (RowFormat.decode_encode fits encoded []).2
  rw [List.append_nil] at read
  simp only [entry, encoded, Except.toOption, Option.getD_some, read]

theorem decode_entry (usable : c.Usable) (placed : w.Placed c) :
    RowFormat.decode w.row.schema w.entry.2 = .ok w.row :=
  decode_of_sound placed.1 (usable _ _ placed.2).2.2

section Stored

variable {ws : List Written} {name : String} {s : Schema} (usable : c.Usable)
  (placed : ∀ w ∈ ws, w.Placed c) (known : c.table name = .ok s)

include usable placed known

/-- Under a key of a table the store holds the bytes of the row last written there. -/
theorem get?_entries (key : Int) :
    (OrderedMap.ofList (ws.map entry)).get? (RowKey.ofText name (toString key)) =
      (ws.filter fun w => w.table = name ∧ w.row.key? = some key).getLast?.map
        fun w => w.entry.2 := by
  have own : (ws.filter fun w => w.entry.1 = RowKey.ofText name (toString key)) =
      ws.filter fun w => w.table = name ∧ w.row.key? = some key := by
    refine List.filter_congr fun w member => ?_
    simp only [entry_eq_iff usable (placed w member) known]
  rw [OrderedMap.get?_ofList, List.filter_map, List.getLast?_map, Option.map_map]
  exact congrArg (fun ws => Option.map (fun w => w.entry.2) (List.getLast? ws)) own

/-- Whatever lies in the range of a table is the row that was last written there under a key. -/
theorem row_of_mem_range {e : Bytes × Bytes}
    (member : e ∈ (OrderedMap.ofList (ws.map entry)).range (RowKey.low name) (RowKey.high name)) :
    ∃ key row, e.1 = RowKey.ofText name (toString key) ∧ Plan.decoded s e = .ok row ∧
      last? name key ws = some row ∧ row.schema = s := by
  obtain ⟨stored, within⟩ := List.mem_filter.mp member
  have starts := (RowKey.mem_range_iff_prefix name e.1).mp within
  obtain ⟨w, written, rfl⟩ := List.mem_map.mp (OrderedMap.mem_of_mem_ofList stored)
  obtain ⟨⟨⟨key, keyed⟩, _⟩, there⟩ := placed w written
  have place := entry_of_key keyed
  have own := place ▸ RowKey.low_prefix_ofText w.table (toString key)
  obtain rfl := table_unique usable there known own starts
  have found : (OrderedMap.ofList (ws.map entry)).get? w.entry.1 = some w.entry.2 :=
    OrderedMap.get?_eq_some_iff.mpr stored
  rw [place, get?_entries usable placed known, Option.map_eq_some_iff] at found
  -- The last row under the key may be another one than the one found first.
  obtain ⟨last, chosen, bytes⟩ := found
  obtain ⟨member, here⟩ := List.mem_filter.mp (List.mem_of_getLast? chosen)
  obtain ⟨table, _⟩ := of_decide_eq_true here
  have schema : last.row.schema = s := by
    have same := (placed last member).2
    rw [table, known] at same
    exact (Except.ok.inj same).symm
  have read := decode_entry usable (placed last member)
  rw [schema, bytes] at read
  refine ⟨key, last.row, place, ?_, ?_, schema⟩
  · unfold Plan.decoded
    rw [read]
    rfl
  · unfold last?
    rw [chosen]
    rfl

/-- The range of a table, read through: the keys in their order, each with its last row. -/
theorem rows_of_range {es : List (Bytes × Bytes)}
    (inside : ∀ e ∈ es,
      e ∈ (OrderedMap.ofList (ws.map entry)).range (RowKey.low name) (RowKey.high name)) :
    ∃ (keys : List Int) (rows : List Row),
      es.map Prod.fst = keys.map (fun key => RowKey.ofText name (toString key)) ∧
      es.map (Plan.decoded s) = rows.map .ok ∧
      List.Forall₂ (fun key row => last? name key ws = some row ∧ row.schema = s) keys rows := by
  induction es with
  | nil => exact ⟨[], [], rfl, rfl, .nil⟩
  | cons e es ih =>
      obtain ⟨first, rest⟩ := List.forall_mem_cons.mp inside
      obtain ⟨key, row, place, read, last, schema⟩ := row_of_mem_range usable placed known first
      obtain ⟨keys, rows, places, reads, lasts⟩ := ih rest
      refine ⟨key :: keys, row :: rows, ?_, ?_, .cons ⟨last, schema⟩ lasts⟩
      · rw [List.map_cons, List.map_cons, place, places]
      · rw [List.map_cons, List.map_cons, read, reads]

/-- The keys that a table holds are those that were written to it. -/
theorem mem_keys_iff {keys : List Int}
    (places : ((OrderedMap.ofList (ws.map entry)).range (RowKey.low name) (RowKey.high name)).map
      Prod.fst = keys.map fun key => RowKey.ofText name (toString key)) (key : Int) :
    key ∈ keys ↔ ∃ w ∈ ws, w.table = name ∧ w.row.key? = some key := by
  have injective : Function.Injective fun key : Int => RowKey.ofText name (toString key) := by
    intro a b same
    rwa [RowKey.ofText_inj, RowKey.toString_inj] at same
  rw [← List.mem_map_of_injective injective, ← places, OrderedMap.mem_keys_range_iff,
    RowKey.mem_range_iff_prefix, get?_entries usable placed known]
  simp [RowKey.low_prefix_ofText]

end Stored

end Written

end RowStore
