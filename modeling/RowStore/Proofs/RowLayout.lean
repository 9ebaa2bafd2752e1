import RowStore.Proofs.RowCodec
import RowStore.Proofs.WordLengths

namespace RowStore

/-- A field of the type has room for the number: seven bits in each byte, one of them for the
sign where there is one. -/
def ColumnType.HasRoom : ColumnType → Int → Prop
  | .int32, n => -2 ^ 27 ≤ n ∧ n < 2 ^ 27
  | .uint32, n => 0 ≤ n ∧ n < 2 ^ 28
  | .int64, n | .date, n => -2 ^ 55 ≤ n ∧ n < 2 ^ 55
  | .uint64, n => 0 ≤ n ∧ n < 2 ^ 56
  | .fixedString, _ => False

instance (t : ColumnType) (n : Int) : Decidable (t.HasRoom n) :=
  match t with
  | .int32 | .uint32 | .int64 | .uint64 | .date => inferInstanceAs (Decidable (_ ∧ _))
  | .fixedString => inferInstanceAs (Decidable False)

namespace Value

/-- The number of an integer or a date. -/
def number? : Value → Option Int
  | .date d => some d.seconds.toInt
  | v => v.toInt?

def text? : Value → Option String
  | .fixedString s => some s
  | _ => none

/-- The natural number that stands for an integer or a date in a row. Signed ones are folded:
0, -1, 1, -2 and so on are counted from 0. -/
def code? : Value → Option Nat
  | .uint32 v => some v.toNat
  | .uint64 v => some v.toNat
  | .fixedString _ => none
  | v => v.number?.map fun n => if 0 ≤ n then (2 * n).toNat else (-2 * n - 1).toNat

end Value

theorem toInt_toInt32 {n : Int64} (range : -2 ^ 31 ≤ n.toInt ∧ n.toInt < 2 ^ 31) :
    n.toInt32.toInt = n.toInt := by
  rw [Int64.toInt_toInt32]
  apply Int.bmod_eq_of_le <;> omega

namespace Column

/-- The column can store the value. -/
structure Stores (c : Column) (v : Value) : Prop where
  type : v.type = c.type
  number : ∀ n ∈ v.number?, c.type.HasRoom n
  text : ∀ s ∈ v.text?, c.length.map UInt64.toNat = some (Text.utf8 s).length

theorem stores_iff {c : Column} {v : Value} :
    c.Stores v ↔ v.type = c.type ∧ (∀ n ∈ v.number?, c.type.HasRoom n) ∧
      ∀ s ∈ v.text?, c.length.map UInt64.toNat = some (Text.utf8 s).length :=
  ⟨fun h => ⟨h.type, h.number, h.text⟩, fun h => ⟨h.1, h.2.1, h.2.2⟩⟩

instance (c : Column) (v : Value) : Decidable (c.Stores v) := decidable_of_iff' _ stores_iff

/-- Why a row with the column has no width. -/
def undeclared? (c : Column) : Option CodecError :=
  if c.type = .fixedString ∧ c.length = none then some (.lengthUndeclared c.name) else none

/-- Why the column does not store the value. -/
def refusal? (c : Column) (v : Value) : Option CodecError :=
  if c.Stores v then none
  else if v.type ≠ c.type then some (.typeMismatch c.name c.type v.type)
  else
    match v.text? with
    | some s => some (.textLength c.name c.span (Text.utf8 s).length)
    | none => some (.fieldOverflow c.name c.span)

theorem refusal?_eq_none_iff {c : Column} {v : Value} : c.refusal? v = none ↔ c.Stores v := by
  unfold refusal?
  constructor
  · intro accepted
    by_contra refused
    rw [if_neg refused] at accepted
    split at accepted
    · cases accepted
    · split at accepted <;> cases accepted
  · intro stores
    rw [if_pos stores]

end Column

namespace RowFormat

/-- The first reason for which a row is not encoded: the number of its values, a column without a
width, more bytes than can be allocated, or a value that its column does not store. -/
def refusal? (s : Schema) (values : List Value) : Option (Failure CodecError) :=
  if values.length ≠ s.columns.length then
    some (.reported (.valueCount s.table s.columns.length values.length))
  else
    match s.columns.findSome? Column.undeclared? with
    | some e => some (.reported e)
    | none =>
        if maxAllocation < s.span then some (.panic .capacityOverflow)
        else ((s.columns.zip values).findSome? fun e => e.1.refusal? e.2).map .reported

/-- The bytes of a value in its column: those of a text, or the shortest word for a number and
zeros behind it, up to the width of the column. -/
structure Lays (c : Column) (v : Value) (part : Bytes) : Prop where
  wide : part.length = c.span
  text : ∀ s ∈ v.text?, part = Text.utf8 s
  number : ∀ n ∈ v.code?, ∃ word zeros, Varint.Shortest word ∧ Varint.payload word = n ∧
    part = word ++ List.replicate zeros 0

section Field

variable {f : Field} {v : Value}

theorem packed_eq (f : Field) (w : UInt64) :
    packed f w =
      if (Varint.bytes w).length ≤ f.width then
        .ok (Varint.bytes w ++ List.replicate (f.width - (Varint.bytes w).length) 0)
      else .error (.fieldOverflow f.column.name f.width) := by
  simp only [packed, Varint.put_eq, List.length_replicate]
  by_cases room : (Varint.bytes w).length ≤ f.width
  · rw [if_pos room, if_pos room, List.take_of_length_le room, List.drop_replicate]
  · rw [if_neg room, if_neg room]

theorem toNat_zigzag_eq (n : Int64) :
    (Varint.zigzag n).toNat =
      if 0 ≤ n.toInt then (2 * n.toInt).toNat else (-2 * n.toInt - 1).toNat := by
  have word := Varint.toNat_zigzag n
  split at word
  · rename_i positive
    rw [if_pos positive]
    omega
  · rename_i negative
    rw [if_neg negative]
    omega

/-- A number of the column's type is packed as the word that stands for it. -/
theorem encodeField_of_code (typed : v.type = f.column.type) {n : Nat} (code : v.code? = some n) :
    ∃ w : UInt64, w.toNat = n ∧ encodeField f v = packed f w := by
  unfold encodeField
  rw [← typed]
  cases v with
  | int32 m =>
      refine ⟨_, ?_, rfl⟩
      rw [toNat_zigzag_eq, Int32.toInt_toInt64]
      exact Option.some.inj code
  | int64 m =>
      refine ⟨_, ?_, rfl⟩
      rw [toNat_zigzag_eq]
      exact Option.some.inj code
  | uint32 m =>
      refine ⟨_, ?_, rfl⟩
      rw [UInt32.toNat_toUInt64]
      exact Option.some.inj code
  | uint64 m => exact ⟨_, Option.some.inj code, rfl⟩
  | date d =>
      refine ⟨_, ?_, rfl⟩
      rw [toNat_zigzag_eq]
      exact Option.some.inj code
  | fixedString s => cases code

theorem encodeField_of_text {s : String} (typed : f.column.type = .fixedString) :
    encodeField f (.fixedString s) =
      if (Text.utf8 s).length = f.width then .ok (Text.utf8 s)
      else .error (.textLength f.column.name f.width (Text.utf8 s).length) := by
  unfold encodeField
  rw [typed]

theorem encodeField_of_mismatch (mismatch : v.type ≠ f.column.type) :
    encodeField f v = .error (.typeMismatch f.column.name f.column.type v.type) := by
  unfold encodeField
  split <;> rename_i type <;> first
    | exact absurd type.symm mismatch
    | rfl

theorem span_of_width? {c : Column} {w : UInt64} (wide : c.width? = some w) :
    c.span = w.toNat := by
  rw [Column.span, wide, Option.getD_some]

/-- A field has room for the numbers whose words are no longer than it is. -/
theorem hasRoom_iff {c : Column} (typed : v.type = c.type) {m : Int} {n : Nat}
    (number : v.number? = some m) (code : v.code? = some n) :
    c.type.HasRoom m ↔ n < 128 ^ c.span := by
  have four : 128 ^ (4 : UInt64).toNat = 2 ^ 28 := by decide
  have eight : 128 ^ (8 : UInt64).toNat = 2 ^ 56 := by decide
  rw [Column.span, Column.width?, ← typed]
  cases v with
  | fixedString s => cases number
  | uint32 k | uint64 k =>
      obtain rfl := Option.some.inj number
      obtain rfl := Option.some.inj code
      simp only [Value.type, ColumnType.HasRoom, ColumnType.width?, Option.getD_some, four, eight]
      omega
  | int32 k | int64 k | date k =>
      obtain rfl := Option.some.inj number
      simp only [Value.code?, number, Option.map_some, Option.some.injEq] at code
      simp only [Value.type, ColumnType.HasRoom, ColumnType.width?, Option.getD_some, four, eight]
      split at code <;> omega

theorem span_pos_of_code {c : Column} (typed : v.type = c.type) {n : Nat}
    (code : v.code? = some n) : 0 < c.span := by
  rw [Column.span, Column.width?, ← typed]
  cases v with
  | fixedString s => cases code
  | _ =>
      simp only [Value.type, ColumnType.width?, Option.getD_some]
      decide

/-- A number is packed if its column has room for it. -/
theorem encodeField_of_number (wide : f.width = f.column.span) (typed : v.type = f.column.type)
    {m : Int} {n : Nat} (number : v.number? = some m) (code : v.code? = some n) :
    ∃ w : UInt64, w.toNat = n ∧ encodeField f v =
      if f.column.type.HasRoom m then
        .ok (Varint.bytes w ++ List.replicate (f.column.span - (Varint.bytes w).length) 0)
      else .error (.fieldOverflow f.column.name f.column.span) := by
  obtain ⟨w, value, packs⟩ := encodeField_of_code typed code
  have room : f.column.type.HasRoom m ↔ (Varint.bytes w).length ≤ f.column.span := by
    rw [hasRoom_iff typed number code, ← value,
      Varint.length_bytes_le_iff (span_pos_of_code typed code)]
  refine ⟨w, value, ?_⟩
  rw [packs, packed_eq, wide]
  simp only [room]

/-- A value is a text, or a number with a code. -/
theorem text_or_number (v : Value) :
    (∃ s, v = .fixedString s) ∨
      v.text? = none ∧ ∃ m n, v.number? = some m ∧ v.code? = some n := by
  cases v with
  | fixedString s => exact .inl ⟨s, rfl⟩
  | _ => exact .inr ⟨rfl, _, _, rfl, rfl⟩

theorem stores_fixedString_iff {c : Column} {s : String} (typed : c.type = .fixedString)
    (declared : c.width?.isSome) :
    c.Stores (.fixedString s) ↔ (Text.utf8 s).length = c.span := by
  obtain ⟨w, wide⟩ := Option.isSome_iff_exists.mp declared
  have length : c.length = some w := by
    rwa [Column.width?, typed] at wide
  rw [span_of_width? wide, Column.stores_iff, length]
  simp [Value.type, Value.number?, Value.toInt?, Value.text?, typed, eq_comm]

theorem stores_number_iff {c : Column} (typed : v.type = c.type) {m : Int}
    (text : v.text? = none) (number : v.number? = some m) : c.Stores v ↔ c.type.HasRoom m := by
  rw [Column.stores_iff]
  simp [typed, text, number]

/-- A field refuses what its column does not store, for the same reason. -/
theorem failure?_encodeField (wide : f.width = f.column.span) (declared : f.column.width?.isSome)
    (v : Value) : failure? (encodeField f v) = f.column.refusal? v := by
  unfold Column.refusal?
  by_cases typed : v.type = f.column.type
  · rcases text_or_number v with ⟨s, rfl⟩ | ⟨text, m, n, number, code⟩
    · have isText : f.column.type = .fixedString := typed.symm
      rw [encodeField_of_text isText, wide]
      simp only [stores_fixedString_iff isText declared]
      split
      · rfl
      · rw [if_neg (not_not_intro typed)]
        rfl
    · obtain ⟨w, _, packs⟩ := encodeField_of_number wide typed number code
      rw [packs]
      simp only [stores_number_iff typed text number]
      split
      · rfl
      · rw [if_neg (not_not_intro typed), text]
        rfl
  · have refused : ¬ f.column.Stores v := fun stores => typed stores.type
    rw [encodeField_of_mismatch typed, if_neg refused, if_pos typed]
    rfl

/-- What a field is given is the value as its column lays it out. -/
theorem lays_of_encodeField (wide : f.width = f.column.span) {part : Bytes}
    (written : encodeField f v = .ok part) : Lays f.column v part := by
  have size := (decodeField_encodeField written).1
  have typed : v.type = f.column.type := by
    by_contra mismatch
    rw [encodeField_of_mismatch mismatch] at written
    cases written
  refine ⟨size.trans wide, ?_, ?_⟩
  · intro s text
    rcases text_or_number v with ⟨t, rfl⟩ | ⟨textless, _⟩
    · obtain rfl := Option.some.inj text
      rw [encodeField_of_text typed.symm] at written
      split at written
      · exact (Except.ok.inj written).symm
      · cases written
    · rw [textless] at text
      cases text
  · intro n code
    obtain ⟨w, value, packs⟩ := encodeField_of_code typed code
    rw [packs, packed_eq] at written
    split at written
    · obtain rfl := Except.ok.inj written
      refine ⟨Varint.bytes w, _, Varint.shortest_bytes w, ?_, rfl⟩
      rw [← value]
      exact (Varint.bytes_spec w []).2
    · cases written

end Field

section Row

variable {s : Schema} {values : List Value}

theorem failure?_width (c : Column) : failure? (width c) = c.undeclared? := by
  unfold width Column.undeclared? Column.width?
  cases c.type <;> cases c.length <;> rfl

theorem undeclared?_eq_none_iff {c : Column} :
    c.undeclared? = none ↔ c.type = .fixedString → c.length ≠ none := by
  simp [Column.undeclared?]

theorem declared_iff :
    s.Declared ↔ ∀ c ∈ s.columns, c.type = .fixedString → c.length ≠ none := by
  refine forall₂_congr fun c _ => ?_
  rw [← undeclared?_eq_none_iff, ← failure?_width, failure?_eq_none_iff,
    Option.isSome_iff_exists]
  simp only [width_eq_ok_iff]

/-- The fields of a row, each with its value, are its columns with their values. -/
theorem zip_fieldsFrom (offset : Nat) (columns : List Column) (values : List Value) :
    ((fieldsFrom offset columns).zip values).map (Prod.map Field.column id) =
      columns.zip values := by
  rw [← List.zip_map_left, columns_fieldsFrom]

/-- The fields of a row that fits refuse what the columns do not store. -/
theorem failure?_fields (declared : s.Declared) (values : List Value) :
    failure? (((fieldsFrom 0 s.columns).zip values).mapM fun e => do
      e.1.check s.span
      (encodeField e.1 e.2).mapError .reported) =
      ((s.columns.zip values).findSome? fun e => e.1.refusal? e.2).map .reported := by
  rw [← zip_fieldsFrom 0, List.findSome?_map, List.map_findSome?]
  apply failure?_mapM
  intro e member
  have inside := (List.of_mem_zip member).1
  obtain ⟨column, wide⟩ := width_of_mem_fieldsFrom inside
  have within : e.1.offset + e.1.width ≤ s.span := by
    rw [Schema.span, ← Nat.zero_add (List.sum _)]
    exact within_of_mem_fieldsFrom inside
  rw [check_of_within within, ok_bind, failure?_mapError,
    failure?_encodeField wide (declared _ column) e.2]
  rfl

/-- Encoding fails for the reason for which the row is refused. -/
theorem failure?_encode (fits : s.Declared → s.Fits) (values : List Value) :
    failure? (encode s values) = refusal? s values := by
  have widths : failure? (s.columns.mapM width) = s.columns.findSome? Column.undeclared? :=
    failure?_mapM fun c _ => failure?_width c
  unfold refusal? encode
  by_cases count : values.length = s.columns.length
  · rw [if_neg (not_not_intro count), if_neg (not_not_intro count)]
    cases known : s.columns.findSome? Column.undeclared? with
    | some e =>
        rw [known, failure?_eq_some_iff] at widths
        simp only [layout, widths]
        rfl
    | none =>
        have each := List.findSome?_eq_none_iff.mp known
        have declared := declared_iff.mpr fun c member => undeclared?_eq_none_iff.mp (each c member)
        have fields := failure?_fields declared values
        rw [layout_of_fits declared (fits declared), ← fields]
        by_cases wide : maxAllocation < s.span
        · simp only [Except.mapError, ok_bind, wide, if_true]
          rfl
        · simp only [Except.mapError, ok_bind, wide, if_false]
          exact failure?_map _ List.flatten
  · rw [if_pos count, if_pos count]
    rfl

theorem refusal?_of_lengths (count : values.length = s.columns.length)
    (lengths : ∀ c ∈ s.columns, c.type = .fixedString → c.length ≠ none) :
    refusal? s values =
      if maxAllocation < s.span then some (.panic .capacityOverflow)
      else ((s.columns.zip values).findSome? fun e => e.1.refusal? e.2).map .reported := by
  have declared : s.columns.findSome? Column.undeclared? = none := by
    rw [List.findSome?_eq_none_iff]
    intro c member
    exact undeclared?_eq_none_iff.mpr (lengths c member)
  rw [refusal?, if_neg (not_not_intro count), declared]

theorem refusal?_eq_none_iff :
    refusal? s values = none ↔
      values.length = s.columns.length ∧
        (∀ c ∈ s.columns, c.type = .fixedString → c.length ≠ none) ∧
        s.span ≤ maxAllocation ∧ ∀ e ∈ s.columns.zip values, e.1.Stores e.2 := by
  by_cases count : values.length = s.columns.length
  · by_cases lengths : ∀ c ∈ s.columns, c.type = .fixedString → c.length ≠ none
    · rw [refusal?_of_lengths count lengths, ← Nat.not_lt]
      by_cases wide : maxAllocation < s.span
      · simp [wide]
      · simpa [wide, count, Column.refusal?_eq_none_iff] using fun _ => lengths
    · have undeclared : s.columns.findSome? Column.undeclared? ≠ none := by
        simpa only [ne_eq, List.findSome?_eq_none_iff, undeclared?_eq_none_iff] using lengths
      obtain ⟨e, known⟩ := Option.ne_none_iff_exists'.mp undeclared
      simp [refusal?, count, lengths, known]
  · simp [refusal?, count]

/-- The parts of an encoded row are its values as their columns lay them out. -/
theorem lays_of_parts {parts : List Bytes} (written : Parts 0 s.columns values parts) :
    List.Forall₂ (fun e part => Lays e.1 e.2 part) (s.columns.zip values) parts := by
  obtain ⟨_, made⟩ := written
  rw [← zip_fieldsFrom 0, List.forall₂_map_left_iff]
  have inside := (List.forall₂_and_left _ _).mpr ⟨fun e member => member, made⟩
  refine inside.imp ?_
  rintro e part ⟨member, first⟩
  have wide := (width_of_mem_fieldsFrom (List.of_mem_zip member).1).2
  exact lays_of_encodeField wide first

/-- A row is encoded if it has a value for each column, every text column has a length, its bytes
can be allocated, and every value is of its column's type, a number in the range of its field or a
text of the declared length. Its bytes are then the fields in the order of the columns, each as wide
as its column and holding the text or the shortest word and zeros. Otherwise the first of these that
fails is the reason: of the bytes it is a panic, and of the others an error. -/
theorem encoded_row_is_its_fields {s : Schema} (fits : s.Declared → s.Fits)
    (values : List Value) :
    ((∃ bs, encode s values = .ok bs) ↔
      values.length = s.columns.length ∧
        (∀ c ∈ s.columns, c.type = .fixedString → c.length ≠ none) ∧
        s.span ≤ maxAllocation ∧ ∀ e ∈ s.columns.zip values, e.1.Stores e.2) ∧
      (∀ bs, encode s values = .ok bs → ∃ parts, bs = parts.flatten ∧
        List.Forall₂ (fun e part => Lays e.1 e.2 part) (s.columns.zip values) parts) ∧
      ∀ e, encode s values = .error e ↔ refusal? s values = some e := by
  have failure := failure?_encode fits values
  have accepted : (∃ bs, encode s values = .ok bs) ↔
      values.length = s.columns.length ∧
        (∀ c ∈ s.columns, c.type = .fixedString → c.length ≠ none) ∧
        s.span ≤ maxAllocation ∧ ∀ e ∈ s.columns.zip values, e.1.Stores e.2 := by
    rw [← failure?_eq_none_iff, failure, refusal?_eq_none_iff]
  refine ⟨accepted, ?_, ?_⟩
  · intro bs encoded
    obtain ⟨_, lengths, _⟩ := accepted.mp ⟨bs, encoded⟩
    have declared := declared_iff.mpr lengths
    obtain ⟨_, _, parts, written, flat⟩ := (encode_eq_ok_iff (fits declared)).mp encoded
    exact ⟨parts, flat, lays_of_parts written⟩
  · intro e
    rw [← failure, failure?_eq_some_iff]

/-- The least number that four bytes hold is stored, and the one below it is refused before the text
that is too long. -/
theorem encoded_row_is_its_fields_at_lower_bound :
    let s : Schema := ⟨"t", [.plain .int32 "a", .plain .uint64 "b", .fixedString "c" 2]⟩
    let values : List Value := [.int32 (-134217728), .uint64 300, .fixedString "é"]
    (s.Declared → s.Fits) ∧
      (∃ bs parts, encode s values = .ok bs ∧ bs = parts.flatten ∧
        List.Forall₂ (fun e part => Lays e.1 e.2 part) (s.columns.zip values) parts) ∧
      encode s [.int32 (-134217729), .uint64 300, .fixedString "long"] =
        .error (.reported (.fieldOverflow "a" 4)) := by
  intro s values
  have fits : s.Declared → s.Fits := fun _ => by decide
  obtain ⟨accepted, lays, _⟩ := encoded_row_is_its_fields fits values
  obtain ⟨_, _, refused⟩ :=
    encoded_row_is_its_fields fits [.int32 (-134217729), .uint64 300, .fixedString "long"]
  obtain ⟨bs, encoded⟩ := accepted.mpr (by decide)
  obtain ⟨parts, flat, each⟩ := lays bs encoded
  exact ⟨fits, ⟨bs, parts, encoded, flat, each⟩, (refused _).mpr (by decide)⟩

/-- A text of one byte is not refused by the one column, of 2 ^ 63 bytes: before the column is
looked at, there are more bytes to allocate than can be. -/
theorem encode_panics_of_half_word :
    let c : Column := .fixedString "a" 0x8000000000000000
    let s : Schema := ⟨"t", [c]⟩
    s.validate = .ok () ∧ s.Fits ∧
      c.refusal? (.fixedString "x") = some (.textLength "a" 9223372036854775808 1) ∧
      encode s [.fixedString "x"] ≠
        .error (.reported (.textLength "a" 9223372036854775808 1)) ∧
      encode s [.fixedString "x"] = .error (.panic .capacityOverflow) := by
  intro c s
  have panics : encode s [.fixedString "x"] = .error (.panic .capacityOverflow) := by
    decide +kernel
  refine ⟨by decide +kernel, by decide, by decide +kernel, ?_, panics⟩
  rw [panics]
  nofun

end Row

end RowFormat
end RowStore
