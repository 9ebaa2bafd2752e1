import RowStore.Proofs.Outcomes
import RowStore.Proofs.TextBytes
import RowStore.Proofs.Words
import RowStore.RowFormat

namespace RowStore

/-- The width of a column's field, and of none where the column declares no width. -/
def Column.span (c : Column) : Nat := (c.width?.getD 0).toNat

namespace Schema

/-- The width of a row, where a word can hold it or not. -/
def span (s : Schema) : Nat := (s.columns.map Column.span).sum

/-- A word can hold the width of a row. -/
def Fits (s : Schema) : Prop := s.span < 2 ^ 64

instance (s : Schema) : Decidable s.Fits := inferInstanceAs (Decidable (_ < _))

/-- Every column has a width. -/
def Declared (s : Schema) : Prop := ∀ c ∈ s.columns, c.width?.isSome

end Schema

namespace RowFormat

/-- The fields of columns that lie one after another. -/
def fieldsFrom (offset : Nat) : List Column → List Field
  | [] => []
  | c :: cs => ⟨c, offset, c.span⟩ :: fieldsFrom (offset + c.span) cs

theorem width_of_mem_fieldsFrom {columns : List Column} {offset : Nat} {f : Field}
    (member : f ∈ fieldsFrom offset columns) :
    f.column ∈ columns ∧ f.width = f.column.span := by
  induction columns generalizing offset with
  | nil => nomatch member
  | cons c cs ih =>
      rcases List.mem_cons.mp member with rfl | later
      · exact ⟨List.mem_cons_self, rfl⟩
      · obtain ⟨inside, wide⟩ := ih later
        exact ⟨List.mem_cons_of_mem _ inside, wide⟩

theorem columns_fieldsFrom (offset : Nat) (columns : List Column) :
    (fieldsFrom offset columns).map Field.column = columns := by
  induction columns generalizing offset with
  | nil => rfl
  | cons c cs ih => rw [fieldsFrom, List.map_cons, ih]

/-- The bytes of a field within those of its row. -/
def Field.cut (f : Field) (bs : Bytes) : Bytes := (bs.drop f.offset).take f.width

theorem length_cut {f : Field} {bs : Bytes} (within : f.offset + f.width ≤ bs.length) :
    (f.cut bs).length = f.width := by
  apply List.length_take_of_le
  rw [List.length_drop]
  exact Nat.le_sub_of_add_le' within

section Layout

theorem width_eq_ok_iff {c : Column} {w : UInt64} : width c = .ok w ↔ c.width? = some w := by
  unfold width
  cases c.width? <;> simp

theorem span_of_width {c : Column} {w : UInt64} (declared : width c = .ok w) :
    w.toNat = c.span := by
  rw [Column.span, width_eq_ok_iff.mp declared, Option.getD_some]

theorem placed_zip {columns : List Column} {widths : List UInt64} (offset : Nat)
    (declared : List.Forall₂ (fun c w => width c = .ok w) columns widths) :
    placed offset (columns.zip widths) = fieldsFrom offset columns := by
  induction declared generalizing offset with
  | nil => rfl
  | cons first _ ih => simp only [List.zip_cons_cons, placed, fieldsFrom, span_of_width first, ih]

theorem sum_widths {columns : List Column} {widths : List UInt64}
    (declared : List.Forall₂ (fun c w => width c = .ok w) columns widths) :
    (widths.map UInt64.toNat).sum = (columns.map Column.span).sum := by
  induction declared with
  | nil => rfl
  | cons first _ ih => simp only [List.map_cons, List.sum_cons, span_of_width first, ih]

theorem mapM_width? {columns : List Column} {widths : List UInt64}
    (declared : List.Forall₂ (fun c w => width c = .ok w) columns widths) :
    columns.mapM Column.width? = some widths := by
  induction declared with
  | nil => rfl
  | cons first _ ih => simp [List.mapM_cons, width_eq_ok_iff.mp first, ih]

/-- Widths are added up in a word. -/
theorem toNat_foldl_add (widths : List UInt64) (start : UInt64) :
    (widths.foldl (· + ·) start).toNat =
      (start.toNat + (widths.map UInt64.toNat).sum) % 2 ^ 64 := by
  induction widths generalizing start with
  | nil =>
      have below := start.toNat_lt
      simp only [List.foldl_nil, List.map_nil, List.sum_nil]
      omega
  | cons w ws ih =>
      rw [List.foldl_cons, ih, UInt64.toNat_add, List.map_cons, List.sum_cons]
      omega

theorem layout_eq_ok_iff {s : Schema} {fields : List Field} {size : Nat} :
    layout s = .ok (fields, size) ↔
      s.Declared ∧ fields = fieldsFrom 0 s.columns ∧ size = s.span % 2 ^ 64 := by
  have widths : s.Declared ↔ ∃ ws, s.columns.mapM width = .ok ws := by
    simp only [mapM_ok_iff, width_eq_ok_iff, Schema.Declared, Option.isSome_iff_exists]
  have sizes : ∀ ws, s.columns.mapM width = .ok ws →
      placed 0 (s.columns.zip ws) = fieldsFrom 0 s.columns ∧
        (ws.foldl (· + ·) 0).toNat = s.span % 2 ^ 64 := by
    intro ws known
    have declared := mapM_eq_ok_iff.mp known
    refine ⟨placed_zip 0 declared, ?_⟩
    rw [toNat_foldl_add, sum_widths declared, UInt64.toNat_zero, Nat.zero_add, Schema.span]
  unfold layout
  rw [widths, bind_eq_ok_iff]
  constructor
  · rintro ⟨ws, known, answered⟩
    obtain ⟨places, total⟩ := sizes ws known
    obtain ⟨rfl, rfl⟩ := Prod.mk.inj (Except.ok.inj answered)
    exact ⟨⟨ws, known⟩, places, total⟩
  · rintro ⟨⟨ws, known⟩, rfl, rfl⟩
    obtain ⟨places, total⟩ := sizes ws known
    refine ⟨ws, known, ?_⟩
    rw [places, total]
    rfl

theorem layout_of_declared {s : Schema} (declared : s.Declared) :
    layout s = .ok (fieldsFrom 0 s.columns, s.span % 2 ^ 64) :=
  layout_eq_ok_iff.mpr ⟨declared, rfl, rfl⟩

theorem layout_of_fits {s : Schema} (declared : s.Declared) (fits : s.Fits) :
    layout s = .ok (fieldsFrom 0 s.columns, s.span) := by
  rw [layout_of_declared declared, Nat.mod_eq_of_lt fits]

end Layout

section Field

/-- A packed word stands at the front of its field. -/
theorem packed_eq_ok {f : Field} {v : UInt64} {bs : Bytes} (written : packed f v = .ok bs) :
    bs.length = f.width ∧ ∃ rest, bs = Varint.bytes v ++ rest := by
  simp only [packed, Varint.put_eq, List.length_replicate] at written
  by_cases room : (Varint.bytes v).length ≤ f.width
  · rw [if_pos room, List.take_of_length_le room, List.drop_replicate] at written
    obtain rfl := Except.ok.inj written
    refine ⟨?_, _, rfl⟩
    rw [List.length_append, List.length_replicate]
    omega
  · rw [if_neg room] at written
    nomatch written

/-- A signed number is the one that its unsigned word stands for. -/
theorem signed_eq_map (f : Field) (bs : Bytes) :
    signed f bs = (unsigned f bs).map Varint.unzigzag := by
  unfold signed unsigned Varint.readSigned
  cases Varint.read bs <;> rfl

theorem signed_bytes (f : Field) (v : Int64) (rest : Bytes) :
    signed f (Varint.bytes (Varint.zigzag v) ++ rest) = .ok v := by
  simp only [signed, Varint.readSigned_bytes]

theorem unsigned_bytes (f : Field) (v : UInt64) (rest : Bytes) :
    unsigned f (Varint.bytes v ++ rest) = .ok v := by
  simp only [unsigned, Varint.read_bytes]

/-- A field holds a value of its column's type, and gives it back. -/
theorem decodeField_encodeField {f : Field} {v : Value} {bs : Bytes}
    (written : encodeField f v = .ok bs) :
    bs.length = f.width ∧ decodeField f bs = .ok v := by
  rcases f with ⟨⟨name, type, length⟩, offset, width⟩
  cases type <;> cases v <;> simp only [encodeField, reduceCtorEq] at written <;>
    simp only [decodeField]
  case int32.int32 n =>
      obtain ⟨wide, rest, rfl⟩ := packed_eq_ok written
      have low := n.le_toInt
      have high := n.toInt_lt
      rw [signed_bytes, ok_bind, Int32.toInt_toInt64, if_pos ⟨low, high⟩]
      exact ⟨wide, congrArg (fun m => Except.ok (Value.int32 m)) (Int32.toInt32_toInt64 n)⟩
  case int64.int64 n =>
      obtain ⟨wide, rest, rfl⟩ := packed_eq_ok written
      rw [signed_bytes]
      exact ⟨wide, rfl⟩
  case uint32.uint32 n =>
      obtain ⟨wide, rest, rfl⟩ := packed_eq_ok written
      have high := n.toNat_lt
      rw [unsigned_bytes, ok_bind, UInt32.toNat_toUInt64, if_pos high]
      exact ⟨wide, congrArg (fun m => Except.ok (Value.uint32 m)) (UInt32.toUInt32_toUInt64 n)⟩
  case uint64.uint64 n =>
      obtain ⟨wide, rest, rfl⟩ := packed_eq_ok written
      rw [unsigned_bytes]
      exact ⟨wide, rfl⟩
  case date.date d =>
      obtain ⟨wide, rest, rfl⟩ := packed_eq_ok written
      rw [signed_bytes]
      exact ⟨wide, rfl⟩
  case fixedString.fixedString s =>
      by_cases wide : (Text.utf8 s).length = width
      · rw [if_pos wide] at written
        obtain rfl := Except.ok.inj written
        rw [Text.ofUtf8?_utf8]
        exact ⟨wide, rfl⟩
      · rw [if_neg wide] at written
        nomatch written

end Field

section Row

variable {columns : List Column} {values : List Value} {parts : List Bytes}

/-- The parts of a row, one for each value, each as its field has it. -/
def Parts (offset : Nat) (columns : List Column) (values : List Value) (parts : List Bytes) :
    Prop :=
  values.length = columns.length ∧
    List.Forall₂ (fun e part => encodeField e.1 e.2 = .ok part)
      ((fieldsFrom offset columns).zip values) parts

theorem Parts.length_flatten {offset : Nat} (written : Parts offset columns values parts) :
    parts.flatten.length = (columns.map Column.span).sum := by
  induction columns generalizing offset values parts with
  | nil =>
      obtain ⟨count, made⟩ := written
      obtain rfl := List.forall₂_nil_left_iff.mp made
      rfl
  | cons c cs ih =>
      obtain ⟨count, made⟩ := written
      cases values with
      | nil => nomatch count
      | cons v vs =>
          obtain ⟨part, parts', first, rest, rfl⟩ := List.forall₂_cons_left_iff.mp made
          have later := ih ⟨Nat.succ.inj count, rest⟩
          have wide := (decodeField_encodeField first).1
          rw [List.flatten_cons, List.length_append, later, wide, List.map_cons, List.sum_cons]

/-- Every field of a row gives its value back, from its place between what comes before the
fields and what comes after them. -/
theorem Parts.decoded (front : Bytes) (written : Parts front.length columns values parts)
    (rest : Bytes) :
    List.Forall₂ (fun f v =>
        f.offset + f.width ≤ (front ++ parts.flatten ++ rest).length ∧
          decodeField f (((front ++ parts.flatten ++ rest).drop f.offset).take f.width) = .ok v)
      (fieldsFrom front.length columns) values := by
  induction columns generalizing front values parts with
  | nil =>
      obtain ⟨count, _⟩ := written
      obtain rfl := List.length_eq_zero_iff.mp count
      exact .nil
  | cons c cs ih =>
      obtain ⟨count, made⟩ := written
      cases values with
      | nil => nomatch count
      | cons v vs =>
          obtain ⟨part, parts', first, later, rfl⟩ := List.forall₂_cons_left_iff.mp made
          obtain ⟨size, read⟩ := decodeField_encodeField first
          have wide : part.length = c.span := size
          have whole : front ++ (part :: parts').flatten ++ rest =
              front ++ part ++ parts'.flatten ++ rest := by
            simp only [List.flatten_cons, List.append_assoc]
          have next : (front ++ part).length = front.length + c.span := by
            rw [List.length_append, wide]
          -- What comes before the next field is longer by this part.
          rw [whole]
          refine .cons ⟨?_, ?_⟩ ?_
          · simp only [List.length_append, wide]
            omega
          · rw [List.append_assoc, List.append_assoc, List.drop_left, ← wide, List.take_left]
            exact read
          · rw [← next]
            exact ih (front ++ part) ⟨Nat.succ.inj count, next ▸ later⟩

theorem within_of_mem_fieldsFrom {offset : Nat} {f : Field}
    (member : f ∈ fieldsFrom offset columns) :
    f.offset + f.width ≤ offset + (columns.map Column.span).sum := by
  induction columns generalizing offset with
  | nil => nomatch member
  | cons c cs ih =>
      rw [List.map_cons, List.sum_cons]
      rcases List.mem_cons.mp member with rfl | later
      · show offset + c.span ≤ _
        omega
      · have within := ih later
        omega

theorem check_of_within {f : Field} {size : Nat} (within : f.offset + f.width ≤ size) :
    f.check size = .ok () := by
  rw [Field.check, if_neg (Nat.not_lt.mpr within)]

theorem checked_eq_ok_iff {α : Type} {f : Field} {size : Nat} {x : Except (Failure CodecError) α}
    {a : α} : (do f.check size; x) = .ok a ↔ f.offset + f.width ≤ size ∧ x = .ok a := by
  rw [Field.check]
  split
  · rename_i short
    exact ⟨nofun, fun h => absurd h.1 (Nat.not_le_of_lt short)⟩
  · rename_i room
    exact ⟨fun h => ⟨Nat.le_of_not_lt room, h⟩, fun h => h.2⟩

/-- What encoding comes to, where every column has a width and a value. -/
theorem encode_of_declared {s : Schema} (declared : s.Declared)
    (count : values.length = s.columns.length) :
    encode s values =
      if maxAllocation < s.span % 2 ^ 64 then .error (.panic .capacityOverflow)
      else (((fieldsFrom 0 s.columns).zip values).mapM fun (e : Field × Value) => do
        e.1.check (s.span % 2 ^ 64)
        (encodeField e.1 e.2).mapError Failure.reported).map List.flatten := by
  rw [encode, if_neg (not_not_intro count), layout_of_declared declared]
  simp only [Except.mapError, ok_bind]
  split <;> rfl

/-- What is missing from the columns or from the values is reported. -/
theorem encode_of_missing {s : Schema}
    (missing : ¬ (s.Declared ∧ values.length = s.columns.length)) :
    ∃ e, encode s values = .error (.reported e) := by
  by_cases count : values.length = s.columns.length
  · cases known : layout s with
    | error e =>
        rw [encode, if_neg (not_not_intro count), known]
        exact ⟨e, rfl⟩
    | ok found => exact absurd ⟨(layout_eq_ok_iff.mp known).1, count⟩ missing
  · rw [encode, if_pos count]
    exact ⟨_, rfl⟩

/-- What encoding a row that fits comes to. -/
theorem encode_eq_ok_iff {s : Schema} (fits : s.Fits) {bs : Bytes} :
    encode s values = .ok bs ↔
      s.Declared ∧ s.span ≤ maxAllocation ∧
        ∃ parts, Parts 0 s.columns values parts ∧ bs = parts.flatten := by
  have within : ∀ e ∈ (fieldsFrom 0 s.columns).zip values, e.1.offset + e.1.width ≤ s.span := by
    intro e member
    have bound := within_of_mem_fieldsFrom (List.of_mem_zip member).1
    rwa [Nat.zero_add] at bound
  by_cases ready : s.Declared ∧ values.length = s.columns.length
  · obtain ⟨declared, count⟩ := ready
    rw [encode_of_declared declared count, Nat.mod_eq_of_lt fits]
    by_cases wide : maxAllocation < s.span
    · rw [if_pos wide]
      exact ⟨nofun, fun ⟨_, room, _⟩ => absurd wide (Nat.not_lt.mpr room)⟩
    · simp only [wide, if_false, map_eq_ok_iff, mapM_eq_ok_iff, checked_eq_ok_iff,
        mapError_eq_ok_iff, List.forall₂_and_left]
      constructor
      · rintro ⟨parts, ⟨_, made⟩, rfl⟩
        exact ⟨declared, Nat.le_of_not_lt wide, parts, ⟨count, made⟩, rfl⟩
      · rintro ⟨_, _, parts, ⟨_, made⟩, rfl⟩
        exact ⟨parts, ⟨within, made⟩, rfl⟩
  · obtain ⟨e, failed⟩ := encode_of_missing ready
    rw [failed]
    exact ⟨nofun, fun ⟨declared, _, _, written, _⟩ => absurd ⟨declared, written.1⟩ ready⟩

/-- What decoding to a row comes to. -/
theorem decode_eq_ok_iff {s : Schema} {bs : Bytes} {row : Row} :
    decode s bs = .ok row ↔
      s.Declared ∧ s.span % 2 ^ 64 ≤ bs.length ∧ row.schema = s ∧
        List.Forall₂ (fun f v => f.offset + f.width ≤ bs.length ∧ decodeField f (f.cut bs) = .ok v)
          (fieldsFrom 0 s.columns) row.values := by
  unfold decode
  constructor
  · intro read
    obtain ⟨⟨fields, size⟩, known, read⟩ := bind_eq_ok_iff.mp read
    rw [mapError_eq_ok_iff] at known
    obtain ⟨declared, rfl, rfl⟩ := layout_eq_ok_iff.mp known
    by_cases short : bs.length < s.span % 2 ^ 64
    · simp only [short, if_true, throw_bind, reduceCtorEq] at read
    simp only [short, if_false] at read
    obtain ⟨values, each, read⟩ := bind_eq_ok_iff.mp read
    obtain rfl := Except.ok.inj read
    simp only [mapM_eq_ok_iff, checked_eq_ok_iff, mapError_eq_ok_iff] at each
    exact ⟨declared, Nat.le_of_not_lt short, rfl, each⟩
  · rintro ⟨declared, enough, rfl, each⟩
    refine bind_eq_ok_iff.mpr ⟨_, mapError_eq_ok_iff.mpr (layout_of_declared declared), ?_⟩
    simp only [Nat.not_lt.mpr enough, if_false]
    refine bind_eq_ok_iff.mpr ⟨row.values, ?_, rfl⟩
    simp only [mapM_eq_ok_iff, checked_eq_ok_iff, mapError_eq_ok_iff]
    exact each

/-- Decoding gives back the row that was encoded, whatever follows its bytes. -/
theorem decode_encode {s : Schema} (fits : s.Fits) {bs : Bytes} (encoded : encode s values = .ok bs)
    (rest : Bytes) : bs.length = s.span ∧ decode s (bs ++ rest) = .ok ⟨s, values⟩ := by
  obtain ⟨declared, _, parts, written, rfl⟩ := (encode_eq_ok_iff fits).mp encoded
  have wide : parts.flatten.length = s.span := written.length_flatten
  have enough : s.span % 2 ^ 64 ≤ (parts.flatten ++ rest).length := by
    rw [Nat.mod_eq_of_lt fits, List.length_append]
    omega
  exact ⟨wide, decode_eq_ok_iff.mpr ⟨declared, enough, rfl, Parts.decoded [] written rest⟩⟩

theorem widths?_of_declared {s : Schema} (declared : s.Declared) :
    ∃ widths, s.widths? = some widths ∧ s.span = (widths.map UInt64.toNat).sum := by
  obtain ⟨widths, known⟩ : ∃ widths, s.columns.mapM width = .ok widths := by
    rw [mapM_ok_iff]
    intro c member
    obtain ⟨w, known⟩ := Option.isSome_iff_exists.mp (declared c member)
    exact ⟨w, width_eq_ok_iff.mpr known⟩
  have each := mapM_eq_ok_iff.mp known
  exact ⟨widths, mapM_width? each, (sum_widths each).symm⟩

/-- Bytes that are too few are told apart by how many they are. -/
theorem decode_of_short {s : Schema} (declared : s.Declared) (fits : s.Fits) {bs : Bytes}
    (short : bs.length < s.span) :
    decode s bs = .error (.reported (.truncated s.span bs.length)) := by
  simp only [decode, layout_of_fits declared fits, Except.mapError, ok_bind, short, if_true,
    throw_bind]

/-- Encoded values take the widths of their columns, no more and no less. They are read back from
in front of any bytes, and cutting off any of their own is noticed. -/
theorem encoded_values_read_back {s : Schema} (fits : s.Fits) {bs : Bytes}
    (encoded : encode s values = .ok bs) :
    (∃ widths, s.widths? = some widths ∧ bs.length = (widths.map UInt64.toNat).sum) ∧
      (∀ rest, decode s (bs ++ rest) = .ok ⟨s, values⟩) ∧
      ∀ n, n < bs.length →
        decode s (bs.take n) = .error (.reported (.truncated bs.length n)) := by
  obtain ⟨declared, _⟩ := (encode_eq_ok_iff fits).mp encoded
  obtain ⟨widths, known, total⟩ := widths?_of_declared declared
  have wide : bs.length = s.span := (decode_encode fits encoded []).1
  refine ⟨⟨widths, known, wide.trans total⟩, fun rest => (decode_encode fits encoded rest).2, ?_⟩
  intro n cut
  have kept : (bs.take n).length = n := List.length_take_of_le (Nat.le_of_lt cut)
  have short : (bs.take n).length < s.span := by omega
  rw [decode_of_short declared fits short, kept, wide]

/-- The least number that four bytes hold, a text in two bytes to a letter, and a date. -/
theorem encoded_values_read_back_of_four_columns :
    let s : Schema := ⟨"t", [.plain .int32 "id", .fixedString "name" 4, .plain .uint64 "n",
      .plain .date "day"]⟩
    let values : List Value :=
      [.int32 (-134217728), .fixedString "éß", .uint64 72057594037927935, .date ⟨-1⟩]
    ∃ bs, s.Fits ∧ encode s values = .ok bs ∧ bs.length = 24 ∧
      decode s (bs ++ [0xFF]) = .ok ⟨s, values⟩ ∧
      decode s (bs.take 23) = .error (.reported (.truncated 24 23)) := by
  intro s values
  have fits : s.Fits := by decide
  obtain ⟨bs, encoded, size⟩ : ∃ bs, encode s values = .ok bs ∧ bs.length = 24 :=
    ⟨_, rfl, rfl⟩
  obtain ⟨_, readBack, cut⟩ := encoded_values_read_back fits encoded
  have short := cut 23 (by rw [size]; decide)
  rw [size] at short
  exact ⟨bs, fits, encoded, size, readBack _, short⟩

end Row

end RowFormat
end RowStore
