import RowStore.Proofs.RowLayout
import RowStore.Proofs.Typing

/-! What can be read can be written again. Other bytes than those that are written may be read,
with a longer word in a field or with more behind it than zeros: writing puts such fields in order
and keeps the values. -/
namespace RowStore.RowFormat

/-- A shortest word, and only zeros behind it. -/
def Tidy (part : Bytes) : Prop :=
  ∃ word zeros, Varint.Shortest word ∧ part = word ++ List.replicate zeros 0

section Field

variable {f : Field} {part : Bytes}

theorem read_of_unsigned {n : UInt64} (known : unsigned f part = .ok n) :
    ∃ k, Varint.read part = some (n, k) := by
  unfold unsigned at known
  cases found : Varint.read part with
  | none =>
      rw [found] at known
      cases known
  | some taken =>
      obtain ⟨w, k⟩ := taken
      rw [found] at known
      obtain rfl := Except.ok.inj known
      exact ⟨k, rfl⟩

theorem read_of_signed {n : Int64} (known : signed f part = .ok n) :
    ∃ k, Varint.read part = some (Varint.zigzag n, k) := by
  rw [signed_eq_map] at known
  obtain ⟨w, taken, rfl⟩ := map_eq_ok_iff.mp known
  rw [Varint.zigzag_unzigzag]
  exact read_of_unsigned taken

/-- Four bytes have no room for a word that 32 bits could not hold. -/
theorem range_of_signed (wide : part.length = 4) {n : Int64} (known : signed f part = .ok n) :
    -0x80000000 ≤ n.toInt ∧ n.toInt < 0x80000000 := by
  obtain ⟨k, found⟩ := read_of_signed known
  have small := Varint.toNat_lt_of_read found
  have word := Varint.toNat_zigzag n
  rw [wide] at small
  split at word <;> omega

theorem range_of_unsigned (wide : part.length = 4) {n : UInt64}
    (known : unsigned f part = .ok n) : n.toNat < 0x100000000 := by
  obtain ⟨k, found⟩ := read_of_unsigned known
  have small := Varint.toNat_lt_of_read found
  rw [wide] at small
  omega

/-- What stands for a number that was read is the word that its field begins with. -/
theorem code_of_decodeField (number : f.column.type ≠ .fixedString) {v : Value}
    (read : decodeField f part = .ok v) :
    ∃ w k, Varint.read part = some (w, k) ∧ v.code? = some w.toNat := by
  unfold decodeField at read
  cases type : f.column.type with
  | int32 =>
      simp only [type] at read
      obtain ⟨n, known, read⟩ := bind_eq_ok_iff.mp read
      obtain ⟨k, found⟩ := read_of_signed known
      split at read
      · rename_i range
        obtain rfl := Except.ok.inj read
        refine ⟨_, k, found, ?_⟩
        rw [toNat_zigzag_eq, ← toInt_toInt32 range]
        rfl
      · cases read
  | int64 | date =>
      simp only [type] at read
      obtain ⟨n, known, read⟩ := bind_eq_ok_iff.mp read
      obtain ⟨k, found⟩ := read_of_signed known
      obtain rfl := Except.ok.inj read
      refine ⟨_, k, found, ?_⟩
      rw [toNat_zigzag_eq]
      rfl
  | uint32 =>
      simp only [type] at read
      obtain ⟨n, known, read⟩ := bind_eq_ok_iff.mp read
      obtain ⟨k, found⟩ := read_of_unsigned known
      split at read
      · rename_i range
        obtain rfl := Except.ok.inj read
        refine ⟨_, k, found, congrArg some ?_⟩
        rw [UInt64.toNat_toUInt32]
        exact Nat.mod_eq_of_lt range
      · cases read
  | uint64 =>
      simp only [type] at read
      obtain ⟨n, known, read⟩ := bind_eq_ok_iff.mp read
      obtain ⟨k, found⟩ := read_of_unsigned known
      obtain rfl := Except.ok.inj read
      exact ⟨_, k, found, rfl⟩
  | fixedString => exact absurd type number

/-- A word is packed to the bytes that it was read from if those were tidy. -/
theorem packed_of_read (wide : part.length = f.width) {w : UInt64} {k : Nat}
    (found : Varint.read part = some (w, k)) :
    ∃ again, packed f w = .ok again ∧ again.length = f.width ∧ (again = part ↔ Tidy part) := by
  obtain ⟨ends, within, spelt⟩ := Varint.payload_of_read found
  have room : (Varint.bytes w).length ≤ f.width := by
    rw [Varint.length_bytes_le_iff (by omega), ← wide]
    exact Varint.toNat_lt_of_read found
  have size : (Varint.bytes w ++ List.replicate (f.width - (Varint.bytes w).length) 0).length =
      f.width := by
    rw [List.length_append, List.length_replicate]
    omega
  refine ⟨_, by rw [packed_eq, if_pos room], size, ?_, ?_⟩
  · intro same
    exact ⟨_, _, Varint.shortest_bytes w, same.symm⟩
  · rintro ⟨word, zeros, short, rfl⟩
    have front : k = word.length := by
      rw [ends, Varint.continued_append short.announced, short.announced]
    rw [front, List.take_left] at spelt
    obtain rfl := Varint.eq_bytes_of_shortest short spelt.symm
    rw [List.length_append, List.length_replicate] at wide
    rw [← wide, Nat.add_sub_cancel_left]

/-- What is read from a field can be written to it again. -/
theorem encodeField_decodeField (wide : part.length = f.width) {v : Value}
    (read : decodeField f part = .ok v) :
    ∃ again, encodeField f v = .ok again ∧ again.length = f.width ∧
      (again = part ↔ (f.column.type ≠ .fixedString → Tidy part)) := by
  obtain ⟨typed, spelt⟩ := type_of_decodeField read
  by_cases text : f.column.type = .fixedString
  · rcases text_or_number v with ⟨s, rfl⟩ | ⟨number, _⟩
    · have same : Text.utf8 s = part := spelt s rfl
      refine ⟨part, ?_, wide, fun _ other => absurd text other, fun _ => rfl⟩
      rw [encodeField_of_text text, same, if_pos wide]
    · rw [text] at typed
      cases v <;> cases typed
      cases number
  · obtain ⟨w, k, found, code⟩ := code_of_decodeField text read
    obtain ⟨w', value, packs⟩ := encodeField_of_code typed code
    obtain rfl := UInt64.toNat_inj.mp value
    obtain ⟨again, packed, size, tidy⟩ := packed_of_read wide found
    refine ⟨again, packs.trans packed, size, tidy.trans ?_⟩
    exact ⟨fun tidy _ => tidy, fun tidy => tidy text⟩

end Field

section Row

/-- The values of fields that were read give fields again, and the same ones where they are tidy. -/
theorem parts_of_decoded {columns : List Column} {values : List Value} {bs : Bytes} {offset : Nat}
    (read : List.Forall₂
      (fun f v => f.offset + f.width ≤ bs.length ∧ decodeField f (f.cut bs) = .ok v)
      (fieldsFrom offset columns) values) :
    ∃ parts, Parts offset columns values parts ∧
      (parts.flatten = (bs.drop offset).take (columns.map Column.span).sum ↔
        ∀ f ∈ fieldsFrom offset columns, f.column.type ≠ .fixedString → Tidy (f.cut bs)) := by
  induction columns generalizing offset values with
  | nil =>
      cases read
      exact ⟨[], ⟨rfl, .nil⟩, by simp [fieldsFrom]⟩
  | cons c cs ih =>
      cases read with
      | @cons f v fs vs first later =>
          obtain ⟨within, read⟩ := first
          obtain ⟨parts, ⟨count, made⟩, tidy⟩ := ih later
          have wide := length_cut within
          obtain ⟨part, written, size, same⟩ := encodeField_decodeField wide read
          refine ⟨part :: parts, ⟨congrArg Nat.succ count, .cons written made⟩, ?_⟩
          have split : (bs.drop offset).take (c.span + (cs.map Column.span).sum) =
              Field.cut ⟨c, offset, c.span⟩ bs ++
                (bs.drop (offset + c.span)).take (cs.map Column.span).sum := by
            rw [List.take_add, List.drop_drop]
            rfl
          rw [List.flatten_cons, List.map_cons, List.sum_cons, split, fieldsFrom,
            List.forall_mem_cons, ← same, ← tidy]
          constructor
          · intro equal
            exact List.append_inj equal (size.trans wide.symm)
          · rintro ⟨rfl, equal⟩
            rw [equal]

/-- A row that was read from any bytes that a program can hold can be written again, and reads the
same. It comes to the bytes that it was read from exactly if every number stood there as its
shortest word with nothing but zeros behind it. And a word that is read from a field of 32 bits is
never too large for a number of 32 bits. -/
theorem decoded_rows_are_encoded_back {s : Schema} (fits : s.Declared → s.Fits) (bs : Bytes) :
    (bs.length ≤ maxAllocation → ∀ row, decode s bs = .ok row →
      ∃ out, encode row.schema row.values = .ok out ∧ decode s out = .ok row ∧
        (out = bs.take s.span ↔ ∀ f ∈ fieldsFrom 0 s.columns,
          f.column.type ≠ .fixedString → Tidy (f.cut bs))) ∧
      ∀ (f : Field) (part : Bytes), part.length = f.column.span →
        (f.column.type = .int32 → ∀ n, signed f part = .ok n →
          -0x80000000 ≤ n.toInt ∧ n.toInt < 0x80000000) ∧
          (f.column.type = .uint32 → ∀ n, unsigned f part = .ok n → n.toNat < 0x100000000) := by
  constructor
  · intro held row read
    obtain ⟨declared, enough, rfl, each⟩ := decode_eq_ok_iff.mp read
    rw [Nat.mod_eq_of_lt (fits declared)] at enough
    obtain ⟨parts, written, tidy⟩ := parts_of_decoded each
    have encoded : encode row.schema row.values = .ok parts.flatten :=
      (encode_eq_ok_iff (fits declared)).mpr
        ⟨declared, Nat.le_trans enough held, parts, written, rfl⟩
    have readBack := (decode_encode (fits declared) encoded []).2
    rw [List.append_nil] at readBack
    exact ⟨parts.flatten, encoded, readBack, tidy⟩
  · intro f part wide
    have four : f.column.type = .int32 ∨ f.column.type = .uint32 → part.length = 4 := by
      rintro (type | type)
      all_goals
        rw [wide, Column.span, Column.width?, type]
        rfl
    exact ⟨fun type n => range_of_signed (four (.inl type)),
      fun type n => range_of_unsigned (four (.inr type))⟩

/-- A zero in two bytes with more behind it is read, and written as four zeros. The largest word
of four bytes stays below 2 ^ 32. -/
theorem decoded_rows_are_encoded_back_of_long_zero :
    let s : Schema := ⟨"t", [.plain .int32 "id", .fixedString "code" 2]⟩
    let bs : Bytes := [0x80, 0x00, 0x55, 0xFF, 0x6F, 0x6B, 0xFF]
    let f : Field := ⟨.plain .uint32 "n", 0, 4⟩
    (s.Declared → s.Fits) ∧ bs.length ≤ maxAllocation ∧
      (∃ row out, decode s bs = .ok row ∧ encode row.schema row.values = .ok out ∧
        decode s out = .ok row ∧ out = [0, 0, 0, 0, 0x6F, 0x6B] ∧
        ¬ ∀ f ∈ fieldsFrom 0 s.columns, f.column.type ≠ .fixedString → Tidy (f.cut bs)) ∧
      unsigned f [0xFF, 0xFF, 0xFF, 0x7F] = .ok 0xFFFFFFF ∧ 0xFFFFFFF < 0x100000000 := by
  intro s bs f
  have fits : s.Declared → s.Fits := fun _ => by decide
  obtain ⟨back, range⟩ := decoded_rows_are_encoded_back fits bs
  have read : decode s bs = .ok ⟨s, [.int32 0, .fixedString "ok"]⟩ := by decide +kernel
  have written : encode s [.int32 0, .fixedString "ok"] = .ok [0, 0, 0, 0, 0x6F, 0x6B] := by
    decide +kernel
  have held : bs.length ≤ maxAllocation := by decide
  obtain ⟨out, encoded, readBack, tidy⟩ := back held _ read
  obtain rfl := Except.ok.inj (written.symm.trans encoded)
  refine ⟨fits, held, ⟨_, _, read, encoded, readBack, rfl, ?_⟩, rfl, ?_⟩
  · rw [← tidy]
    decide
  · exact (range f [0xFF, 0xFF, 0xFF, 0x7F] rfl).2 rfl 0xFFFFFFF rfl

end Row

end RowStore.RowFormat
