import RowStore.Proofs.Catalogs
import RowStore.Proofs.RowKeys
import RowStore.Proofs.RowLayout

namespace RowStore

/-- The value whose bytes are all zero. -/
def Column.zero (c : Column) : Value :=
  match c.type with
  | .int32 => .int32 0
  | .int64 => .int64 0
  | .uint32 => .uint32 0
  | .uint64 => .uint64 0
  | .date => .date ⟨0⟩
  | .fixedString => .fixedString (String.ofList (List.replicate c.span '\x00'))

theorem Schema.declared_of_validate {s : Schema} (valid : s.validate = .ok ()) : s.Declared :=
  RowFormat.declared_iff.mpr (lengths_of_validate valid)

theorem Text.utf8_replicate_nul (n : Nat) :
    utf8 (String.ofList (List.replicate n '\x00')) = List.replicate n 0 := by
  rw [utf8_eq_flatMap, String.toList_ofList]
  induction n with
  | zero => rfl
  | succ n ih =>
      rw [List.replicate_succ, List.flatMap_cons, ih]
      rfl

namespace RowFormat

def Panics {α : Type} (x : Except (Failure CodecError) α) : Prop := ∃ p, x = .error (.panic p)

theorem panics_of_failure {α : Type} {x : Except (Failure CodecError) α} {p : Panic}
    (failed : failure? x = some (.panic p)) : Panics x :=
  ⟨p, failure?_eq_some_iff.mp failed⟩

section Field

variable {f : Field}

theorem packed_zero (positive : 0 < f.width) : packed f 0 = .ok (List.replicate f.width 0) := by
  obtain ⟨n, wide⟩ := Nat.exists_eq_add_one_of_ne_zero (Nat.ne_of_gt positive)
  have single : Varint.bytes 0 = [0] := Varint.bytes_of_last (by decide)
  rw [packed_eq, single, List.length_singleton, if_pos (Nat.succ_le_of_lt positive), wide,
    Nat.add_sub_cancel, List.singleton_append, List.replicate_succ]

theorem encodeField_zero (wide : f.width = f.column.span) :
    encodeField f f.column.zero = .ok (List.replicate f.width 0) := by
  unfold encodeField Column.zero
  cases type : f.column.type with
  | fixedString =>
      simp only [Text.utf8_replicate_nul, List.length_replicate, wide, if_true]
  | _ =>
      refine packed_zero ?_
      rw [wide, Column.span, Column.width?, type]
      simp only [ColumnType.width?, Option.getD_some]
      decide

theorem exists_decodeField_zeros (wide : f.width = f.column.span) :
    ∃ v, decodeField f (List.replicate f.width 0) = .ok v :=
  ⟨_, (decodeField_encodeField (encodeField_zero wide)).2⟩

theorem failure?_checked {α : Type} (size : Nat) (x : Except (Failure CodecError) α) :
    failure? (do f.check size; x) =
      if size < f.offset + f.width then some (.panic .outOfBounds) else failure? x := by
  rw [Field.check]
  split <;> rfl

end Field

section Row

variable {s : Schema}

/-- The last field ends where the widths of all columns add up to. -/
theorem exists_last_field {columns : List Column} (nonempty : columns ≠ []) (offset : Nat) :
    ∃ f ∈ fieldsFrom offset columns,
      f.offset + f.width = offset + (columns.map Column.span).sum := by
  induction columns generalizing offset with
  | nil => exact absurd rfl nonempty
  | cons c cs ih =>
      rw [fieldsFrom, List.map_cons, List.sum_cons]
      by_cases last : cs = []
      · subst last
        exact ⟨_, List.mem_cons_self, rfl⟩
      · obtain ⟨f, member, ends⟩ := ih last (offset + c.span)
        exact ⟨f, List.mem_cons_of_mem _ member, by omega⟩

theorem findSome?_of_mem {α β : Type} {p : α → Prop} [DecidablePred p] {b : β} {xs : List α}
    {x : α} (member : x ∈ xs) (holds : p x) :
    xs.findSome? (fun x => if p x then some b else none) = some b := by
  cases found : xs.findSome? (fun x => if p x then some b else none) with
  | none =>
      have other := List.findSome?_eq_none_iff.mp found x member
      rw [if_pos holds] at other
      cases other
  | some c =>
      obtain ⟨y, _, given⟩ := List.exists_of_findSome?_eq_some found
      split at given
      · exact given.symm
      · cases given

theorem exists_field_outside (wide : ¬ s.Fits) :
    ∃ f ∈ fieldsFrom 0 s.columns, s.span % 2 ^ 64 < f.offset + f.width := by
  have large : 2 ^ 64 ≤ s.span := Nat.le_of_not_lt wide
  have nonempty : s.columns ≠ [] := by
    intro empty
    rw [Schema.span, empty] at large
    cases large
  obtain ⟨f, member, ends⟩ := exists_last_field nonempty 0
  refine ⟨f, member, ?_⟩
  rw [ends, Nat.zero_add]
  exact Nat.lt_of_lt_of_le (Nat.mod_lt _ (by decide)) large

/-- Writing a row of zeros panics, at the latest at a field outside of the bytes. -/
theorem panics_encode_zero (declared : s.Declared) (wide : ¬ s.Fits) :
    Panics (encode s (s.columns.map Column.zero)) := by
  obtain ⟨f, member, outside⟩ := exists_field_outside wide
  have values : (fieldsFrom 0 s.columns).zip (s.columns.map Column.zero) =
      (fieldsFrom 0 s.columns).map fun f => (f, f.column.zero) := by
    have zeros : s.columns.map Column.zero =
        (fieldsFrom 0 s.columns).map (Column.zero ∘ Field.column) := by
      rw [← List.map_map, columns_fieldsFrom]
    rw [zeros, ← List.map_prod_left_eq_zip]
    rfl
  have each : ∀ e ∈ (fieldsFrom 0 s.columns).zip (s.columns.map Column.zero),
      failure? (do
        e.1.check (s.span % 2 ^ 64)
        (encodeField e.1 e.2).mapError Failure.reported) =
        if s.span % 2 ^ 64 < e.1.offset + e.1.width then some (.panic .outOfBounds) else none := by
    intro e there
    rw [values] at there
    obtain ⟨g, inside, rfl⟩ := List.mem_map.mp there
    rw [failure?_checked, encodeField_zero (width_of_mem_fieldsFrom inside).2]
    rfl
  have there : (f, f.column.zero) ∈ (fieldsFrom 0 s.columns).zip (s.columns.map Column.zero) :=
    values ▸ List.mem_map_of_mem member
  rw [encode_of_declared declared (List.length_map _)]
  by_cases unallocated : maxAllocation < s.span % 2 ^ 64
  · rw [if_pos unallocated]
    exact ⟨_, rfl⟩
  · apply panics_of_failure
    rw [if_neg unallocated, failure?_map, failure?_mapM each]
    exact findSome?_of_mem there outside

/-- Reading zeros panics at a field outside of them, although they are as many as asked for. -/
theorem panics_decode_zeros (declared : s.Declared) (wide : ¬ s.Fits) :
    Panics (decode s (List.replicate (s.span % 2 ^ 64) 0)) := by
  obtain ⟨f, member, outside⟩ := exists_field_outside wide
  have each : ∀ g ∈ fieldsFrom 0 s.columns,
      failure? (do
        g.check (List.replicate (s.span % 2 ^ 64) (0 : UInt8)).length
        (decodeField g (((List.replicate (s.span % 2 ^ 64) 0).drop g.offset).take
          g.width)).mapError Failure.reported) =
        if s.span % 2 ^ 64 < g.offset + g.width then some (.panic .outOfBounds) else none := by
    intro g inside
    rw [failure?_checked, List.length_replicate]
    split
    · rfl
    · rename_i within
      obtain ⟨v, read⟩ := exists_decodeField_zeros (width_of_mem_fieldsFrom inside).2
      have room : min g.width (s.span % 2 ^ 64 - g.offset) = g.width := by omega
      rw [List.drop_replicate, List.take_replicate, room, read]
      rfl
  apply panics_of_failure
  rw [decode, layout_of_declared declared]
  simp only [Except.mapError, ok_bind, List.length_replicate, Nat.lt_irrefl, if_false] at each ⊢
  refine (failure?_map _ (Row.mk s)).trans ?_
  rw [failure?_mapM each]
  exact findSome?_of_mem member outside

/-- No column gives a panic as the reason for a refusal. -/
theorem refusal?_eq_panic_iff (declared : s.Declared) {values : List Value} {p : Panic} :
    refusal? s values = some (.panic p) ↔
      p = .capacityOverflow ∧ values.length = s.columns.length ∧ maxAllocation < s.span := by
  by_cases count : values.length = s.columns.length
  · rw [refusal?_of_lengths count (declared_iff.mp declared)]
    by_cases wide : maxAllocation < s.span
    · simp [wide, count, eq_comm]
    · simp only [wide, if_false, and_false, iff_false, Option.map_eq_some_iff]
      rintro ⟨_, _, ⟨⟩⟩
  · simp [refusal?, count]

theorem encode_panics_iff (declared : s.Declared) (fits : s.Fits) {values : List Value}
    {p : Panic} :
    encode s values = .error (.panic p) ↔
      p = .capacityOverflow ∧ values.length = s.columns.length ∧ maxAllocation < s.span := by
  rw [← failure?_eq_some_iff, failure?_encode fun _ => fits, refusal?_eq_panic_iff declared]

theorem not_panics_decode (declared : s.Declared) (fits : s.Fits) (bs : Bytes) :
    ¬ Panics (decode s bs) := by
  rintro ⟨p, failed⟩
  rw [decode, layout_of_declared declared, Nat.mod_eq_of_lt fits] at failed
  simp only [Except.mapError, ok_bind] at failed
  by_cases short : bs.length < s.span
  · simp only [short, if_true] at failed
    cases failed
  · simp only [short, if_false] at failed
    rcases bind_eq_error_iff.mp failed with unread | ⟨values, _, made⟩
    · obtain ⟨f, member, failed⟩ := exists_of_mapM_error unread
      have within := within_of_mem_fieldsFrom member
      rw [Nat.zero_add] at within
      rw [check_of_within (Nat.le_trans within (Nat.le_of_not_lt short)), ok_bind] at failed
      cases outcome : decodeField f ((bs.drop f.offset).take f.width) <;>
        rw [outcome] at failed <;> cases failed
    · cases made

/-- A row that is too wide is never written, whatever its values. -/
theorem encode_ne_ok (wide : ¬ s.Fits) (values : List Value) (bs : Bytes) :
    encode s values ≠ .ok bs := by
  by_cases ready : s.Declared ∧ values.length = s.columns.length
  · obtain ⟨declared, count⟩ := ready
    rw [encode_of_declared declared count]
    intro encoded
    split at encoded
    · cases encoded
    · obtain ⟨parts, made, _⟩ := map_eq_ok_iff.mp encoded
      simp only [mapM_eq_ok_iff, checked_eq_ok_iff, List.forall₂_and_left] at made
      obtain ⟨f, member, outside⟩ := exists_field_outside wide
      have counted : (fieldsFrom 0 s.columns).length = values.length := by
        rw [count, ← List.length_map Field.column, columns_fieldsFrom]
      rw [← List.map_fst_zip (Nat.le_of_eq counted)] at member
      obtain ⟨e, there, rfl⟩ := List.mem_map.mp member
      exact absurd (made.1 e there) (Nat.not_le_of_lt outside)
  · obtain ⟨e, failed⟩ := encode_of_missing ready
    rw [failed]
    exact nofun

/-- As many bytes as such a row would need, no word can count. -/
theorem span_le_of_decode {bs : Bytes} {row : Row} (read : decode s bs = .ok row) :
    s.span ≤ bs.length := by
  obtain ⟨_, _, _, each⟩ := decode_eq_ok_iff.mp read
  obtain ⟨within, _⟩ := (List.forall₂_and_left _ _).mp each
  by_cases empty : s.columns = []
  · rw [Schema.span, empty]
    exact Nat.zero_le _
  · obtain ⟨f, member, ends⟩ := exists_last_field empty 0
    rw [Nat.zero_add] at ends
    calc s.span = f.offset + f.width := ends.symm
      _ ≤ bs.length := within f member

theorem rowWidth?_of_declared (declared : s.Declared) :
    ∃ w, s.rowWidth? = some w ∧ w.toNat = s.span % 2 ^ 64 := by
  obtain ⟨widths, known, total⟩ := widths?_of_declared declared
  refine ⟨widths.foldl (· + ·) 0, ?_, ?_⟩
  · rw [Schema.rowWidth?, known]
    rfl
  · rw [toNat_foldl_add, total, UInt64.toNat_zero, Nat.zero_add]

/-- The width of a table's rows is counted in a word. If the word holds it, every field lies within
the bytes of its row, no bytes make reading panic, and writing panics just for as many values as
there are columns, where the bytes of the row are more than can be allocated. If not, the width that
was counted is too small and some field lies outside: writing a row of zeros panics, and so does
reading as many zeros as the count asks for. No row is ever written then, nor read from bytes that a
word can count. -/
theorem panics_iff_row_too_wide {s : Schema} (valid : s.validate = .ok ()) :
    ∃ fields w, layout s = .ok (fields, w.toNat) ∧ s.rowWidth? = some w ∧
      (s.Fits → w.toNat = s.span ∧ (∀ f ∈ fields, f.offset + f.width ≤ w.toNat) ∧
        (∀ values p, encode s values = .error (.panic p) ↔
          p = .capacityOverflow ∧ values.length = s.columns.length ∧ maxAllocation < s.span) ∧
        ∀ bs, ¬ Panics (decode s bs)) ∧
      (¬ s.Fits → w.toNat = s.span % 2 ^ 64 ∧ w.toNat < s.span ∧
        (∃ f ∈ fields, w.toNat < f.offset + f.width) ∧
        Panics (encode s (s.columns.map Column.zero)) ∧
        Panics (decode s (List.replicate w.toNat 0)) ∧
        (∀ values bs, encode s values ≠ .ok bs) ∧
        ∀ bs row, decode s bs = .ok row → s.span ≤ bs.length) := by
  have declared := Schema.declared_of_validate valid
  obtain ⟨w, counted, size⟩ := rowWidth?_of_declared declared
  have layout := layout_of_declared declared
  rw [← size] at layout
  refine ⟨_, w, layout, counted, ?_, ?_⟩
  · intro fits
    have exact : w.toNat = s.span := size.trans (Nat.mod_eq_of_lt fits)
    refine ⟨exact, ?_, fun _ _ => encode_panics_iff declared fits,
      not_panics_decode declared fits⟩
    intro f member
    have within := within_of_mem_fieldsFrom member
    rw [exact]
    rwa [Nat.zero_add] at within
  · intro wide
    have large : 2 ^ 64 ≤ s.span := Nat.le_of_not_lt wide
    rw [size]
    exact ⟨rfl, Nat.lt_of_lt_of_le (Nat.mod_lt _ (by decide)) large, exists_field_outside wide,
      panics_encode_zero declared wide, panics_decode_zeros declared wide, encode_ne_ok wide,
      fun bs row => span_le_of_decode⟩

/-- Two columns that fill a word together, as a text declares them: the width of a row comes to 0,
and the first field lies outside of no bytes at all. -/
theorem panics_iff_row_too_wide_of_two_halves :
    let text := "FixedString a 9223372036854775808\nFixedString b 9223372036854775808\n"
    let half : UInt64 := 0x8000000000000000
    let s : Schema := ⟨"t", [.fixedString "a" half, .fixedString "b" half]⟩
    Schema.parse "t" text = .ok s ∧ s.validate = .ok () ∧ ¬ s.Fits ∧ s.rowWidth? = some 0 ∧
      Panics (decode s []) ∧ Panics (encode s (s.columns.map Column.zero)) := by
  intro text half s
  have valid : s.validate = .ok () := by decide +kernel
  have wide : ¬ s.Fits := by decide
  obtain ⟨fields, w, _, counted, _, wraps⟩ := panics_iff_row_too_wide valid
  obtain ⟨_, _, _, unwritten, unread, _⟩ := wraps wide
  have wrapped : s.rowWidth? = some 0 := by decide
  obtain rfl := Option.some.inj (wrapped.symm.trans counted)
  exact ⟨by decide +kernel, valid, wide, wrapped, unread, unwritten⟩

end Row

end RowFormat
end RowStore
