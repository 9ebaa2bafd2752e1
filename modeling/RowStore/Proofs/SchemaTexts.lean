import RowStore.Proofs.Catalogs
import RowStore.Proofs.Characters
import RowStore.Proofs.RowKeys
import RowStore.Proofs.Splitting

namespace RowStore

namespace Text

theorem le_ofDigitChars (ds : List Char) (n : Nat) : n ≤ Nat.ofDigitChars 10 ds n := by
  rw [Nat.ofDigitChars_eq_ofDigitChars_zero]
  exact Nat.le_add_right_of_le (Nat.le_mul_of_pos_left n (Nat.pow_pos (by decide)))

/-- Reading on gives the number that the digits spell, unless a word is too narrow for it. -/
theorem wordFrom_eq_ok_iff {cs : List Char} {n : Nat} (small : n < 0x10000000000000000)
    {m : UInt64} :
    wordFrom n cs = .ok m ↔
      (∀ c ∈ cs, c.isDigit = true) ∧ Nat.ofDigitChars 10 cs n = m.toNat := by
  induction cs generalizing n with
  | nil =>
      rw [wordFrom, Nat.ofDigitChars_nil, Except.ok.injEq, ← UInt64.toNat_inj,
        UInt64.toNat_ofNat_of_lt' small]
      simp
  | cons c cs ih =>
      have step : 10 * n + (c.toNat - '0'.toNat) = n * 10 + digitValue c := by
        rw [Nat.mul_comm, digitValue]
      rw [wordFrom, Nat.ofDigitChars_cons, step, List.forall_mem_cons]
      by_cases digit : c.isDigit = true
      · rw [if_neg (by simp [digit])]
        by_cases next : n * 10 + digitValue c < 0x10000000000000000
        · rw [if_pos next, ih next]
          simp [digit]
        · rw [if_neg next]
          have above := le_ofDigitChars cs (n * 10 + digitValue c)
          have below := m.toNat_lt
          exact ⟨nofun, fun ⟨_, same⟩ => by omega⟩
      · rw [if_pos (by simp [digit])]
        exact ⟨nofun, fun ⟨⟨first, _⟩, _⟩ => absurd first digit⟩

/-- A word is read back from its decimal text. -/
theorem word_toDigits (n : UInt64) : word (Nat.toDigits 10 n.toNat) = .ok n := by
  have digits := RowKey.digits_toDigits n.toNat
  have read : wordFrom 0 (Nat.toDigits 10 n.toNat) = .ok n :=
    (wordFrom_eq_ok_iff (by decide)).mpr ⟨digits, Nat.ofDigitChars_ten_toDigits⟩
  unfold word
  split
  · rename_i signed
    exact absurd (digits '+' (signed ▸ List.mem_cons_self)) (by decide)
  · rename_i signed
    exact absurd (digits '+' (signed ▸ List.mem_cons_self)) (by decide)
  · rename_i nothing
    exact absurd nothing Nat.toDigits_ne_nil
  · exact read

end Text

namespace Column

/-- What the text of a column tells it by: its name is one word, and its length, which only a
FixedString shows, is not one that another type hides. -/
structure Legible (c : Column) : Prop where
  named : c.name ≠ ""
  solid : ∀ d ∈ c.name.toList, Text.isBlank d = false
  unhidden : c.type ≠ .fixedString → c.length = none

theorem legible_of_solid {c : Column} (word : Text.Solid c.name.toList)
    (unhidden : c.type ≠ .fixedString → c.length = none) : c.Legible :=
  ⟨mt String.toList_eq_nil_iff.mpr word.nonempty, word.solid, unhidden⟩

theorem solid_of_mem_words {line name : List Char} (member : name ∈ Text.words line) :
    Text.Solid (String.ofList name).toList := by
  rw [String.toList_ofList]
  exact Text.solid_of_mem_words member

theorem Legible.solid_name {c : Column} (legible : c.Legible) : Text.Solid c.name.toList :=
  ⟨mt String.toList_eq_nil_iff.mp legible.named, legible.solid⟩

/-- The words of a column's text. -/
def fields (c : Column) : List (List Char) :=
  match c.type, c.length with
  | .fixedString, some length =>
      [c.type.name.toList, c.name.toList, Nat.toDigits 10 length.toNat]
  | _, _ => [c.type.name.toList, c.name.toList]

theorem toList_text (c : Column) : c.text.toList = Text.spaced c.fields := by
  have spoken (s : String) : toString s = s := rfl
  unfold text
  split
  · rename_i length typed sized
    simp only [fields, typed, sized, Text.spaced_cons_cons, Text.spaced_singleton]
    simp [spoken, Nat.toList_repr]
  · simp only [fields, Text.spaced_cons_cons, Text.spaced_singleton]
    simp [spoken]

theorem solid_typeName (type : ColumnType) : Text.Solid type.name.toList := by
  cases type <;> exact Text.solid_of_all (by decide) (by decide)

theorem solid_toDigits (n : Nat) : Text.Solid (Nat.toDigits 10 n) := by
  refine ⟨Nat.toDigits_ne_nil, fun c member => Bool.eq_false_iff.mpr fun blank => ?_⟩
  have digit := RowKey.digits_toDigits n c member
  rw [Sql.isDigit_of_blank blank] at digit
  cases digit

theorem solid_fields {c : Column} (legible : c.Legible) : ∀ w ∈ c.fields, Text.Solid w := by
  unfold fields
  split <;> simp only [List.forall_mem_cons]
  · exact ⟨solid_typeName _, legible.solid_name, solid_toDigits _, List.forall_mem_nil _⟩
  · exact ⟨solid_typeName _, legible.solid_name, List.forall_mem_nil _⟩

@[simp] theorem typeNamed_name (type : ColumnType) : typeNamed type.name = .ok type := by
  cases type <;> rfl

theorem legible_of_ofLine {line : List Char} {c : Column} (read : ofLine line = .ok c) :
    c.Legible := by
  unfold ofLine at read
  split at read
  · rename_i type name two
    have member : name ∈ Text.words line := two ▸ List.mem_cons_of_mem _ List.mem_cons_self
    obtain ⟨t, _, read⟩ := bind_eq_ok_iff.mp read
    by_cases typed : t = .fixedString
    · rw [if_pos typed] at read
      cases read
    · rw [if_neg typed] at read
      obtain rfl := Except.ok.inj read
      exact legible_of_solid (solid_of_mem_words member) fun _ => rfl
  · rename_i type name length three
    have member : name ∈ Text.words line := three ▸ List.mem_cons_of_mem _ List.mem_cons_self
    obtain ⟨t, _, read⟩ := bind_eq_ok_iff.mp read
    by_cases typed : t = .fixedString
    · rw [if_neg (not_not_intro typed)] at read
      cases counted : Text.word length with
      | error e =>
          rw [counted] at read
          cases read
      | ok n =>
          rw [counted] at read
          obtain rfl := Except.ok.inj read
          exact legible_of_solid (solid_of_mem_words member) fun other => absurd rfl other
    · rw [if_pos typed] at read
      cases read
  · cases read

theorem ofLine_spaced_fields {c : Column} (legible : c.Legible)
    (sized : c.type = .fixedString → c.length ≠ none) : ofLine (Text.spaced c.fields) = .ok c := by
  rw [ofLine, Text.words_spaced (solid_fields legible)]
  obtain ⟨name, type, length⟩ := c
  by_cases typed : type = .fixedString
  · subst typed
    obtain ⟨n, rfl⟩ := Option.ne_none_iff_exists'.mp (sized rfl)
    simp [fields, Text.word_toDigits, fixedString, pure, Except.pure]
  · obtain rfl := legible.unhidden typed
    simp [fields, typed, plain, pure, Except.pure]

end Column

namespace Schema

/-- A table's schema that its own text declares: the text shows each of its columns whole. -/
structure Legible (s : Schema) : Prop where
  valid : s.validate = .ok ()
  columns : ∀ c ∈ s.columns, c.Legible

theorem parse_eq_ok_iff {table text : String} {s : Schema} :
    parse table text = .ok s ↔
      (declarations text).mapM Column.ofLine = .ok s.columns ∧ s.table = table ∧
        s.validate = .ok () := by
  unfold parse
  simp only [bind_eq_ok_iff, pure, Except.pure, Except.ok.injEq]
  constructor
  · rintro ⟨columns, read, ⟨⟩, valid, rfl⟩
    exact ⟨read, rfl, valid⟩
  · rintro ⟨read, rfl, valid⟩
    exact ⟨s.columns, read, (), valid, rfl⟩

/-- A schema that was read shows its columns whole. -/
theorem legible_of_parse {table text : String} {s : Schema} (read : parse table text = .ok s) :
    s.Legible := by
  obtain ⟨declared, _, valid⟩ := parse_eq_ok_iff.mp read
  refine ⟨valid, fun c member => ?_⟩
  have each : List.Forall₂ (fun c line => c.Legible ∧ Column.ofLine line = .ok c) s.columns
      (declarations text) :=
    (mapM_eq_ok_iff.mp declared).flip.imp fun _ _ read => ⟨Column.legible_of_ofLine read, read⟩
  exact ((List.forall₂_and_left _ _).mp each).1 c member

/-- No column's line is blank or taken for a comment. -/
theorem isIdle_spaced_fields (c : Column) : isIdle (Text.spaced c.fields) = false := by
  obtain ⟨others, fields⟩ : ∃ others, c.fields = c.type.name.toList :: others := by
    unfold Column.fields
    split <;> exact ⟨_, rfl⟩
  obtain ⟨rest, line⟩ := Text.spaced_cons c.type.name.toList others
  rw [fields, line]
  cases c.type <;> rfl

/-- The lines of a schema's text are those of its columns. -/
theorem declarations_text {s : Schema} (legible : ∀ c ∈ s.columns, c.Legible) :
    declarations s.text = s.columns.map fun c => Text.spaced c.fields := by
  have letters : s.text.toList =
      (s.columns.map fun c => Text.spaced c.fields).flatMap (· ++ ['\n']) := by
    rw [text, String.toList_join, List.flatMap_map, List.flatMap_map]
    refine List.flatMap_congr fun c _ => ?_
    rw [String.toList_append, Column.toList_text]
    rfl
  have single : ∀ line ∈ s.columns.map fun c => Text.spaced c.fields, '\n' ∉ line :=
    List.forall_mem_map.mpr fun c member =>
      Text.newline_not_mem_spaced (Column.solid_fields (legible c member))
  have trimmed : (s.columns.map fun c => Text.spaced c.fields).map Text.trim =
      s.columns.map fun c => Text.spaced c.fields := by
    rw [List.map_map]
    exact List.map_congr_left fun c member =>
      Text.trim_spaced (Column.solid_fields (legible c member))
  have kept : (s.columns.map fun c => Text.spaced c.fields).filter (! isIdle ·) =
      s.columns.map fun c => Text.spaced c.fields :=
    List.filter_eq_self.mpr (List.forall_mem_map.mpr fun c _ => by simp [isIdle_spaced_fields])
  rw [declarations, letters, Text.lines_flatMap single, List.map_append, trimmed,
    List.filter_append, kept]
  exact List.append_nil _

theorem parse_text {s : Schema} (legible : s.Legible) : parse s.table s.text = .ok s := by
  obtain ⟨valid, legible⟩ := legible
  have sized := lengths_of_validate valid
  rw [parse_eq_ok_iff, declarations_text legible, mapM_eq_ok_iff, List.forall₂_map_left_iff,
    List.forall₂_same]
  exact ⟨fun c member => Column.ofLine_spaced_fields (legible c member) (sized c member), rfl,
    valid⟩

/-- The schemas that their own text declares are the legible ones, and so is every schema that any
text declares: it is read back from its own text, which then stays as it is. -/
theorem texts_round_trip :
    (∀ s : Schema, parse s.table s.text = .ok s ↔ s.Legible) ∧
      ∀ {table text : String} {s : Schema}, parse table text = .ok s →
        s.Legible ∧ s.table = table ∧ parse s.table s.text = .ok s ∧
          (parse s.table s.text).map Schema.text = .ok s.text := by
  refine ⟨fun s => ⟨legible_of_parse, parse_text⟩, fun {table text s} read => ?_⟩
  have legible := legible_of_parse read
  have again := parse_text legible
  exact ⟨legible, (parse_eq_ok_iff.mp read).2.1, again, congrArg (Except.map Schema.text) again⟩

/-- A comment, a blank line, tabs, a carriage return and a plus sign go, and the columns stay. -/
theorem texts_round_trip_of_untidy_text :
    let s : Schema := ⟨"t", [Column.fixedString "code" 3, Column.plain .int64 "id"]⟩
    let untidy := "# ids\n\n  FixedString\tcode +3\r\nInt64  id"
    parse "t" untidy = .ok s ∧ s.Legible ∧ s.text = "FixedString code 3\nInt64 id\n" ∧
      parse "t" s.text = .ok s := by
  intro s untidy
  have read : parse "t" untidy = .ok s := by decide +kernel
  obtain ⟨legible, _, again, _⟩ := texts_round_trip.2 read
  exact ⟨read, legible, by decide +kernel, again⟩

/-- A space in a name makes the text declare a length for a type that takes none. -/
example :
    parse "t" (Schema.text ⟨"t", [Column.plain .int64 "a 1"]⟩) =
      .error (.invalidSchema (.lengthUnwanted "Int64" "a")) := by
  decide +kernel

end Schema
end RowStore
