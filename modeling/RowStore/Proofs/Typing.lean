import RowStore.Proofs.Calling
import RowStore.Proofs.Relations
import RowStore.Proofs.RowCodec

namespace RowStore

/-- The value is of the column's type. Where `exact` is set a text is as long as declared. -/
structure Column.Holds (exact : Bool) (c : Column) (v : Value) : Prop where
  type : v.type = c.type
  length : exact = true → ∀ text, v = .fixedString text →
    ∃ n, c.length = some n ∧ (Text.utf8 text).length = n.toNat

theorem Column.holds_renamed {exact : Bool} {c : Column} {name : String} {v : Value} :
    (c.renamed name).Holds exact v ↔ c.Holds exact v :=
  ⟨fun h => ⟨h.type, h.length⟩, fun h => ⟨h.type, h.length⟩⟩

/-- One value for each column, each as its column has it. -/
def Row.Typed (exact : Bool) (r : Row) : Prop :=
  List.Forall₂ (Column.Holds exact) r.schema.columns r.values

section Stored

namespace RowFormat

theorem type_of_decodeField {f : Field} {bs : Bytes} {v : Value}
    (read : decodeField f bs = .ok v) :
    v.type = f.column.type ∧ ∀ text, v = .fixedString text → Text.utf8 text = bs := by
  cases type : f.column.type with
  | int32 | uint32 =>
      simp only [decodeField, type] at read
      obtain ⟨n, _, read⟩ := bind_eq_ok_iff.mp read
      split at read
      · obtain rfl := Except.ok.inj read
        exact ⟨rfl, fun _ same => by cases same⟩
      · cases read
  | int64 | uint64 | date =>
      simp only [decodeField, type] at read
      obtain ⟨n, _, read⟩ := bind_eq_ok_iff.mp read
      obtain rfl := Except.ok.inj read
      exact ⟨rfl, fun _ same => by cases same⟩
  | fixedString =>
      simp only [decodeField, type] at read
      split at read
      · rename_i text known
        obtain rfl := Except.ok.inj read
        refine ⟨rfl, fun _ same => ?_⟩
        obtain rfl := Value.fixedString.inj same
        exact Text.utf8_of_ofUtf8? known
      · cases read

/-- Whatever bytes are read as a row fit its schema, texts to the byte. -/
theorem typed_of_decode {s : Schema} {bs : Bytes} {row : Row} (read : decode s bs = .ok row) :
    row.Typed true := by
  obtain ⟨declared, _, rfl, each⟩ := decode_eq_ok_iff.mp read
  simp only [List.forall₂_and_left] at each
  obtain ⟨within, each⟩ := each
  unfold Row.Typed
  rw [← columns_fieldsFrom 0 row.schema.columns, List.forall₂_map_left_iff]
  refine ((List.forall₂_and_left _ _).mpr ⟨fun f member => member, each⟩).imp ?_
  rintro f v ⟨member, read⟩
  obtain ⟨typed, spelt⟩ := type_of_decodeField read
  refine ⟨typed, fun _ text same => ?_⟩
  obtain ⟨inside, wide⟩ := width_of_mem_fieldsFrom member
  obtain ⟨n, width⟩ := Option.isSome_iff_exists.mp (declared f.column inside)
  have length : f.column.length = some n := by
    have isText : f.column.type = .fixedString := by rw [← typed, same]; rfl
    rwa [Column.width?, isText] at width
  refine ⟨n, length, ?_⟩
  rw [spelt text same, length_cut (within f member), wide, Column.span, width, Option.getD_some]

end RowFormat

end Stored

section Projected

variable {exact : Bool} {columns : List (String × String)}

theorem Row.Typed.value {row : Row} (typed : row.Typed exact) {i : Nat} {c : Column}
    (there : row.schema.columns[i]? = some c) : ∃ v, row.values[i]? = some v ∧ c.Holds exact v := by
  obtain ⟨inside, rfl⟩ := List.getElem?_eq_some_iff.mp there
  have inside' : i < row.values.length := typed.length_eq ▸ inside
  exact ⟨row.values[i], List.getElem?_eq_getElem inside', typed.get inside inside'⟩

theorem Schema.getElem?_of_find? {s : Schema} {name : String} {i : Nat} {c : Column}
    (found : s.find? name = some (i, c)) : s.columns[i]? = some c := by
  obtain ⟨j, _, found⟩ := Option.bind_eq_some_iff.mp found
  obtain ⟨d, there, same⟩ := Option.map_eq_some_iff.mp found
  obtain ⟨rfl, rfl⟩ := Prod.mk.inj same
  exact there

/-- The columns of a projection are those at their places, under other names. -/
theorem mem_projectedColumns {s : Schema} {taken : List (Nat × Column)}
    (known : projectedColumns s columns = .ok taken) {e : Nat × Column} (member : e ∈ taken) :
    ∃ c name, s.columns[e.1]? = some c ∧ e.2 = c.renamed name := by
  have each := mapM_eq_ok_iff.mp known
  clear known
  induction each with
  | nil => nomatch member
  | cons first _ ih =>
      rcases List.mem_cons.mp member with rfl | later
      · simp only at first
        split at first
        · rename_i i c found
          obtain rfl := Except.ok.inj first
          exact ⟨c, _, Schema.getElem?_of_find? found, rfl⟩
        · nomatch first
      · exact ih later

/-- A row that fits its schema has a value wherever a projection looks for one. -/
theorem Row.Typed.project {row : Row} (typed : row.Typed exact) {taken : List (Nat × Column)}
    (known : projectedColumns row.schema columns = .ok taken) :
    ∃ out, project columns row = .ok out ∧
      out.schema = ⟨row.schema.table, taken.map Prod.snd⟩ ∧ out.Typed exact := by
  obtain ⟨values, found⟩ : ∃ values : List Value,
      List.Forall₂ (fun e v => row.values[e.1]? = some v ∧ e.2.Holds exact v) taken values := by
    have places := fun e member => mem_projectedColumns known (e := e) member
    clear known
    induction taken with
    | nil => exact ⟨[], .nil⟩
    | cons e taken ih =>
        obtain ⟨⟨c, name, there, renamed⟩, others⟩ := List.forall_mem_cons.mp places
        obtain ⟨v, value, holds⟩ := typed.value there
        obtain ⟨values, found⟩ := ih others
        exact ⟨v :: values, .cons ⟨value, renamed ▸ Column.holds_renamed.mpr holds⟩ found⟩
  refine ⟨⟨⟨row.schema.table, taken.map Prod.snd⟩, values⟩, ?_, rfl, ?_⟩
  · unfold RowStore.project
    refine bind_eq_ok_iff.mpr ⟨taken, known, ?_⟩
    unfold projectTaken
    refine bind_eq_ok_iff.mpr ⟨values, ?_, rfl⟩
    rw [mapM_eq_ok_iff]
    exact found.imp fun e v h => by simp only [h.1]
  · exact List.forall₂_map_left_iff.mpr (found.imp fun _ _ h => h.2)

theorem projectedColumns_of_project {row out : Row} (done : project columns row = .ok out) :
    ∃ taken, projectedColumns row.schema columns = .ok taken := by
  obtain ⟨taken, known, _⟩ := bind_eq_ok_iff.mp done
  exact ⟨taken, known⟩

end Projected

section Joined

variable {exact : Bool}

/-- Two rows side by side, under a schema made of their own. -/
def joinedRow (a b : Row) : Row := ⟨joinedSchema a.schema b.schema, a.values ++ b.values⟩

theorem typed_qualified {s : Schema} {values : List Value}
    (typed : (⟨s, values⟩ : Row).Typed exact) :
    List.Forall₂ (Column.Holds exact) (qualified s) values := by
  rw [qualified, List.forall₂_map_left_iff]
  exact typed.imp fun _ _ holds => Column.holds_renamed.mpr holds

theorem typed_joinedRow {a b : Row} (left : a.Typed exact) (right : b.Typed exact) :
    (joinedRow a b).Typed exact :=
  List.rel_append (typed_qualified left) (typed_qualified right)

/-- The schemas of the first rows are those of all others. -/
theorem crossProduct_eq {lefts rights : List Row} {S T : Schema}
    (left : ∀ a ∈ lefts, a.schema = S) (right : ∀ b ∈ rights, b.schema = T) :
    crossProduct lefts rights = lefts.flatMap fun a => rights.map fun b => joinedRow a b := by
  have each : ∀ a ∈ lefts, ∀ b ∈ rights, joinedRow a b = ⟨joinedSchema S T, a.values ++ b.values⟩ :=
    fun a inLeft b inRight => by rw [joinedRow, left a inLeft, right b inRight]
  have pairs : (lefts.flatMap fun a => rights.map fun b => joinedRow a b) =
      lefts.flatMap fun a => rights.map fun b => ⟨joinedSchema S T, a.values ++ b.values⟩ := by
    refine List.flatMap_congr fun a inLeft => List.map_congr_left fun b inRight => ?_
    exact each a inLeft b inRight
  rw [pairs]
  cases lefts with
  | nil => rfl
  | cons a lefts =>
      cases rights with
      | nil => simp [crossProduct]
      | cons b rights =>
          rw [crossProduct, left a List.mem_cons_self, right b List.mem_cons_self]

end Joined

end RowStore
