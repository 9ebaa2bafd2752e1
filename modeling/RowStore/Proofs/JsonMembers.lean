import RowStore.Proofs.Headings
import RowStore.Proofs.Maps
import RowStore.Render.Json

namespace RowStore

namespace Json

/-- The characters that are not written as themselves. -/
def marked : List Char := '"' :: '\\' :: (List.range 0x20).map Char.ofNat

theorem escapedChar_of_notMem {c : Char} (plain : c ∉ marked) : escapedChar c = [c] := by
  have printed : ¬ c.toNat < 0x20 := fun control =>
    plain (List.mem_cons_of_mem _ (List.mem_cons_of_mem _
      (List.mem_map.mpr ⟨c.toNat, List.mem_range.mpr control, Char.ofNat_toNat c⟩)))
  unfold escapedChar
  split
  all_goals first
    | exact absurd (by decide) plain
    | exact if_neg printed

theorem head_of_mem_marked {c : Char} (member : c ∈ marked) : ∃ cs, escapedChar c = '\\' :: cs := by
  have all : marked.all (fun c => decide ((escapedChar c).head? = some '\\')) = true := by
    decide +kernel
  exact List.head?_eq_some_iff.mp (decide_eq_true_eq.mp (List.all_eq_true.mp all c member))

/-- What a character is written as does not begin what another one is written as. -/
theorem eq_of_escapedChar_begins {c d : Char} (first : escapedChar c <+: escapedChar d) :
    c = d := by
  -- What a marked character is written as begins with a backslash, which is marked itself.
  by_cases left : c ∈ marked
  · by_cases right : d ∈ marked
    · have all : (marked.all fun c => marked.all fun d =>
          decide (escapedChar c <+: escapedChar d → c = d)) = true := by decide +kernel
      have others := List.all_eq_true.mp (List.all_eq_true.mp all c left) d right
      exact decide_eq_true_eq.mp others first
    · obtain ⟨cs, begun⟩ := head_of_mem_marked left
      rw [begun, escapedChar_of_notMem right, List.cons_prefix_cons] at first
      exact absurd (first.1 ▸ by decide) right
  · rw [escapedChar_of_notMem left] at first
    by_cases right : d ∈ marked
    · obtain ⟨cs, begun⟩ := head_of_mem_marked right
      rw [begun, List.cons_prefix_cons] at first
      exact absurd (first.1 ▸ by decide) left
    · rw [escapedChar_of_notMem right, List.cons_prefix_cons] at first
      exact first.1

theorem escapedChar_ne_nil (c : Char) : escapedChar c ≠ [] := by
  by_cases member : c ∈ marked
  · obtain ⟨cs, begun⟩ := head_of_mem_marked member
    exact begun ▸ List.cons_ne_nil _ _
  · exact escapedChar_of_notMem member ▸ List.cons_ne_nil _ _

theorem flatMap_escapedChar_inj {cs ds : List Char}
    (same : cs.flatMap escapedChar = ds.flatMap escapedChar) : cs = ds := by
  induction cs generalizing ds with
  | nil =>
      cases ds with
      | nil => rfl
      | cons d ds => exact absurd (List.append_eq_nil_iff.mp same.symm).1 (escapedChar_ne_nil d)
  | cons c cs ih =>
      cases ds with
      | nil => exact absurd (List.append_eq_nil_iff.mp same).1 (escapedChar_ne_nil c)
      | cons d ds =>
          rw [List.flatMap_cons, List.flatMap_cons] at same
          -- What both begin with begins the whole, so the one begins the other.
          have inWhole := List.prefix_append (escapedChar d) (ds.flatMap escapedChar)
          rw [← same] at inWhole
          obtain rfl : c = d := by
            rcases List.prefix_or_prefix_of_prefix (List.prefix_append ..) inWhole with
              first | first
            · exact eq_of_escapedChar_begins first
            · exact (eq_of_escapedChar_begins first).symm
          rw [ih (List.append_cancel_left same)]

/-- No two texts are written alike. -/
theorem escaped_inj {s t : String} (same : escaped s = escaped t) : s = t :=
  String.toList_inj.mp (flatMap_escapedChar_inj (String.ofList_inj.mp same))

end Json

namespace Row

variable {row : Row}

/-- The members of the object that a row is written as. -/
def jsonMembers (row : Row) : List (String × Json) :=
  row.members.entries.map fun (name, v) => (Json.escaped name, v.json)

/-- One member for each name of a column. It has the value of the last column of that name. -/
structure ShownAs (row : Row) (members : List (String × Json)) : Prop where
  distinct : (members.map Prod.fst).Nodup
  count : members.length = row.names.dedup.length
  member_iff : ∀ key j, (key, j) ∈ members ↔
    ∃ name v before behind, row.fields = before ++ (name, v) :: behind ∧
      name ∉ behind.map Prod.fst ∧ key = Json.escaped name ∧ j = v.json

/-- As many members as columns, and among them one with the name and the value of each column. -/
def Complete (row : Row) (members : List (String × Json)) : Prop :=
  members.length = row.schema.columns.length ∧
    ∀ e ∈ row.fields, (Json.escaped e.1, e.2.json) ∈ members

theorem names_fields (full : row.values.length = row.names.length) :
    row.fields.map Prod.fst = row.names :=
  List.map_fst_zip full.ge

theorem mem_jsonMembers_iff {key : String} {j : Json} :
    (key, j) ∈ row.jsonMembers ↔
      ∃ name v before behind, row.fields = before ++ (name, v) :: behind ∧
        name ∉ behind.map Prod.fst ∧ key = Json.escaped name ∧ j = v.json := by
  simp only [jsonMembers, List.mem_map, Prod.exists, Prod.mk.injEq, members,
    ← OrderedMap.get?_eq_some_iff, OrderedMap.get?_ofList_eq_some_iff]
  constructor
  · rintro ⟨name, v, ⟨before, behind, split, last⟩, rfl, rfl⟩
    exact ⟨name, v, before, behind, split, last, rfl, rfl⟩
  · rintro ⟨name, v, before, behind, split, last, rfl, rfl⟩
    exact ⟨name, v, ⟨before, behind, split, last⟩, rfl, rfl⟩

theorem shownAs_jsonMembers (full : row.values.length = row.names.length) :
    row.ShownAs row.jsonMembers where
  distinct := by
    have keys : row.jsonMembers.map Prod.fst = row.members.keys.map Json.escaped := by
      simp [jsonMembers, OrderedMap.keys, Function.comp_def]
    rw [keys]
    exact row.members.nodup_keys.map fun _ _ => Json.escaped_inj
  count := by
    rw [jsonMembers, List.length_map, members, OrderedMap.length_entries_ofList, names_fields full]
  member_iff _ _ := mem_jsonMembers_iff

/-- No column is lost just if no two have the same name. -/
theorem ShownAs.complete_iff {members : List (String × Json)} (shown : row.ShownAs members)
    (full : row.values.length = row.names.length) : row.Complete members ↔ row.names.Nodup := by
  have columns : row.schema.columns.length = row.names.length := (List.length_map _).symm
  constructor
  · rintro ⟨count, _⟩
    rw [shown.count, columns] at count
    exact List.dedup_eq_self.mp ((List.dedup_sublist _).eq_of_length count)
  · intro distinct
    refine ⟨by rw [shown.count, List.dedup_eq_self.mpr distinct, columns], fun e member => ?_⟩
    obtain ⟨before, behind, split⟩ := List.append_of_mem member
    refine (shown.member_iff _ _).mpr ⟨e.1, e.2, before, behind, split, ?_, rfl, rfl⟩
    rw [← names_fields full, split, List.map_append, List.map_cons] at distinct
    exact (List.nodup_cons.mp (List.nodup_append.mp distinct).2.1).1

end Row

namespace Sql.Select

variable {τ : Type} [Storage τ]

/-- The rows of a SELECT come to an array with one object for each row, in order, and each object
has one member for each name of a column, with the value of the last column of that name. So no
column is lost just if the names are distinct. Items that are named give their own names; of one
table the names are distinct, and of several unless the first two are shown under one name and share
a column. -/
theorem json_has_last_of_each_name {schemas : List Schema} {c : Catalog}
    (made : Catalog.ofSchemas schemas = .ok c) {s : Select} {p : Plan Empty}
    (compiled : s.compile = .ok p) {store : τ} {rows : List Row}
    (answered : (Query.runPlan c p store).1 = .ok rows) :
    (∃ objects, rowsJson rows = .array objects ∧
      List.Forall₂ (fun row j => ∃ members, j = .object members ∧ row.ShownAs members ∧
        row.names = s.heading c ∧ (row.Complete members ↔ (s.heading c).Nodup)) rows objects) ∧
    (s.items.any isEverything = false → s.heading c = s.items.filterMap itemName) ∧
    (s.items.any isEverything = true →
      (∀ t, s.tables = [t] → (s.heading c).Nodup) ∧
        ∀ t u rest, s.tables = t :: u :: rest → (∀ t ∈ s.tables, isName t.shownName = true) →
          ((s.heading c).Nodup ↔
            t.shownName ≠ u.shownName ∨ ∀ a, columnOf c t a = none ∨ columnOf c u a = none)) := by
  refine ⟨⟨rows.map Row.json, rfl, ?_⟩, fun plain => if_neg (Bool.eq_false_iff.mp plain),
    fun star => nodup_heading_of_star made star (chosen_of_answer compiled answered).1.1⟩
  refine List.forall₂_map_right_iff.mpr (List.forall₂_same.mpr fun row member => ?_)
  obtain ⟨named, full⟩ := names_of_answer compiled answered row member
  have shown := Row.shownAs_jsonMembers full
  exact ⟨row.jsonMembers, rfl, shown, named, named ▸ shown.complete_iff full⟩

/-- Two columns under one name, of which the first is lost. -/
theorem json_has_last_of_each_name_of_shared_alias :
    let t : Schema := ⟨"t", [.plain .int64 "id", .fixedString "name" 2]⟩
    let c : Catalog := ⟨OrderedMap.empty.insert "t" t⟩
    let s : Select := ⟨[.column ⟨none, "id"⟩ (some "x"), .column ⟨none, "name"⟩ (some "x")],
      [⟨"t", none⟩], none, none⟩
    let p : Plan Empty := .projection (.scan "t" none) [("id", "x"), ("name", "x")]
    let store : Entries :=
      .ofList [(RowKey.ofText "t" "1", [2, 0, 0, 0, 0, 0, 0, 0, 0x61, 0x62])]
    let row : Row := ⟨⟨"t", [.plain .int64 "x", .fixedString "x" 2]⟩, [.int64 1, .fixedString "ab"]⟩
    Catalog.ofSchemas [t] = .ok c ∧ s.compile = .ok p ∧ (Query.runPlan c p store).1 = .ok [row] ∧
      ∃ members, rowsJson [row] = .array [.object members] ∧ members.length = 1 ∧
        ("x", Json.string "ab") ∈ members ∧ ¬ row.Complete members := by
  intro t c s p store row
  have made : Catalog.ofSchemas [t] = .ok c := by decide +kernel
  have answered : (Query.runPlan c p store).1 = .ok [row] := rfl
  have compiled : s.compile = .ok p := rfl
  obtain ⟨⟨objects, array, each⟩, plain, _⟩ := json_has_last_of_each_name made compiled answered
  have heading : s.heading c = ["x", "x"] := plain rfl
  cases each with
  | cons first rest =>
      cases rest
      obtain ⟨members, rfl, shown, named, complete⟩ := first
      refine ⟨made, compiled, answered, members, array, ?_, ?_, ?_⟩
      · rw [shown.count, named, heading]
        decide
      · exact (shown.member_iff _ _).mpr
          ⟨"x", .fixedString "ab", [("x", .int64 1)], [], rfl, by decide, by decide, rfl⟩
      · rw [complete, heading]
        decide

end Sql.Select
end RowStore
