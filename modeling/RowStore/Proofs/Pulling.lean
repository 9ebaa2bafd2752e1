import RowStore.Proofs.Outcomes
import RowStore.Query.Plan

/-! What pulling an open plan yields, call after call, as a list. An error takes one call, and the
calls after it go on behind the row that it spoiled. -/
namespace RowStore

/-- What calls yield one after another, up to the end. -/
abbrev Yield := List (Result Row)

namespace Yield

/-- What the first call returns. -/
def first : Yield → Result (Option Row)
  | [] => .ok none
  | x :: _ => x.map some

/-- All rows, if no call fails. -/
def rows (xs : Yield) : Result (List Row) := xs.mapM id

@[simp] theorem rows_nil : rows [] = .ok [] := rfl

theorem rows_cons (x : Result Row) (xs : Yield) :
    rows (x :: xs) = do return (← x) :: (← rows xs) := by
  simp [rows, List.mapM_cons]

@[simp] theorem rows_error_cons (e : Failure QueryError) (xs : Yield) :
    rows (.error e :: xs) = .error e := by
  rw [rows_cons, error_bind]

theorem rows_ok_cons (r : Row) (xs : Yield) : rows (.ok r :: xs) = xs.rows.map (r :: ·) := by
  rw [rows_cons, ok_bind]
  cases xs.rows <;> rfl

theorem rows_map_ok (rs : List Row) : rows (rs.map .ok) = .ok rs := by
  induction rs with
  | nil => rfl
  | cons r rs ih => rw [List.map_cons, rows_cons, ih]; rfl

/-- Errors pass a selection, for they are no rows that it could refuse. -/
def kept (meets : Row → Except QueryError Bool) :
    Result Row → Option (Result Row)
  | .error e => some (.error e)
  | .ok row =>
      match meets row with
      | .ok true => some (.ok row)
      | .ok false => none
      | .error e => some (.error (.reported e))

def selected (meets : Row → Except QueryError Bool) (xs : Yield) : Yield :=
  xs.filterMap (kept meets)

def projected (output : Row → Except QueryError Row) (xs : Yield) : Yield :=
  xs.map fun x => x >>= fun row => (output row).mapError .reported

/-- Errors do not count towards a limit. -/
def limited : Nat → Yield → Yield
  | 0, _ => []
  | _, [] => []
  | n + 1, .ok row :: xs => .ok row :: limited n xs
  | n + 1, .error e :: xs => .error e :: limited (n + 1) xs

@[simp] theorem limited_zero (xs : Yield) : limited 0 xs = [] := by
  cases xs <;> rfl

theorem length_limited_le (n : Nat) (xs : Yield) : (limited n xs).length ≤ xs.length := by
  induction xs generalizing n with
  | nil => cases n <;> exact Nat.le_refl _
  | cons x xs ih =>
      cases n with
      | zero => exact Nat.zero_le _
      | succ n => cases x <;> exact Nat.succ_le_succ (ih _)

end Yield

namespace Layout

variable {columns : List (String × String)}

theorem taken_ofSchema (s : Schema) :
    (ofSchema columns s).map taken = projectedColumns s columns := by
  unfold ofSchema
  split <;> rename_i known <;> exact known.symm

/-- A layout that was kept takes what a new one would take. -/
theorem taken_find (kept : Option (Layout columns)) (s : Schema) :
    (find kept s).map taken = projectedColumns s columns := by
  cases kept with
  | none => exact taken_ofSchema s
  | some l =>
      by_cases same : l.input = s
      · have derived := l.derived
        rw [same] at derived
        rw [find, if_pos same, derived]
        rfl
      · rw [find, if_neg same]
        exact taken_ofSchema s

/-- What a projection returns for a row does not depend on the layout that it kept. -/
theorem project_eq (kept : Option (Layout columns)) (row : Row) :
    (project kept row).1 = RowStore.project columns row := by
  have taken := taken_find kept row.schema
  simp only [project, RowStore.project, ← taken]
  cases find kept row.schema <;> rfl

end Layout

namespace Plan

/-- A stored value as the row of a table. -/
def decoded (s : Schema) (e : Bytes × Bytes) : Result Row :=
  (RowFormat.decode s e.2).mapError (Failure.map .codec)

/-- An operator and all those below that it still pulls from are open. -/
def Open : (p : Plan Empty) → p.State → Prop
  | scan .., s => (s : Option Scanning).isSome
  | selection input _, (s : Passing _) => s.isOpen = true ∧ input.Open s.input
  | projection input _, (s : Projecting _ _) => s.isOpen = true ∧ input.Open s.input
  | limit input _, (s : Limiting _) => s.isOpen = true ∧ input.Open s.input
  | join .., (s : Joining _ _) => s.isOpen = true
  | insertion _, (s : Inserting) => s.isOpen = true
  | tables, s => (s : Option Listing).isSome

def listed (s : Schema) (name : String) : Result Row := .ok ⟨s, [.fixedString name]⟩

/-- What an open plan is about to yield. -/
def yields : (p : Plan Empty) → p.State → Yield
  | scan .., s =>
      match (s : Option Scanning) with
      | some s => s.cursor.rest.map (decoded s.schema)
      | none => []
  | selection input condition, (s : Passing _) =>
      (input.yields s.input).selected fun row => condition.holds row
  | projection input columns, (s : Projecting _ _) =>
      (input.yields s.input).projected (project columns)
  | limit input count, (s : Limiting _) =>
      Yield.limited (count - s.returned) (input.yields s.input)
  | join .., (s : Joining _ _) => s.output.map .ok
  | insertion _, _ => []
  | tables, s =>
      match (s : Option Listing) with
      | some s => s.names.map (listed s.schema)
      | none => []

/-- One call returns the head of what is about to come and leaves the tail. -/
def Pulls {S : Type} (next : S → Unit → Call (Option Row) S Unit) (isOpen : S → Prop)
    (yields : S → Yield) : Prop :=
  ∀ s w, isOpen s → ∃ s', next s w = ((yields s).first, s', w) ∧ isOpen s' ∧
    yields s' = (yields s).tail

section Pulls

variable {S : Type} {next : S → Unit → Call (Option Row) S Unit} {isOpen : S → Prop}
  {yields : S → Yield}

theorem seek_of_pulls (pulls : Pulls next isOpen yields) (condition : Condition) (w : Unit)
    {fuel : Nat} {s : S} (enough : (yields s).length < fuel) (opened : isOpen s) :
    ∃ s', seek condition next fuel s w =
        (((yields s).selected fun row => condition.holds row).first, s', w) ∧ isOpen s' ∧
      ((yields s').selected fun row => condition.holds row) =
        ((yields s).selected fun row => condition.holds row).tail := by
  induction fuel generalizing s with
  | zero => omega
  | succ fuel ih =>
      obtain ⟨s₁, called, opened₁, rest⟩ := pulls s w opened
      cases coming : yields s with
      | nil =>
          refine ⟨s₁, ?_, opened₁, by simp [rest, coming, Yield.selected]⟩
          simp only [seek, called, coming, Yield.first, Yield.selected, List.filterMap_nil]
      | cons x xs =>
          simp only [coming, List.tail_cons, List.length_cons, Yield.first] at enough called rest
          cases x with
          | error e =>
              refine ⟨s₁, ?_, opened₁, by simp [rest, Yield.selected, Yield.kept]⟩
              simp only [seek, called, Except.map, Yield.selected, Yield.kept,
                List.filterMap_cons, Yield.first]
          | ok row =>
              cases met : condition.holds row with
              | error e =>
                  refine ⟨s₁, ?_, opened₁, by simp [rest, Yield.selected, Yield.kept, met]⟩
                  simp only [seek, called, Except.map, met, Yield.selected, Yield.kept,
                    List.filterMap_cons, Yield.first]
              | ok answer =>
                  cases answer with
                  | true =>
                      refine ⟨s₁, ?_, opened₁, by simp [rest, Yield.selected, Yield.kept, met]⟩
                      simp only [seek, called, Except.map, met, Yield.selected, Yield.kept,
                        List.filterMap_cons, Yield.first]
                  | false =>
                      have skipped : Yield.selected (fun row => condition.holds row)
                          (.ok row :: xs) =
                          Yield.selected (fun row => condition.holds row) xs := by
                        simp only [Yield.selected, Yield.kept, met, List.filterMap_cons]
                      obtain ⟨s₂, found, opened₂, later⟩ :=
                        ih (s := s₁) (by rw [rest]; omega) opened₁
                      rw [rest] at found later
                      refine ⟨s₂, ?_, opened₂, skipped ▸ later⟩
                      rw [skipped]
                      simp only [seek, called, Except.map, met, found]

theorem drain_of_pulls (pulls : Pulls next isOpen yields) (w : Unit) {fuel : Nat} {s : S}
    (enough : (yields s).length < fuel) (opened : isOpen s) :
    ∃ s', drain next fuel s w = ((yields s).rows, s', w) ∧ isOpen s' := by
  induction fuel generalizing s with
  | zero => omega
  | succ fuel ih =>
      obtain ⟨s₁, called, opened₁, rest⟩ := pulls s w opened
      cases coming : yields s with
      | nil =>
          refine ⟨s₁, ?_, opened₁⟩
          simp only [drain, called, coming, Yield.first, Yield.rows_nil]
      | cons x xs =>
          simp only [coming, List.tail_cons, List.length_cons, Yield.first] at enough called rest
          cases x with
          | error e =>
              refine ⟨s₁, ?_, opened₁⟩
              simp only [drain, called, Except.map]
              rfl
          | ok row =>
              obtain ⟨s₂, drained, opened₂⟩ := ih (s := s₁) (by rw [rest]; omega) opened₁
              refine ⟨s₂, ?_, opened₂⟩
              simp only [drain, called, Except.map, drained, rest, Yield.rows_cons]
              cases Yield.rows xs <;> rfl

end Pulls

theorem length_yields_le (p : Plan Empty) (s : p.State) : (p.yields s).length ≤ p.remaining s := by
  induction p with
  | scan table asName =>
      cases (s : Option Scanning) with
      | none => exact Nat.le_refl _
      | some s => simp [yields, remaining]
  | selection input condition ih =>
      exact Nat.le_trans (List.length_filterMap_le _ _) (ih (s : Passing _).input)
  | projection input columns ih =>
      have below := ih (s : Projecting _ _).input
      simpa [yields, remaining, Yield.projected] using below
  | limit input count ih =>
      exact Nat.le_trans (Yield.length_limited_le _ _) (ih (s : Limiting _).input)
  | join left right => simp [yields, remaining]
  | insertion i => exact Nat.zero_le _
  | tables =>
      cases (s : Option Listing) with
      | none => exact Nat.le_refl _
      | some s => simp [yields, remaining]
  | source s => exact s.elim

/-- A call on an open projection passes on what its input returns, projected if it is a row. -/
theorem next_projection {input : Plan Empty} (columns : List (String × String))
    (below : input.State) (kept : Option (Layout columns)) (w : Unit) :
    ∃ layout, (projection input columns).next (⟨below, kept, true⟩ : Projecting columns _) w =
      (match (input.next below w).1 with
        | .ok (some row) => ((project columns row).map some).mapError .reported
        | other => other,
        (⟨(input.next below w).2.1, layout, true⟩ : Projecting columns _),
        (input.next below w).2.2) := by
  simp only [next, if_true]
  rcases input.next below w with ⟨_ | _ | row, below', w'⟩
  · exact ⟨kept, rfl⟩
  · exact ⟨kept, rfl⟩
  · refine ⟨(Layout.project kept row).2, Prod.ext ?_ rfl⟩
    exact congrArg (fun out => (Except.map some out).mapError Failure.reported)
      (Layout.project_eq kept row)

theorem next_of_open (p : Plan Empty) : Pulls (p.next (ω := Unit)) p.Open p.yields := by
  induction p with
  | scan table asName =>
      intro s w opened
      obtain ⟨scanning, rfl⟩ := Option.isSome_iff_exists.mp opened
      refine ⟨some { scanning with cursor := scanning.cursor.advance }, ?_, rfl,
        by simp [yields, Cursor.advance, List.map_tail]⟩
      cases coming : scanning.cursor.rest with
      | nil => simp [next, yields, Cursor.advance, coming, Yield.first]
      | cons e es => simp [next, yields, Cursor.advance, coming, Yield.first, decoded]
  | selection input condition ih =>
      rintro ⟨below, isOpen⟩ w ⟨rfl, opened⟩
      have enough := Nat.lt_succ_of_le (length_yields_le input below)
      obtain ⟨below', found, opened', rest⟩ := seek_of_pulls ih condition w enough opened
      refine ⟨⟨below', true⟩, ?_, ⟨rfl, opened'⟩, rest⟩
      simp only [next, if_true, found, yields]
  | projection input columns ih =>
      rintro ⟨below, kept, isOpen⟩ w ⟨rfl, opened⟩
      obtain ⟨below', called, opened', rest⟩ := ih below w opened
      obtain ⟨layout, projected⟩ := next_projection columns below kept w
      refine ⟨⟨below', layout, true⟩, ?_, ⟨rfl, opened'⟩, ?_⟩
      · simp only [projected, called, yields]
        cases input.yields below with
        | nil => rfl
        | cons x xs =>
            cases x with
            | error e => rfl
            | ok row => exact Prod.ext (mapError_map _ _ _) rfl
      · simp only [yields, rest, Yield.projected, List.map_tail]
  | limit input count ih =>
      rintro ⟨below, returned, isOpen⟩ w ⟨rfl, opened⟩
      by_cases full : count ≤ returned
      · refine ⟨⟨below, returned, true⟩, ?_, ⟨rfl, opened⟩, ?_⟩
        · simp [next, yields, full, Nat.sub_eq_zero_of_le full, Yield.first]
        · simp [yields, Nat.sub_eq_zero_of_le full]
      · obtain ⟨below', called, opened', rest⟩ := ih below w opened
        obtain ⟨room, left⟩ : ∃ room, count - returned = room + 1 :=
          ⟨count - returned - 1, by omega⟩
        cases coming : input.yields below with
        | nil =>
            rw [coming] at called rest
            refine ⟨⟨below', returned, true⟩, ?_, ⟨rfl, opened'⟩, ?_⟩
            · simp [next, yields, full, called, coming, left, Yield.limited, Yield.first]
            · simp [yields, coming, rest, left, Yield.limited]
        | cons x xs =>
            rw [coming] at called rest
            cases x with
            | error e =>
                refine ⟨⟨below', returned, true⟩, ?_, ⟨rfl, opened'⟩, ?_⟩
                · simp [next, yields, full, called, coming, left, Yield.limited, Yield.first,
                    Except.map]
                · simp [yields, coming, rest, left, Yield.limited]
            | ok row =>
                have fewer : count - (returned + 1) = room := by omega
                refine ⟨⟨below', returned + 1, true⟩, ?_, ⟨rfl, opened'⟩, ?_⟩
                · simp [next, yields, full, called, coming, left, Yield.limited, Yield.first,
                    Except.map]
                · simp [yields, coming, rest, left, fewer, Yield.limited]
  | join left right =>
      rintro ⟨l, r, output, isOpen⟩ w rfl
      refine ⟨⟨l, r, output.tail, true⟩, ?_, rfl, by simp [yields, List.map_tail]⟩
      cases output <;> simp [next, yields, Yield.first, Except.map]
  | insertion i =>
      rintro ⟨affected, isOpen⟩ w rfl
      exact ⟨⟨affected, true⟩, rfl, rfl, rfl⟩
  | tables =>
      intro s w opened
      obtain ⟨⟨schema, names⟩, rfl⟩ := Option.isSome_iff_exists.mp opened
      refine ⟨some ⟨schema, names.tail⟩, ?_, rfl, by simp [yields, List.map_tail]⟩
      cases names <;> simp [next, yields, Yield.first, listed, Except.map]
  | source s => exact s.elim

end Plan
end RowStore
