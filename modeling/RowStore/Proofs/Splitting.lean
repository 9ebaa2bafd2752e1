import RowStore.Text.Blank

namespace RowStore.Text

section Pieces

variable {p : Char → Bool} {c : Char}

theorem pieces_cons_of_pos (separates : p c = true) (cs : List Char) :
    pieces p (c :: cs) = ([], (pieces p cs).1 :: (pieces p cs).2) :=
  if_pos separates

theorem pieces_cons_of_neg (inside : ¬p c = true) (cs : List Char) :
    pieces p (c :: cs) = (c :: (pieces p cs).1, (pieces p cs).2) :=
  if_neg inside

theorem pieces_eq_splitOnP (cs : List Char) :
    (pieces p cs).1 :: (pieces p cs).2 = cs.splitOnP p := by
  induction cs with
  | nil => rfl
  | cons c cs ih =>
      rw [List.splitOnP_cons_eq_if_modifyHead, ← ih]
      by_cases separates : p c = true
      · rw [pieces_cons_of_pos separates, if_pos separates]
      · rw [pieces_cons_of_neg separates, if_neg separates]
        rfl

/-- No piece holds a separator. -/
theorem free_of_mem_pieces (cs : List Char) :
    ∀ piece ∈ (pieces p cs).1 :: (pieces p cs).2, ∀ c ∈ piece, p c = false := by
  induction cs with
  | nil => exact List.forall_mem_singleton.mpr (List.forall_mem_nil _)
  | cons c cs ih =>
      by_cases separates : p c = true
      · rw [pieces_cons_of_pos separates]
        exact List.forall_mem_cons.mpr ⟨List.forall_mem_nil _, ih⟩
      · obtain ⟨first, others⟩ := List.forall_mem_cons.mp ih
        rw [pieces_cons_of_neg separates]
        refine List.forall_mem_cons.mpr ⟨?_, others⟩
        exact List.forall_mem_cons.mpr ⟨Bool.eq_false_iff.mpr separates, first⟩

theorem words_eq (cs : List Char) : words cs = (cs.splitOnP isBlank).filter (! ·.isEmpty) := by
  rw [← pieces_eq_splitOnP]
  rfl

theorem lines_eq (cs : List Char) : lines cs = cs.splitOnP (· = '\n') := by
  rw [← pieces_eq_splitOnP]
  rfl

end Pieces

section Words

/-- Characters that make one word. -/
structure Solid (cs : List Char) : Prop where
  nonempty : cs ≠ []
  solid : ∀ c ∈ cs, isBlank c = false

variable {w cs : List Char} {ws : List (List Char)}

theorem solid_of_all (nonempty : cs ≠ []) (solid : cs.all (! isBlank ·) = true) : Solid cs := by
  refine ⟨nonempty, fun c member => ?_⟩
  have free := List.all_eq_true.mp solid c member
  rwa [Bool.not_eq_true'] at free

theorem solid_of_mem_words (member : w ∈ words cs) : Solid w := by
  obtain ⟨piece, nonempty⟩ := List.mem_filter.mp member
  refine ⟨?_, free_of_mem_pieces cs w piece⟩
  rintro rfl
  cases nonempty

/-- White space divides the words before it from those after it. -/
theorem words_append_blank {c : Char} (blank : isBlank c = true) (front back : List Char) :
    words (front ++ c :: back) = words front ++ words back := by
  rw [words_eq, List.splitOnP_append_cons front back blank, List.filter_append, ← words_eq,
    ← words_eq]

theorem words_of_solid (solid : Solid w) : words w = [w] := by
  rw [words_eq, List.splitOnP_eq_singleton solid.solid]
  simp [solid.nonempty]

/-- Words with one space between them. -/
def spaced (ws : List (List Char)) : List Char := [' '].intercalate ws

theorem spaced_singleton (w : List Char) : spaced [w] = w := List.intercalate_singleton

theorem isBlank_space : isBlank ' ' = true := by decide

theorem spaced_cons_cons (w v : List Char) (ws : List (List Char)) :
    spaced (w :: v :: ws) = w ++ ' ' :: spaced (v :: ws) := by
  rw [spaced, List.intercalate_cons_cons, List.append_assoc, List.singleton_append, spaced]

theorem words_spaced (solid : ∀ w ∈ ws, Solid w) : words (spaced ws) = ws := by
  induction ws with
  | nil => rfl
  | cons w ws ih =>
      obtain ⟨first, others⟩ := List.forall_mem_cons.mp solid
      cases ws with
      | nil =>
          rw [spaced_singleton]
          exact words_of_solid first
      | cons v ws =>
          rw [spaced_cons_cons, words_append_blank isBlank_space, words_of_solid first, ih others]
          rfl

theorem spaced_cons (w : List Char) (ws : List (List Char)) :
    ∃ rest, spaced (w :: ws) = w ++ rest := by
  cases ws with
  | nil => exact ⟨[], by rw [spaced_singleton, List.append_nil]⟩
  | cons v ws => exact ⟨_, spaced_cons_cons w v ws⟩

theorem mem_spaced {c : Char} (member : c ∈ spaced ws) : c = ' ' ∨ ∃ w ∈ ws, c ∈ w := by
  induction ws with
  | nil => cases member
  | cons w ws ih =>
      cases ws with
      | nil =>
          rw [spaced_singleton] at member
          exact .inr ⟨w, List.mem_cons_self, member⟩
      | cons v ws =>
          rw [spaced_cons_cons, List.mem_append, List.mem_cons] at member
          rcases member with first | space | later
          · exact .inr ⟨w, List.mem_cons_self, first⟩
          · exact .inl space
          · exact (ih later).imp id fun ⟨u, among, inside⟩ =>
              ⟨u, List.mem_cons_of_mem _ among, inside⟩

theorem newline_not_mem_spaced (solid : ∀ w ∈ ws, Solid w) : '\n' ∉ spaced ws := by
  intro member
  rcases mem_spaced member with space | ⟨w, among, inside⟩
  · cases space
  · exact absurd ((solid w among).solid _ inside) (by decide)

theorem trimStart_eq_self (first : ∀ c ∈ cs.head?, isBlank c = false) : trimStart cs = cs := by
  cases cs with
  | nil => rfl
  | cons c cs => exact List.dropWhile_cons_of_neg (Bool.eq_false_iff.mp (first c rfl))

theorem head_spaced (solid : ∀ w ∈ ws, Solid w) :
    ∀ c ∈ (spaced ws).head?, isBlank c = false := by
  cases ws with
  | nil => exact nofun
  | cons w ws =>
      obtain ⟨rest, whole⟩ := spaced_cons w ws
      obtain ⟨nonempty, characters⟩ := (List.forall_mem_cons.mp solid).1
      obtain ⟨d, ds, rfl⟩ := List.exists_cons_of_ne_nil nonempty
      rw [whole, List.cons_append, List.head?_cons]
      intro c first
      obtain rfl := Option.mem_some.mp first
      exact characters d List.mem_cons_self

theorem last_spaced (solid : ∀ w ∈ ws, Solid w) :
    ∀ c ∈ (spaced ws).getLast?, isBlank c = false := by
  induction ws with
  | nil => exact nofun
  | cons w ws ih =>
      obtain ⟨first, others⟩ := List.forall_mem_cons.mp solid
      cases ws with
      | nil =>
          rw [spaced_singleton]
          exact fun c last => first.solid c (List.mem_of_mem_getLast? last)
      | cons v ws =>
          obtain ⟨rest, whole⟩ := spaced_cons v ws
          have nonempty : spaced (v :: ws) ≠ [] := by
            rw [whole]
            exact List.append_ne_nil_of_left_ne_nil (List.forall_mem_cons.mp others).1.nonempty _
          have end_eq : (spaced (w :: v :: ws)).getLast? = (spaced (v :: ws)).getLast? := by
            rw [spaced_cons_cons, List.getLast?_append, List.getLast?_cons_of_ne_nil nonempty,
              List.getLast?_eq_some_getLast nonempty, Option.some_or]
          rw [end_eq]
          exact ih others

theorem trim_spaced (solid : ∀ w ∈ ws, Solid w) : trim (spaced ws) = spaced ws := by
  rw [trim, trimStart_eq_self (head_spaced solid), trimStart_eq_self, List.reverse_reverse]
  rw [List.head?_reverse]
  exact last_spaced solid

end Words

section Lines

theorem lines_append_newline (front back : List Char) :
    lines (front ++ '\n' :: back) = lines front ++ lines back := by
  rw [lines_eq, List.splitOnP_append_cons front back (by decide), ← lines_eq, ← lines_eq]

/-- Lines that are ended by a line feed each are cut out again, and an empty one after them. -/
theorem lines_flatMap {ls : List (List Char)} (single : ∀ l ∈ ls, '\n' ∉ l) :
    lines (ls.flatMap (· ++ ['\n'])) = ls ++ [[]] := by
  induction ls with
  | nil => rfl
  | cons l ls ih =>
      obtain ⟨first, others⟩ := List.forall_mem_cons.mp single
      have whole : lines l = [l] := by
        rw [lines_eq, List.splitOnP_eq_singleton]
        intro c member
        exact decide_eq_false (ne_of_mem_of_not_mem member first)
      rw [List.flatMap_cons, List.append_assoc, List.singleton_append, lines_append_newline, whole,
        ih others, List.singleton_append, List.cons_append]

end Lines

end RowStore.Text
