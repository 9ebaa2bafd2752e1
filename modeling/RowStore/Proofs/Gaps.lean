import RowStore.Proofs.Characters

namespace RowStore.Sql

/-- White space and comments, each comment with the line feed that ends it. -/
inductive Gap : List Char → Prop
  | nil : Gap []
  | blank {c : Char} {cs : List Char} (white : Text.isBlank c = true) (others : Gap cs) :
      Gap (c :: cs)
  | comment {body cs : List Char} (line : '\n' ∉ body) (others : Gap cs) :
      Gap ('-' :: '-' :: (body ++ '\n' :: cs))

/-- A gap at the end of a text, where no line feed has to end a comment. -/
inductive LastGap : List Char → Prop
  | whole {cs : List Char} (gap : Gap cs) : LastGap cs
  | comment {cs body : List Char} (gap : Gap cs) (line : '\n' ∉ body) :
      LastGap (cs ++ '-' :: '-' :: body)

theorem Gap.append {as bs : List Char} (first : Gap as) (second : Gap bs) : Gap (as ++ bs) := by
  induction first with
  | nil => exact second
  | blank white _ ih => exact .blank white ih
  | comment line _ ih =>
      rw [List.cons_append, List.cons_append, List.append_assoc, List.cons_append]
      exact .comment line ih

theorem LastGap.after {as bs : List Char} (first : Gap as) (last : LastGap bs) :
    LastGap (as ++ bs) := by
  cases last with
  | whole gap => exact .whole (first.append gap)
  | comment gap line =>
      rw [← List.append_assoc]
      exact .comment (first.append gap) line

theorem gap_of_blank {cs : List Char} (white : ∀ c ∈ cs, Text.isBlank c = true) : Gap cs := by
  induction cs with
  | nil => exact .nil
  | cons c cs ih =>
      obtain ⟨first, others⟩ := List.forall_mem_cons.mp white
      exact .blank first (ih others)

theorem layoutLength_of_blank {c : Char} (blank : Text.isBlank c = true) (cs : List Char) :
    layoutLength false (c :: cs) = layoutLength false cs + 1 := by
  have plain : c ≠ '-' := by
    rintro rfl
    exact absurd blank (by decide)
  by_cases line : c = '\n'
  · rw [line, layoutLength]
  · rw [layoutLength, blank]
    · rfl
    · exact line
    · rintro _ same
      exact absurd same plain

/-- A character that is not white space ends the layout, unless it begins a comment. -/
theorem layoutLength_of_not_blank {c : Char} {cs : List Char} (solid : Text.isBlank c = false)
    (code : c = '-' → cs.head? ≠ some '-') : layoutLength false (c :: cs) = 0 := by
  have plain : c ≠ '\n' := by
    rintro rfl
    exact absurd solid (by decide)
  rw [layoutLength, solid]
  · rfl
  · exact plain
  · rintro ds rfl rfl
    exact code rfl rfl

theorem isBlank_newline : Text.isBlank '\n' = true := by decide

/-- Within a comment every character but the line feed is passed over. -/
theorem layoutLength_inComment {c : Char} (line : c ≠ '\n') (cs : List Char) :
    layoutLength true (c :: cs) = layoutLength true cs + 1 := by
  induction cs generalizing c with
  | nil => simp [layoutLength]
  | cons d ds ih =>
      by_cases dashes : c = '-' ∧ d = '-'
      · obtain ⟨rfl, rfl⟩ := dashes
        rw [layoutLength, ih (by decide)]
      · rw [layoutLength]
        · rfl
        · exact line
        · intro es dash same
          obtain ⟨other, _⟩ := List.cons.inj same
          exact dashes ⟨dash, other⟩

/-- A comment goes on to the end of its line. -/
theorem layoutLength_comment {body : List Char} (line : '\n' ∉ body) (rest : List Char)
    (ends : ∀ c ∈ rest.head?, c = '\n') :
    layoutLength true (body ++ rest) = body.length + layoutLength false rest := by
  induction body with
  | nil =>
      cases rest with
      | nil => rfl
      | cons c rest =>
          obtain rfl := ends c rfl
          simp [layoutLength]
  | cons c body ih =>
      obtain ⟨here, later⟩ := not_or.mp (mt List.mem_cons.mpr line)
      rw [List.cons_append, layoutLength_inComment (Ne.symm here), ih later, List.length_cons]
      omega

theorem layoutLength_of_gap {gap : List Char} (gapped : Gap gap) (cs : List Char) :
    layoutLength false (gap ++ cs) = gap.length + layoutLength false cs := by
  induction gapped with
  | nil => simp
  | blank white _ ih =>
      rw [List.cons_append, layoutLength_of_blank white, ih, List.length_cons]
      omega
  | @comment body rest line _ ih =>
      have ends : ∀ c ∈ ('\n' :: (rest ++ cs)).head?, c = '\n' := by
        rintro c ⟨⟩
        rfl
      rw [List.cons_append, List.cons_append, List.append_assoc, List.cons_append, layoutLength,
        layoutLength_comment line _ ends, layoutLength_of_blank isBlank_newline, ih]
      simp only [List.length_cons, List.length_append]
      omega

/-- A gap goes no further than to what is neither white space nor a comment. -/
theorem layoutLength_of_gap_solid {gap cs : List Char} {c : Char} (gapped : Gap gap)
    (solid : Text.isBlank c = false) (code : c = '-' → cs.head? ≠ some '-') :
    layoutLength false (gap ++ c :: cs) = gap.length := by
  rw [layoutLength_of_gap gapped, layoutLength_of_not_blank solid code, Nat.add_zero]

theorem layoutLength_of_lastGap {gap : List Char} (last : LastGap gap) :
    layoutLength false gap = gap.length := by
  cases last with
  | whole gapped =>
      have all := layoutLength_of_gap gapped []
      rwa [List.append_nil, layoutLength, Nat.add_zero] at all
  | @comment cs body gapped line =>
      have rest := layoutLength_comment line [] nofun
      rw [List.append_nil, layoutLength, Nat.add_zero] at rest
      rw [layoutLength_of_gap gapped, layoutLength, rest]
      simp only [List.length_cons, List.length_append]

/-- A text is a gap to its end, or a gap and then a character that is neither white space nor the
first of a comment. -/
theorem gap_or_solid (cs : List Char) :
    LastGap cs ∨ ∃ gap c rest, cs = gap ++ c :: rest ∧ Gap gap ∧ Text.isBlank c = false ∧
      (c = '-' → rest.head? ≠ some '-') := by
  induction n : cs.length using Nat.strongRecOn generalizing cs with
  | ind n ih =>
      subst n
      -- What follows a gap is shorter, and the gap goes on into it.
      have goesOn : ∀ front later, cs = front ++ later → Gap front → front ≠ [] →
          LastGap cs ∨ ∃ gap c rest, cs = gap ++ c :: rest ∧ Gap gap ∧ Text.isBlank c = false ∧
            (c = '-' → rest.head? ≠ some '-') := by
        rintro front later rfl first nonempty
        have shorter : later.length < (front ++ later).length := by
          have positive := List.length_pos_iff.mpr nonempty
          rw [List.length_append]
          omega
        rcases ih _ shorter later rfl with last | ⟨gap, c, rest, rfl, gapped, solid, code⟩
        · exact .inl (last.after first)
        · exact .inr ⟨front ++ gap, c, rest, (List.append_assoc ..).symm, first.append gapped,
            solid, code⟩
      cases cs with
      | nil => exact .inl (.whole .nil)
      | cons c cs =>
          by_cases white : Text.isBlank c = true
          · exact goesOn [c] cs rfl (.blank white .nil) (List.cons_ne_nil _ _)
          by_cases code : c = '-' ∧ cs.head? = some '-'
          · obtain ⟨rfl, dash⟩ := code
            obtain ⟨ds, rfl⟩ := List.head?_eq_some_iff.mp dash
            by_cases line : '\n' ∈ ds
            · obtain ⟨body, later, rfl, before⟩ := List.eq_append_cons_of_mem line
              refine goesOn ('-' :: '-' :: (body ++ ['\n'])) later ?_ (.comment before .nil)
                (List.cons_ne_nil _ _)
              simp
            · exact .inl (.comment .nil line)
          · exact .inr ⟨[], c, cs, rfl, .nil, Bool.eq_false_iff.mpr white,
              fun dash other => code ⟨dash, other⟩⟩

end RowStore.Sql
