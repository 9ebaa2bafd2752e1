import RowStore.Proofs.Parsing

namespace RowStore.Sql

/-- The line of the character after these, counted from 1. -/
def lineAfter (before : List Char) : Nat := 1 + before.count '\n'

/-- The column of the character after these, counted from 1 in its line. -/
def columnAfter (before : List Char) : Nat := 1 + (before.reverse.takeWhile (· ≠ '\n')).length

/-- The characters that a token stands for, and those that follow. They are its literal, but in a
string every quote is doubled, and a string that does not end takes all that is left. -/
inductive Covers (kind : Kind) (literal : String) : List Char → List Char → Prop
  | string {s : String} {rest : List Char} (text : kind = .string s) :
      Covers kind literal ('\'' :: (doubled s.toList ++ ['\''])) rest
  | unterminated {body : List Char} (text : kind = .illegal "unterminated string") :
      Covers kind literal ('\'' :: body) []
  | literal {rest : List Char} (noString : ∀ s, kind ≠ .string s)
      (ended : kind ≠ .illegal "unterminated string") : Covers kind literal literal.toList rest

/-- After the characters `before`, the text is these tokens with gaps between them, and every token
but the end of input is where it says. -/
inductive Tiles : List Char → List Token → List Char → Prop
  | last {before gap : List Char} {t : Token} (gapped : LastGap gap)
      (ends : t.kind = .endOfInput) : Tiles before [t] gap
  | token {before gap source rest : List Char} {t : Token} {ts : List Token} (gapped : Gap gap)
      (goesOn : t.kind ≠ .endOfInput) (covers : Covers t.kind t.literal source rest)
      (line : t.line = lineAfter (before ++ gap)) (column : t.column = columnAfter (before ++ gap))
      (others : Tiles (before ++ gap ++ source) ts rest) :
      Tiles before (t :: ts) (gap ++ (source ++ rest))

section Lexemes

/-- The lexeme is cut off the front of the characters. -/
def Lexeme.Cuts (x : Lexeme) (cs : List Char) : Prop :=
  ∃ source rest, cs = source ++ rest ∧ source ≠ [] ∧ x.length = source.length ∧
    x.kind ≠ .endOfInput ∧ Covers x.kind x.literal source rest

theorem Lexeme.cuts_of_literal {x : Lexeme} {source cs : List Char} (front : source <+: cs)
    (nonempty : source ≠ []) (literal : x.literal = String.ofList source)
    (length : x.length = source.length) (goesOn : x.kind ≠ .endOfInput)
    (noString : ∀ s, x.kind ≠ .string s) (ended : x.kind ≠ .illegal "unterminated string") :
    x.Cuts cs := by
  obtain ⟨rest, rfl⟩ := front
  have same : x.literal.toList = source := by rw [literal, String.toList_ofList]
  have covers : Covers x.kind x.literal x.literal.toList rest := .literal noString ended
  rw [same] at covers
  exact ⟨source, rest, rfl, nonempty, length, goesOn, covers⟩

theorem front_of_symbol? {c : Char} {cs : List Char} {sign : Symbol} {text : String}
    (read : symbol? c cs.head? = some (sign, text)) :
    text.toList <+: c :: cs ∧ text.toList ≠ [] := by
  unfold symbol? at read
  split at read
  -- A sign of two characters is there only if the second one is.
  case h_12 second | h_13 second | h_14 second | h_16 second =>
    obtain ⟨rest, rfl⟩ := List.head?_eq_some_iff.mp second
    cases read
    exact ⟨⟨rest, rfl⟩, by decide⟩
  case h_18 => cases read
  all_goals
    cases read
    exact ⟨⟨cs, rfl⟩, by decide⟩

theorem cuts_symbol {c : Char} {cs : List Char} {sign : Symbol} {text : String}
    (read : symbol? c cs.head? = some (sign, text)) :
    (Lexeme.mk (.symbol sign) text text.length).Cuts (c :: cs) := by
  obtain ⟨front, nonempty⟩ := front_of_symbol? read
  exact Lexeme.cuts_of_literal front nonempty String.ofList_toList.symm rfl nofun nofun nofun

/-- The text of a string and its closing quote, as they were written. -/
theorem quotedText_eq_some {cs text : List Char} {n : Nat} (read : quotedText cs = some (text, n)) :
    n = (doubled text).length + 1 ∧ ∃ rest, cs = doubled text ++ '\'' :: rest := by
  fun_induction quotedText cs generalizing text n with
  | case1 => cases read
  | case2 cs ih =>
      obtain ⟨⟨inner, m⟩, found, same⟩ := Option.map_eq_some_iff.mp read
      obtain ⟨rfl, rfl⟩ := Prod.mk.inj same
      obtain ⟨rfl, rest, rfl⟩ := ih found
      exact ⟨rfl, rest, rfl⟩
  | case3 rest =>
      obtain ⟨rfl, rfl⟩ := Prod.mk.inj (Option.some.inj read)
      exact ⟨rfl, rest, rfl⟩
  | case4 c cs _ plain ih =>
      obtain ⟨⟨inner, m⟩, found, same⟩ := Option.map_eq_some_iff.mp read
      obtain ⟨rfl, rfl⟩ := Prod.mk.inj same
      obtain ⟨rfl, rest, rfl⟩ := ih found
      rw [doubled_cons_of_ne plain]
      exact ⟨rfl, rest, rfl⟩

theorem cuts_string (cs : List Char) : (stringLexeme cs).Cuts ('\'' :: cs) := by
  unfold stringLexeme
  cases read : quotedText cs with
  | none => exact ⟨'\'' :: cs, [], by simp, List.cons_ne_nil _ _, rfl, nofun, .unterminated rfl⟩
  | some result =>
      obtain ⟨text, n⟩ := result
      obtain ⟨rfl, rest, rfl⟩ := quotedText_eq_some read
      have covers : Covers (.string (String.ofList text)) (String.ofList (['\''] ++ text ++ ['\'']))
          ('\'' :: (doubled (String.ofList text).toList ++ ['\''])) rest := .string rfl
      rw [String.toList_ofList] at covers
      refine ⟨_, rest, ?_, List.cons_ne_nil _ _, ?_, nofun, covers⟩
      · simp
      · simp

theorem cuts_word {c : Char} (letter : isLetter c = true) (cs : List Char) :
    (wordLexeme (c :: cs)).Cuts (c :: cs) := by
  have nonempty : (c :: cs).takeWhile isWordPart ≠ [] := by
    rw [List.takeWhile_cons_of_pos (isWordPart_of_letter letter)]
    exact List.cons_ne_nil _ _
  unfold wordLexeme
  dsimp only
  split <;>
    exact Lexeme.cuts_of_literal (List.takeWhile_prefix _) nonempty rfl rfl nofun nofun nofun

/-- Digits, and then perhaps a point with more of them, are what was written. -/
theorem numberText_prefix (cs : List Char) :
    (numberText cs).1 = cs.takeWhile Char.isDigit ∧
      (numberText cs).1 ++ (numberText cs).2.elim [] ('.' :: ·) <+: cs := by
  have digits : cs.takeWhile Char.isDigit ++ [] <+: cs := by
    rw [List.append_nil]
    exact List.takeWhile_prefix _
  unfold numberText
  dsimp only
  split
  · rename_i d ds after
    split
    · have whole := List.takeWhile_append_dropWhile (p := Char.isDigit) (l := cs)
      rw [after] at whole
      have point : '.' :: (d :: ds).takeWhile Char.isDigit <+: '.' :: d :: ds :=
        List.cons_prefix_cons.mpr ⟨rfl, List.takeWhile_prefix _⟩
      have longer := (List.prefix_append_right_inj (cs.takeWhile Char.isDigit)).mpr point
      rw [whole] at longer
      exact ⟨rfl, longer⟩
    · exact ⟨rfl, digits⟩
  · exact ⟨rfl, digits⟩

/-- Digits are no text of an error. -/
theorem ofList_ne_of_digits {ds : List Char} (digits : ∀ d ∈ ds, d.isDigit = true) :
    String.ofList ds ≠ "unterminated string" := by
  intro same
  have letters : ds = "unterminated string".toList := by rw [← same, String.toList_ofList]
  exact absurd (digits 'u' (letters ▸ by decide)) (by decide)

theorem cuts_integer {ds cs : List Char} (front : ds <+: cs) (nonempty : ds ≠ [])
    (digits : ∀ d ∈ ds, d.isDigit = true) : (integerLexeme ds).Cuts cs := by
  unfold integerLexeme
  dsimp only
  split
  · exact Lexeme.cuts_of_literal front nonempty rfl rfl nofun nofun nofun
  · refine Lexeme.cuts_of_literal front nonempty rfl rfl nofun nofun ?_
    exact fun same => ofList_ne_of_digits digits (Kind.illegal.inj same)

theorem cuts_number {c : Char} (digit : c.isDigit = true) (cs : List Char) :
    (numberLexeme (c :: cs)).Cuts (c :: cs) := by
  obtain ⟨whole, front⟩ := numberText_prefix (c :: cs)
  have nonempty : (c :: cs).takeWhile Char.isDigit ≠ [] := by
    rw [List.takeWhile_cons_of_pos digit]
    exact List.cons_ne_nil _ _
  unfold numberLexeme
  split
  · rename_i ds read
    rw [read, Option.elim_none, List.append_nil] at front
    rw [read] at whole
    dsimp only at whole front
    subst whole
    exact cuts_integer front nonempty (List.all_eq_true.mp List.all_takeWhile)
  · rename_i ds fraction read
    rw [read, Option.elim_some] at front
    rw [List.append_assoc, List.singleton_append]
    exact Lexeme.cuts_of_literal front (by simp) rfl rfl nofun nofun nofun

theorem cuts_lexeme (c : Char) (cs : List Char) : (lexeme c cs).Cuts (c :: cs) := by
  refine lexeme_cases (P := fun x => x.Cuts (c :: cs)) c cs ?symbol ?string ?word ?number ?other
  case symbol => exact fun _ _ read => cuts_symbol read
  case string =>
    rintro rfl
    exact cuts_string cs
  case word => exact fun letter => cuts_word letter cs
  case number => exact fun digit => cuts_number digit cs
  case other =>
    refine Lexeme.cuts_of_literal ⟨cs, rfl⟩ (List.cons_ne_nil _ _) rfl rfl nofun nofun ?_
    -- The text of the error is one character only.
    intro same
    have letters := congrArg String.toList (Kind.illegal.inj same)
    exact absurd (congrArg List.length letters) (by simp)

end Lexemes

section Places

theorem lineAfter_append_singleton (before : List Char) (c : Char) :
    lineAfter (before ++ [c]) = lineAfter before + if c = '\n' then 1 else 0 := by
  rw [lineAfter, List.count_append, List.count_singleton, lineAfter, Nat.add_assoc]
  simp only [beq_iff_eq]

theorem columnAfter_append_singleton (before : List Char) (c : Char) :
    columnAfter (before ++ [c]) = if c = '\n' then 1 else columnAfter before + 1 := by
  rw [columnAfter, List.reverse_append, List.reverse_singleton, List.singleton_append,
    List.takeWhile_cons]
  by_cases line : c = '\n'
  · simp [line]
  · simp [line, columnAfter, Nat.add_assoc]

namespace Scanner

/-- The scanner that has passed these characters and has those left. -/
def behind (before rest : List Char) : Scanner :=
  arrive rest (lineAfter before) (columnAfter before - 1)

theorem start_eq_behind (text : String) : start text = behind [] text.toList := rfl

@[simp] theorem rest_behind (before rest : List Char) : (behind before rest).rest = rest :=
  rest_arrive _ _ _

/-- A scanner stands where its first character does. -/
theorem behind_cons {c : Char} (solid : c ≠ '\n') (before cs : List Char) :
    behind before (c :: cs) = ⟨c :: cs, lineAfter before, columnAfter before⟩ := by
  have counted : columnAfter before - 1 + 1 = columnAfter before := by
    rw [columnAfter]
    omega
  rw [behind, arrive, if_neg solid, counted]

theorem step_behind (before : List Char) (c : Char) (rest : List Char) :
    (behind before (c :: rest)).step = behind (before ++ [c]) rest := by
  rw [step, rest_behind, List.tail_cons]
  conv => rhs; rw [behind, lineAfter_append_singleton, columnAfter_append_singleton]
  by_cases line : c = '\n'
  · rw [if_pos line, if_pos line, behind, arrive, if_pos line]
  · rw [if_neg line, if_neg line, behind_cons line]
    rfl

theorem skip_behind (before front rest : List Char) :
    (behind before (front ++ rest)).skip front.length = behind (before ++ front) rest := by
  induction front generalizing before with
  | nil => rw [List.append_nil]; rfl
  | cons c front ih =>
      rw [List.cons_append, List.length_cons, skip, step_behind, ih, List.append_assoc,
        List.singleton_append]

end Scanner

end Places

section Scanning

namespace Scanner

theorem next_behind_of_lastGap {gap : List Char} (last : LastGap gap) (before : List Char) :
    (behind before gap).next.1.kind = .endOfInput :=
  next_of_nil (by rw [rest_behind, layoutLength_of_lastGap last, List.drop_length])

/-- One token is taken off the front, and the scanner is behind it. -/
theorem next_behind {gap source later cs : List Char} {c : Char} (gapped : Gap gap)
    (solid : Text.isBlank c = false) (code : c = '-' → cs.head? ≠ some '-')
    (cut : c :: cs = source ++ later) (length : (lexeme c cs).length = source.length)
    (before : List Char) :
    (behind before (gap ++ c :: cs)).next =
      (⟨(lexeme c cs).kind, (lexeme c cs).literal, lineAfter (before ++ gap),
        columnAfter (before ++ gap)⟩, behind (before ++ gap ++ source) later) := by
  have line : c ≠ '\n' := by
    rintro rfl
    exact absurd solid (by decide)
  have ahead : ((behind (before ++ gap) (c :: cs)).skip (lexeme c cs).length) =
      behind (before ++ gap ++ source) later := by
    rw [length, cut, skip_behind]
  rw [behind_cons line] at ahead
  simp only [next, rest_behind, layoutLength_of_gap_solid gapped solid code, skip_behind,
    behind_cons line, ahead]

theorem tiles_tokensUpTo {fuel : Nat} {rest : List Char} (enough : rest.length < fuel)
    (before : List Char) : Tiles before ((behind before rest).tokensUpTo fuel) rest := by
  induction fuel generalizing before rest with
  | zero => exact absurd enough (Nat.not_lt_zero _)
  | succ fuel ih =>
      rw [tokensUpTo_succ]
      rcases gap_or_solid rest with last | ⟨gap, c, cs, rfl, gapped, solid, code⟩
      · have ends := next_behind_of_lastGap last before
        rw [if_pos ends]
        exact .last last ends
      · obtain ⟨source, later, cut, nonempty, length, goesOn, covers⟩ := cuts_lexeme c cs
        rw [next_behind gapped solid code cut length, if_neg goesOn, cut]
        have shorter : later.length < fuel := by
          have positive := List.length_pos_iff.mpr nonempty
          rw [cut, List.length_append, List.length_append] at enough
          omega
        exact .token gapped goesOn covers rfl rfl (ih shorter _)

/-- The scanner that this many tokens have been taken from. -/
def after : Nat → Scanner → Scanner
  | 0, s => s
  | n + 1, s => after n s.next.2

/-- Nothing but the end of input comes after it, however often it is asked for. -/
theorem next_next_of_ended {s : Scanner} (ended : s.next.1.kind = .endOfInput) :
    s.next.2.next = s.next := by
  cases left : s.rest.drop (layoutLength false s.rest) with
  | nil =>
      rw [← rest_skip] at left
      have here : s.next.2 = s.skip (layoutLength false s.rest) := by simp only [next, left]
      rw [here]
      simp only [next, left, layoutLength, skip]
  | cons c cs =>
      obtain ⟨_, _, _, _, _, goesOn, _⟩ := cuts_lexeme c cs
      exact absurd ((next_of_cons left).1.symm.trans ended) goesOn

theorem next_after_of_ended {s : Scanner} (ended : s.next.1.kind = .endOfInput) (n : Nat) :
    (s.after n).next = s.next := by
  induction n generalizing s with
  | zero => rfl
  | succ n ih =>
      have again := next_next_of_ended ended
      have ended' : s.next.2.next.1.kind = .endOfInput := by rw [again, ended]
      rw [after, ih ended', again]

/-- The tokens are those that are taken one after the other, and from then on the last of them. -/
theorem next_after_of_tokensUpTo {fuel : Nat} {s : Scanner} {ts : List Token} {e : Token}
    (all : s.tokensUpTo fuel = ts ++ [e]) (ends : e.kind = .endOfInput) (n : Nat) :
    (s.after n).next.1 = ts.getD n e := by
  induction fuel generalizing s ts n with
  | zero => simp [tokensUpTo] at all
  | succ fuel ih =>
      rw [tokensUpTo_succ] at all
      split at all
      · rename_i ended
        cases ts with
        | nil =>
            rw [next_after_of_ended ended]
            exact (List.cons.inj all).1
        | cons t ts => simp at all
      · rename_i goesOn
        cases ts with
        | nil => exact absurd ((List.cons.inj all).1 ▸ ends) goesOn
        | cons t ts =>
            obtain ⟨here, others⟩ := List.cons.inj all
            cases n with
            | zero => exact here
            | succ n => exact ih others n

end Scanner

theorem Tiles.ends {before rest : List Char} {all : List Token} (tiles : Tiles before all rest) :
    ∃ ts e, all = ts ++ [e] ∧ e.kind = .endOfInput ∧ ∀ t ∈ ts, t.kind ≠ .endOfInput := by
  induction tiles with
  | @last _ _ t _ ends => exact ⟨[], t, rfl, ends, List.forall_mem_nil _⟩
  | @token _ _ _ _ t _ _ goesOn _ _ _ _ ih =>
      obtain ⟨ts, e, rfl, ends, others⟩ := ih
      exact ⟨t :: ts, e, rfl, ends, List.forall_mem_cons.mpr ⟨goesOn, others⟩⟩

/-- The tokens tile the text, and only the last of them is the end of input. A scanner gives them
one after the other, and then the end of input as often as it is asked. -/
theorem tokens_tile_text (text : String) :
    Tiles [] (tokens text) text.toList ∧
      ∃ ts e, tokens text = ts ++ [e] ∧ e.kind = .endOfInput ∧
        (∀ t ∈ ts, t.kind ≠ .endOfInput) ∧
        ∀ n, ((Scanner.start text).after n).next.1 = ts.getD n e := by
  have tiles : Tiles [] (tokens text) text.toList := by
    rw [tokens, Scanner.tokens, Scanner.start_eq_behind, Scanner.rest_behind]
    exact Scanner.tiles_tokensUpTo (Nat.lt_succ_self _) []
  obtain ⟨ts, e, all, ends, others⟩ := tiles.ends
  exact ⟨tiles, ts, e, all, ends, others, Scanner.next_after_of_tokensUpTo all ends⟩

end Scanning

section Rendering

/-- The tokens that can be written down: of those that hold a value, the words that are no keyword,
the integers without a sign, and the strings. -/
def Kind.Renderable : Kind → Prop
  | .keyword _ | .symbol _ | .string _ => True
  | .identifier name => isName name = true
  | .integer v => 0 ≤ v.toInt
  | .float _ | .illegal _ | .endOfInput => False

instance : DecidablePred Kind.Renderable
  | .keyword _ | .symbol _ | .string _ => .isTrue trivial
  | .identifier name => inferInstanceAs (Decidable (isName name = true))
  | .integer v => inferInstanceAs (Decidable (0 ≤ v.toInt))
  | .float _ | .illegal _ | .endOfInput => .isFalse id

theorem Kind.Renderable.spellable {k : Kind} (renderable : k.Renderable) :
    Grammar.Spellable k := by
  have judges := Grammar.judges_spellable
  cases k with
  | keyword word => exact judges.keyword word
  | symbol sign => exact judges.symbol sign
  | identifier name => exact (judges.identifier name).mpr renderable
  | string s => exact ⟨_, .string s⟩
  | integer v => exact (judges.integer v).mpr renderable
  | float _ | illegal _ | endOfInput => exact renderable.elim

/-- Tokens can be written down, and however they are written they are found again. -/
theorem tokens_of_rendered {ks : List Kind} (renderable : ∀ k ∈ ks, k.Renderable) :
    (∃ text : String, Spaced ks text.toList) ∧
      ∀ text : String, Spaced ks text.toList →
        (tokens text).map Token.kind = ks ++ [.endOfInput] := by
  constructor
  · obtain ⟨words, spelt⟩ := exists_words fun k member => (renderable k member).spellable
    refine ⟨String.ofList (words.flatMap (' ' :: ·)), ?_⟩
    rw [String.toList_ofList]
    exact (laid_of_words spelt).spaced
  · exact fun text spaced => kinds_tokens_of_spaced spaced

theorem tokens_of_rendered_with_comment :
    (tokens "SeLeCt\t-- don't\n'it''s --;' <> 007").map Token.kind =
      [.keyword .SELECT, .string "it's --;", .symbol .notEqual, .integer 7, .endOfInput] := by
  have renderable : ∀ k ∈ [Kind.keyword .SELECT, .string "it's --;", .symbol .notEqual, .integer 7],
      k.Renderable := by decide
  have blank : Gap [' '] := .blank (by decide) .nil
  have comment : Gap "\t-- don't\n".toList :=
    .blank (by decide) (@Gap.comment " don't".toList [] (by decide) .nil)
  have digits : ∀ d ∈ "007".toList, d.isDigit = true := List.all_eq_true.mp (by decide)
  have number : Spaced [.integer 7] (" ".toList ++ ("007".toList ++ [])) :=
    .cons blank (.integer (by decide) digits (by decide)) (by decide) (.nil (.whole .nil))
  have sign : Spaced [.symbol .notEqual, .integer 7] _ :=
    .cons blank (.symbol (List.mem_cons_of_mem _ List.mem_cons_self)) (by decide) number
  have string : Spaced [.string "it's --;", .symbol .notEqual, .integer 7] _ :=
    .cons comment (.string "it's --;") (by decide) sign
  have all : Spaced [.keyword .SELECT, .string "it's --;", .symbol .notEqual, .integer 7] _ :=
    @Spaced.cons [] "SeLeCt".toList _ _ _ .nil (.keyword (by decide)) (by decide) string
  exact (tokens_of_rendered renderable).2 _ all

end Rendering

end RowStore.Sql
