import RowStore.Proofs.Gaps

namespace RowStore.Sql

/-- A word that is no keyword. -/
def isName (s : String) : Bool :=
  match s.toList with
  | [] => false
  | c :: cs => isLetter c && cs.all isWordPart && (Keyword.ofWord? s).isNone

def Symbol.spellings : Symbol → List (List Char)
  | .equals => [['=']]
  | .notEqual => [['!', '='], ['<', '>']]
  | .lessThan => [['<']]
  | .greaterThan => [['>']]
  | .lessEqual => [['<', '=']]
  | .greaterEqual => [['>', '=']]
  | .plus => [['+']]
  | .minus => [['-']]
  | .multiply => [['*']]
  | .divide => [['/']]
  | .modulo => [['%']]
  | .semicolon => [[';']]
  | .comma => [[',']]
  | .leftParen => [['(']]
  | .rightParen => [[')']]
  | .dot => [['.']]

/-- The characters of a string between its quotes. -/
def doubled (cs : List Char) : List Char :=
  cs.flatMap fun c => if c = '\'' then ['\'', '\''] else [c]

/-- The spellings of a token. Keywords may be in any case, and integers may have zeros in front. -/
inductive Spells : Kind → List Char → Prop
  | keyword {word : Keyword} {cs : List Char} (same : cs.map Char.toUpper = word.spelling.toList) :
      Spells (.keyword word) cs
  | symbol {sign : Symbol} {cs : List Char} (known : cs ∈ sign.spellings) : Spells (.symbol sign) cs
  | identifier {name : String} (named : isName name = true) :
      Spells (.identifier name) name.toList
  | integer {v : Int64} {ds : List Char} (nonempty : ds ≠ []) (digits : ∀ d ∈ ds, d.isDigit = true)
      (value : v.toInt = Nat.ofDigitChars 10 ds 0) : Spells (.integer v) ds
  | string (s : String) : Spells (.string s) ('\'' :: (doubled s.toList ++ ['\'']))

/-- Only white space may come next. -/
def Apart (cs : List Char) : Prop := ∀ c ∈ cs.head?, Text.isBlank c = true

instance : DecidablePred Apart
  | [] => .isTrue nofun
  | c :: _ => decidable_of_iff (Text.isBlank c = true) (by simp [Apart])

/-- The texts that are these tokens with white space between them, and perhaps around them. -/
inductive Laid : List Kind → List Char → Prop
  | nil {gap : List Char} (blank : ∀ c ∈ gap, Text.isBlank c = true) : Laid [] gap
  | cons {gap word rest : List Char} {k : Kind} {ks : List Kind}
      (blank : ∀ c ∈ gap, Text.isBlank c = true) (spelt : Spells k word) (apart : Apart rest)
      (others : Laid ks rest) : Laid (k :: ks) (gap ++ (word ++ rest))

/-- The texts that are these tokens with gaps between them, and perhaps around them. Only white
space may come right after a token. -/
inductive Spaced : List Kind → List Char → Prop
  | nil {gap : List Char} (last : LastGap gap) : Spaced [] gap
  | cons {gap word rest : List Char} {k : Kind} {ks : List Kind} (gapped : Gap gap)
      (spelt : Spells k word) (apart : Apart rest) (others : Spaced ks rest) :
      Spaced (k :: ks) (gap ++ (word ++ rest))

theorem Laid.spaced {ks : List Kind} {cs : List Char} (laid : Laid ks cs) : Spaced ks cs := by
  induction laid with
  | nil blank => exact .nil (.whole (gap_of_blank blank))
  | cons blank spelt apart _ ih => exact .cons (gap_of_blank blank) spelt apart ih

section Lexemes

/-- The characters that begin a sign. -/
def signs : List Char := [';', ',', '(', ')', '.', '+', '-', '*', '/', '%', '=', '!', '<', '>']

theorem symbol?_eq_none {c : Char} (other : c ∉ signs) (next : Option Char) :
    symbol? c next = none := by
  unfold symbol?
  split <;> first | rfl | exact absurd (by decide) other

theorem not_mem_signs_of_letter {c : Char} (letter : isLetter c = true) : c ∉ signs := by
  intro sign
  have letterless : signs.all (fun c => !isLetter c) = true := by decide +kernel
  have other := List.all_eq_true.mp letterless c sign
  rw [letter] at other
  cases other

theorem isAscii_of_digit {c : Char} (digit : c.isDigit = true) : Text.isAscii c = true := by
  simp only [Char.isDigit, Bool.and_eq_true, decide_eq_true_eq, ge_iff_le,
    UInt32.le_iff_toNat_le] at digit
  exact decide_eq_true (Nat.lt_of_le_of_lt digit.2 (by decide))

/-- A digit is no letter, and begins neither a sign nor a string. -/
theorem plain_of_digit {c : Char} (digit : c.isDigit = true) :
    isLetter c = false ∧ c ∉ signs ∧ c ≠ '\'' ∧ Text.isBlank c = false :=
  Text.forall_ascii (P := fun c => c.isDigit = true →
    isLetter c = false ∧ c ∉ signs ∧ c ≠ '\'' ∧ Text.isBlank c = false)
    (by decide +kernel) (isAscii_of_digit digit) digit

theorem isWordPart_of_letter {c : Char} (letter : isLetter c = true) : isWordPart c = true := by
  rw [isWordPart, letter, Bool.true_or]

theorem plain_of_letter {c : Char} (letter : isLetter c = true) :
    c ∉ signs ∧ c ≠ '\'' ∧ Text.isBlank c = false := by
  refine ⟨not_mem_signs_of_letter letter, ?_, ?_⟩
  · rintro rfl
    exact absurd letter (by decide +kernel)
  · cases blank : Text.isBlank c with
    | false => rfl
    | true =>
        have solid := isWordPart_of_blank blank
        rw [isWordPart_of_letter letter] at solid
        cases solid

/-- What comes next does not belong to a run of characters that are not white space. -/
theorem span_of_apart {p : Char → Bool} {cs rest : List Char} (all : ∀ c ∈ cs, p c = true)
    (stops : ∀ c, Text.isBlank c = true → p c = false) (apart : Apart rest) :
    (cs ++ rest).takeWhile p = cs ∧ (cs ++ rest).dropWhile p = rest := by
  rw [List.takeWhile_append_of_pos all, List.dropWhile_append_of_pos all]
  cases rest with
  | nil => simp
  | cons c rest =>
      have stop := stops c (apart c rfl)
      rw [List.takeWhile_cons_of_neg (by simp [stop]), List.dropWhile_cons_of_neg (by simp [stop]),
        List.append_nil]
      exact ⟨rfl, rfl⟩

theorem ne_of_apart {rest : List Char} {c : Char} (apart : Apart rest)
    (solid : Text.isBlank c = false) : rest.head? ≠ some c := by
  intro same
  have blank := apart c same
  rw [solid] at blank
  cases blank

/-- The five kinds of lexemes, by the character that they begin with. -/
theorem lexeme_cases {P : Lexeme → Prop} (c : Char) (cs : List Char)
    (symbol : ∀ sign text, symbol? c cs.head? = some (sign, text) →
      P ⟨.symbol sign, text, text.length⟩)
    (string : c = '\'' → P (stringLexeme cs))
    (word : isLetter c = true → P (wordLexeme (c :: cs)))
    (number : c.isDigit = true → P (numberLexeme (c :: cs)))
    (other : P ⟨.illegal c.toString, c.toString, 1⟩) : P (lexeme c cs) := by
  unfold lexeme
  split
  · rename_i sign text read
    exact symbol sign text read
  · by_cases quote : c = '\''
    · rw [if_pos quote]
      exact string quote
    rw [if_neg quote]
    by_cases letter : isLetter c = true
    · rw [if_pos letter]
      exact word letter
    rw [if_neg letter]
    by_cases digit : c.isDigit = true
    · rw [if_pos digit]
      exact number digit
    rw [if_neg digit]
    exact other

theorem lexeme_of_letter {c : Char} (letter : isLetter c = true) (cs : List Char) :
    lexeme c cs = wordLexeme (c :: cs) := by
  obtain ⟨plain, quote, _⟩ := plain_of_letter letter
  simp only [lexeme, symbol?_eq_none plain, if_neg quote, letter, if_true]

theorem lexeme_of_digit {c : Char} (digit : c.isDigit = true) (cs : List Char) :
    lexeme c cs = numberLexeme (c :: cs) := by
  obtain ⟨letter, plain, quote, _⟩ := plain_of_digit digit
  simp only [lexeme, symbol?_eq_none plain, if_neg quote, letter, digit, if_true,
    Bool.false_eq_true, if_false]

/-- What a scanner makes of a word that a token may be spelled as. -/
def Found (k : Kind) (word rest : List Char) : Prop :=
  ∃ c cs, word = c :: cs ∧ Text.isBlank c = false ∧ (c = '-' → (cs ++ rest).head? ≠ some '-') ∧
    (lexeme c (cs ++ rest)).kind = k ∧ (lexeme c (cs ++ rest)).length = word.length

theorem wordLexeme_of_apart {cs rest : List Char} (parts : ∀ c ∈ cs, isWordPart c = true)
    (apart : Apart rest) :
    wordLexeme (cs ++ rest) = ⟨(Keyword.ofWord? (String.ofList cs)).elim
      (.identifier (String.ofList cs)) .keyword, String.ofList cs, cs.length⟩ := by
  simp only [wordLexeme, (span_of_apart parts (fun _ => isWordPart_of_blank) apart).1]
  cases Keyword.ofWord? (String.ofList cs) <;> rfl

theorem ofWord?_spelling (word : Keyword) :
    Keyword.all.find? (·.spelling = word.spelling) = some word := by
  cases word <;> decide +kernel

theorem letters_of_spelling (word : Keyword) :
    word.spelling.toList.all (fun u => Text.isAscii u && u.isUpper) = true := by
  cases word <;> decide +kernel

/-- A word that begins with a letter is found if it is read as a whole. -/
theorem found_of_letter {k : Kind} {text : String} {c : Char} {cs rest : List Char}
    (letter : isLetter c = true)
    (read : wordLexeme (c :: cs ++ rest) = ⟨k, text, (c :: cs).length⟩) :
    Found k (c :: cs) rest := by
  obtain ⟨plain, _, solid⟩ := plain_of_letter letter
  refine ⟨c, cs, rfl, solid, ?_, ?_, ?_⟩
  · rintro rfl
    exact absurd (by decide) plain
  · rw [lexeme_of_letter letter, ← List.cons_append, read]
  · rw [lexeme_of_letter letter, ← List.cons_append, read]

theorem found_keyword {word : Keyword} {cs rest : List Char}
    (same : cs.map Char.toUpper = word.spelling.toList) (apart : Apart rest) :
    Found (.keyword word) cs rest := by
  have ascii : ∀ c ∈ cs, Text.isAscii c = true ∧ isLetter c = true := by
    intro c member
    have folded : c.toUpper ∈ word.spelling.toList := same ▸ List.mem_map_of_mem member
    obtain ⟨upper, big⟩ := Bool.and_eq_true_iff.mp
      (List.all_eq_true.mp (letters_of_spelling word) _ folded)
    have plain := Text.isAscii_of_toUpper upper
    exact ⟨plain, Text.forall_ascii (P := fun c => c.toUpper.isUpper = true → isLetter c = true)
      (by decide +kernel) plain big⟩
  have known : Keyword.ofWord? (String.ofList cs) = some word := by
    rw [Keyword.ofWord?, Text.upper_of_ascii fun c member => (ascii c member).1, same,
      String.ofList_toList]
    exact ofWord?_spelling word
  have parts : ∀ c ∈ cs, isWordPart c = true := by
    exact fun c member => isWordPart_of_letter (ascii c member).2
  cases cs with
  | nil => exact absurd same.symm (by cases word <;> decide)
  | cons c cs =>
      have read := wordLexeme_of_apart parts apart
      rw [known, Option.elim_some] at read
      exact found_of_letter (ascii c List.mem_cons_self).2 read

theorem found_identifier {name : String} {rest : List Char} (named : isName name = true)
    (apart : Apart rest) : Found (.identifier name) name.toList rest := by
  unfold isName at named
  split at named
  · cases named
  · rename_i c cs letters
    simp only [Bool.and_eq_true, List.all_eq_true, Option.isNone_iff_eq_none] at named
    obtain ⟨⟨letter, others⟩, free⟩ := named
    have parts : ∀ d ∈ c :: cs, isWordPart d = true :=
      List.forall_mem_cons.mpr ⟨isWordPart_of_letter letter, others⟩
    have read := wordLexeme_of_apart parts apart
    rw [← letters, String.ofList_toList, free, Option.elim_none, letters] at read
    rw [letters]
    exact found_of_letter letter read

theorem numberLexeme_of_apart {ds rest : List Char} (digits : ∀ d ∈ ds, d.isDigit = true)
    (apart : Apart rest) : numberLexeme (ds ++ rest) = integerLexeme ds := by
  have whole : numberText (ds ++ rest) = (ds, none) := by
    obtain ⟨front, back⟩ := span_of_apart digits (fun _ => isDigit_of_blank) apart
    unfold numberText
    rw [front, back]
    split
    · exact absurd rfl (ne_of_apart apart (by decide))
    · rfl
  rw [numberLexeme, whole]

theorem found_integer {v : Int64} {ds rest : List Char} (nonempty : ds ≠ [])
    (digits : ∀ d ∈ ds, d.isDigit = true) (value : v.toInt = Nat.ofDigitChars 10 ds 0)
    (apart : Apart rest) : Found (.integer v) ds rest := by
  have small : Nat.ofDigitChars 10 ds 0 < 0x8000000000000000 := by
    have bound := Int64.toInt_lt v
    omega
  have same : Int64.ofNat (Nat.ofDigitChars 10 ds 0) = v := by
    rw [← Int64.toInt_inj, Int64.toInt_ofNat_of_lt small, value]
  have read : numberLexeme (ds ++ rest) = ⟨.integer v, String.ofList ds, ds.length⟩ := by
    rw [numberLexeme_of_apart digits apart]
    simp only [integerLexeme, if_pos small, same]
  cases ds with
  | nil => exact absurd rfl nonempty
  | cons d ds =>
      have digit := digits d List.mem_cons_self
      obtain ⟨_, plain, _, solid⟩ := plain_of_digit digit
      refine ⟨d, ds, rfl, solid, ?_, ?_, ?_⟩
      · rintro rfl
        exact absurd (by decide) plain
      · rw [lexeme_of_digit digit, ← List.cons_append, read]
      · rw [lexeme_of_digit digit, ← List.cons_append, read]

theorem doubled_cons_of_ne {c : Char} (plain : c ≠ '\'') (cs : List Char) :
    doubled (c :: cs) = c :: doubled cs := by
  rw [doubled, List.flatMap_cons, if_neg plain]
  rfl

theorem quotedText_doubled {rest : List Char} (apart : rest.head? ≠ some '\'') (cs : List Char) :
    quotedText (doubled cs ++ '\'' :: rest) = some (cs, (doubled cs).length + 1) := by
  induction cs with
  | nil =>
      cases rest with
      | nil => rfl
      | cons c rest =>
          rw [doubled, List.flatMap_nil, List.nil_append, quotedText]
          · rfl
          · rintro _ same
            obtain ⟨rfl, _⟩ := List.cons.inj same
            exact apart rfl
  | cons c cs ih =>
      by_cases quote : c = '\''
      · subst quote
        change quotedText ('\'' :: '\'' :: (doubled cs ++ '\'' :: rest)) = _
        rw [quotedText, ih]
        rfl
      · rw [doubled_cons_of_ne quote, List.cons_append, quotedText, ih]
        · rfl
        · exact fun _ same => absurd same quote
        · exact quote

theorem found_string (s : String) {rest : List Char} (apart : Apart rest) :
    Found (.string s) ('\'' :: (doubled s.toList ++ ['\''])) rest := by
  have read := quotedText_doubled (ne_of_apart apart (by decide)) s.toList
  have lexed : lexeme '\'' (doubled s.toList ++ ['\''] ++ rest) = ⟨.string s,
      String.ofList (['\''] ++ s.toList ++ ['\'']), (doubled s.toList).length + 1 + 1⟩ := by
    rw [List.append_assoc, List.singleton_append, lexeme, symbol?_eq_none (by decide)]
    simp only [if_true, stringLexeme, read, String.ofList_toList]
  refine ⟨'\'', _, rfl, by decide, by simp, ?_, ?_⟩
  · rw [lexed]
  · rw [lexed]
    simp

theorem found_of_symbol? {sign : Symbol} {c : Char} {cs rest : List Char} {s : String}
    (read : symbol? c (cs ++ rest).head? = some (sign, s)) (whole : s.length = (c :: cs).length)
    (solid : Text.isBlank c = false) (code : c = '-' → (cs ++ rest).head? ≠ some '-') :
    Found (.symbol sign) (c :: cs) rest := by
  refine ⟨c, cs, rfl, solid, code, ?_, ?_⟩
  · simp only [lexeme, read]
  · simp only [lexeme, read, whole]

/-- A sign of one character is not the front of a longer one. -/
theorem symbol?_angle {next : Option Char} (equals : next ≠ some '=') (angle : next ≠ some '>') :
    symbol? '<' next = some (.lessThan, "<") ∧ symbol? '>' next = some (.greaterThan, ">") := by
  constructor
  · unfold symbol?
    split <;> simp_all
  · unfold symbol?
    split <;> simp_all

theorem found_symbol {sign : Symbol} {cs rest : List Char} (known : cs ∈ sign.spellings)
    (apart : Apart rest) : Found (.symbol sign) cs rest := by
  have dash := ne_of_apart apart (show Text.isBlank '-' = false by decide)
  have equals := ne_of_apart apart (show Text.isBlank '=' = false by decide)
  have angle := ne_of_apart apart (show Text.isBlank '>' = false by decide)
  obtain ⟨less, greater⟩ := symbol?_angle equals angle
  cases sign with
  | notEqual =>
      simp only [Symbol.spellings, List.mem_cons, List.not_mem_nil, or_false] at known
      rcases known with rfl | rfl
      · exact found_of_symbol? rfl rfl (by decide) (by simp)
      · exact found_of_symbol? rfl rfl (by decide) (by simp)
  | lessThan =>
      obtain rfl := List.mem_singleton.mp known
      exact found_of_symbol? less rfl (by decide) (by simp)
  | greaterThan =>
      obtain rfl := List.mem_singleton.mp known
      exact found_of_symbol? greater rfl (by decide) (by simp)
  | minus =>
      obtain rfl := List.mem_singleton.mp known
      exact found_of_symbol? rfl rfl (by decide) fun _ => dash
  | _ =>
      obtain rfl := List.mem_singleton.mp known
      exact found_of_symbol? rfl rfl (by decide) (by simp)

theorem found_of_spells {k : Kind} {word rest : List Char} (spelt : Spells k word)
    (apart : Apart rest) : Found k word rest := by
  cases spelt with
  | keyword same => exact found_keyword same apart
  | symbol known => exact found_symbol known apart
  | identifier named => exact found_identifier named apart
  | integer nonempty digits value => exact found_integer nonempty digits value apart
  | string s => exact found_string s apart

end Lexemes

section Scanning

namespace Scanner

theorem rest_arrive (cs : List Char) (line column : Nat) : (arrive cs line column).rest = cs := by
  unfold arrive
  split
  · rfl
  · split <;> rfl

theorem rest_skip (n : Nat) (s : Scanner) : (s.skip n).rest = s.rest.drop n := by
  induction n generalizing s with
  | zero => rfl
  | succ n ih => rw [skip, ih, step, rest_arrive, List.drop_tail]

theorem next_of_nil {s : Scanner} (behind : s.rest.drop (layoutLength false s.rest) = []) :
    s.next.1.kind = .endOfInput := by
  rw [← rest_skip] at behind
  simp only [next, behind]

theorem next_of_cons {s : Scanner} {c : Char} {cs : List Char}
    (behind : s.rest.drop (layoutLength false s.rest) = c :: cs) :
    s.next.1.kind = (lexeme c cs).kind ∧
      s.next.2.rest = (c :: cs).drop (lexeme c cs).length := by
  rw [← rest_skip] at behind
  simp only [next, behind, rest_skip, and_self]

theorem tokensUpTo_succ (fuel : Nat) (s : Scanner) :
    s.tokensUpTo (fuel + 1) = if s.next.1.kind = .endOfInput then [s.next.1]
      else s.next.1 :: s.next.2.tokensUpTo fuel := rfl

end Scanner

theorem kinds_of_lastGap {s : Scanner} (last : LastGap s.rest) (fuel : Nat) :
    (s.tokensUpTo (fuel + 1)).map Token.kind = [.endOfInput] := by
  have ends := Scanner.next_of_nil (s := s)
    (by rw [layoutLength_of_lastGap last, List.drop_length])
  rw [Scanner.tokensUpTo_succ, if_pos ends, List.map_singleton, ends]

/-- One token is taken off the front. -/
theorem kinds_of_found {k : Kind} {gap word rest : List Char} {s : Scanner}
    (gapped : Gap gap) (found : Found k word rest) (text : s.rest = gap ++ (word ++ rest))
    (inside : k ≠ .endOfInput) (fuel : Nat) :
    s.next.2.rest = rest ∧
      (s.tokensUpTo (fuel + 1)).map Token.kind =
        k :: (s.next.2.tokensUpTo fuel).map Token.kind := by
  obtain ⟨c, cs, rfl, solid, code, kind, length⟩ := found
  have passed : layoutLength false s.rest = gap.length := by
    rw [text, List.cons_append, layoutLength_of_gap_solid gapped solid code]
  have rest : s.rest.drop (layoutLength false s.rest) = c :: (cs ++ rest) := by
    rw [passed, text, List.drop_left, List.cons_append]
  obtain ⟨kind', left⟩ := Scanner.next_of_cons rest
  rw [kind] at kind'
  constructor
  · rw [left, length, ← List.cons_append, List.drop_left]
  · rw [Scanner.tokensUpTo_succ, if_neg (by rwa [kind']), List.map_cons, kind']

theorem length_le_of_spaced {ks : List Kind} {cs : List Char} (spaced : Spaced ks cs) :
    ks.length ≤ cs.length := by
  induction spaced with
  | nil => exact Nat.zero_le _
  | cons gapped spelt apart others ih =>
      obtain ⟨c, cs, rfl, _⟩ := found_of_spells spelt apart
      simp only [List.length_append, List.length_cons]
      omega

/-- A scanner finds the tokens of a text that is made of them. -/
theorem kinds_of_spaced {ks : List Kind} {cs : List Char} (spaced : Spaced ks cs) {s : Scanner}
    (text : s.rest = cs) {fuel : Nat} (enough : ks.length ≤ fuel) :
    (s.tokensUpTo (fuel + 1)).map Token.kind = ks ++ [.endOfInput] := by
  induction spaced generalizing s fuel with
  | nil last => exact kinds_of_lastGap (text ▸ last) fuel
  | @cons gap word rest k ks gapped spelt apart others ih =>
      obtain ⟨fuel, rfl⟩ := Nat.exists_eq_add_one_of_ne_zero (Nat.ne_zero_of_lt enough)
      obtain ⟨left, kinds⟩ := kinds_of_found gapped (found_of_spells spelt apart) text
        (by cases spelt <;> simp) (fuel + 1)
      rw [kinds, ih left (Nat.le_of_succ_le_succ enough), List.cons_append]

/-- What a scanner promises of each token. -/
structure Kind.Sound (k : Kind) : Prop where
  named : ∀ name, k = .identifier name → isName name = true
  unsigned : ∀ v, k = .integer v → 0 ≤ v.toInt

theorem wordLexeme_sound {c : Char} (letter : isLetter c = true) (cs : List Char) :
    (wordLexeme (c :: cs)).kind.Sound := by
  unfold wordLexeme
  rw [List.takeWhile_cons_of_pos (isWordPart_of_letter letter)]
  dsimp only
  split
  · exact ⟨nofun, nofun⟩
  · rename_i free
    refine ⟨?_, nofun⟩
    rintro _ ⟨⟩
    simp only [isName, String.toList_ofList, letter, List.all_takeWhile, free, Option.isNone_none,
      Bool.and_self]

theorem integerLexeme_sound (digits : List Char) : (integerLexeme digits).kind.Sound := by
  unfold integerLexeme
  dsimp only
  split
  · rename_i small
    refine ⟨nofun, ?_⟩
    rintro _ ⟨⟩
    rw [Int64.toInt_ofNat_of_lt small]
    exact Int.natCast_nonneg _
  · exact ⟨nofun, nofun⟩

theorem lexeme_sound (c : Char) (cs : List Char) : (lexeme c cs).kind.Sound := by
  refine lexeme_cases (P := fun x => x.kind.Sound) c cs ?symbol ?string ?word ?number ?other
  case symbol => exact fun _ _ _ => ⟨nofun, nofun⟩
  case string =>
    intro _
    unfold stringLexeme
    split <;> exact ⟨nofun, nofun⟩
  case word => exact fun letter => wordLexeme_sound letter cs
  case number =>
    intro _
    unfold numberLexeme
    split
    · exact integerLexeme_sound _
    · exact ⟨nofun, nofun⟩
  case other => exact ⟨nofun, nofun⟩

theorem Scanner.next_sound (s : Scanner) : s.next.1.kind.Sound := by
  cases left : s.rest.drop (layoutLength false s.rest) with
  | nil =>
      rw [next_of_nil left]
      exact ⟨nofun, nofun⟩
  | cons c cs =>
      rw [(next_of_cons left).1]
      exact lexeme_sound c cs

theorem Scanner.tokensUpTo_sound (fuel : Nat) (s : Scanner) :
    ∀ t ∈ s.tokensUpTo fuel, t.kind.Sound := by
  induction fuel generalizing s with
  | zero => exact List.forall_mem_nil _
  | succ fuel ih =>
      rw [tokensUpTo_succ]
      split
      · exact List.forall_mem_singleton.mpr s.next_sound
      · exact List.forall_mem_cons.mpr ⟨s.next_sound, ih _⟩

theorem tokens_sound (text : String) : ∀ t ∈ tokens text, t.kind.Sound :=
  Scanner.tokensUpTo_sound _ _

/-- The end of input is the last token. -/
theorem Scanner.tokensUpTo_ends {fuel : Nat} {s : Scanner} {used more : List Token} {t : Token}
    (split : s.tokensUpTo fuel = used ++ t :: more) (last : t.kind = .endOfInput) : more = [] := by
  induction fuel generalizing s used with
  | zero => simp [tokensUpTo] at split
  | succ fuel ih =>
      rw [tokensUpTo_succ] at split
      split at split
      · cases used with
        | nil => exact (List.cons.inj split).2.symm
        | cons u used => simp at split
      · rename_i goesOn
        cases used with
        | nil => exact absurd last ((List.cons.inj split).1 ▸ goesOn)
        | cons u used => exact ih (List.cons.inj split).2

theorem kinds_tokens_of_spaced {ks : List Kind} {text : String} (spaced : Spaced ks text.toList) :
    (tokens text).map Token.kind = ks ++ [.endOfInput] := by
  have text' : (Scanner.start text).rest = text.toList := Scanner.rest_arrive _ _ _
  have enough := length_le_of_spaced spaced
  rw [← text'] at enough
  exact kinds_of_spaced spaced text' enough

theorem kinds_tokens_of_laid {ks : List Kind} {text : String} (laid : Laid ks text.toList) :
    (tokens text).map Token.kind = ks ++ [.endOfInput] :=
  kinds_tokens_of_spaced laid.spaced

end Scanning

end RowStore.Sql
