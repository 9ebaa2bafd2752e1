import RowStore.Proofs.Statements
import RowStore.Proofs.WellFormed

namespace RowStore.Sql

/-- The ways to write a statement. -/
def Statement.texts (s : Statement) : Language Kind := Grammar.statement Expression.texts s

/-- The ways to write a statement with each operation in parentheses. -/
def Statement.renderings (s : Statement) : Language Kind :=
  Grammar.statement Expression.rendering s

theorem Statement.renderings_le (s : Statement) : s.renderings ≤ s.texts := by
  refine Grammar.statement_mono (fun e => ?_) s
  rintro _ rfl
  exact e.kinds_written 0 0

section Layout

theorem apart_words (words : List (List Char)) : Apart (words.flatMap (' ' :: ·)) := by
  intro c same
  cases words with
  | nil => cases same
  | cons word words =>
      obtain rfl := Option.some.inj same
      decide

/-- One blank before each word sets the words apart. -/
theorem laid_of_words {ks : List Kind} {words : List (List Char)}
    (spelt : List.Forall₂ Spells ks words) : Laid ks (words.flatMap (' ' :: ·)) := by
  have blank : ∀ c ∈ [' '], Text.isBlank c = true := List.forall_mem_singleton.mpr (by decide)
  induction spelt with
  | nil => exact .nil (List.forall_mem_nil _)
  | @cons k word ks words first others ih => exact .cons blank first (apart_words words) ih

theorem exists_words {ks : List Kind} (spellable : ∀ k ∈ ks, Grammar.Spellable k) :
    ∃ words, List.Forall₂ Spells ks words := by
  induction ks with
  | nil => exact ⟨[], .nil⟩
  | cons k ks ih =>
      obtain ⟨⟨word, first⟩, others⟩ := List.forall_mem_cons.mp spellable
      obtain ⟨words, spelt⟩ := ih others
      exact ⟨word :: words, .cons first spelt⟩

end Layout

section Show

variable {name : String}

theorem toList_lower (ascii : ∀ c ∈ name.toList, Text.isAscii c = true) :
    (Text.lower name).toList = name.toList.map Char.toLower := by
  rw [Text.lower, String.toList_ofList, Text.lowerAfter_of_ascii ascii]

theorem isLowerAscii_lower (ascii : ∀ c ∈ name.toList, Text.isAscii c = true) :
    isLowerAscii (Text.lower name) = true := by
  rw [isLowerAscii, toList_lower ascii, List.all_map, List.all_eq_true]
  intro c member
  exact Text.forall_ascii (P := fun c => (Text.isAscii c.toLower && !c.toLower.isUpper) = true)
    (by decide +kernel) (ascii c member)

theorem lower_of_isLowerAscii (lower : isLowerAscii name = true) : Text.lower name = name := by
  rw [isLowerAscii, List.all_eq_true] at lower
  have ascii : ∀ c ∈ name.toList, Text.isAscii c = true :=
    fun c member => (Bool.and_eq_true_iff.mp (lower c member)).1
  have same : name.toList.map Char.toLower = name.toList := by
    refine (List.map_congr_left fun c member => ?_).trans (List.map_id _)
    exact Text.forall_ascii (P := fun c => (Text.isAscii c && !c.isUpper) = true → c.toLower = c)
      (by decide +kernel) (ascii c member) (lower c member)
  rw [← String.toList_inj, toList_lower ascii, same]

theorem upper_lower (ascii : ∀ c ∈ name.toList, Text.isAscii c = true) :
    Text.upper (Text.lower name) = Text.upper name := by
  unfold Text.upper
  rw [toList_lower ascii, List.flatMap_map]
  congr 1
  refine List.flatMap_congr fun c member => ?_
  exact Text.forall_ascii (P := fun c => Text.upperChar c.toLower = Text.upperChar c)
    (by decide +kernel) (ascii c member)

/-- In ASCII the case of a name makes no difference to whether it is one. -/
theorem isName_lower (named : isName name = true)
    (ascii : ∀ c ∈ name.toList, Text.isAscii c = true) : isName (Text.lower name) = true := by
  have free : Keyword.ofWord? (Text.lower name) = Keyword.ofWord? name := by
    rw [Keyword.ofWord?, upper_lower ascii, Keyword.ofWord?]
  unfold isName at named ⊢
  rw [toList_lower ascii, free]
  split at named
  · cases named
  · rename_i c cs letters
    obtain ⟨first, rest⟩ := List.forall_mem_cons.mp (letters ▸ ascii)
    simp only [Bool.and_eq_true, List.all_eq_true] at named
    obtain ⟨⟨letter, others⟩, unreserved⟩ := named
    have begins : isLetter c.toLower = true :=
      Text.forall_ascii (P := fun c => isLetter c = true → isLetter c.toLower = true)
        (by decide +kernel) first letter
    have goesOn : ∀ d ∈ cs.map Char.toLower, isWordPart d = true := by
      refine List.forall_mem_map.mpr fun d member => ?_
      exact Text.forall_ascii (P := fun d => isWordPart d = true → isWordPart d.toLower = true)
        (by decide +kernel) (rest d member) (others d member)
    rw [letters, List.map_cons]
    dsimp only
    rw [begins, List.all_eq_true.mpr goesOn, unreserved]
    rfl

end Show

/-- A text is parsed by its tokens alone. -/
theorem parse_eq_ok_iff {text : String} {s : Statement} :
    parse text = .ok s ↔ ∃ ks ∈ s.texts, (tokens text).map Token.kind = ks ++ [.endOfInput] := by
  have outcome : parse text = .ok s ↔ ∃ p, Parse.statement (.ofTokens (tokens text)) = .ok s p := by
    unfold parse Parse.run Parser.ofText EStateM.run
    cases Parse.statement (.ofTokens (tokens text)) <;> simp
  simp only [outcome, Parse.statement_eq_ok_iff]
  constructor
  · rintro ⟨p, us, rfl, ⟨t, more, rfl, last⟩, used, split, written⟩
    obtain rfl := Scanner.tokensUpTo_ends split last
    exact ⟨_, written, by rw [split, List.map_append, List.map_singleton, last]⟩
  · rintro ⟨ks, written, kinds⟩
    obtain ⟨used, rest, split, rfl, ends⟩ := List.map_eq_append_iff.mp kinds
    obtain ⟨t, rfl, last⟩ := List.map_eq_singleton_iff.mp ends
    exact ⟨_, [t], rfl, ⟨t, [], rfl, last⟩, used, split, written⟩

/-- A well-formed statement without floats can be rendered. -/
theorem exists_rendering {s : Statement} (formed : s.WellFormed Literal.Plain) :
    ∃ ks ∈ s.renderings, ∀ k ∈ ks, Grammar.Spellable k := by
  refine (Grammar.hasText_statement Grammar.judges_spellable).mpr (formed.mono ?_ ?_)
  · exact fun e plain => ⟨e.kinds, rfl, spellable_kinds plain⟩
  · exact fun target lower => ⟨target, lower_of_isLowerAscii lower.2, lower.1⟩

/-- What is parsed is well formed, but a name that is not ASCII may be asked for. -/
theorem wellFormed_of_parse {text : String} {s : Statement} (parsed : parse text = .ok s) :
    s.WellFormed Literal.Unsigned ∨ ∃ name, isName name = true ∧
      (∃ c ∈ name.toList, Text.isAscii c = false) ∧ s = .show (Text.lower name) := by
  obtain ⟨ks, written, kinds⟩ := parse_eq_ok_iff.mp parsed
  have sound : ∀ k ∈ ks, k.Sound := by
    intro k member
    have given : k ∈ (tokens text).map Token.kind := kinds ▸ List.mem_append_left _ member
    obtain ⟨t, found, rfl⟩ := List.mem_map.mp given
    exact tokens_sound text t found
  have formed := (Grammar.hasText_statement Grammar.judges_sound).mp ⟨ks, written, sound⟩
  replace formed := formed.mono (fun e => fun ⟨ks, written, sound⟩ =>
    wellFormed_of_written written sound) fun _ => id
  cases s with
  | «show» target =>
      obtain ⟨name, rfl, named⟩ := formed
      by_cases ascii : ∀ c ∈ name.toList, Text.isAscii c = true
      · exact .inl ⟨isName_lower named ascii, isLowerAscii_lower ascii⟩
      · simp only [not_forall, Bool.not_eq_true] at ascii
        obtain ⟨c, member, other⟩ := ascii
        exact .inr ⟨name, named, ⟨c, member, other⟩, rfl⟩
  | _ => exact .inl formed

/-- The parser accepts its language, up to layout. A well-formed statement without floats has
renderings, with each operation in parentheses, and is what each text that lays one out parses
to, whatever the case of keywords. And a text parses to a statement exactly if its tokens, up to
the end of input, are one of the ways to write that statement; the statement is then well formed,
but for the lower case of a name that is not ASCII, which may be asked for. -/
theorem parse_accepts_its_language :
    (∀ s : Statement, s.WellFormed Literal.Plain →
      (∃ ks ∈ s.renderings, ∃ text : String, Laid ks text.toList) ∧
        ∀ ks ∈ s.renderings, ∀ text : String, Laid ks text.toList → parse text = .ok s) ∧
      (∀ (text : String) (s : Statement), parse text = .ok s ↔
        ∃ ks ∈ s.texts, (tokens text).map Token.kind = ks ++ [.endOfInput]) ∧
      ∀ (text : String) (s : Statement), parse text = .ok s →
        s.WellFormed Literal.Unsigned ∨ ∃ name, isName name = true ∧
          (∃ c ∈ name.toList, Text.isAscii c = false) ∧ s = .show (Text.lower name) := by
  refine ⟨fun s formed => ⟨?_, fun ks rendered text laid => ?_⟩, fun text s => parse_eq_ok_iff,
    fun text s => wellFormed_of_parse⟩
  · obtain ⟨ks, rendered, spellable⟩ := exists_rendering formed
    obtain ⟨words, spelt⟩ := exists_words spellable
    refine ⟨ks, rendered, String.ofList (words.flatMap (' ' :: ·)), ?_⟩
    rw [String.toList_ofList]
    exact laid_of_words spelt
  · exact parse_eq_ok_iff.mpr ⟨ks, s.renderings_le rendered, kinds_tokens_of_laid laid⟩

/-- A keyword in mixed case, a bare star and a quote within a string. -/
theorem parse_accepts_rendered_delete :
    let s : Statement := .delete ⟨"t", some (.binary (.compare .equal) (.call "f" [star])
      (.literal (.string "it's")))⟩
    let text := " dElete FROM t where ( f ( * ) = 'it''s' ) ;"
    s.WellFormed Literal.Plain ∧ parse text = .ok s ∧ s.WellFormed Literal.Unsigned ∧
      ∃ ks ∈ s.texts, (tokens text).map Token.kind = ks ++ [.endOfInput] := by
  intro s text
  obtain ⟨rendered, exactly, formed⟩ := parse_accepts_its_language
  have plain : s.WellFormed Literal.Plain := by
    refine ⟨by decide +kernel, fun e given => ?_⟩
    obtain rfl := Option.some.inj given
    have bare : ∀ a ∈ [star], a ≠ star → a.WellFormed Literal.Plain :=
      List.forall_mem_singleton.mpr fun other => absurd rfl other
    exact .binary (.call (by decide +kernel) bare) (.literal trivial)
  let e : Expression := .binary (.compare .equal) (.call "f" [star]) (.literal (.string "it's"))
  let ks : List Kind := [.keyword .DELETE] ++ [.keyword .FROM] ++ [.identifier "t"] ++
    ([.keyword .WHERE] ++ e.kinds) ++ [.symbol .semicolon]
  have written : ks ∈ s.renderings := by
    have verb : [.keyword .DELETE] ++ [.keyword .FROM] ++ [.identifier "t"] ∈
        Grammar.key .DELETE * Grammar.key .FROM * Grammar.name "t" :=
      Language.append_mem_mul (Language.append_mem_mul rfl rfl) rfl
    have condition : [.keyword .WHERE] ++ e.kinds ∈ Grammar.clause Expression.rendering .WHERE e :=
      Language.append_mem_mul rfl rfl
    exact Language.append_mem_mul (Language.append_mem_mul verb condition) (.inl rfl)
  let words := ["dElete".toList, "FROM".toList, "t".toList, "where".toList, ['('], "f".toList,
    ['('], ['*'], [')'], ['='], '\'' :: (doubled "it's".toList ++ ['\'']), [')'], [';']]
  have spelt : List.Forall₂ Spells ks words :=
    .cons (.keyword (by decide)) <| .cons (.keyword (by decide)) <|
    .cons (.identifier (by decide +kernel)) <| .cons (.keyword (by decide)) <|
    .cons (.symbol (by decide)) <| .cons (.identifier (by decide +kernel)) <|
    .cons (.symbol (by decide)) <| .cons (.symbol (by decide)) <| .cons (.symbol (by decide)) <|
    .cons (.symbol (by decide)) <| .cons (.string "it's") <| .cons (.symbol (by decide)) <|
    .cons (.symbol (by decide)) .nil
  have same : text.toList = words.flatMap (' ' :: ·) := by decide +kernel
  have laid : Laid ks text.toList := same ▸ laid_of_words spelt
  have parsed := (rendered s plain).2 ks written text laid
  refine ⟨plain, parsed, (formed text s parsed).resolve_right ?_, (exactly text s).mp parsed⟩
  rintro ⟨_, _, _, other⟩
  exact absurd other (by simp [s])

end RowStore.Sql
