import RowStore.Proofs.Conditions
import RowStore.Proofs.Precedence
import RowStore.Proofs.Tiling

namespace RowStore.Sql

/-- The constant that a text is. -/
def constantOf (text : String) : Except QueryError Value := do
  let e ← ((Parse.expression 0).run (Parser.ofText text)).1.mapError .parse
  e.constant.mapError .compile

section Tokens

variable {ds : List Char}

theorem lexeme_of_digits {d : Char} (digits : ∀ c ∈ d :: ds, c.isDigit = true) :
    lexeme d ds = integerLexeme (d :: ds) := by
  have whole : numberLexeme (d :: ds ++ []) = integerLexeme (d :: ds) :=
    numberLexeme_of_apart digits (by decide)
  rw [lexeme_of_digit (digits d List.mem_cons_self), ← whole, List.append_nil]

theorem goesOn_integer (ds : List Char) : (integerLexeme ds).kind ≠ .endOfInput := by
  unfold integerLexeme
  dsimp only
  split <;> exact nofun

namespace Scanner

/-- Digits up to the end of a text are one token. -/
theorem tokensUpTo_digits (nonempty : ds ≠ []) (digits : ∀ d ∈ ds, d.isDigit = true)
    (before : List Char) (fuel : Nat) :
    ∃ e, e.kind = .endOfInput ∧ (behind before ds).tokensUpTo (fuel + 2) =
      [⟨(integerLexeme ds).kind, String.ofList ds, lineAfter before, columnAfter before⟩, e] := by
  obtain ⟨d, cs, rfl⟩ := List.exists_cons_of_ne_nil nonempty
  obtain ⟨_, plain, _, solid⟩ := plain_of_digit (digits d List.mem_cons_self)
  have code : d = '-' → cs.head? ≠ some '-' := by
    rintro rfl
    exact absurd (by decide) plain
  have cut : d :: cs = d :: cs ++ [] := (List.append_nil _).symm
  have length : (lexeme d cs).length = (d :: cs).length := by
    rw [lexeme_of_digits digits]
    rfl
  have next := next_behind .nil solid code cut length before
  rw [List.nil_append, lexeme_of_digits digits, List.append_nil] at next
  have ends := next_behind_of_lastGap (.whole .nil) (before ++ d :: cs)
  refine ⟨_, ends, ?_⟩
  simp only [tokensUpTo_succ, next, if_neg (goesOn_integer _), if_pos ends]
  rfl

theorem next_minus {d : Char} (digit : d.isDigit = true) (ds : List Char) :
    (behind [] ('-' :: d :: ds)).next =
      (⟨.symbol .minus, "-", 1, 1⟩, behind ['-'] (d :: ds)) := by
  have code : '-' = '-' → (d :: ds).head? ≠ some '-' := by
    rintro _ ⟨⟩
    exact absurd digit (by decide)
  have cut : '-' :: d :: ds = ['-'] ++ d :: ds := rfl
  exact next_behind .nil (by decide) code cut rfl []

end Scanner

/-- The token of a natural number in the first line of a text. -/
def numeral (m column : Nat) : Token :=
  ⟨if m < 0x8000000000000000 then .integer (Int64.ofNat m) else .illegal (toString m), toString m,
    1, column⟩

theorem integerLexeme_toDigits (m column : Nat) :
    (⟨(integerLexeme (Nat.toDigits 10 m)).kind, String.ofList (Nat.toDigits 10 m), 1, column⟩ :
      Token) = numeral m column := by
  simp only [numeral, integerLexeme, Nat.ofDigitChars_ten_toDigits, Nat.toString_eq_ofList_toDigits]

variable {text : String} {m : Nat}

theorem tokens_of_natural (letters : text.toList = Nat.toDigits 10 m) :
    ∃ e, e.kind = .endOfInput ∧ tokens text = [numeral m 1, e] := by
  have nonempty : (Nat.toDigits 10 m).length ≠ 0 :=
    mt List.length_eq_zero_iff.mp Nat.toDigits_ne_nil
  obtain ⟨fuel, length⟩ := Nat.exists_eq_add_one_of_ne_zero nonempty
  rw [tokens, Scanner.tokens, Scanner.start_eq_behind, Scanner.rest_behind, letters, length,
    ← integerLexeme_toDigits]
  exact Scanner.tokensUpTo_digits Nat.toDigits_ne_nil (RowKey.digits_toDigits m) [] fuel

theorem tokens_of_negative (letters : text.toList = '-' :: Nat.toDigits 10 m) :
    ∃ e, e.kind = .endOfInput ∧ tokens text = [⟨.symbol .minus, "-", 1, 1⟩, numeral m 2, e] := by
  have digits := RowKey.digits_toDigits m
  obtain ⟨d, ds, split⟩ := List.exists_cons_of_ne_nil (Nat.toDigits_ne_nil (n := m) (b := 10))
  have length : (Nat.toDigits 10 m).length = ds.length + 1 := congrArg List.length split
  have sign := Scanner.next_minus (digits d (split ▸ List.mem_cons_self)) ds
  rw [← split] at sign
  obtain ⟨e, ends, found⟩ := Scanner.tokensUpTo_digits Nat.toDigits_ne_nil digits ['-'] ds.length
  have goesOn : Kind.symbol .minus ≠ .endOfInput := by decide
  refine ⟨e, ends, ?_⟩
  rw [tokens, Scanner.tokens, Scanner.start_eq_behind, Scanner.rest_behind, letters,
    Scanner.tokensUpTo_succ, sign, if_neg goesOn, ← integerLexeme_toDigits, List.length_cons,
    length]
  exact congrArg _ found

end Tokens

section Reading

namespace Parse

variable {t : Token} {us : List Token} {text : String} {n m : Nat}

theorem operandUpTo_illegal (illegal : t.kind = .illegal text) :
    operandUpTo (n + 1) (.ofTokens (t :: us)) = .error (.illegalToken t) (.ofTokens (t :: us)) := by
  obtain ⟨kind, literal, line, column⟩ := t
  obtain rfl := illegal
  rfl

theorem expressionUpTo_illegal (illegal : t.kind = .illegal text) :
    expressionUpTo (n + 2) m (.ofTokens (t :: us)) =
      .error (.illegalToken t) (.ofTokens (t :: us)) := by
  rw [expressionUpTo]
  exact bind_of_error (operandUpTo_illegal illegal) _

/-- A sign before it does not hide an illegal token. -/
theorem expressionUpTo_minus_illegal {s : Token} (sign : s.kind = .symbol .minus)
    (illegal : t.kind = .illegal text) :
    expressionUpTo (n + 4) m (.ofTokens (s :: t :: us)) =
      .error (.illegalToken t) (.ofTokens (t :: us)) := by
  have operand : operandUpTo (n + 3) (.ofTokens (s :: t :: us)) =
      .error (.illegalToken t) (.ofTokens (t :: us)) := by
    have taken : Taken {[UnaryOperator.minus.kind]} (s :: t :: us) (t :: us) :=
      taken_word.mpr ⟨s, rfl, sign⟩
    rw [operandUpTo_unary taken]
    exact bind_of_error (expressionUpTo_illegal illegal) _
  rw [expressionUpTo]
  exact bind_of_error operand _

end Parse

variable {text : String}

theorem constantOf_of_readsAs {e : Expression} (reads : ReadsAs text e) :
    constantOf text = e.constant.mapError .compile := by
  obtain ⟨p, read, _⟩ := reads
  rw [constantOf, read]
  rfl

theorem constantOf_of_error {e : ParseError} {p : Parser}
    (failed : Parse.expression 0 (Parser.ofText text) = .error e p) :
    constantOf text = .error (.parse e) := by
  have read : (Parse.expression 0).run (Parser.ofText text) = (.error e, p) := by
    unfold Parse.run EStateM.run
    rw [failed]
  rw [constantOf, read]
  rfl

end Reading

section Integers

variable {v : Int64} {n : Int}

theorem toList_of_nonneg (unsigned : 0 ≤ n) : (toString n).toList = Nat.toDigits 10 n.natAbs := by
  have same : n.toNat = n.natAbs := by omega
  rw [RowKey.toList_toString, if_pos unsigned, same]

theorem toList_of_neg (signed : n < 0) :
    (toString n).toList = '-' :: Nat.toDigits 10 n.natAbs := by
  have same : (-n).toNat = n.natAbs := by omega
  rw [RowKey.toList_toString, if_neg (Int.not_le.mpr signed), same]

/-- A numeral that is small enough stands for itself. -/
theorem kind_numeral_natAbs (size : v.toInt.natAbs = n.natAbs) (unsigned : 0 ≤ v.toInt)
    (column : Nat) : (numeral n.natAbs column).kind = .integer v := by
  have small : n.natAbs < 0x8000000000000000 := by
    have bound := Int64.toInt_lt v
    omega
  have same : Int64.ofNat n.natAbs = v := by
    rw [← Int64.toInt_inj, Int64.toInt_ofNat_of_lt small]
    omega
  rw [numeral, if_pos small, same]

theorem constantOf_of_nonneg (unsigned : 0 ≤ v.toInt) :
    constantOf (toString v.toInt) = .ok (.int64 v) := by
  obtain ⟨e, ends, found⟩ := tokens_of_natural (toList_of_nonneg unsigned)
  have kinds : (tokens (toString v.toInt)).map Token.kind = [.integer v] ++ [.endOfInput] := by
    rw [found, List.map_cons, List.map_singleton, ends, kind_numeral_natAbs rfl unsigned]
    rfl
  rw [constantOf_of_readsAs (readsAs_of_kinds (.literal (.integer v)) kinds)]
  rfl

theorem constantOf_of_neg (signed : v.toInt < 0) (bounded : v ≠ Int64.minValue) :
    constantOf (toString v.toInt) = .ok (.int64 v) := by
  have opposite := toInt_neg_of_ne bounded
  obtain ⟨e, ends, found⟩ := tokens_of_negative (toList_of_neg signed)
  have kinds : (tokens (toString v.toInt)).map Token.kind =
      [.symbol .minus, .integer (-v)] ++ [.endOfInput] := by
    rw [found, List.map_cons, List.map_cons, List.map_singleton, ends,
      kind_numeral_natAbs (v := -v) (by omega) (by omega)]
    rfl
  have written : (Expression.unary .minus (.literal (.integer (-v)))).Written 0 0
      [.symbol .minus, .integer (-v)] :=
    .unary (Nat.zero_le _) (.literal (.integer (-v)))
  have greater : -v ≠ Int64.minValue := by
    intro least
    rw [least, Int64.toInt_minValue] at opposite
    omega
  rw [constantOf_of_readsAs (readsAs_of_kinds written kinds), Expression.constant, if_neg greater,
    Int64.neg_neg]
  rfl

/-- The digits of an integer that is too large are what the error is about. -/
theorem constantOf_of_large (large : 0x8000000000000000 ≤ n.natAbs) :
    constantOf (toString n) =
      .error (.parse (.illegalToken (numeral n.natAbs (if n < 0 then 2 else 1)))) := by
  have illegal (column : Nat) : (numeral n.natAbs column).kind = .illegal (toString n.natAbs) :=
    if_neg (Nat.not_lt.mpr large)
  by_cases signed : n < 0
  · obtain ⟨e, _, found⟩ := tokens_of_negative (toList_of_neg signed)
    rw [if_pos signed]
    apply constantOf_of_error
    rw [Parser.ofText, found]
    exact Parse.expressionUpTo_minus_illegal rfl (illegal 2)
  · obtain ⟨e, _, found⟩ := tokens_of_natural (toList_of_nonneg (Int.not_lt.mp signed))
    rw [if_neg signed]
    apply constantOf_of_error
    rw [Parser.ofText, found]
    exact Parse.expressionUpTo_illegal (illegal 1)

/-- Every integer that is a 64-bit word is read exactly from its decimal text, but the least one.
Its digits alone are too many for a word, and like those of all integers beyond the words they are
an illegal token, so that these texts end in an error. -/
theorem decimal_texts_are_exact :
    (∀ v : Int64, v ≠ Int64.minValue → constantOf (toString v.toInt) = .ok (.int64 v)) ∧
      ∀ n : Int, n ≤ Int64.minValue.toInt ∨ Int64.maxValue.toInt < n →
        constantOf (toString n) = .error (.parse (.illegalToken
          ⟨.illegal (toString n.natAbs), toString n.natAbs, 1, if n < 0 then 2 else 1⟩)) := by
  constructor
  · intro v bounded
    rcases lt_or_ge v.toInt 0 with signed | unsigned
    · exact constantOf_of_neg signed bounded
    · exact constantOf_of_nonneg unsigned
  · intro n beyond
    have large : 0x8000000000000000 ≤ n.natAbs := by
      rw [Int64.toInt_minValue, Int64.toInt_maxValue] at beyond
      omega
    rw [constantOf_of_large large, numeral, if_neg (Nat.not_lt.mpr large)]

/-- The words next to both ends, and the integers next to them. -/
theorem decimal_texts_are_exact_at_word_limits :
    constantOf "-9223372036854775807" = .ok (.int64 (-9223372036854775807)) ∧
      constantOf "9223372036854775807" = .ok (.int64 Int64.maxValue) ∧
      constantOf "-9223372036854775808" = .error (.parse (.illegalToken
        ⟨.illegal "9223372036854775808", "9223372036854775808", 1, 2⟩)) ∧
      constantOf "9223372036854775808" = .error (.parse (.illegalToken
        ⟨.illegal "9223372036854775808", "9223372036854775808", 1, 1⟩)) := by
  obtain ⟨words, others⟩ := decimal_texts_are_exact
  have least : toString (-9223372036854775807 : Int64).toInt = "-9223372036854775807" := by
    decide +kernel
  have greatest : toString Int64.maxValue.toInt = "9223372036854775807" := by decide +kernel
  have below : toString (-9223372036854775808 : Int) = "-9223372036854775808" := by decide +kernel
  have above : toString (9223372036854775808 : Int) = "9223372036854775808" := by decide +kernel
  refine ⟨?_, ?_, ?_, ?_⟩
  · exact least ▸ words (-9223372036854775807) (by decide)
  · exact greatest ▸ words Int64.maxValue (by decide)
  · rw [← below, others (-9223372036854775808) (by decide)]
    decide +kernel
  · rw [← above, others 9223372036854775808 (by decide)]
    decide +kernel

/-- The least word is not read from its decimal text. -/
theorem least_word_has_no_numeral :
    constantOf (toString Int64.minValue.toInt) ≠ .ok (.int64 Int64.minValue) := by
  rw [constantOf_of_large (by decide)]
  exact nofun

end Integers

end RowStore.Sql
