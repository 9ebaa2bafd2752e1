import RowStore.Proofs.Parsing
import RowStore.Proofs.RowKeys

namespace RowStore.Sql

/-- AND and OR bind less tightly than NOT. -/
def BinaryOperator.isJunction : BinaryOperator → Bool
  | .and | .or => true
  | _ => false

section Printing

/-- A left operand needs parentheses if it binds less tightly. -/
def BinaryOperator.bracketsLeft (op : BinaryOperator) : Expression → Bool
  | .binary inner .. => inner.precedence < op.precedence
  | .unary .not _ => !op.isJunction
  | _ => false

/-- A right operand needs parentheses if it does not bind more tightly. -/
def BinaryOperator.bracketsRight (op : BinaryOperator) : Expression → Bool
  | .binary inner .. => inner.precedence ≤ op.precedence
  | .unary .not _ => !op.isJunction
  | _ => false

def UnaryOperator.brackets : UnaryOperator → Expression → Bool
  | .not, .binary inner .. => inner.isJunction
  | .minus, .binary .. | .minus, .unary .not _ => true
  | _, _ => false

def bracketedIf (needed : Bool) (ks : List Kind) : List Kind :=
  bif needed then .symbol .leftParen :: (ks ++ [.symbol .rightParen]) else ks

mutual

/-- The tokens of an expression with parentheses only where they are needed. -/
def Expression.brief : Expression → List Kind
  | .literal v => [v.kind]
  | .column c => c.kinds
  | .binary op l r =>
      bracketedIf (op.bracketsLeft l) l.brief ++ op.kind :: bracketedIf (op.bracketsRight r) r.brief
  | .unary op e => op.kind :: bracketedIf (op.brackets e) e.brief
  | .call function arguments =>
      .identifier function :: .symbol .leftParen ::
        (separated (briefArguments arguments) ++ [.symbol .rightParen])

def briefArguments : List Expression → List (List Kind)
  | [] => []
  | e :: es => (bif e.isStar then [.symbol .multiply] else e.brief) :: briefArguments es

end

/-- One spelling for each kind of token. -/
def Kind.text : Kind → String
  | .keyword word => word.spelling
  | .symbol sign => String.ofList (sign.spellings.headD [])
  | .identifier name => name
  | .string s => String.ofList ('\'' :: (doubled s.toList ++ ['\'']))
  | .integer v => toString v.toInt
  | .float v => v.render
  | .illegal text => text
  | .endOfInput => ""

/-- The text of an expression, with a space between tokens. -/
def Expression.printed (e : Expression) : String := " ".intercalate (e.brief.map Kind.text)

end Printing

section Precedences

theorem BinaryOperator.isJunction_iff {op : BinaryOperator} :
    op.isJunction = true ↔ op.precedence < UnaryOperator.not.precedence := by
  cases op <;> simp [isJunction, precedence, UnaryOperator.precedence]

theorem BinaryOperator.precedence_lt_minus (op : BinaryOperator) :
    op.precedence < UnaryOperator.minus.precedence := by
  cases op <;> simp [precedence, UnaryOperator.precedence]

theorem BinaryOperator.precedence_ne_not (op : BinaryOperator) :
    op.precedence ≠ UnaryOperator.not.precedence := by
  cases op <;> simp [precedence, UnaryOperator.precedence]

theorem UnaryOperator.precedence_le_minus (op : UnaryOperator) :
    op.precedence ≤ UnaryOperator.minus.precedence := by
  cases op <;> decide

/-- The expression may stand between operators of these precedences as it is. -/
def Expression.Fits (m f : Nat) : Expression → Prop
  | .binary op .. => m < op.precedence ∧ f ≤ op.precedence
  | .unary op _ => f ≤ op.precedence
  | _ => True

variable {op : BinaryOperator} {e : Expression} {m f : Nat}

theorem fits_alone (e : Expression) : e.Fits 0 0 := by
  cases e with
  | binary op l r => exact ⟨op.precedence_pos, Nat.zero_le _⟩
  | unary op e => exact Nat.zero_le _
  | _ => trivial

theorem fits_left (tighter : m < op.precedence) (free : op.bracketsLeft e = false) :
    e.Fits m op.precedence := by
  cases e with
  | binary inner l r =>
      have least : op.precedence ≤ inner.precedence := by
        simpa [BinaryOperator.bracketsLeft] using free
      exact ⟨Nat.lt_of_lt_of_le tighter least, least⟩
  | unary sign e =>
      cases sign with
      | minus => exact op.precedence_lt_minus.le
      | not =>
          have junction : op.isJunction = true := by
            simpa [BinaryOperator.bracketsLeft] using free
          exact (BinaryOperator.isJunction_iff.mp junction).le
  | _ => trivial

theorem fits_right (looser : f ≤ op.precedence) (free : op.bracketsRight e = false) :
    e.Fits op.precedence f := by
  cases e with
  | binary inner l r =>
      have tighter : op.precedence < inner.precedence := by
        simpa [BinaryOperator.bracketsRight] using free
      exact ⟨tighter, looser.trans tighter.le⟩
  | unary sign e =>
      cases sign with
      | minus => exact looser.trans op.precedence_lt_minus.le
      | not =>
          have junction : op.isJunction = true := by
            simpa [BinaryOperator.bracketsRight] using free
          exact looser.trans (BinaryOperator.isJunction_iff.mp junction).le
  | _ => trivial

/-- NOT stops before AND and OR, and so does what it stands before. -/
theorem fits_operand {sign : UnaryOperator} (looser : f ≤ sign.precedence)
    (free : sign.brackets e = false) : e.Fits sign.precedence f := by
  cases e with
  | binary inner l r =>
      cases sign with
      | minus => cases free
      | not =>
          have other : ¬ inner.precedence < UnaryOperator.not.precedence := by
            rw [← BinaryOperator.isJunction_iff, Bool.not_eq_true]
            exact free
          have tighter := Nat.lt_of_le_of_ne (Nat.le_of_not_lt other) inner.precedence_ne_not.symm
          exact ⟨tighter, looser.trans tighter.le⟩
  | unary inner e =>
      cases inner with
      | minus => exact looser.trans sign.precedence_le_minus
      | not =>
          cases sign with
          | minus => cases free
          | not => exact looser
  | _ => trivial

end Precedences

section Written

theorem briefArguments_eq (arguments : List Expression) :
    briefArguments arguments = argumentsBy Expression.brief arguments := by
  induction arguments with
  | nil => rfl
  | cons e es ih =>
      rw [briefArguments, ih]
      rfl

theorem written_bracketedIf {m f : Nat} {e : Expression} {needed : Bool}
    (written : ∀ m f, e.Fits m f → e.Written m f e.brief)
    (fits : needed = false → e.Fits m f) : e.Written m f (bracketedIf needed e.brief) := by
  cases needed with
  | true => exact .bracketed (written 0 0 (fits_alone e))
  | false => exact written m f (fits rfl)

/-- The printed tokens are a way to write the expression wherever it fits. -/
theorem Expression.written_brief : ∀ (e : Expression) (m f : Nat), e.Fits m f →
    e.Written m f e.brief
  | .literal v, m, f, _ => .literal v
  | .column c, m, f, _ => .column c
  | .binary op l r, m, f, ⟨tighter, looser⟩ => by
      have left := written_bracketedIf l.written_brief (fits_left tighter)
      have right := written_bracketedIf r.written_brief (fits_right looser)
      exact .binary tighter looser left right
  | .unary op e, m, f, looser => by
      have operand := written_bracketedIf e.written_brief (fits_operand looser)
      exact .unary looser operand
  | .call function arguments, m, f, _ => by
      rw [brief, briefArguments_eq]
      exact .callBy fun a inside _ => a.written_brief 0 0 (fits_alone a)

end Written

section Spelling

theorem spellable_bracketedIf {needed : Bool} {ks : List Kind}
    (inside : ∀ k ∈ ks, Grammar.Spellable k) :
    ∀ k ∈ bracketedIf needed ks, Grammar.Spellable k := by
  cases needed with
  | true => exact forall_mem_bracketed Grammar.judges_spellable inside
  | false => exact inside

theorem spellable_brief {e : Expression} (formed : e.WellFormed Literal.Plain) :
    ∀ k ∈ e.brief, Grammar.Spellable k := by
  have judges := Grammar.judges_spellable
  induction formed with
  | literal plain => exact List.forall_mem_singleton.mpr (spellable_literal plain)
  | column named => exact (forall_mem_kinds judges).mpr named
  | @binary op l r left right ihl ihr =>
      refine List.forall_mem_append.mpr ⟨spellable_bracketedIf ihl, ?_⟩
      exact List.forall_mem_cons.mpr ⟨spellable_binary op, spellable_bracketedIf ihr⟩
  | @unary op e operand ih =>
      exact List.forall_mem_cons.mpr ⟨spellable_unary op, spellable_bracketedIf ih⟩
  | call named inside ih =>
      rw [Expression.brief, briefArguments_eq]
      exact spellable_callBy named ih

theorem spells_text {k : Kind} (spellable : Grammar.Spellable k) : Spells k k.text.toList := by
  obtain ⟨word, spelt⟩ := spellable
  cases spelt with
  | @keyword word _ _ =>
      have same : word.spelling.toList.map Char.toUpper = word.spelling.toList := by
        cases word <;> decide
      exact .keyword same
  | @symbol sign _ _ =>
      apply Spells.symbol
      cases sign <;> simp [Kind.text, Symbol.spellings]
  | identifier named => exact .identifier named
  | @integer v _ _ digits value =>
      have unsigned : 0 ≤ v.toInt := by omega
      have letters : (Kind.integer v).text.toList = Nat.toDigits 10 v.toInt.toNat := by
        rw [Kind.text, RowKey.toList_toString, if_pos unsigned]
      rw [letters]
      refine .integer Nat.toDigits_ne_nil (RowKey.digits_toDigits _) ?_
      rw [Nat.ofDigitChars_toDigits (by omega) (by omega)]
      omega
  | string s =>
      rw [Kind.text, String.toList_ofList]
      exact .string s

theorem intercalate_blank (word : List Char) (words : List (List Char)) :
    [' '].intercalate (word :: words) = word ++ words.flatMap (' ' :: ·) := by
  induction words generalizing word with
  | nil => simp
  | cons next words ih => simp [List.intercalate_cons_cons, ih]

/-- Words with one blank between them lay out the tokens that they spell. -/
theorem laid_intercalate {ks : List Kind} {words : List (List Char)}
    (spelt : List.Forall₂ Spells ks words) : Laid ks ([' '].intercalate words) := by
  cases spelt with
  | nil => exact .nil (List.forall_mem_nil _)
  | @cons k word ks words first others =>
      rw [intercalate_blank]
      exact Laid.cons (List.forall_mem_nil _) first (apart_words words) (laid_of_words others)

theorem laid_printed {e : Expression} (formed : e.WellFormed Literal.Plain) :
    Laid e.brief e.printed.toList := by
  have spelt : List.Forall₂ Spells e.brief ((e.brief.map Kind.text).map String.toList) := by
    rw [List.map_map, List.forall₂_map_right_iff, List.forall₂_same]
    intro k member
    exact spells_text (spellable_brief formed k member)
  have text : e.printed.toList = [' '].intercalate ((e.brief.map Kind.text).map String.toList) := by
    rw [Expression.printed, String.toList_intercalate]
    rfl
  rw [text]
  exact laid_intercalate spelt

end Spelling

section Reading

/-- The rule for expressions makes this of the text, and stops at its end. -/
def ReadsAs (text : String) (e : Expression) : Prop :=
  ∃ p, (Parse.expression 0).run (Parser.ofText text) = (.ok e, p) ∧ p.kind? = some .endOfInput

theorem readsAs_of_kinds {e : Expression} {ks : List Kind} (written : e.Written 0 0 ks)
    {text : String} (kinds : (tokens text).map Token.kind = ks ++ [.endOfInput]) :
    ReadsAs text e := by
  obtain ⟨used, last, split, spelt, ends⟩ := List.map_eq_append_iff.mp kinds
  obtain ⟨t, rfl, kind⟩ := List.map_eq_singleton_iff.mp ends
  have taken : Taken e.texts (tokens text) [t] := ⟨used, split, spelt ▸ written⟩
  have next : Next (Parse.Halts 0) [t] := by
    refine ⟨t, [], rfl, ?_⟩
    rw [kind]
    exact ⟨nofun, nofun, le_rfl⟩
  have read := Parse.expression_accepts _ _ _ taken next
  refine ⟨.ofTokens [t], ?_, ?_⟩
  · unfold Parse.run Parser.ofText EStateM.run
    rw [read]
  · exact congrArg some kind

theorem readsAs_of_written {e : Expression} {ks : List Kind} (written : e.Written 0 0 ks)
    {text : String} (laid : Laid ks text.toList) : ReadsAs text e :=
  readsAs_of_kinds written (kinds_tokens_of_laid laid)

theorem readsAs_of_brief {e : Expression} {text : String} (laid : Laid e.brief text.toList) :
    ReadsAs text e :=
  readsAs_of_written (e.written_brief 0 0 (fits_alone e)) laid

/-- What is neither a binary operation nor begins with NOT. -/
def Expression.isOperand : Expression → Bool
  | .binary .. | .unary .not _ => false
  | _ => true

/-- Nothing needs to set an operand apart. -/
theorem unbracketed_of_operand {e : Expression} (operand : e.isOperand = true) :
    (∀ op : BinaryOperator, op.bracketsLeft e = false ∧ op.bracketsRight e = false) ∧
      ∀ sign : UnaryOperator, sign.brackets e = false := by
  cases e with
  | binary op l r => cases operand
  | unary inner e =>
      cases inner with
      | not => cases operand
      | minus => exact ⟨fun _ => ⟨rfl, rfl⟩, fun sign => by cases sign <;> rfl⟩
  | _ => exact ⟨fun _ => ⟨rfl, rfl⟩, fun sign => by cases sign <;> rfl⟩

/-- Of two operators the one that binds more tightly takes the operand between them, and of two
that bind alike the left one. -/
theorem readsAs_of_two {op op' : BinaryOperator} {x y z : Expression} (first : x.isOperand = true)
    (second : y.isOperand = true) (third : z.isOperand = true) {text : String}
    (laid : Laid (x.brief ++ op.kind :: (y.brief ++ op'.kind :: z.brief)) text.toList) :
    ReadsAs text (if op'.precedence ≤ op.precedence then .binary op' (.binary op x y) z
      else .binary op x (.binary op' y z)) := by
  have freeFirst := unbracketed_of_operand first
  have freeSecond := unbracketed_of_operand second
  have freeThird := unbracketed_of_operand third
  split
  · rename_i looser
    apply readsAs_of_brief
    have free : op'.bracketsLeft (.binary op x y) = false :=
      decide_eq_false (Nat.not_lt.mpr looser)
    simpa [Expression.brief, bracketedIf, free, freeFirst, freeSecond, freeThird] using laid
  · rename_i tighter
    apply readsAs_of_brief
    have free : op.bracketsRight (.binary op' y z) = false := decide_eq_false tighter
    simpa [Expression.brief, bracketedIf, free, freeFirst, freeSecond, freeThird] using laid

/-- A sign takes the operand after it from operators that bind less tightly, and NOT takes the
operations of all others. -/
theorem readsAs_of_sign {sign : UnaryOperator} {op : BinaryOperator} {x y : Expression}
    (first : x.isOperand = true) (second : y.isOperand = true) {text : String}
    (laid : Laid (sign.kind :: (x.brief ++ op.kind :: y.brief)) text.toList) :
    ReadsAs text (if op.precedence < sign.precedence then .binary op (.unary sign x) y
      else .unary sign (.binary op x y)) := by
  have freeFirst := unbracketed_of_operand first
  have freeSecond := unbracketed_of_operand second
  split
  · rename_i looser
    apply readsAs_of_brief
    have free : op.bracketsLeft (.unary sign x) = false := by
      cases sign with
      | minus => rfl
      | not =>
          have junction := BinaryOperator.isJunction_iff.mpr looser
          rw [BinaryOperator.bracketsLeft, junction, Bool.not_true]
    simpa [Expression.brief, bracketedIf, free, freeFirst, freeSecond] using laid
  · rename_i tighter
    apply readsAs_of_brief
    have free : sign.brackets (.binary op x y) = false := by
      cases sign with
      | minus => exact absurd op.precedence_lt_minus tighter
      | not =>
          rw [← BinaryOperator.isJunction_iff, Bool.not_eq_true] at tighter
          exact tighter
    simpa [Expression.brief, bracketedIf, free, freeFirst, freeSecond] using laid

/-- An expression printed with parentheses only where they are needed is read back as it was, up to
the end of the text. So all binary operators associate to the left, and bind in the order OR, AND,
NOT, comparisons, sums, products, signs. -/
theorem printed_expression_reads_back :
    (∀ e : Expression, e.WellFormed Literal.Plain →
      ReadsAs e.printed e ∧ ∀ text : String, Laid e.brief text.toList → ReadsAs text e) ∧
      (∀ (op op' : BinaryOperator) (x y z : Expression),
        x.isOperand = true → y.isOperand = true → z.isOperand = true → ∀ text : String,
          Laid (x.brief ++ op.kind :: (y.brief ++ op'.kind :: z.brief)) text.toList →
            ReadsAs text (if op'.precedence ≤ op.precedence then .binary op' (.binary op x y) z
              else .binary op x (.binary op' y z))) ∧
      (∀ (sign : UnaryOperator) (op : BinaryOperator) (x y : Expression),
        x.isOperand = true → y.isOperand = true → ∀ text : String,
          Laid (sign.kind :: (x.brief ++ op.kind :: y.brief)) text.toList →
            ReadsAs text (if op.precedence < sign.precedence then .binary op (.unary sign x) y
              else .unary sign (.binary op x y))) ∧
      ∀ c : Comparison,
        [BinaryOperator.or.precedence, BinaryOperator.and.precedence,
          UnaryOperator.not.precedence, (BinaryOperator.compare c).precedence,
          BinaryOperator.plus.precedence, BinaryOperator.times.precedence,
          UnaryOperator.minus.precedence].Pairwise (· < ·) ∧
        BinaryOperator.minus.precedence = BinaryOperator.plus.precedence ∧
        BinaryOperator.divide.precedence = BinaryOperator.times.precedence ∧
        BinaryOperator.modulo.precedence = BinaryOperator.times.precedence := by
  refine ⟨?_, ?_, ?_, ?_⟩
  · intro e formed
    exact ⟨readsAs_of_brief (laid_printed formed), fun text => readsAs_of_brief⟩
  · intro op op' x y z first second third text laid
    exact readsAs_of_two first second third laid
  · intro sign op x y first second text laid
    exact readsAs_of_sign first second laid
  · intro c
    exact ⟨by cases c <;> decide, rfl, rfl, rfl⟩

/-- NOT is bare before a comparison and bracketed within one; a sum is bracketed within a product;
differences go from left to right. -/
theorem printed_expression_reads_back_of_nested_operators :
    let a : Expression := .column ⟨none, "a"⟩
    let b : Expression := .column ⟨some "t", "b"⟩
    let one : Expression := .literal (.integer 1)
    let e : Expression := .binary .or
      (.unary .not (.binary (.compare .equal) a
        (.binary .times (.unary .minus one) (.binary .plus (.call "f" [star, b]) one))))
      (.binary (.compare .less) (.unary .not b) (.literal (.string "it's")))
    let d : Expression := .binary .minus (.binary .minus a b) one
    e.WellFormed Literal.Plain ∧ d.WellFormed Literal.Plain ∧
      ReadsAs "NOT a = - 1 * ( f ( * , t . b ) + 1 ) OR ( NOT t . b ) < 'it''s'" e ∧
      ReadsAs "a - t . b - 1" d := by
  intro a b one e d
  have table : ∀ name ∈ some "t", isName name = true := by
    rintro _ ⟨⟩
    decide +kernel
  have named : a.WellFormed Literal.Plain := .column ⟨nofun, by decide +kernel⟩
  have qualified : b.WellFormed Literal.Plain := .column ⟨table, by decide +kernel⟩
  have number : one.WellFormed Literal.Plain := .literal (show 0 ≤ (1 : Int64).toInt by decide)
  have call : (Expression.call "f" [star, b]).WellFormed Literal.Plain := by
    refine .call (by decide +kernel) ?_
    intro argument member other
    rcases List.mem_cons.mp member with rfl | member
    · exact absurd rfl other
    · rw [List.mem_singleton.mp member]
      exact qualified
  have formed : e.WellFormed Literal.Plain :=
    .binary (.unary (.binary named (.binary (.unary number) (.binary call number))))
      (.binary (.unary qualified) (.literal trivial))
  have formed' : d.WellFormed Literal.Plain := .binary (.binary named qualified) number
  obtain ⟨reads, two, _, _⟩ := printed_expression_reads_back
  refine ⟨formed, formed', ?_, ?_⟩
  · have text : e.printed =
        "NOT a = - 1 * ( f ( * , t . b ) + 1 ) OR ( NOT t . b ) < 'it''s'" := by decide +kernel
    exact text ▸ (reads e formed).1
  · have text : d.printed = "a - t . b - 1" := by decide +kernel
    exact two .minus .minus a b one rfl rfl rfl _ (text ▸ laid_printed formed')

end Reading

end RowStore.Sql
