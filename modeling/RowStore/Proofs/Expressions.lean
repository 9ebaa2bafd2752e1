import RowStore.Proofs.Rules

namespace RowStore.Sql.Parse

/-- How tightly the next token binds what stands before it. -/
def follow : List Token → Nat
  | [] => 0
  | t :: _ => binding t.kind

/-- The token neither goes on with an operand nor binds more tightly than `f`. -/
def Halts (f : Nat) (k : Kind) : Prop :=
  k ≠ .symbol .dot ∧ k ≠ .symbol .leftParen ∧ binding k ≤ f

theorem halts_kind (op : BinaryOperator) : Halts op.precedence op.kind := by
  refine ⟨?_, ?_, (binding_kind op).le⟩ <;> cases op with
  | compare c => cases c <;> exact nofun
  | _ => exact nofun

section Steps

variable {n m : Nat} {left e : Expression} {ts us : List Token}

theorem follow_of_next (next : Next (binding · ≤ m) ts) : follow ts ≤ m := by
  obtain ⟨t, us, rfl, looser⟩ := next
  exact looser

theorem taken_of_follow (binds : 0 < follow ts) :
    ∃ (op : BinaryOperator) (us : List Token),
      Taken {[op.kind]} ts us ∧ follow ts = op.precedence := by
  cases ts with
  | nil => exact absurd binds (Nat.lt_irrefl 0)
  | cons t us =>
      cases operator : binaryOperator? t.kind with
      | none =>
          rw [follow, binding, operator] at binds
          exact absurd binds (Nat.lt_irrefl 0)
      | some op =>
          have kind := binaryOperator?_eq_some_iff.mp operator
          exact ⟨op, us, taken_word.mpr ⟨t, rfl, kind⟩, by rw [follow, kind, binding_kind]⟩

theorem operatorsUpTo_of_follow (looser : follow ts ≤ m) :
    operatorsUpTo (n + 1) m left (.ofTokens ts) = .ok left (.ofTokens ts) := by
  rw [operatorsUpTo, bind_of_ok (kind?_ofTokens _)]
  cases ts with
  | nil => rfl
  | cons t us =>
      cases operator : binaryOperator? t.kind with
      | none => simp only [List.head?_cons, Option.map_some, Option.bind_some, operator]; rfl
      | some op =>
          rw [follow, binding, operator] at looser
          simp only [List.head?_cons, Option.map_some, Option.bind_some, operator,
            if_neg (Nat.not_lt.mpr looser)]
          rfl

theorem operatorsUpTo_of_taken {op : BinaryOperator} (taken : Taken {[op.kind]} ts us)
    (tighter : m < op.precedence) :
    operatorsUpTo (n + 1) m left (.ofTokens ts) =
      (expressionUpTo n op.precedence >>= fun right =>
        operatorsUpTo n m (.binary op left right)) (.ofTokens us) := by
  obtain ⟨t, rfl, kind⟩ := taken_word.mp taken
  rw [operatorsUpTo, bind_of_ok (kind?_ofTokens _)]
  simp only [List.head?_cons, Option.map_some, Option.bind_some,
    binaryOperator?_eq_some_iff.mpr kind, if_pos tighter]
  exact bind_of_ok (advance_cons t us) _

theorem operandUpTo_literal {v : Literal} (taken : Taken {[v.kind]} ts us) :
    operandUpTo (n + 1) (.ofTokens ts) = .ok (.literal v) (.ofTokens us) := by
  obtain ⟨⟨kind, literal, line, column⟩, rfl, rfl⟩ := taken_word.mp taken
  cases v with
  | boolean b => cases b <;> rfl
  | _ => rfl

theorem operandUpTo_unary {op : UnaryOperator} (taken : Taken {[op.kind]} ts us) :
    operandUpTo (n + 1) (.ofTokens ts) =
      (expressionUpTo n op.precedence >>= fun e => pure (.unary op e)) (.ofTokens us) := by
  obtain ⟨⟨kind, literal, line, column⟩, rfl, rfl⟩ := taken_word.mp taken
  cases op <;> rfl

theorem operandUpTo_bracketed (taken : Taken (Grammar.sign .leftParen) ts us) :
    operandUpTo (n + 1) (.ofTokens ts) =
      (expressionUpTo n 0 >>= fun e => symbol .rightParen >>= fun _ => pure e) (.ofTokens us) := by
  obtain ⟨⟨kind, literal, line, column⟩, rfl, rfl⟩ := taken_word.mp taken
  rfl

theorem operandUpTo_call {function : String} {vs : List Token}
    (name : Taken (Grammar.name function) ts us) (opening : Taken (Grammar.sign .leftParen) us vs) :
    operandUpTo (n + 1) (.ofTokens ts) = call (expressionUpTo n 0) (.ofTokens ts) := by
  obtain ⟨⟨kind, literal, line, column⟩, rfl, rfl⟩ := taken_word.mp name
  obtain ⟨⟨kind, literal, line, column⟩, rfl, rfl⟩ := taken_word.mp opening
  rfl

theorem operandUpTo_name {name : String} (taken : Taken (Grammar.name name) ts us)
    (other : us.head?.map Token.kind ≠ some (.symbol .leftParen)) :
    operandUpTo (n + 1) (.ofTokens ts) =
      (columnName >>= fun c => pure (.column c)) (.ofTokens ts) := by
  obtain ⟨⟨kind, literal, line, column⟩, rfl, rfl⟩ := taken_word.mp taken
  rw [operandUpTo, bind_of_ok (kind?_ofTokens _)]
  have next : nextKind? (.ofTokens (⟨.identifier name, literal, line, column⟩ :: us)) =
      .ok (us.head?.map Token.kind) (.ofTokens (⟨.identifier name, literal, line, column⟩ :: us)) :=
    rfl
  refine (bind_of_ok next _).trans ?_
  rw [beq_eq_false_iff_ne.mpr other]
  rfl

end Steps

section Names

theorem columnName_reads : Reads columnName fun c => {c.kinds} := by
  intro ts c p done
  obtain ⟨name, us, first, done⟩ := identifier_reads.first done
  obtain ⟨dotted, vs, dot, done⟩ := (accept_reads _).first done
  cases dotted with
  | true =>
      obtain ⟨column, ws, last, done⟩ := identifier_reads.first done
      obtain ⟨rfl, rfl⟩ := pure_eq_ok_iff.mp done
      exact ⟨ws, rfl, taken_cons.mpr ⟨us, first, taken_cons.mpr ⟨vs, dot, last⟩⟩⟩
  | false =>
      obtain ⟨rfl, rfl⟩ := pure_eq_ok_iff.mp done
      obtain rfl := taken_one.mp dot
      exact ⟨us, rfl, first⟩

theorem columnName_accepts :
    Accepts columnName (fun c => {c.kinds}) (· ≠ .symbol .dot) := by
  rintro ts ⟨_ | table, name⟩ us taken next
  · rw [columnName, bind_of_ok (identifier_of_taken taken), bind_of_ok (accept_of_next next)]
    rfl
  · obtain ⟨vs, first, taken⟩ := taken_cons.mp taken
    obtain ⟨ws, dot, last⟩ := taken_cons.mp taken
    rw [columnName, bind_of_ok (identifier_of_taken first), bind_of_ok (accept_of_taken dot)]
    change (identifier >>= fun column => pure (⟨some table, column⟩ : ColumnName)) _ = _
    rw [bind_of_ok (identifier_of_taken last)]
    rfl

end Names

section Arguments

variable {rule : Parse Expression}

theorem argument_reads (reads : Reads rule Expression.texts) :
    Reads (argument rule) Expression.argumentTexts := by
  intro ts e p done
  obtain ⟨bare, us, multiply, done⟩ := (accept_reads _).first done
  cases bare with
  | true =>
      obtain ⟨rfl, rfl⟩ := pure_eq_ok_iff.mp done
      exact ⟨us, rfl, multiply.mono fun _ same other => absurd (by rw [same]; rfl) other⟩
  | false =>
      obtain rfl := taken_one.mp multiply
      obtain ⟨vs, rfl, taken⟩ := reads _ _ _ done
      exact ⟨vs, rfl, taken.mono fun _ written _ => written⟩

/-- A call is its name with the list of its arguments, which may be empty. -/
def callTexts (function : String) (arguments : List Expression) : Language Kind :=
  Grammar.name function * Grammar.sign .leftParen *
    Grammar.orNone (Grammar.listed Expression.argumentTexts) arguments * Grammar.sign .rightParen

theorem callTexts_le (m f : Nat) (function : String) (arguments : List Expression) :
    callTexts function arguments ≤ Expression.textsAt m f (.call function arguments) := by
  intro ks written
  obtain ⟨_, inner, _, rfl, rfl⟩ := Language.mem_mul.mp written
  obtain ⟨_, opened, _, listed, rfl⟩ := Language.mem_mul.mp inner
  obtain ⟨_, rfl, _, rfl, rfl⟩ := Language.mem_mul.mp opened
  obtain ⟨texts, each, inside, rfl⟩ := Grammar.mem_orNone_listed.mp listed
  have written : (Expression.call function arguments).Written m f _ := .call each inside
  exact mem_textsAt.mpr (by simpa using written)

theorem call_reads (reads : Reads rule Expression.texts) :
    ∀ ts e p, call rule (.ofTokens ts) = .ok e p → ∃ us, p = .ofTokens us ∧
      ∀ m f, Taken (e.textsAt m f) ts us := by
  intro ts e p done
  obtain ⟨function, us, name, done⟩ := identifier_reads.first done
  obtain ⟨_, vs, opening, done⟩ := (symbol_reads _).first done
  obtain ⟨arguments, ws, listed, done⟩ := exists_list_of_closed (argument_reads reads) done
  obtain ⟨_, xs, closing, done⟩ := (symbol_reads _).first done
  obtain ⟨rfl, rfl⟩ := pure_eq_ok_iff.mp done
  exact ⟨xs, rfl, fun m f =>
    (((name.trans opening).trans listed).trans closing).mono (callTexts_le m f _ _)⟩

end Arguments

section Texts

variable {m f : Nat}

theorem literalTexts_le (v : Literal) : {[v.kind]} ≤ Expression.textsAt m f (.literal v) := by
  rintro ks rfl
  exact .literal v

theorem columnTexts_le (c : ColumnName) : {c.kinds} ≤ Expression.textsAt m f (.column c) := by
  rintro ks rfl
  exact .column c

theorem bracketedTexts_le (e : Expression) :
    Grammar.sign .leftParen * e.texts * Grammar.sign .rightParen ≤ e.textsAt m f := by
  intro ks written
  obtain ⟨_, opened, _, rfl, rfl⟩ := Language.mem_mul.mp written
  obtain ⟨_, rfl, inner, inside, rfl⟩ := Language.mem_mul.mp opened
  have written : e.Written m f _ := .bracketed inside
  exact mem_textsAt.mpr (by simpa using written)

theorem unaryTexts_le {op : UnaryOperator} (looser : f ≤ op.precedence) (e : Expression) :
    {[op.kind]} * e.textsAt op.precedence f ≤ Expression.textsAt m f (.unary op e) := by
  intro ks written
  obtain ⟨_, rfl, inner, operand, rfl⟩ := Language.mem_mul.mp written
  exact .unary looser operand

theorem binaryTexts_le {op : BinaryOperator} (tighter : m < op.precedence)
    (looser : f ≤ op.precedence) (l r : Expression) :
    l.textsAt m op.precedence * {[op.kind]} * r.textsAt op.precedence f ≤
      Expression.textsAt m f (.binary op l r) := by
  intro ks written
  obtain ⟨_, front, _, right, rfl⟩ := Language.mem_mul.mp written
  obtain ⟨_, left, _, rfl, rfl⟩ := Language.mem_mul.mp front
  have written : (Expression.binary op l r).Written m f _ := .binary tighter looser left right
  exact mem_textsAt.mpr (by simpa using written)

end Texts

section Soundness

/-- What the rules for expressions read with so much fuel. -/
structure SoundUpTo (n : Nat) : Prop where
  expression : ∀ m ts e p, expressionUpTo n m (.ofTokens ts) = .ok e p → ∃ us, p = .ofTokens us ∧
    follow us ≤ m ∧ Taken (e.textsAt m (follow us)) ts us
  operators : ∀ m start left ts e p, Taken (left.textsAt m (follow ts)) start ts →
    operatorsUpTo n m left (.ofTokens ts) = .ok e p → ∃ us, p = .ofTokens us ∧
      follow us ≤ m ∧ Taken (e.textsAt m (follow us)) start us
  operand : ∀ ts e p, operandUpTo n (.ofTokens ts) = .ok e p → ∃ us, p = .ofTokens us ∧
    ∀ m, Taken (e.textsAt m (follow us)) ts us

theorem SoundUpTo.reads {n : Nat} (sound : SoundUpTo n) :
    Reads (expressionUpTo n 0) Expression.texts := by
  intro ts e p done
  obtain ⟨us, rfl, ends, taken⟩ := sound.expression 0 ts e p done
  rw [Nat.le_zero.mp ends] at taken
  exact ⟨us, rfl, taken⟩

theorem SoundUpTo.operators_succ {n : Nat} (sound : SoundUpTo n) {m : Nat}
    {start ts : List Token} {left e : Expression} {p : Parser}
    (taken : Taken (left.textsAt m (follow ts)) start ts)
    (done : operatorsUpTo (n + 1) m left (.ofTokens ts) = .ok e p) :
    ∃ us, p = .ofTokens us ∧ follow us ≤ m ∧ Taken (e.textsAt m (follow us)) start us := by
  rcases Nat.lt_or_ge m (follow ts) with tighter | looser
  · obtain ⟨op, us, operator, known⟩ := taken_of_follow (Nat.zero_lt_of_lt tighter)
    rw [known] at tighter taken
    rw [operatorsUpTo_of_taken operator tighter] at done
    obtain ⟨right, r, second, done⟩ := bind_eq_ok_iff.mp done
    obtain ⟨vs, rfl, ends, operand⟩ := sound.expression _ us right r second
    have both := (taken.trans operator).trans operand
    exact sound.operators m start _ vs e p (both.mono (binaryTexts_le tighter ends _ _)) done
  · rw [operatorsUpTo_of_follow looser] at done
    cases done
    exact ⟨ts, rfl, looser, taken⟩

/-- An operand that is no literal and has no sign. -/
theorem SoundUpTo.operand_of_other {n : Nat} (sound : SoundUpTo n) {t : Token} {us : List Token}
    {e : Expression} {p : Parser} (literal : literal? t.kind = none)
    (unary : unaryOperator? t.kind = none)
    (done : operandUpTo (n + 1) (.ofTokens (t :: us)) = .ok e p) :
    ∃ vs, p = .ofTokens vs ∧ ∀ m, Taken (e.textsAt m (follow vs)) (t :: us) vs := by
  have taken := taken_kind t us
  cases kind : t.kind with
  | identifier name =>
      rw [kind] at taken
      by_cases opens : us.head?.map Token.kind = some (.symbol .leftParen)
      · obtain ⟨t', next, kind'⟩ := Option.map_eq_some_iff.mp opens
        obtain ⟨vs, rfl⟩ := List.head?_eq_some_iff.mp next
        rw [operandUpTo_call taken (taken_word.mpr ⟨t', rfl, kind'⟩)] at done
        obtain ⟨ws, rfl, called⟩ := call_reads sound.reads _ e p done
        exact ⟨ws, rfl, fun m => called m _⟩
      · rw [operandUpTo_name taken opens] at done
        obtain ⟨c, vs, column, done⟩ := columnName_reads.first done
        cases done
        exact ⟨vs, rfl, fun m => column.mono (columnTexts_le c)⟩
  | symbol sign =>
      cases sign with
      | leftParen =>
          rw [kind] at taken
          rw [operandUpTo_bracketed taken] at done
          obtain ⟨inner, vs, inside, done⟩ := sound.reads.first done
          obtain ⟨_, ws, closing, done⟩ := (symbol_reads _).first done
          cases done
          exact ⟨ws, rfl, fun m => ((taken.trans inside).trans closing).mono (bracketedTexts_le _)⟩
      | minus => cases unary.symm.trans (congrArg unaryOperator? kind)
      | _ => cases t; cases kind; cases done
  | keyword word =>
      cases t; cases kind; cases word <;> cases literal <;> cases unary <;> cases done
  | illegal _ => cases t; cases kind; cases done
  | endOfInput => cases t; cases kind; cases done
  | _ => cases t; cases kind; cases literal

/-- An operand is told by the first token. -/
theorem SoundUpTo.operand_succ {n : Nat} (sound : SoundUpTo n) {ts : List Token} {e : Expression}
    {p : Parser} (done : operandUpTo (n + 1) (.ofTokens ts) = .ok e p) :
    ∃ us, p = .ofTokens us ∧ ∀ m, Taken (e.textsAt m (follow us)) ts us := by
  cases ts with
  | nil => cases done
  | cons t us =>
      cases literal : literal? t.kind with
      | some v =>
          have taken := taken_kind t us
          rw [literal?_eq_some_iff.mp literal] at taken
          rw [operandUpTo_literal taken] at done
          cases done
          exact ⟨us, rfl, fun m => taken.mono (literalTexts_le v)⟩
      | none =>
          cases unary : unaryOperator? t.kind with
          | some op =>
              have taken := taken_kind t us
              rw [unaryOperator?_eq_some_iff.mp unary] at taken
              rw [operandUpTo_unary taken] at done
              obtain ⟨inner, r, first, done⟩ := bind_eq_ok_iff.mp done
              obtain ⟨vs, rfl, ends, operand⟩ := sound.expression _ us inner r first
              cases done
              exact ⟨vs, rfl, fun m => (taken.trans operand).mono (unaryTexts_le ends _)⟩
          | none => exact sound.operand_of_other literal unary done

theorem soundUpTo (n : Nat) : SoundUpTo n := by
  induction n with
  | zero =>
      refine ⟨fun m ts e p done => ?_, fun m start left ts e p taken done => ?_,
        fun ts e p done => ?_⟩
      · cases done
      · cases done
      · cases done
  | succ n ih =>
      refine ⟨fun m ts e p done => ?_, fun m start left ts e p taken done => ?_,
        fun ts e p done => ih.operand_succ done⟩
      · obtain ⟨left, r, first, done⟩ := bind_eq_ok_iff.mp done
        obtain ⟨us, rfl, taken⟩ := ih.operand ts left r first
        exact ih.operators m ts left us e p (taken m) done
      · exact ih.operators_succ taken done

end Soundness

section Completeness

variable {m f : Nat} {e : Expression} {ks : List Kind}

/-- No expression begins with a star, and none with a closing parenthesis. -/
theorem next_of_written (written : e.Written m f ks) {ts us : List Token}
    (taken : Taken {ks} ts us) :
    Next (fun k => k ≠ .symbol .multiply ∧ k ≠ .symbol .rightParen) ts := by
  induction written generalizing us with
  | literal v => exact next_of_word taken (by cases v <;> simp [Literal.kind])
  | column c =>
      rcases c with ⟨_ | table, name⟩
      · exact next_of_word taken (by simp)
      · obtain ⟨vs, first, _⟩ := taken_cons.mp taken
        exact next_of_word first (by simp)
  | bracketed inside ih =>
      obtain ⟨vs, first, _⟩ := taken_cons.mp taken
      exact next_of_word first (by simp)
  | @unary m f op e ks looser operand ih =>
      obtain ⟨vs, first, _⟩ := taken_cons.mp taken
      exact next_of_word first (by cases op <;> simp [UnaryOperator.kind])
  | binary tighter looser left right ihl ihr =>
      obtain ⟨vs, first, _⟩ := taken_append.mp taken
      exact ihl first
  | call each inside ih =>
      obtain ⟨vs, first, _⟩ := taken_cons.mp taken
      exact next_of_word first (by simp)

theorem operandUpTo_column {c : ColumnName} {n : Nat} {ts us : List Token}
    (taken : Taken {c.kinds} ts us) (next : Next (Halts f) us) :
    operandUpTo (n + 1) (.ofTokens ts) =
      (columnName >>= fun c => pure (.column c)) (.ofTokens ts) := by
  rcases c with ⟨_ | table, name⟩
  · obtain ⟨t, vs, rfl, halts⟩ := next
    exact operandUpTo_name taken (by simpa using halts.2.1)
  · obtain ⟨vs, first, taken⟩ := taken_cons.mp taken
    obtain ⟨ws, dot, _⟩ := taken_cons.mp taken
    obtain ⟨t, rfl, kind⟩ := taken_word.mp dot
    exact operandUpTo_name first (by simp [kind])

/-- With fuel for its tokens an expression is read up to the operators that may follow it. -/
def ReadAs (m f : Nat) (e : Expression) (ks : List Kind) : Prop :=
  ∀ n N ts us, n ≤ m → 2 * ks.length < N → Taken {ks} ts us → Next (Halts f) us →
    ∃ M, 0 < M ∧ N ≤ M + 2 * ks.length ∧
      expressionUpTo N n (.ofTokens ts) = operatorsUpTo M n e (.ofTokens us)

theorem ReadAs.whole (readAs : ReadAs m f e ks) (looser : f ≤ m) {N : Nat} {ts us : List Token}
    (enough : 2 * ks.length < N) (taken : Taken {ks} ts us) (next : Next (Halts f) us) :
    expressionUpTo N m (.ofTokens ts) = .ok e (.ofTokens us) := by
  obtain ⟨M, positive, _, read⟩ := readAs m N ts us le_rfl enough taken next
  obtain ⟨M, rfl⟩ := Nat.exists_eq_add_one_of_ne_zero positive.ne'
  have ends : follow us ≤ f := follow_of_next (next.imp fun _ halts => halts.2.2)
  rw [read, operatorsUpTo_of_follow (ends.trans looser)]

theorem readAs_of_operand
    (operand : ∀ N ts us, 2 * ks.length < N + 2 → Taken {ks} ts us → Next (Halts f) us →
      operandUpTo (N + 1) (.ofTokens ts) = .ok e (.ofTokens us)) (nonempty : 0 < ks.length) :
    ReadAs m f e ks := by
  intro n N ts us _ enough taken next
  obtain ⟨M, rfl⟩ : ∃ M, N = M + 2 := ⟨N - 2, by omega⟩
  refine ⟨M + 1, Nat.succ_pos M, by omega, ?_⟩
  rw [expressionUpTo]
  exact bind_of_ok (operand M ts us (by omega) taken next) _

theorem readAs_binary {op : BinaryOperator} {l r : Expression} {ls rs : List Kind}
    (tighter : m < op.precedence) (looser : f ≤ op.precedence) (left : ReadAs m op.precedence l ls)
    (right : ReadAs op.precedence f r rs) : ReadAs m f (.binary op l r) (ls ++ op.kind :: rs) := by
  intro n N ts us below enough taken next
  obtain ⟨vs, first, taken⟩ := taken_append.mp taken
  obtain ⟨ws, operator, second⟩ := taken_cons.mp taken
  rw [List.length_append, List.length_cons] at enough ⊢
  obtain ⟨M, positive, spent, read⟩ := left n N ts vs below (by omega) first
    (next_of_word operator (halts_kind op))
  obtain ⟨M, rfl⟩ := Nat.exists_eq_add_one_of_ne_zero positive.ne'
  have operand := right.whole looser (N := M) (by omega) second next
  refine ⟨M, by omega, by omega, ?_⟩
  rw [read, operatorsUpTo_of_taken operator (Nat.lt_of_le_of_lt below tighter), bind_of_ok operand]

theorem argument_accepts {rule : Parse Expression} {pairs : List (Expression × List Kind)}
    (read : ∀ p ∈ pairs, p ≠ (star, [.symbol .multiply]) → p.1.Written 0 0 p.2 ∧
      ∀ ts us, Taken {p.2} ts us → Next (Halts 0) us →
        rule (.ofTokens ts) = .ok p.1 (.ofTokens us)) :
    Accepts (argument rule) (fun a => {text | (a, text) ∈ pairs})
      fun k => k = .symbol .comma ∨ k = .symbol .rightParen := by
  rintro ts a us ⟨used, rfl, member⟩ next
  have taken : Taken {used.map Token.kind} (used ++ us) us := ⟨used, rfl, rfl⟩
  by_cases bare : (a, used.map Token.kind) = (star, [.symbol .multiply])
  · obtain ⟨rfl, text⟩ := Prod.mk.inj bare
    rw [text] at taken
    rw [argument, bind_of_ok (accept_of_taken taken)]
    rfl
  · obtain ⟨written, read⟩ := read _ member bare
    have starts := next_of_written written taken
    have halts : Next (Halts 0) us := next.imp fun k ends => by
      rcases ends with rfl | rfl <;> simp [Halts, binding, binaryOperator?]
    rw [argument, bind_of_ok (accept_of_next (starts.imp fun _ => And.left))]
    exact read _ _ taken halts

theorem length_le_separated {texts : List (List Kind)} {text : List Kind} (member : text ∈ texts) :
    text.length ≤ (separated texts).length := by
  induction texts with
  | nil => cases member
  | cons first rest ih =>
      cases rest with
      | nil =>
          obtain rfl := List.mem_singleton.mp member
          simp [separated]
      | cons second rest =>
          rw [Grammar.separated_cons, List.length_append, List.length_append]
          rcases List.mem_cons.mp member with rfl | later
          · omega
          · have shorter := ih later
            omega

theorem next_of_argument {pairs : List (Expression × List Kind)}
    (written : ∀ p ∈ pairs, p ≠ (star, [.symbol .multiply]) → p.1.Written 0 0 p.2) {a : Expression}
    {ts us : List Token} (taken : Taken {text | (a, text) ∈ pairs} ts us) :
    Next (· ≠ .symbol .rightParen) ts := by
  obtain ⟨used, rfl, member⟩ := taken
  have taken : Taken {used.map Token.kind} (used ++ us) us := ⟨used, rfl, rfl⟩
  by_cases bare : (a, used.map Token.kind) = (star, [.symbol .multiply])
  · rw [(Prod.mk.inj bare).2] at taken
    exact next_of_word taken (by simp)
  · exact (next_of_written (written _ member bare) taken).imp fun _ => And.right

theorem readAs_call {function : String} {arguments : List Expression} {texts : List (List Kind)}
    (each : arguments.length = texts.length)
    (inside : ∀ p ∈ arguments.zip texts, p ≠ (star, [.symbol .multiply]) →
      p.1.Written 0 0 p.2 ∧ ReadAs 0 0 p.1 p.2) :
    ReadAs m f (.call function arguments) (.identifier function :: .symbol .leftParen ::
      (separated texts ++ [.symbol .rightParen])) := by
  refine readAs_of_operand (fun N ts us enough taken next => ?_) (by simp)
  obtain ⟨vs, name, taken⟩ := taken_cons.mp taken
  obtain ⟨ws, opening, taken⟩ := taken_cons.mp taken
  obtain ⟨xs, listed, closing⟩ := taken_append.mp taken
  simp only [List.length_cons, List.length_append] at enough
  rw [operandUpTo_call name opening, call, bind_of_ok (identifier_of_taken name),
    bind_of_ok (symbol_of_taken opening)]
  have argument : Accepts (argument (expressionUpTo N 0))
      (fun a => {text | (a, text) ∈ arguments.zip texts})
      fun k => k = .symbol .comma ∨ k = .symbol .rightParen := by
    refine argument_accepts fun p member other => ⟨(inside p member other).1, fun ts us => ?_⟩
    have shorter := length_le_separated (List.of_mem_zip member).2
    exact (inside p member other).2.whole le_rfl (by omega)
  have all : Taken (Grammar.orNone
      (Grammar.listed fun a => {text | (a, text) ∈ arguments.zip texts}) arguments) ws xs := by
    refine listed.mono fun _ same => ?_
    obtain rfl := same
    exact Grammar.mem_orNone_listed.mpr ⟨texts, each, fun _ member => member, rfl⟩
  have starts : ∀ a us, Taken {text | (a, text) ∈ arguments.zip texts} ws us →
      Next (· ≠ .symbol .rightParen) ws := by
    intro a us taken
    exact next_of_argument (fun p member other => (inside p member other).1) taken
  refine (list_of_closed argument starts all closing _).trans ?_
  exact bind_of_ok (symbol_of_taken closing) _

theorem readAs_of_written (written : e.Written m f ks) : ReadAs m f e ks := by
  induction written with
  | literal v =>
      refine readAs_of_operand (fun N ts us _ taken _ => ?_) (by simp)
      exact operandUpTo_literal taken
  | @column m f c =>
      have nonempty : 0 < c.kinds.length := by
        unfold ColumnName.kinds
        split <;> simp
      refine readAs_of_operand (fun N ts us _ taken next => ?_) nonempty
      rw [operandUpTo_column taken next,
        bind_of_ok (columnName_accepts ts c us taken (next.imp fun _ halts => halts.1))]
      rfl
  | bracketed inside ih =>
      refine readAs_of_operand (fun N ts us enough taken next => ?_) (by simp)
      obtain ⟨vs, opening, taken⟩ := taken_cons.mp taken
      obtain ⟨ws, inner, closing⟩ := taken_append.mp taken
      simp only [List.length_cons, List.length_append] at enough
      rw [operandUpTo_bracketed opening, bind_of_ok (ih.whole le_rfl (by omega) inner
        (next_of_word closing (by simp [Halts, binding, binaryOperator?]))),
        bind_of_ok (symbol_of_taken closing)]
      rfl
  | @unary m f op e ks looser operand ih =>
      refine readAs_of_operand (fun N ts us enough taken next => ?_) (by simp)
      obtain ⟨vs, sign, taken⟩ := taken_cons.mp taken
      rw [List.length_cons] at enough
      rw [operandUpTo_unary sign, bind_of_ok (ih.whole looser (by omega) taken next)]
      rfl
  | binary tighter looser left right ihl ihr => exact readAs_binary tighter looser ihl ihr
  | call each inside ih =>
      exact readAs_call each fun p member other => ⟨inside p member other, ih p member other⟩

end Completeness

theorem expression_reads : Reads (expression 0) Expression.texts := by
  intro ts e p done
  exact (soundUpTo _).reads ts e p done

theorem expression_accepts : Accepts (expression 0) Expression.texts (Halts 0) := by
  rintro ts e us ⟨used, rfl, written⟩ next
  have taken : Taken {used.map Token.kind} (used ++ us) us := ⟨used, rfl, rfl⟩
  have enough : 2 * (used.map Token.kind).length < (Parser.ofTokens (used ++ us)).depth := by
    obtain ⟨t, vs, rfl, _⟩ := next
    simp only [Parser.depth, Parser.ofTokens, List.length_tail, List.length_map,
      List.length_append, List.length_cons]
    omega
  exact (readAs_of_written written).whole le_rfl enough taken next

end RowStore.Sql.Parse
