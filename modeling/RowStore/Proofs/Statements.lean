import RowStore.Proofs.Expressions

namespace RowStore.Sql.Parse

open Grammar

/-- The tokens that end an item of a list, besides a comma. -/
def Ends (k : Kind) : Prop :=
  k ∈ [.keyword .FROM, .keyword .WHERE, .keyword .LIMIT, .symbol .rightParen, .symbol .semicolon,
    .endOfInput]

theorem Ends.ne_comma {k : Kind} (ends : Ends k) : k ≠ .symbol .comma := by
  rintro rfl
  simp [Ends] at ends

/-- A name may follow an expression, as its new name. -/
def EndsExpression (k : Kind) : Prop :=
  k = .symbol .comma ∨ Ends k ∨ k = .keyword .AS ∨ ∃ name, k = .identifier name

theorem EndsExpression.halts {k : Kind} (ends : EndsExpression k) : Halts 0 k := by
  rcases ends with rfl | ends | rfl | ⟨name, rfl⟩
  · simp [Halts, binding, binaryOperator?]
  · simp only [Ends, List.mem_cons, List.not_mem_nil, or_false] at ends
    rcases ends with rfl | rfl | rfl | rfl | rfl | rfl <;> simp [Halts, binding, binaryOperator?]
  · simp [Halts, binding, binaryOperator?]
  · simp [Halts, binding, binaryOperator?]

theorem next_of_texts {e : Expression} {ts us : List Token} (taken : Taken e.texts ts us) :
    Next (fun k => k ≠ .symbol .multiply ∧ k ≠ .symbol .rightParen) ts := by
  obtain ⟨used, rfl, written⟩ := taken
  exact next_of_written written ⟨used, rfl, rfl⟩

theorem kind?_of_next {k : Kind} {ts : List Token} (next : Next (· = k) ts) :
    kind? (.ofTokens ts) = .ok (some k) (.ofTokens ts) := by
  obtain ⟨t, us, rfl, rfl⟩ := next
  rfl

section Names

theorem asName?_reads : Reads asName? asName := by
  intro ts s p done
  obtain ⟨told, us, taken, done⟩ := (accept_reads _).first done
  cases told with
  | true =>
      obtain ⟨name, vs, named, done⟩ := identifier_reads.first done
      cases done
      exact ⟨vs, rfl, (taken_add.mpr (.inl taken)).trans named⟩
  | false =>
      obtain rfl := taken_one.mp taken
      rcases ts with _ | ⟨⟨kind, literal, line, column⟩, us⟩
      · cases done
        exact ⟨[], rfl, taken_one.mpr rfl⟩
      · cases kind with
        | identifier name =>
            cases done
            exact ⟨us, rfl, (taken_add.mpr (.inr (taken_one.mpr rfl))).trans (taken_kind _ us)⟩
        | _ =>
            cases done
            exact ⟨_, rfl, taken_one.mpr rfl⟩

theorem asName?_accepts : Accepts asName? asName fun k => k = .symbol .comma ∨ Ends k := by
  rintro ts (_ | s) us taken next
  · obtain rfl := taken_one.mp taken
    obtain ⟨⟨kind, literal, line, column⟩, vs, rfl, ends⟩ := next
    simp only [Ends, List.mem_cons, List.not_mem_nil, or_false] at ends
    rcases ends with rfl | rfl | rfl | rfl | rfl | rfl | rfl <;> rfl
  · obtain ⟨vs, told, named⟩ := taken_mul.mp taken
    rcases taken_add.mp told with told | silent
    · rw [asName?, bind_of_ok (accept_of_taken told)]
      exact bind_of_ok (identifier_of_taken named) _
    · obtain rfl := taken_one.mp silent
      obtain ⟨⟨kind, literal, line, column⟩, rfl, rfl⟩ := taken_word.mp named
      rfl

theorem next_of_asName {s : Option String} {ts us : List Token} (taken : Taken (asName s) ts us)
    (next : Next (fun k => k = .symbol .comma ∨ Ends k) us) : Next EndsExpression ts := by
  cases s with
  | none =>
      obtain rfl := taken_one.mp taken
      exact next.imp fun _ ends => ends.imp_right .inl
  | some s =>
      obtain ⟨vs, told, named⟩ := taken_mul.mp taken
      rcases taken_add.mp told with told | silent
      · exact next_of_word told (.inr (.inr (.inl rfl)))
      · obtain rfl := taken_one.mp silent
        exact next_of_word named (.inr (.inr (.inr ⟨s, rfl⟩)))

theorem tableName_reads : Reads tableName table := by
  intro ts t p done
  obtain ⟨name, us, first, done⟩ := identifier_reads.first done
  obtain ⟨s, vs, second, done⟩ := asName?_reads.first done
  cases done
  exact ⟨vs, rfl, first.trans second⟩

theorem tableName_accepts : Accepts tableName table fun k => k = .symbol .comma ∨ Ends k := by
  rintro ts ⟨name, s⟩ us taken next
  obtain ⟨vs, first, second⟩ := taken_mul.mp taken
  rw [tableName, bind_of_ok (identifier_of_taken first),
    bind_of_ok (asName?_accepts vs s us second next)]
  rfl

end Names

section Select

theorem selectItem_reads : Reads selectItem (item Expression.texts) := by
  intro ts x p done
  obtain ⟨all, us, multiply, done⟩ := (accept_reads _).first done
  cases all with
  | true =>
      cases done
      exact ⟨us, rfl, multiply⟩
  | false =>
      obtain rfl := taken_one.mp multiply
      obtain ⟨e, vs, value, done⟩ := expression_reads.first done
      obtain ⟨s, ws, named, done⟩ := asName?_reads.first done
      cases e <;> cases done <;> exact ⟨ws, rfl, value.trans named⟩

/-- An item that is a lone column is kept apart. -/
theorem selectItem_of_taken {e : Expression} {s : Option String} {ts us : List Token}
    (taken : Taken (e.texts * asName s) ts us)
    (next : Next (fun k => k = .symbol .comma ∨ Ends k) us) :
    selectItem (.ofTokens ts) = (match e with
      | .column c => (pure (.column c s) : Parse SelectItem)
      | e => pure (.expression e s)) (.ofTokens us) := by
  obtain ⟨vs, value, named⟩ := taken_mul.mp taken
  have starts : Next (· ≠ .symbol .multiply) ts := (next_of_texts value).imp fun _ => And.left
  have halts : Next (Halts 0) vs := (next_of_asName named next).imp fun _ => EndsExpression.halts
  rw [selectItem, bind_of_ok (accept_of_next starts)]
  refine (bind_of_ok (expression_accepts ts e vs value halts) _).trans ?_
  exact bind_of_ok (asName?_accepts vs s us named next) _

theorem selectItem_accepts :
    Accepts selectItem (item Expression.texts) fun k => k = .symbol .comma ∨ Ends k := by
  intro ts x us taken next
  cases x with
  | everything =>
      rw [selectItem, bind_of_ok (accept_of_taken taken)]
      rfl
  | column c s => exact selectItem_of_taken taken next
  | expression e s =>
      cases e with
      | column c => exact absurd taken taken_zero
      | _ => exact selectItem_of_taken taken next

theorem clause?_reads (word : Keyword) :
    Reads (clause? word) (clause Expression.texts word) := by
  intro ts e p done
  obtain ⟨given, us, head, done⟩ := (accept_reads _).first done
  cases given with
  | true =>
      obtain ⟨e, vs, value, done⟩ := expression_reads.first done
      cases done
      exact ⟨vs, rfl, head.trans value⟩
  | false =>
      cases done
      exact ⟨us, rfl, head⟩

theorem clause?_accepts (word : Keyword) :
    Accepts (clause? word) (clause Expression.texts word) fun k => Ends k ∧ k ≠ .keyword word := by
  rintro ts (_ | e) us taken next
  · obtain rfl := taken_one.mp taken
    rw [clause?, bind_of_ok (accept_of_next (next.imp fun _ => And.right))]
    rfl
  · obtain ⟨vs, head, value⟩ := taken_mul.mp taken
    have halts : Next (Halts 0) us :=
      next.imp fun _ ends => EndsExpression.halts (.inr (.inl ends.1))
    rw [clause?, bind_of_ok (accept_of_taken head)]
    exact bind_of_ok (expression_accepts vs e us value halts) _

theorem next_of_clause {F : Kind → Prop} {word : Keyword} {e : Option Expression}
    {ts us : List Token} (taken : Taken (clause Expression.texts word e) ts us)
    (holds : F (.keyword word)) (next : Next F us) : Next F ts := by
  cases e with
  | none => exact taken_one.mp taken ▸ next
  | some e => exact next_of_mul (next_of_word · holds) taken

theorem select_reads : Reads select (Grammar.select Expression.texts) := by
  intro ts s p done
  obtain ⟨_, ts₁, verb, done⟩ := (keyword_reads _).first done
  obtain ⟨items, ts₂, listed, done⟩ := (list_reads selectItem_reads).first done
  obtain ⟨_, ts₃, source, done⟩ := (keyword_reads _).first done
  obtain ⟨tables, ts₄, named, done⟩ := (list_reads tableName_reads).first done
  obtain ⟨condition, ts₅, filtered, done⟩ := (clause?_reads _).first done
  obtain ⟨limit, ts₆, limited, done⟩ := (clause?_reads _).first done
  cases done
  exact ⟨ts₆, rfl, ((((verb.trans listed).trans source).trans named).trans filtered).trans limited⟩

/-- What may follow a statement. -/
def EndsStatement (k : Kind) : Prop := k = .symbol .semicolon ∨ k = .endOfInput

theorem EndsStatement.ends {k : Kind} (ends : EndsStatement k) : Ends k := by
  rcases ends with rfl | rfl <;> simp [Ends]

theorem EndsStatement.ne_keyword {k : Kind} (ends : EndsStatement k) (word : Keyword) :
    k ≠ .keyword word := by
  rcases ends with rfl | rfl <;> simp

theorem select_accepts :
    Accepts select (Grammar.select Expression.texts) EndsStatement := by
  intro ts s us taken next
  obtain ⟨ts₅, taken, limited⟩ := taken_mul.mp taken
  obtain ⟨ts₄, taken, filtered⟩ := taken_mul.mp taken
  obtain ⟨ts₃, taken, named⟩ := taken_mul.mp taken
  obtain ⟨ts₂, taken, source⟩ := taken_mul.mp taken
  obtain ⟨ts₁, verb, listed⟩ := taken_mul.mp taken
  have afterItems : Next Ends ts₂ := next_of_word source (by simp [Ends])
  have afterFilter : Next (fun k => Ends k ∧ k ≠ .keyword .WHERE) ts₅ :=
    next_of_clause limited (by simp [Ends]) (next.imp fun _ ends => ⟨ends.ends, ends.ne_keyword _⟩)
  have afterTables : Next Ends ts₄ :=
    next_of_clause filtered (by simp [Ends]) (afterFilter.imp fun _ => And.left)
  have atEnd : Next (fun k => Ends k ∧ k ≠ .keyword .LIMIT) us :=
    next.imp fun _ ends => ⟨ends.ends, ends.ne_keyword _⟩
  rw [select, bind_of_ok (keyword_of_taken verb),
    bind_of_ok (list_accepts selectItem_accepts (fun _ => Ends.ne_comma) _ _ _ listed afterItems),
    bind_of_ok (keyword_of_taken source),
    bind_of_ok (list_accepts tableName_accepts (fun _ => Ends.ne_comma) _ _ _ named afterTables),
    bind_of_ok (clause?_accepts _ _ _ _ filtered afterFilter),
    bind_of_ok (clause?_accepts _ _ _ _ limited atEnd)]
  rfl

end Select

section Insert

theorem tuple_reads : Reads tuple (Grammar.tuple Expression.texts) := by
  intro ts es p done
  obtain ⟨_, ts₁, opening, done⟩ := (symbol_reads _).first done
  obtain ⟨es, ts₂, listed, done⟩ := exists_list_of_closed expression_reads done
  obtain ⟨_, ts₃, closing, done⟩ := (symbol_reads _).first done
  cases done
  exact ⟨ts₃, rfl, (opening.trans listed).trans closing⟩

theorem tuple_accepts : Accepts tuple (Grammar.tuple Expression.texts) fun _ => True := by
  intro ts es us taken _
  obtain ⟨ts₂, taken, closing⟩ := taken_mul.mp taken
  obtain ⟨ts₁, opening, listed⟩ := taken_mul.mp taken
  have value : Accepts (expression 0) Expression.texts
      fun k => k = .symbol .comma ∨ k = .symbol .rightParen := by
    intro ts e us taken next
    refine expression_accepts ts e us taken (next.imp fun k ends => EndsExpression.halts ?_)
    exact ends.imp_right fun closes => .inl (by simp [Ends, closes])
  have starts : ∀ e us, Taken (Expression.texts e) ts₁ us → Next (· ≠ .symbol .rightParen) ts₁ :=
    fun e us taken => (next_of_texts taken).imp fun _ => And.right
  rw [tuple, bind_of_ok (symbol_of_taken opening)]
  refine (list_of_closed value starts listed closing _).trans ?_
  exact bind_of_ok (symbol_of_taken closing) _

theorem columnList_reads : Reads columnList Grammar.columnList := by
  intro ts names p done
  obtain ⟨given, ts₁, opening, done⟩ := (accept_reads _).first done
  cases given with
  | true =>
      obtain ⟨names, ts₂, listed, done⟩ := (list_reads identifier_reads).first done
      obtain ⟨_, ts₃, closing, done⟩ := (symbol_reads _).first done
      cases done
      cases names with
      | nil => exact absurd listed taken_zero
      | cons name names => exact ⟨ts₃, rfl, (Taken.trans opening listed).trans closing⟩
  | false =>
      cases done
      exact ⟨ts₁, rfl, opening⟩

theorem identifier_accepts (F : Kind → Prop) : Accepts identifier name F :=
  fun _ _ _ taken _ => identifier_of_taken taken

theorem columnList_accepts :
    Accepts columnList Grammar.columnList (· ≠ .symbol .leftParen) := by
  rintro ts (_ | ⟨name, names⟩) us taken next
  · obtain rfl := taken_one.mp taken
    rw [columnList, bind_of_ok (accept_of_next next)]
    rfl
  · obtain ⟨ts₂, taken, closing⟩ := taken_mul.mp taken
    obtain ⟨ts₁, opening, listed⟩ := taken_mul.mp taken
    have closes : Next Ends ts₂ := next_of_word closing (by simp [Ends])
    rw [columnList, bind_of_ok (accept_of_taken opening)]
    refine (bind_of_ok (list_accepts (identifier_accepts _) (fun _ => Ends.ne_comma) _ _ _ listed
      closes) _).trans ?_
    exact bind_of_ok (symbol_of_taken closing) _

theorem insert_reads : Reads insert (Grammar.insert Expression.texts) := by
  intro ts s p done
  obtain ⟨_, ts₁, verb, done⟩ := (keyword_reads _).first done
  obtain ⟨_, ts₂, into, done⟩ := (keyword_reads _).first done
  obtain ⟨name, ts₃, table, done⟩ := identifier_reads.first done
  obtain ⟨columns, ts₄, chosen, done⟩ := columnList_reads.first done
  obtain ⟨_, ts₅, values, done⟩ := (keyword_reads _).first done
  obtain ⟨tuples, ts₆, listed, done⟩ := (list_reads tuple_reads).first done
  cases done
  exact ⟨ts₆, rfl, ((((verb.trans into).trans table).trans chosen).trans values).trans listed⟩

theorem insert_accepts : Accepts insert (Grammar.insert Expression.texts) EndsStatement := by
  intro ts s us taken next
  obtain ⟨ts₅, taken, listed⟩ := taken_mul.mp taken
  obtain ⟨ts₄, taken, values⟩ := taken_mul.mp taken
  obtain ⟨ts₃, taken, chosen⟩ := taken_mul.mp taken
  obtain ⟨ts₂, taken, table⟩ := taken_mul.mp taken
  obtain ⟨ts₁, verb, into⟩ := taken_mul.mp taken
  have tuples : Accepts tuple (Grammar.tuple Expression.texts)
      fun k => k = .symbol .comma ∨ EndsStatement k :=
    fun ts es us taken next => tuple_accepts ts es us taken (next.imp fun _ _ => trivial)
  rw [insert, bind_of_ok (keyword_of_taken verb), bind_of_ok (keyword_of_taken into),
    bind_of_ok (identifier_of_taken table),
    bind_of_ok (columnList_accepts _ _ _ chosen (next_of_word values (by simp))),
    bind_of_ok (keyword_of_taken values),
    bind_of_ok (list_accepts tuples (fun _ ends => ends.ends.ne_comma) _ _ _ listed next)]
  rfl

end Insert

section Create

theorem length?_reads : Reads length? Grammar.length := by
  intro ts n p done
  obtain ⟨given, ts₁, opening, done⟩ := (accept_reads _).first done
  cases given with
  | true =>
      obtain ⟨n, ts₂, bound, done⟩ := integer_reads.first done
      obtain ⟨_, ts₃, closing, done⟩ := (symbol_reads _).first done
      cases done
      exact ⟨ts₃, rfl, (Taken.trans opening bound).trans closing⟩
  | false =>
      cases done
      exact ⟨ts₁, rfl, opening⟩

theorem length?_accepts : Accepts length? Grammar.length (· ≠ .symbol .leftParen) := by
  rintro ts (_ | n) us taken next
  · obtain rfl := taken_one.mp taken
    rw [length?, bind_of_ok (accept_of_next next)]
    rfl
  · obtain ⟨ts₂, taken, closing⟩ := taken_mul.mp taken
    obtain ⟨ts₁, opening, bound⟩ := taken_mul.mp taken
    rw [length?, bind_of_ok (accept_of_taken opening)]
    refine (bind_of_ok (integer_of_taken bound) _).trans ?_
    exact bind_of_ok (symbol_of_taken closing) _

theorem columnDefinition_reads : Reads columnDefinition Grammar.columnDefinition := by
  intro ts c p done
  obtain ⟨name, ts₁, named, done⟩ := identifier_reads.first done
  obtain ⟨type, ts₂, typed, done⟩ := identifier_reads.first done
  obtain ⟨n, ts₃, bound, done⟩ := length?_reads.first done
  cases done
  exact ⟨ts₃, rfl, (named.trans typed).trans bound⟩

theorem columnDefinition_accepts :
    Accepts columnDefinition Grammar.columnDefinition
      fun k => k = .symbol .comma ∨ k = .symbol .rightParen := by
  rintro ts ⟨name, type, n⟩ us taken next
  obtain ⟨ts₂, taken, bound⟩ := taken_mul.mp taken
  obtain ⟨ts₁, named, typed⟩ := taken_mul.mp taken
  have ends : Next (· ≠ .symbol .leftParen) us :=
    next.imp fun _ ends => by rcases ends with rfl | rfl <;> simp
  rw [columnDefinition, bind_of_ok (identifier_of_taken named),
    bind_of_ok (identifier_of_taken typed), bind_of_ok (length?_accepts _ _ _ bound ends)]
  rfl

theorem create_reads : Reads create Grammar.create := by
  intro ts s p done
  obtain ⟨_, ts₁, verb, done⟩ := (keyword_reads _).first done
  obtain ⟨_, ts₂, object, done⟩ := (keyword_reads _).first done
  obtain ⟨name, ts₃, table, done⟩ := identifier_reads.first done
  obtain ⟨_, ts₄, opening, done⟩ := (symbol_reads _).first done
  obtain ⟨columns, ts₅, listed, done⟩ := (list_reads columnDefinition_reads).first done
  obtain ⟨_, ts₆, closing, done⟩ := (symbol_reads _).first done
  cases done
  exact ⟨ts₆, rfl, ((((verb.trans object).trans table).trans opening).trans listed).trans closing⟩

theorem create_of_taken {s : Create} {ts us : List Token} (taken : Taken (Grammar.create s) ts us) :
    create (.ofTokens ts) = .ok s (.ofTokens us) := by
  obtain ⟨ts₅, taken, closing⟩ := taken_mul.mp taken
  obtain ⟨ts₄, taken, listed⟩ := taken_mul.mp taken
  obtain ⟨ts₃, taken, opening⟩ := taken_mul.mp taken
  obtain ⟨ts₂, taken, table⟩ := taken_mul.mp taken
  obtain ⟨ts₁, verb, object⟩ := taken_mul.mp taken
  rw [create, bind_of_ok (keyword_of_taken verb), bind_of_ok (keyword_of_taken object),
    bind_of_ok (identifier_of_taken table), bind_of_ok (symbol_of_taken opening),
    bind_of_ok (list_accepts columnDefinition_accepts (by simp) _ _ _ listed
      (next_of_word closing rfl)),
    bind_of_ok (symbol_of_taken closing)]
  rfl

end Create

section Statements

theorem showTarget_reads : Reads showTarget Grammar.showTarget := by
  intro ts target p done
  obtain ⟨_, ts₁, verb, done⟩ := (keyword_reads _).first done
  obtain ⟨name, ts₂, rfl, rfl, named⟩ := identifier_reads.last done
  have both : Taken {[.keyword .SHOW, .identifier name]} ts ts₂ := taken_cons.mpr ⟨ts₁, verb, named⟩
  exact ⟨ts₂, rfl, both.mono fun _ same => ⟨name, rfl, same⟩⟩

theorem showTarget_of_taken {target : String} {ts us : List Token}
    (taken : Taken (Grammar.showTarget target) ts us) :
    showTarget (.ofTokens ts) = .ok target (.ofTokens us) := by
  obtain ⟨used, rfl, name, rfl, kinds⟩ := taken
  have both : Taken {[.keyword .SHOW, .identifier name]} (used ++ us) us := ⟨used, rfl, kinds⟩
  obtain ⟨ts₁, verb, named⟩ := taken_cons.mp both
  rw [showTarget, bind_of_ok (keyword_of_taken verb), bind_of_ok (identifier_of_taken named)]
  rfl

theorem assignment_reads : Reads assignment (Grammar.assignment Expression.texts) := by
  intro ts a p done
  obtain ⟨column, ts₁, named, done⟩ := identifier_reads.first done
  obtain ⟨_, ts₂, equals, done⟩ := (symbol_reads _).first done
  obtain ⟨e, ts₃, value, done⟩ := expression_reads.first done
  cases done
  exact ⟨ts₃, rfl, (named.trans equals).trans value⟩

theorem assignment_accepts :
    Accepts assignment (Grammar.assignment Expression.texts)
      fun k => k = .symbol .comma ∨ Ends k := by
  rintro ts ⟨column, e⟩ us taken next
  obtain ⟨ts₂, taken, value⟩ := taken_mul.mp taken
  obtain ⟨ts₁, named, equals⟩ := taken_mul.mp taken
  have halts : Next (Halts 0) us :=
    next.imp fun _ ends => EndsExpression.halts (ends.imp_right .inl)
  rw [assignment, bind_of_ok (identifier_of_taken named), bind_of_ok (symbol_of_taken equals),
    bind_of_ok (expression_accepts _ _ _ value halts)]
  rfl

theorem update_reads : Reads update (Grammar.update Expression.texts) := by
  intro ts s p done
  obtain ⟨_, ts₁, verb, done⟩ := (keyword_reads _).first done
  obtain ⟨name, ts₂, table, done⟩ := identifier_reads.first done
  obtain ⟨_, ts₃, set, done⟩ := (keyword_reads _).first done
  obtain ⟨assignments, ts₄, listed, done⟩ := (list_reads assignment_reads).first done
  obtain ⟨condition, ts₅, filtered, done⟩ := (clause?_reads _).first done
  cases done
  exact ⟨ts₅, rfl, (((verb.trans table).trans set).trans listed).trans filtered⟩

theorem update_accepts : Accepts update (Grammar.update Expression.texts) EndsStatement := by
  intro ts s us taken next
  obtain ⟨ts₄, taken, filtered⟩ := taken_mul.mp taken
  obtain ⟨ts₃, taken, listed⟩ := taken_mul.mp taken
  obtain ⟨ts₂, taken, set⟩ := taken_mul.mp taken
  obtain ⟨ts₁, verb, table⟩ := taken_mul.mp taken
  have atEnd : Next (fun k => Ends k ∧ k ≠ .keyword .WHERE) us :=
    next.imp fun _ ends => ⟨ends.ends, ends.ne_keyword _⟩
  have afterList : Next Ends ts₄ :=
    next_of_clause filtered (by simp [Ends]) (next.imp fun _ => EndsStatement.ends)
  rw [update, bind_of_ok (keyword_of_taken verb), bind_of_ok (identifier_of_taken table),
    bind_of_ok (keyword_of_taken set),
    bind_of_ok (list_accepts assignment_accepts (fun _ => Ends.ne_comma) _ _ _ listed afterList),
    bind_of_ok (clause?_accepts _ _ _ _ filtered atEnd)]
  rfl

theorem delete_reads : Reads delete (Grammar.delete Expression.texts) := by
  intro ts s p done
  obtain ⟨_, ts₁, verb, done⟩ := (keyword_reads _).first done
  obtain ⟨_, ts₂, source, done⟩ := (keyword_reads _).first done
  obtain ⟨name, ts₃, table, done⟩ := identifier_reads.first done
  obtain ⟨condition, ts₄, filtered, done⟩ := (clause?_reads _).first done
  cases done
  exact ⟨ts₄, rfl, ((verb.trans source).trans table).trans filtered⟩

theorem delete_accepts : Accepts delete (Grammar.delete Expression.texts) EndsStatement := by
  intro ts s us taken next
  obtain ⟨ts₃, taken, filtered⟩ := taken_mul.mp taken
  obtain ⟨ts₂, taken, table⟩ := taken_mul.mp taken
  obtain ⟨ts₁, verb, source⟩ := taken_mul.mp taken
  have atEnd : Next (fun k => Ends k ∧ k ≠ .keyword .WHERE) us :=
    next.imp fun _ ends => ⟨ends.ends, ends.ne_keyword _⟩
  rw [delete, bind_of_ok (keyword_of_taken verb), bind_of_ok (keyword_of_taken source),
    bind_of_ok (identifier_of_taken table), bind_of_ok (clause?_accepts _ _ _ _ filtered atEnd)]
  rfl

theorem body_reads : Reads body (Grammar.body Expression.texts) := by
  intro ts s p done
  rcases ts with _ | ⟨⟨kind, literal, line, column⟩, us⟩
  · cases done
  · cases kind with
    | keyword word =>
        cases word with
        | SELECT =>
            obtain ⟨s, vs, rfl, rfl, taken⟩ := select_reads.last done
            exact ⟨vs, rfl, taken⟩
        | INSERT =>
            obtain ⟨s, vs, rfl, rfl, taken⟩ := insert_reads.last done
            exact ⟨vs, rfl, taken⟩
        | SHOW =>
            obtain ⟨target, vs, rfl, rfl, taken⟩ := showTarget_reads.last done
            exact ⟨vs, rfl, taken⟩
        | CREATE =>
            obtain ⟨s, vs, rfl, rfl, taken⟩ := create_reads.last done
            exact ⟨vs, rfl, taken⟩
        | UPDATE =>
            obtain ⟨s, vs, rfl, rfl, taken⟩ := update_reads.last done
            exact ⟨vs, rfl, taken⟩
        | DELETE =>
            obtain ⟨s, vs, rfl, rfl, taken⟩ := delete_reads.last done
            exact ⟨vs, rfl, taken⟩
        | _ => cases done
    | _ => cases done

theorem body_accepts : Accepts body (Grammar.body Expression.texts) EndsStatement := by
  intro ts s us taken next
  cases s with
  | select s =>
      have verb : Next (· = .keyword .SELECT) ts := next_of_mul (next_of_mul (next_of_mul
        (next_of_mul (next_of_mul (next_of_word · rfl))))) taken
      rw [body, bind_of_ok (kind?_of_next verb)]
      exact bind_of_ok (select_accepts ts s us taken next) _
  | insert s =>
      have verb : Next (· = .keyword .INSERT) ts := next_of_mul (next_of_mul (next_of_mul
        (next_of_mul (next_of_mul (next_of_word · rfl))))) taken
      rw [body, bind_of_ok (kind?_of_next verb)]
      exact bind_of_ok (insert_accepts ts s us taken next) _
  | «show» target =>
      have verb : Next (· = .keyword .SHOW) ts := by
        obtain ⟨used, rfl, name, _, kinds⟩ := taken
        obtain ⟨vs, verb, _⟩ := taken_cons.mp ⟨used, rfl, kinds⟩
        exact next_of_word verb rfl
      rw [body, bind_of_ok (kind?_of_next verb)]
      exact bind_of_ok (showTarget_of_taken taken) _
  | create s =>
      have verb : Next (· = .keyword .CREATE) ts := next_of_mul (next_of_mul (next_of_mul
        (next_of_mul (next_of_mul (next_of_word · rfl))))) taken
      rw [body, bind_of_ok (kind?_of_next verb)]
      exact bind_of_ok (create_of_taken taken) _
  | update s =>
      have verb : Next (· = .keyword .UPDATE) ts :=
        next_of_mul (next_of_mul (next_of_mul (next_of_mul (next_of_word · rfl)))) taken
      rw [body, bind_of_ok (kind?_of_next verb)]
      exact bind_of_ok (update_accepts ts s us taken next) _
  | delete s =>
      have verb : Next (· = .keyword .DELETE) ts :=
        next_of_mul (next_of_mul (next_of_mul (next_of_word · rfl))) taken
      rw [body, bind_of_ok (kind?_of_next verb)]
      exact bind_of_ok (delete_accepts ts s us taken next) _

/-- A statement is read up to the end of input. -/
theorem statement_eq_ok_iff {ts : List Token} {s : Statement} {p : Parser} :
    statement (.ofTokens ts) = .ok s p ↔ ∃ us, p = .ofTokens us ∧ Next (· = .endOfInput) us ∧
      Taken (Grammar.statement Expression.texts s) ts us := by
  constructor
  · intro done
    obtain ⟨s, ts₁, whole, done⟩ := body_reads.first done
    obtain ⟨closed, ts₂, semicolon, done⟩ := (accept_reads _).first done
    have closing : Taken (sign .semicolon + 1) ts₁ ts₂ := by
      cases closed with
      | true => exact taken_add.mpr (.inl semicolon)
      | false => exact taken_add.mpr (.inr semicolon)
    rw [bind_of_ok (at?_ofTokens _ ts₂)] at done
    cases ts₂ with
    | nil => cases done
    | cons t us =>
        by_cases ends : t.kind = .endOfInput
        · simp only [List.head?_cons, Option.map_some, ends, beq_self_eq_true, if_true] at done
          cases done
          exact ⟨t :: us, rfl, ⟨t, us, rfl, ends⟩, whole.trans closing⟩
        · rw [List.head?_cons, Option.map_some, Option.some_beq_some,
            beq_eq_false_iff_ne.mpr ends, if_neg Bool.false_ne_true] at done
          cases done
  · rintro ⟨us, rfl, ends, taken⟩
    obtain ⟨ts₁, whole, closed⟩ := taken_mul.mp taken
    have finish : (at? .endOfInput >>= fun ended => if ended = true then pure s else unexpected)
        (.ofTokens us) = .ok s (.ofTokens us) := by
      rw [bind_of_ok (at?_eq_true ends)]
      rfl
    rcases taken_add.mp closed with semicolon | none
    · rw [statement, bind_of_ok (body_accepts ts s ts₁ whole (next_of_word semicolon (.inl rfl))),
        bind_of_ok (accept_of_taken semicolon)]
      exact finish
    · obtain rfl := taken_one.mp none
      have follows : Next (· ≠ .symbol .semicolon) ts₁ := ends.imp fun _ last => by simp [last]
      rw [statement, bind_of_ok (body_accepts ts s ts₁ whole (ends.imp fun _ => .inr)),
        bind_of_ok (accept_of_next follows)]
      exact finish

end Statements

end RowStore.Sql.Parse
