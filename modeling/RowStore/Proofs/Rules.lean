import RowStore.Proofs.Grammar

/-! What a rule of the parser reads, as a language: a rule is sound if all that it takes is of its
language, and complete if it takes whatever is, up to a token that may follow. -/
namespace RowStore.Sql

/-- The tokens `ts` are some of the language `L` and then `us`. -/
def Taken (L : Language Kind) (ts us : List Token) : Prop :=
  ∃ used, ts = used ++ us ∧ used.map Token.kind ∈ L

section Taken

variable {L M : Language Kind} {ts us vs : List Token} {k : Kind}

theorem taken_one : Taken 1 ts us ↔ ts = us := by
  constructor
  · rintro ⟨used, rfl, empty⟩
    rw [Language.mem_one, List.map_eq_nil_iff] at empty
    rw [empty, List.nil_append]
  · rintro rfl
    exact ⟨[], rfl, rfl⟩

theorem taken_mul : Taken (L * M) ts vs ↔ ∃ us, Taken L ts us ∧ Taken M us vs := by
  constructor
  · rintro ⟨used, rfl, written⟩
    obtain ⟨ks, first, js, second, both⟩ := Language.mem_mul.mp written
    obtain ⟨firsts, seconds, rfl, rfl, rfl⟩ := List.map_eq_append_iff.mp both.symm
    exact ⟨seconds ++ vs, ⟨firsts, List.append_assoc .., first⟩, seconds, rfl, second⟩
  · rintro ⟨us, ⟨firsts, rfl, first⟩, seconds, rfl, second⟩
    refine ⟨firsts ++ seconds, (List.append_assoc ..).symm, ?_⟩
    rw [List.map_append]
    exact Language.append_mem_mul first second

theorem Taken.trans (first : Taken L ts us) (second : Taken M us vs) : Taken (L * M) ts vs :=
  taken_mul.mpr ⟨us, first, second⟩

theorem taken_add : Taken (L + M) ts us ↔ Taken L ts us ∨ Taken M ts us := by
  simp only [Taken, Language.mem_add, and_or_left, exists_or]

theorem Taken.mono (taken : Taken L ts us) (within : L ≤ M) : Taken M ts us := by
  obtain ⟨used, rfl, written⟩ := taken
  exact ⟨used, rfl, within written⟩

theorem taken_zero : ¬ Taken 0 ts us := fun ⟨_, _, written⟩ => Language.notMem_zero _ written

theorem taken_word : Taken {[k]} ts us ↔ ∃ t : Token, ts = t :: us ∧ t.kind = k := by
  constructor
  · rintro ⟨used, rfl, written⟩
    have kinds : used.map Token.kind = [k] := written
    obtain ⟨t, rfl, kind⟩ := List.map_eq_singleton_iff.mp kinds
    exact ⟨t, rfl, kind⟩
  · rintro ⟨t, rfl, rfl⟩
    exact ⟨[t], rfl, rfl⟩

theorem taken_kind (t : Token) (us : List Token) : Taken {[t.kind]} (t :: us) us :=
  taken_word.mpr ⟨t, rfl, rfl⟩

theorem taken_append {ks js : List Kind} :
    Taken {ks ++ js} ts vs ↔ ∃ us, Taken {ks} ts us ∧ Taken {js} us vs := by
  rw [← taken_mul]
  constructor
  · intro taken
    exact taken.mono fun _ same => Language.mem_mul.mpr ⟨ks, rfl, js, rfl, same.symm⟩
  · intro taken
    refine taken.mono fun _ written => ?_
    obtain ⟨_, rfl, _, rfl, both⟩ := Language.mem_mul.mp written
    exact both.symm

theorem taken_cons {ks : List Kind} :
    Taken {k :: ks} ts vs ↔ ∃ us, Taken {[k]} ts us ∧ Taken {ks} us vs := by
  rw [← List.singleton_append, taken_append]

theorem Taken.length_le (taken : Taken L ts us) : us.length ≤ ts.length := by
  obtain ⟨used, rfl, _⟩ := taken
  simp

end Taken

/-- The next token is such. -/
def Next (F : Kind → Prop) (ts : List Token) : Prop := ∃ t us, ts = t :: us ∧ F t.kind

section Next

variable {F H : Kind → Prop} {L M : Language Kind} {ts us : List Token} {k : Kind}

theorem Next.imp (next : Next F ts) (only : ∀ k, F k → H k) : Next H ts := by
  obtain ⟨t, us, rfl, holds⟩ := next
  exact ⟨t, us, rfl, only _ holds⟩

theorem next_of_word (taken : Taken {[k]} ts us) (holds : F k) : Next F ts := by
  obtain ⟨t, rfl, rfl⟩ := taken_word.mp taken
  exact ⟨t, us, rfl, holds⟩

theorem next_of_mul (first : ∀ {us}, Taken L ts us → Next F ts) (taken : Taken (L * M) ts us) :
    Next F ts := by
  obtain ⟨vs, front, _⟩ := taken_mul.mp taken
  exact first front

theorem next_of_listed {α : Type} {G : α → Language Kind} {xs : List α}
    (each : ∀ x us, Taken (G x) ts us → Next F ts) (taken : Taken (Grammar.listed G xs) ts us) :
    Next F ts := by
  match xs, taken with
  | [], taken => exact absurd taken taken_zero
  | [x], taken => exact each x us taken
  | x :: y :: ys, taken => exact next_of_mul (next_of_mul (each x _)) taken

end Next

namespace Parse

variable {α β : Type}

/-- All that the rule takes is of its language. -/
def Reads (rule : Parse α) (G : α → Language Kind) : Prop :=
  ∀ ts x p, rule (.ofTokens ts) = .ok x p → ∃ us, p = .ofTokens us ∧ Taken (G x) ts us

/-- The rule takes all that is of its language, if what follows is such. -/
def Accepts (rule : Parse α) (G : α → Language Kind) (F : Kind → Prop) : Prop :=
  ∀ ts x us, Taken (G x) ts us → Next F us → rule (.ofTokens ts) = .ok x (.ofTokens us)

theorem bind_eq_ok_iff {rule : Parse α} {f : α → Parse β} {p q : Parser} {y : β} :
    (rule >>= f) p = .ok y q ↔ ∃ x r, rule p = .ok x r ∧ f x r = .ok y q := by
  change EStateM.bind rule f p = _ ↔ _
  unfold EStateM.bind
  cases rule p <;> simp

/-- A rule that succeeds passes on what it leaves. -/
theorem bind_of_ok {rule : Parse α} {p q : Parser} {x : α} (done : rule p = .ok x q)
    (f : α → Parse β) : (rule >>= f) p = f x q := by
  change EStateM.bind rule f p = _
  unfold EStateM.bind
  rw [done]

/-- A rule that fails ends what it is the first step of. -/
theorem bind_of_error {rule : Parse α} {p q : Parser} {e : ParseError}
    (failed : rule p = .error e q) (f : α → Parse β) : (rule >>= f) p = .error e q := by
  change EStateM.bind rule f p = _
  unfold EStateM.bind
  rw [failed]

theorem pure_eq_ok_iff {x y : α} {p q : Parser} :
    (pure x : Parse α) p = .ok y q ↔ x = y ∧ p = q := by
  change EStateM.Result.ok x p = .ok y q ↔ _
  rw [EStateM.Result.ok.injEq]

/-- The first step of a rule that is several. -/
theorem Reads.first {rule : Parse α} {G : α → Language Kind} (reads : Reads rule G)
    {f : α → Parse β} {ts : List Token} {y : β} {q : Parser}
    (done : (rule >>= f) (.ofTokens ts) = .ok y q) :
    ∃ x us, Taken (G x) ts us ∧ f x (.ofTokens us) = .ok y q := by
  obtain ⟨x, r, first, rest⟩ := bind_eq_ok_iff.mp done
  obtain ⟨us, rfl, taken⟩ := reads ts x r first
  exact ⟨x, us, taken, rest⟩

/-- The last step of a rule that is several. -/
theorem Reads.last {rule : Parse α} {G : α → Language Kind} (reads : Reads rule G) {f : α → β}
    {ts : List Token} {y : β} {q : Parser}
    (done : (rule >>= fun x => pure (f x)) (.ofTokens ts) = .ok y q) :
    ∃ x us, y = f x ∧ q = .ofTokens us ∧ Taken (G x) ts us := by
  obtain ⟨x, us, taken, done⟩ := reads.first done
  obtain ⟨rfl, rfl⟩ := pure_eq_ok_iff.mp done
  exact ⟨x, us, rfl, rfl, taken⟩

section Step

variable (t : Token) (us : List Token)

theorem kind?_ofTokens (ts : List Token) :
    kind? (.ofTokens ts) = .ok (ts.head?.map Token.kind) (.ofTokens ts) := rfl

theorem advance_cons : advance (.ofTokens (t :: us)) = .ok () (.ofTokens us) := rfl

end Step

theorem at?_ofTokens (k : Kind) (ts : List Token) :
    at? k (.ofTokens ts) = .ok (ts.head?.map Token.kind == some k) (.ofTokens ts) := rfl

theorem at?_eq_false {k : Kind} {ts : List Token} (next : Next (· ≠ k) ts) :
    at? k (.ofTokens ts) = .ok false (.ofTokens ts) := by
  obtain ⟨t, us, rfl, other⟩ := next
  rw [at?_ofTokens]
  simp [other]

theorem at?_eq_true {k : Kind} {ts : List Token} (next : Next (· = k) ts) :
    at? k (.ofTokens ts) = .ok true (.ofTokens ts) := by
  obtain ⟨t, us, rfl, rfl⟩ := next
  rw [at?_ofTokens]
  simp

theorem accept_of_taken {k : Kind} {ts us : List Token} (taken : Taken {[k]} ts us) :
    accept k (.ofTokens ts) = .ok true (.ofTokens us) := by
  rw [accept, bind_of_ok (at?_eq_true (next_of_word taken rfl))]
  obtain ⟨t, rfl, rfl⟩ := taken_word.mp taken
  rfl

theorem accept_of_next {k : Kind} {ts : List Token} (next : Next (· ≠ k) ts) :
    accept k (.ofTokens ts) = .ok false (.ofTokens ts) := by
  rw [accept, bind_of_ok (at?_eq_false next)]
  rfl

theorem accept_reads (k : Kind) : Reads (accept k) (fun b => bif b then {[k]} else 1) := by
  intro ts b p done
  rw [accept, bind_of_ok (at?_ofTokens k ts)] at done
  cases ts with
  | nil =>
      obtain ⟨rfl, rfl⟩ := pure_eq_ok_iff.mp done
      exact ⟨[], rfl, taken_one.mpr rfl⟩
  | cons t us =>
      by_cases same : t.kind = k
      · simp only [List.head?_cons, Option.map_some, same, beq_self_eq_true, if_true] at done
        rw [bind_of_ok (advance_cons t us), pure_eq_ok_iff] at done
        obtain ⟨rfl, rfl⟩ := done
        exact ⟨us, rfl, taken_word.mpr ⟨t, rfl, same⟩⟩
      · rw [List.head?_cons, Option.map_some, Option.some_beq_some, beq_eq_false_iff_ne.mpr same,
          if_neg Bool.false_ne_true] at done
        obtain ⟨rfl, rfl⟩ := pure_eq_ok_iff.mp done
        exact ⟨t :: us, rfl, taken_one.mpr rfl⟩

/-- A rule that takes the one token that it expects. -/
theorem expect_cons {wanted : Expected} {t : Token} (us : List Token)
    (accepted : wanted.accepts t.kind = true) :
    expect wanted (.ofTokens (t :: us)) = .ok () (.ofTokens us) := by
  change (if wanted.accepts t.kind then advance else _) _ = _
  rw [if_pos accepted]
  rfl

theorem expect_eq_ok {wanted : Expected} {ts : List Token} {p : Parser}
    (done : expect wanted (.ofTokens ts) = .ok () p) :
    ∃ t us, ts = t :: us ∧ wanted.accepts t.kind = true ∧ p = .ofTokens us := by
  cases ts with
  | nil => cases done
  | cons t us =>
      by_cases accepted : wanted.accepts t.kind = true
      · rw [expect_cons us accepted] at done
        cases done
        exact ⟨t, us, rfl, accepted, rfl⟩
      · change (if wanted.accepts t.kind then advance else _) _ = _ at done
        rw [if_neg accepted] at done
        obtain ⟨_, _, _, refusal⟩ := bind_eq_ok_iff.mp done
        cases kind : t.kind <;> simp only [refused, kind] at refusal <;> cases refusal

@[simp] theorem accepts_keyword {word : Keyword} {k : Kind} :
    (Expected.keyword word).accepts k = true ↔ k = .keyword word := by
  cases k <;> simp [Expected.accepts, eq_comm]

@[simp] theorem accepts_symbol {sign : Symbol} {k : Kind} :
    (Expected.symbol sign).accepts k = true ↔ k = .symbol sign := by
  cases k <;> simp [Expected.accepts, eq_comm]

theorem keyword_reads (word : Keyword) : Reads (keyword word) fun _ => Grammar.key word := by
  intro ts _ p done
  obtain ⟨t, us, rfl, accepted, rfl⟩ := expect_eq_ok done
  exact ⟨us, rfl, taken_word.mpr ⟨t, rfl, accepts_keyword.mp accepted⟩⟩

theorem symbol_reads (sign : Symbol) : Reads (symbol sign) fun _ => Grammar.sign sign := by
  intro ts _ p done
  obtain ⟨t, us, rfl, accepted, rfl⟩ := expect_eq_ok done
  exact ⟨us, rfl, taken_word.mpr ⟨t, rfl, accepts_symbol.mp accepted⟩⟩

theorem identifier_reads : Reads identifier Grammar.name := by
  rintro (_ | ⟨⟨kind, literal, line, column⟩, us⟩) name p done
  · cases done
  · cases kind with
    | identifier word =>
        cases done
        exact ⟨us, rfl, taken_word.mpr ⟨_, rfl, rfl⟩⟩
    | _ => cases done

theorem integer_reads : Reads integer fun n => {[.integer n]} := by
  rintro (_ | ⟨⟨kind, literal, line, column⟩, us⟩) n p done
  · cases done
  · cases kind with
    | integer v =>
        cases done
        exact ⟨us, rfl, taken_word.mpr ⟨_, rfl, rfl⟩⟩
    | _ => cases done

section Taken

variable {ts us : List Token}

theorem keyword_of_taken {word : Keyword} (taken : Taken (Grammar.key word) ts us) :
    keyword word (.ofTokens ts) = .ok () (.ofTokens us) := by
  obtain ⟨t, rfl, kind⟩ := taken_word.mp taken
  exact expect_cons us (accepts_keyword.mpr kind)

theorem symbol_of_taken {sign : Symbol} (taken : Taken (Grammar.sign sign) ts us) :
    symbol sign (.ofTokens ts) = .ok () (.ofTokens us) := by
  obtain ⟨t, rfl, kind⟩ := taken_word.mp taken
  exact expect_cons us (accepts_symbol.mpr kind)

theorem identifier_of_taken {name : String} (taken : Taken (Grammar.name name) ts us) :
    identifier (.ofTokens ts) = .ok name (.ofTokens us) := by
  obtain ⟨t, rfl, kind⟩ := taken_word.mp taken
  cases t
  cases kind
  rfl

theorem integer_of_taken {n : Int64} (taken : Taken {[.integer n]} ts us) :
    integer (.ofTokens ts) = .ok n (.ofTokens us) := by
  obtain ⟨t, rfl, kind⟩ := taken_word.mp taken
  cases t
  cases kind
  rfl

end Taken

section Lists

variable {item : Parse α} {G : α → Language Kind} {F : Kind → Prop}

theorem commaSeparated_reads (reads : Reads item G) (count : Nat) :
    Reads (commaSeparated item count) (Grammar.listed G) := by
  induction count with
  | zero =>
      intro ts xs p done
      cases done
  | succ count ih =>
      intro ts xs p done
      rw [commaSeparated] at done
      obtain ⟨x, us, item, done⟩ := reads.first done
      obtain ⟨comma, vs, taken, done⟩ := (accept_reads _).first done
      cases comma with
      | true =>
          obtain ⟨others, ws, rest, done⟩ := ih.first done
          obtain ⟨rfl, rfl⟩ := pure_eq_ok_iff.mp done
          cases others with
          | nil => exact absurd rest taken_zero
          | cons y ys => exact ⟨ws, rfl, (item.trans taken).trans rest⟩
      | false =>
          obtain ⟨rfl, rfl⟩ := pure_eq_ok_iff.mp done
          obtain rfl := taken_one.mp taken
          exact ⟨us, rfl, item⟩

theorem list_reads (reads : Reads item G) : Reads (list item) (Grammar.listed G) := by
  intro ts xs p done
  exact commaSeparated_reads reads _ ts xs p done

/-- There is a comma for each item but one. -/
theorem length_le_of_listed {xs : List α} {ts us : List Token}
    (taken : Taken (Grammar.listed G xs) ts us) : xs.length + us.length ≤ ts.length + 1 := by
  induction xs generalizing ts with
  | nil => exact absurd taken taken_zero
  | cons x xs ih =>
      cases xs with
      | nil =>
          have shorter := taken.length_le
          rw [List.length_singleton]
          omega
      | cons y ys =>
          obtain ⟨vs, front, rest⟩ := taken_mul.mp taken
          obtain ⟨ws, item, comma⟩ := taken_mul.mp front
          obtain ⟨t, rfl, _⟩ := taken_word.mp comma
          have shorter := item.length_le
          have later := ih rest
          simp only [List.length_cons] at shorter later ⊢
          omega

theorem commaSeparated_accepts (accepts : Accepts item G fun k => k = .symbol .comma ∨ F k)
    (ends : ∀ k, F k → k ≠ .symbol .comma) {xs : List α} {count : Nat} {ts us : List Token}
    (enough : xs.length ≤ count) (taken : Taken (Grammar.listed G xs) ts us) (next : Next F us) :
    commaSeparated item count (.ofTokens ts) = .ok xs (.ofTokens us) := by
  induction count generalizing xs ts with
  | zero =>
      obtain rfl := List.eq_nil_of_length_eq_zero (Nat.le_zero.mp enough)
      exact absurd taken taken_zero
  | succ count ih =>
      match xs, taken with
      | [], taken => exact absurd taken taken_zero
      | [x], taken =>
          rw [commaSeparated, bind_of_ok (accepts ts x us taken (next.imp fun _ => Or.inr)),
            bind_of_ok (accept_of_next (next.imp ends))]
          rfl
      | x :: y :: ys, taken =>
          obtain ⟨vs, front, rest⟩ := taken_mul.mp taken
          obtain ⟨ws, one, comma⟩ := taken_mul.mp front
          rw [commaSeparated, bind_of_ok (accepts ts x ws one (next_of_word comma (.inl rfl))),
            bind_of_ok (accept_of_taken comma)]
          have others := ih (Nat.le_of_succ_le_succ enough) rest
          change (commaSeparated item count >>= fun zs => pure (x :: zs)) _ = _
          rw [bind_of_ok others]
          rfl

theorem list_accepts (accepts : Accepts item G fun k => k = .symbol .comma ∨ F k)
    (ends : ∀ k, F k → k ≠ .symbol .comma) : Accepts (list item) (Grammar.listed G) F := by
  intro ts xs us taken next
  have enough : xs.length ≤ (Parser.ofTokens ts).rest.length + 1 := by
    have shorter := length_le_of_listed taken
    obtain ⟨t, vs, rfl, _⟩ := next
    rw [List.length_cons] at shorter
    simp only [Parser.ofTokens, List.length_tail]
    omega
  exact commaSeparated_accepts accepts ends enough taken next

/-- A list up to a closing parenthesis, which may be empty. -/
theorem exists_list_of_closed (reads : Reads item G) {f : List α → Parse β} {ts : List Token}
    {y : β} {p : Parser}
    (done : (at? (.symbol .rightParen) >>= fun closed =>
      if closed = true then pure [] >>= f else list item >>= f) (.ofTokens ts) = .ok y p) :
    ∃ xs us, Taken (Grammar.orNone (Grammar.listed G) xs) ts us ∧
      f xs (.ofTokens us) = .ok y p := by
  rw [bind_of_ok (at?_ofTokens _ ts)] at done
  split at done
  · exact ⟨[], ts, taken_one.mpr rfl, done⟩
  · obtain ⟨xs, us, listed, done⟩ := (list_reads reads).first done
    cases xs with
    | nil => exact absurd listed taken_zero
    | cons x xs => exact ⟨x :: xs, us, listed, done⟩

theorem list_of_closed
    (accepts : Accepts item G fun k => k = .symbol .comma ∨ k = .symbol .rightParen)
    {xs : List α} {ts us vs : List Token}
    (starts : ∀ x us, Taken (G x) ts us → Next (· ≠ .symbol .rightParen) ts)
    (taken : Taken (Grammar.orNone (Grammar.listed G) xs) ts us)
    (closing : Taken (Grammar.sign .rightParen) us vs) (f : List α → Parse β) :
    (at? (.symbol .rightParen) >>= fun closed =>
      if closed = true then pure [] >>= f else list item >>= f) (.ofTokens ts) =
        f xs (.ofTokens us) := by
  cases xs with
  | nil =>
      obtain rfl := taken_one.mp taken
      rw [bind_of_ok (at?_eq_true (next_of_word closing rfl))]
      rfl
  | cons x xs =>
      have ends : ∀ k : Kind, k = .symbol .rightParen → k ≠ .symbol .comma := by
        rintro _ rfl
        simp
      rw [bind_of_ok (at?_eq_false (next_of_listed starts taken)), if_neg Bool.false_ne_true,
        bind_of_ok (list_accepts accepts ends ts _ us taken (next_of_word closing rfl))]

end Lists

end Parse

end RowStore.Sql
