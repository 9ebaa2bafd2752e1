import RowStore.Proofs.Grammar
import RowStore.Proofs.Spelling

namespace RowStore.Sql

/-- A sign is not part of an integer. -/
def Literal.Unsigned : Literal → Prop
  | .integer v => 0 ≤ v.toInt
  | _ => True

/-- Not every float has a spelling. -/
def Literal.Plain : Literal → Prop
  | .integer v => 0 ≤ v.toInt
  | .float _ => False
  | _ => True

def ColumnName.WellFormed (c : ColumnName) : Prop :=
  (∀ table ∈ c.table, isName table = true) ∧ isName c.name = true

/-- All names are names, all literals are of `V`, and a star is nothing but an argument. -/
inductive Expression.WellFormed (V : Literal → Prop) : Expression → Prop
  | literal {v : Literal} (allowed : V v) : WellFormed V (.literal v)
  | column {c : ColumnName} (named : c.WellFormed) : WellFormed V (.column c)
  | binary {op : BinaryOperator} {l r : Expression} (left : WellFormed V l)
      (right : WellFormed V r) : WellFormed V (.binary op l r)
  | unary {op : UnaryOperator} {e : Expression} (operand : WellFormed V e) :
      WellFormed V (.unary op e)
  | call {function : String} {arguments : List Expression} (named : isName function = true)
      (inside : ∀ a ∈ arguments, a ≠ star → WellFormed V a) :
      WellFormed V (.call function arguments)

def isLowerAscii (s : String) : Bool := s.toList.all fun c => Text.isAscii c && !c.isUpper

def NamedAs (asName : Option String) : Prop := ∀ s ∈ asName, isName s = true

section

variable (Q : Expression → Prop) (R : String → Prop)

def SelectItem.WellFormedBy : SelectItem → Prop
  | .everything => True
  | .column c s => Q (.column c) ∧ NamedAs s
  | .expression e s => (∀ c, e ≠ .column c) ∧ Q e ∧ NamedAs s

def TableName.WellFormed (t : TableName) : Prop := isName t.name = true ∧ NamedAs t.asName

def Select.WellFormedBy (s : Select) : Prop :=
  (s.items ≠ [] ∧ ∀ x ∈ s.items, x.WellFormedBy Q) ∧
    (s.tables ≠ [] ∧ ∀ t ∈ s.tables, t.WellFormed) ∧ (∀ e ∈ s.condition, Q e) ∧ ∀ e ∈ s.limit, Q e

def Insert.WellFormedBy (s : Insert) : Prop :=
  isName s.table = true ∧ (∀ name ∈ s.columns, isName name = true) ∧
    s.tuples ≠ [] ∧ ∀ es ∈ s.tuples, ∀ e ∈ es, Q e

def ColumnDefinition.WellFormed (c : ColumnDefinition) : Prop :=
  isName c.name = true ∧ isName c.type = true ∧ ∀ n ∈ c.length, 0 ≤ n.toInt

def Create.WellFormed (s : Create) : Prop :=
  isName s.table = true ∧ s.columns ≠ [] ∧ ∀ c ∈ s.columns, c.WellFormed

def Update.WellFormedBy (s : Update) : Prop :=
  isName s.table = true ∧
    (s.assignments ≠ [] ∧ ∀ a ∈ s.assignments, isName a.column = true ∧ Q a.value) ∧
    ∀ e ∈ s.condition, Q e

def Delete.WellFormedBy (s : Delete) : Prop := isName s.table = true ∧ ∀ e ∈ s.condition, Q e

/-- A statement whose expressions are of `Q`, and which asks for one of `R` if for anything. -/
def Statement.WellFormedBy : Statement → Prop
  | .select s => s.WellFormedBy Q
  | .insert s => s.WellFormedBy Q
  | .show target => R target
  | .create s => s.WellFormed
  | .update s => s.WellFormedBy Q
  | .delete s => s.WellFormedBy Q

end

def Statement.WellFormed (V : Literal → Prop) (s : Statement) : Prop :=
  s.WellFormedBy (Expression.WellFormed V) fun target =>
    isName target = true ∧ isLowerAscii target = true

section Mono

variable {Q Q' : Expression → Prop} {R R' : String → Prop} (also : ∀ e, Q e → Q' e)
include also

theorem SelectItem.WellFormedBy.mono {x : SelectItem} (formed : x.WellFormedBy Q) :
    x.WellFormedBy Q' := by
  cases x with
  | everything => trivial
  | column c s => exact formed.imp_left (also _)
  | expression e s => exact ⟨formed.1, also e formed.2.1, formed.2.2⟩

theorem Statement.WellFormedBy.mono (shows : ∀ target, R target → R' target) {s : Statement}
    (formed : s.WellFormedBy Q R) : s.WellFormedBy Q' R' := by
  cases s with
  | select s =>
      obtain ⟨⟨nonempty, items⟩, tables, condition, limit⟩ := formed
      exact ⟨⟨nonempty, fun x member => (items x member).mono also⟩, tables,
        fun e given => also e (condition e given), fun e given => also e (limit e given)⟩
  | insert s =>
      obtain ⟨named, columns, nonempty, tuples⟩ := formed
      exact ⟨named, columns, nonempty, fun es member e inside => also e (tuples es member e inside)⟩
  | «show» target => exact shows target formed
  | create s => exact formed
  | update s =>
      obtain ⟨named, ⟨nonempty, assignments⟩, condition⟩ := formed
      exact ⟨named, ⟨nonempty, fun a member => (assignments a member).imp_right (also _)⟩,
        fun e given => also e (condition e given)⟩
  | delete s =>
      obtain ⟨named, condition⟩ := formed
      exact ⟨named, fun e given => also e (condition e given)⟩

end Mono

/-- The language has a text that is made of such tokens. -/
def HasText (P : Kind → Prop) (L : Language Kind) : Prop := ∃ ks ∈ L, ∀ k ∈ ks, P k

section HasText

variable {P : Kind → Prop} {L M : Language Kind} {k : Kind}

@[simp] theorem hasText_one : HasText P 1 := ⟨[], rfl, by simp⟩

@[simp] theorem not_hasText_zero : ¬ HasText P 0 := fun ⟨_, written, _⟩ =>
  Language.notMem_zero _ written

@[simp] theorem hasText_word : HasText P {[k]} ↔ P k := by
  constructor
  · rintro ⟨_, rfl, all⟩
    exact all k (by simp)
  · exact fun holds => ⟨[k], rfl, by simpa using holds⟩

@[simp] theorem hasText_mul : HasText P (L * M) ↔ HasText P L ∧ HasText P M := by
  constructor
  · rintro ⟨_, written, all⟩
    obtain ⟨ks, first, js, second, rfl⟩ := Language.mem_mul.mp written
    obtain ⟨front, back⟩ := List.forall_mem_append.mp all
    exact ⟨⟨ks, first, front⟩, js, second, back⟩
  · rintro ⟨⟨ks, first, front⟩, js, second, back⟩
    exact ⟨ks ++ js, Language.append_mem_mul first second, List.forall_mem_append.mpr ⟨front, back⟩⟩

@[simp] theorem hasText_add : HasText P (L + M) ↔ HasText P L ∨ HasText P M := by
  simp only [HasText, Language.mem_add, or_and_right, exists_or]

end HasText

namespace Grammar

/-- The tokens `P` are all keywords and signs, and the names and integers that have a spelling. -/
structure Judges (P : Kind → Prop) : Prop where
  keyword : ∀ word, P (.keyword word)
  symbol : ∀ sign, P (.symbol sign)
  identifier : ∀ name, P (.identifier name) ↔ isName name = true
  integer : ∀ n, P (.integer n) ↔ 0 ≤ n.toInt

variable {P : Kind → Prop} {α : Type} {G : α → Language Kind}

theorem hasText_listed (comma : P (.symbol .comma)) {xs : List α} :
    HasText P (listed G xs) ↔ xs ≠ [] ∧ ∀ x ∈ xs, HasText P (G x) := by
  induction xs with
  | nil => simp [listed]
  | cons x xs ih =>
      cases xs with
      | nil => simp [listed]
      | cons y ys => simp [listed, sign, comma, ih]

theorem hasText_orNone (comma : P (.symbol .comma)) {xs : List α} :
    HasText P (orNone (listed G) xs) ↔ ∀ x ∈ xs, HasText P (G x) := by
  cases xs with
  | nil => simp [orNone]
  | cons x xs => simp [orNone, hasText_listed comma]

section

variable (judges : Judges P) {E : Expression → Language Kind}
include judges

theorem hasText_asName {s : Option String} : HasText P (asName s) ↔ NamedAs s := by
  cases s <;> simp [asName, NamedAs, name, key, judges.keyword, judges.identifier]

theorem hasText_item {x : SelectItem} :
    HasText P (item E x) ↔ x.WellFormedBy fun e => HasText P (E e) := by
  cases x with
  | everything => simp [item, sign, judges.symbol, SelectItem.WellFormedBy]
  | column c s => simp [item, SelectItem.WellFormedBy, hasText_asName judges]
  | expression e s => cases e <;> simp [item, SelectItem.WellFormedBy, hasText_asName judges]

theorem hasText_table {t : TableName} : HasText P (table t) ↔ t.WellFormed := by
  simp [table, name, TableName.WellFormed, judges.identifier, hasText_asName judges]

theorem hasText_clause {word : Keyword} {e : Option Expression} :
    HasText P (clause E word e) ↔ ∀ e' ∈ e, HasText P (E e') := by
  cases e <;> simp [clause, key, judges.keyword]

theorem hasText_tuple {es : List Expression} :
    HasText P (tuple E es) ↔ ∀ e ∈ es, HasText P (E e) := by
  simp [tuple, sign, judges.symbol, hasText_orNone]

theorem hasText_columnList {names : List String} :
    HasText P (columnList names) ↔ ∀ name ∈ names, isName name = true := by
  cases names <;>
    simp [columnList, orNone, sign, name, judges.symbol, judges.identifier, hasText_listed]

theorem hasText_length {n : Option Int64} : HasText P (length n) ↔ ∀ m ∈ n, 0 ≤ m.toInt := by
  cases n <;> simp [length, sign, judges.symbol, judges.integer]

theorem hasText_columnDefinition {c : ColumnDefinition} :
    HasText P (columnDefinition c) ↔ c.WellFormed := by
  simp [columnDefinition, name, ColumnDefinition.WellFormed, judges.identifier,
    hasText_length judges, and_assoc]

theorem hasText_showTarget {target : String} :
    HasText P (showTarget target) ↔ ∃ s, Text.lower s = target ∧ isName s = true := by
  constructor
  · rintro ⟨_, ⟨s, lowered, rfl⟩, all⟩
    exact ⟨s, lowered, (judges.identifier s).mp (all _ (by simp))⟩
  · rintro ⟨s, lowered, named⟩
    refine ⟨_, ⟨s, lowered, rfl⟩, ?_⟩
    simp [judges.keyword, judges.identifier, named]

theorem hasText_select {s : Select} :
    HasText P (select E s) ↔ s.WellFormedBy fun e => HasText P (E e) := by
  simp [select, key, judges.keyword, judges.symbol, hasText_listed, hasText_item judges,
    hasText_table judges, hasText_clause judges, Select.WellFormedBy, and_assoc]

theorem hasText_insert {s : Insert} :
    HasText P (insert E s) ↔ s.WellFormedBy fun e => HasText P (E e) := by
  simp [insert, key, name, judges.keyword, judges.symbol, judges.identifier, hasText_listed,
    hasText_columnList judges, hasText_tuple judges, Insert.WellFormedBy, and_assoc]

theorem hasText_create {s : Create} : HasText P (create s) ↔ s.WellFormed := by
  simp [create, key, sign, name, judges.keyword, judges.symbol, judges.identifier, hasText_listed,
    hasText_columnDefinition judges, Create.WellFormed]

theorem hasText_assignment {a : Assignment} :
    HasText P (assignment E a) ↔ isName a.column = true ∧ HasText P (E a.value) := by
  simp [assignment, sign, name, judges.symbol, judges.identifier]

theorem hasText_update {s : Update} :
    HasText P (update E s) ↔ s.WellFormedBy fun e => HasText P (E e) := by
  simp [update, key, name, judges.keyword, judges.symbol, judges.identifier, hasText_listed,
    hasText_assignment judges, hasText_clause judges, Update.WellFormedBy, and_assoc]

theorem hasText_delete {s : Delete} :
    HasText P (delete E s) ↔ s.WellFormedBy fun e => HasText P (E e) := by
  simp [delete, key, name, judges.keyword, judges.identifier, hasText_clause judges,
    Delete.WellFormedBy]

/-- A statement can be written in such tokens if all of its parts can. -/
theorem hasText_statement {s : Statement} :
    HasText P (statement E s) ↔ s.WellFormedBy (fun e => HasText P (E e))
      fun target => ∃ s, Text.lower s = target ∧ isName s = true := by
  have ending : HasText P (statement E s) ↔ HasText P (body E s) := by
    simp [statement]
  rw [ending]
  cases s with
  | select s => exact hasText_select judges
  | insert s => exact hasText_insert judges
  | «show» target => exact hasText_showTarget judges
  | create s => exact hasText_create judges
  | update s => exact hasText_update judges
  | delete s => exact hasText_delete judges

end

/-- The tokens that have a spelling. -/
def Spellable (k : Kind) : Prop := ∃ word, Spells k word

theorem judges_spellable : Judges Spellable where
  keyword word := by
    refine ⟨word.spelling.toList, .keyword ?_⟩
    cases word <;> decide
  symbol sign := by
    cases sign <;> exact ⟨_, .symbol List.mem_cons_self⟩
  identifier name := by
    constructor
    · rintro ⟨_, spelt⟩
      cases spelt with
      | identifier named => exact named
    · exact fun named => ⟨_, .identifier named⟩
  integer n := by
    constructor
    · rintro ⟨_, spelt⟩
      cases spelt with
      | integer some digits value => omega
    · intro unsigned
      refine ⟨Nat.toDigits 10 n.toInt.toNat, .integer ?_ ?_ ?_⟩
      · exact Nat.toDigits_ne_nil
      · exact fun d member => Nat.isDigit_of_mem_toDigits (by omega) (by omega) member
      · rw [Nat.ofDigitChars_toDigits (by omega) (by omega)]
        omega

theorem judges_sound : Judges Kind.Sound where
  keyword _ := ⟨nofun, nofun⟩
  symbol _ := ⟨nofun, nofun⟩
  identifier name := ⟨fun sound => sound.named name rfl, fun named =>
    ⟨fun _ same => Kind.identifier.inj same ▸ named, nofun⟩⟩
  integer n := ⟨fun sound => sound.unsigned n rfl, fun unsigned =>
    ⟨nofun, fun _ same => Kind.integer.inj same ▸ unsigned⟩⟩

end Grammar

section Expressions

theorem spellable_literal {v : Literal} (plain : v.Plain) : Grammar.Spellable v.kind := by
  cases v with
  | null => exact Grammar.judges_spellable.keyword _
  | integer n => exact (Grammar.judges_spellable.integer n).mpr plain
  | float v => exact plain.elim
  | string s => exact ⟨_, .string s⟩
  | boolean b => cases b <;> exact Grammar.judges_spellable.keyword _

theorem unsigned_of_sound {v : Literal} (sound : v.kind.Sound) : v.Unsigned := by
  cases v with
  | integer n => exact sound.unsigned n rfl
  | _ => trivial

theorem forall_mem_kinds {P : Kind → Prop} (judges : Grammar.Judges P) {c : ColumnName} :
    (∀ k ∈ c.kinds, P k) ↔ c.WellFormed := by
  rcases c with ⟨_ | table, name⟩ <;>
    simp [ColumnName.kinds, ColumnName.WellFormed, judges.identifier, judges.symbol]

theorem spellable_binary (op : BinaryOperator) : Grammar.Spellable op.kind := by
  cases op with
  | compare c => cases c <;> exact Grammar.judges_spellable.symbol _
  | and => exact Grammar.judges_spellable.keyword _
  | or => exact Grammar.judges_spellable.keyword _
  | _ => exact Grammar.judges_spellable.symbol _

theorem spellable_unary (op : UnaryOperator) : Grammar.Spellable op.kind := by
  cases op with
  | minus => exact Grammar.judges_spellable.symbol _
  | not => exact Grammar.judges_spellable.keyword _

theorem forall_mem_bracketed {P : Kind → Prop} (judges : Grammar.Judges P) {ks : List Kind}
    (inside : ∀ k ∈ ks, P k) : ∀ k ∈ .symbol .leftParen :: (ks ++ [.symbol .rightParen]), P k := by
  have closed : ∀ k ∈ ks ++ [.symbol .rightParen], P k :=
    List.forall_mem_append.mpr ⟨inside, List.forall_mem_singleton.mpr (judges.symbol _)⟩
  exact List.forall_mem_cons.mpr ⟨judges.symbol _, closed⟩

/-- A call can be spelled if its name and its arguments can. -/
theorem spellable_callBy {write : Expression → List Kind} {function : String}
    {arguments : List Expression} (named : isName function = true)
    (each : ∀ a ∈ arguments, a ≠ star → ∀ k ∈ write a, Grammar.Spellable k) :
    ∀ k ∈ .identifier function :: .symbol .leftParen ::
      (separated (argumentsBy write arguments) ++ [.symbol .rightParen]), Grammar.Spellable k := by
  have judges := Grammar.judges_spellable
  have texts : ∀ text ∈ argumentsBy write arguments, ∀ k ∈ text, Grammar.Spellable k := by
    intro text member
    obtain ⟨a, given, rfl⟩ := List.mem_map.mp member
    cases bare : a.isStar with
    | true => exact List.forall_mem_singleton.mpr (judges.symbol _)
    | false => exact each a given fun same => by simp [isStar_iff.mpr same] at bare
  have inner := (Grammar.forall_mem_separated (judges.symbol .comma)).mpr texts
  have opening := (judges.identifier function).mpr named
  exact List.forall_mem_cons.mpr ⟨opening, forall_mem_bracketed judges inner⟩

/-- Each operation has its parentheses, so that nothing else is needed to spell it. -/
theorem spellable_kinds {e : Expression} (formed : e.WellFormed Literal.Plain) :
    ∀ k ∈ e.kinds, Grammar.Spellable k := by
  have judges := Grammar.judges_spellable
  induction formed with
  | literal plain => exact List.forall_mem_singleton.mpr (spellable_literal plain)
  | column named => exact (forall_mem_kinds judges).mpr named
  | @binary op l r left right ihl ihr =>
      refine forall_mem_bracketed judges (List.forall_mem_append.mpr ⟨ihl, ?_⟩)
      exact List.forall_mem_cons.mpr ⟨spellable_binary op, ihr⟩
  | @unary op e operand ih =>
      exact forall_mem_bracketed judges (List.forall_mem_cons.mpr ⟨spellable_unary op, ih⟩)
  | @call function arguments named inside ih =>
      rw [Expression.kinds, argumentKinds_eq]
      exact spellable_callBy named ih

/-- What is written in tokens that a scanner finds is well formed. -/
theorem wellFormed_of_written {m f : Nat} {e : Expression} {ks : List Kind}
    (written : e.Written m f ks) (sound : ∀ k ∈ ks, k.Sound) : e.WellFormed Literal.Unsigned := by
  induction written with
  | literal v => exact .literal (unsigned_of_sound (sound _ List.mem_cons_self))
  | column c => exact .column ((forall_mem_kinds Grammar.judges_sound).mp sound)
  | bracketed inside ih =>
      exact ih (List.forall_mem_append.mp (List.forall_mem_cons.mp sound).2).1
  | unary looser operand ih => exact .unary (ih (List.forall_mem_cons.mp sound).2)
  | binary tighter looser left right ihl ihr =>
      obtain ⟨front, back⟩ := List.forall_mem_append.mp sound
      exact .binary (ihl front) (ihr (List.forall_mem_cons.mp back).2)
  | @call m f function arguments texts each inside ih =>
      obtain ⟨named, rest⟩ := List.forall_mem_cons.mp sound
      obtain ⟨inner, _⟩ := List.forall_mem_append.mp (List.forall_mem_cons.mp rest).2
      have sounds := (Grammar.forall_mem_separated (Grammar.judges_sound.symbol _)).mp inner
      refine .call (named.named function rfl) fun a given other => ?_
      obtain ⟨text, member⟩ : ∃ text, (a, text) ∈ arguments.zip texts := by
        rw [← List.map_fst_zip each.le] at given
        obtain ⟨⟨_, text⟩, member, rfl⟩ := List.mem_map.mp given
        exact ⟨text, member⟩
      exact ih (a, text) member (fun bare => other (congrArg Prod.fst bare))
        (sounds text (List.of_mem_zip member).2)

end Expressions

end RowStore.Sql
