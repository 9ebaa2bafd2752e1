import Mathlib.Logic.Basic
import Mathlib.Logic.ExistsUnique
import RowStore.Value

namespace RowStore

/-- The kinds of values that compare with each other. -/
inductive Family
  | integers
  | texts
  | dates
  deriving DecidableEq, Repr

def ColumnType.family : ColumnType → Family
  | int32 | int64 | uint32 | uint64 => .integers
  | fixedString => .texts
  | date => .dates

/-- What a value counts as when it is compared. -/
inductive Rank
  | number (n : Int)
  | text (bytes : List UInt8)
  | moment (seconds : Int)

namespace Rank

def family : Rank → Family
  | number _ => .integers
  | text _ => .texts
  | moment _ => .dates

def compare : Rank → Rank → Option Ordering
  | number m, number n => some (Ord.compare m n)
  | text as, text bs => some (List.compareLex Ord.compare as bs)
  | moment s, moment t => some (Ord.compare s t)
  | _, _ => none

variable {x y z : Rank}

theorem compare_ne_none_iff : x.compare y ≠ none ↔ x.family = y.family := by
  cases x <;> cases y <;> simp [compare, family]

theorem compare_self (x : Rank) : x.compare x = some .eq := by
  cases x with
  | number | moment => exact congrArg some Std.ReflOrd.compare_self
  | text bytes => exact congrArg some Std.ReflCmp.compare_self

theorem compare_swap (x y : Rank) : y.compare x = (x.compare y).map Ordering.swap := by
  cases x with
  | number m =>
      cases y with
      | number n => exact congrArg some Std.OrientedCmp.eq_swap
      | _ => rfl
  | text as =>
      cases y with
      | text bs => exact congrArg some Std.OrientedCmp.eq_swap
      | _ => rfl
  | moment s =>
      cases y with
      | moment t => exact congrArg some Std.OrientedCmp.eq_swap
      | _ => rfl

theorem compare_trans {o p : Ordering} (first : x.compare y = some o)
    (second : y.compare z = some p) (before : o.isLE = true) (before' : p.isLE = true) :
    ∃ q, x.compare z = some q ∧ q.isLE = true := by
  -- Three ranks that compare are of one family, and within it the order is a linear one.
  cases x <;> cases y <;> cases first
  all_goals
    cases z <;> cases second
    exact ⟨_, rfl, Std.TransCmp.isLE_trans before before'⟩

end Rank

namespace Value

def rank : Value → Rank
  | int32 v => .number v.toInt
  | int64 v => .number v.toInt
  | uint32 v => .number v.toNat
  | uint64 v => .number v.toNat
  | fixedString s => .text (Text.utf8 s)
  | date d => .moment d.seconds.toInt

theorem compare_eq (a b : Value) : a.compare b = a.rank.compare b.rank := by
  cases a <;> cases b <;> rfl

theorem family_rank (a : Value) : a.rank.family = a.type.family := by
  cases a <;> rfl

theorem rank_of_toInt? {a : Value} {n : Int} (number : a.toInt? = some n) : a.rank = .number n := by
  cases a <;> cases number <;> rfl

theorem compare_swap (a b : Value) : b.compare a = (a.compare b).map Ordering.swap := by
  rw [compare_eq, compare_eq, Rank.compare_swap]

/-- The values can be compared. -/
def Comparable (a b : Value) : Prop := a.compare b ≠ none

theorem comparable_iff {a b : Value} : Comparable a b ↔ a.type.family = b.type.family := by
  rw [Comparable, compare_eq, Rank.compare_ne_none_iff, family_rank, family_rank]

theorem comparable_equivalence : Equivalence Comparable where
  refl _ := comparable_iff.mpr rfl
  symm first := comparable_iff.mpr (comparable_iff.mp first).symm
  trans first second :=
    comparable_iff.mpr ((comparable_iff.mp first).trans (comparable_iff.mp second))

end Value

namespace Comparison

/-- The comparison that says the same with its sides exchanged. -/
def mirrored : Comparison → Comparison
  | equal => equal
  | notEqual => notEqual
  | greater => less
  | greaterEqual => lessEqual
  | less => greater
  | lessEqual => greaterEqual

/-- The comparisons that exclude each other. -/
def exclusive : List Comparison := [equal, less, greater]

theorem admits_mirrored (c : Comparison) (o : Ordering) :
    c.mirrored.admits o.swap = c.admits o := by
  cases c <;> cases o <;> rfl

theorem exists_unique_admits (o : Ordering) : ∃! c, c ∈ exclusive ∧ c.admits o = true := by
  cases o with
  | eq => exact ⟨equal, by decide, by rintro ⟨⟩ <;> decide⟩
  | lt => exact ⟨less, by decide, by rintro ⟨⟩ <;> decide⟩
  | gt => exact ⟨greater, by decide, by rintro ⟨⟩ <;> decide⟩

theorem admits_complements (o : Ordering) :
    notEqual.admits o = !equal.admits o ∧ greaterEqual.admits o = !less.admits o ∧
      lessEqual.admits o = !greater.admits o := by
  cases o <;> decide

variable {a b : Value}

theorem holds_of_compare {o : Ordering} (known : a.compare b = some o) (c : Comparison) :
    c.holds a b = c.admits o := by
  rw [holds, known]

theorem holds_of_incomparable (apart : ¬ Value.Comparable a b) (c : Comparison) :
    c.holds a b = false := by
  rw [holds, not_not.mp apart]

theorem holds_mirrored (c : Comparison) (a b : Value) : c.holds a b = c.mirrored.holds b a := by
  rw [holds, holds, Value.compare_swap a b]
  cases a.compare b with
  | none => rfl
  | some o => exact (c.admits_mirrored o).symm

end Comparison

/-- To be comparable is to be of one family, and within a family the values are totally preordered,
the integers of every width as the numbers that they are. Each comparison is its mirror image with
the sides exchanged. Of comparable values exactly one of =, < and > holds and the other three are
their complements; of values that do not compare nothing holds. -/
theorem families_are_totally_preordered :
    Equivalence Value.Comparable ∧
      (∀ a b : Value, a.Comparable b ↔ a.type.family = b.type.family) ∧
      (∀ a : Value, a.compare a = some .eq) ∧
      (∀ a b : Value, b.compare a = (a.compare b).map Ordering.swap) ∧
      (∀ (a b c : Value) (o p : Ordering), a.compare b = some o → b.compare c = some p →
        o.isLE = true → p.isLE = true → ∃ q, a.compare c = some q ∧ q.isLE = true) ∧
      (∀ (a b : Value) (m n : Int), a.toInt? = some m → b.toInt? = some n →
        a.compare b = some (Ord.compare m n)) ∧
      (∀ (c : Comparison) (a b : Value), c.holds a b = c.mirrored.holds b a) ∧
      (∀ a b : Value, a.Comparable b →
        (∃! c, c ∈ Comparison.exclusive ∧ c.holds a b = true) ∧
        Comparison.notEqual.holds a b = (!Comparison.equal.holds a b) ∧
        Comparison.greaterEqual.holds a b = (!Comparison.less.holds a b) ∧
        Comparison.lessEqual.holds a b = (!Comparison.greater.holds a b)) ∧
      ∀ a b : Value, ¬ a.Comparable b → ∀ c : Comparison, c.holds a b = false := by
  refine ⟨Value.comparable_equivalence, fun _ _ => Value.comparable_iff, ?self, Value.compare_swap,
    ?trans, ?numbers, Comparison.holds_mirrored, ?complements,
    fun _ _ => Comparison.holds_of_incomparable⟩
  case self =>
    intro a
    rw [Value.compare_eq, Rank.compare_self]
  case trans =>
    intro a b c o p first second before before'
    rw [Value.compare_eq] at first second ⊢
    exact Rank.compare_trans first second before before'
  case numbers =>
    intro a b m n left right
    rw [Value.compare_eq, Value.rank_of_toInt? left, Value.rank_of_toInt? right]
    rfl
  case complements =>
    intro a b comparable
    obtain ⟨o, known⟩ := Option.ne_none_iff_exists'.mp comparable
    simp only [Comparison.holds_of_compare known]
    exact ⟨Comparison.exists_unique_admits o, Comparison.admits_complements o⟩

/-- The least number of a signed word, the greatest of an unsigned one, and between them a number
that two widths hold. A text that looks like one of them compares with none. -/
theorem families_are_totally_preordered_at_word_limits :
    let least : Value := .int64 Int64.minValue
    let narrow : Value := .int32 (-1)
    let greatest : Value := .uint64 18446744073709551615
    least.compare narrow = some .lt ∧ narrow.compare greatest = some .lt ∧
      (∃ q, least.compare greatest = some q ∧ q.isLE = true) ∧
      narrow.compare (.int64 (-1)) = some (Ord.compare (-1 : Int) (-1)) ∧
      narrow.Comparable greatest ∧
      (∃! c, c ∈ Comparison.exclusive ∧ c.holds narrow greatest = true) ∧
      ¬ narrow.Comparable (.fixedString "-1") ∧
      Comparison.notEqual.holds narrow (.fixedString "-1") = false := by
  intro least narrow greatest
  obtain ⟨_, family, _, _, trans, numbers, _, complements, apart⟩ := families_are_totally_preordered
  have first : least.compare narrow = some .lt := by decide
  have second : narrow.compare greatest = some .lt := by decide
  have comparable : narrow.Comparable greatest := (family _ _).mpr rfl
  have other : ¬ narrow.Comparable (.fixedString "-1") := fun same => nomatch (family _ _).mp same
  exact ⟨first, second, trans _ _ _ _ _ first second rfl rfl, numbers _ _ _ _ rfl rfl, comparable,
    (complements _ _ comparable).1, other, apart _ _ other .notEqual⟩

end RowStore
