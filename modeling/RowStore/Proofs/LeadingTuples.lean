import RowStore.Proofs.Compaction
import RowStore.Proofs.Declarations
import RowStore.Proofs.RowCodec

namespace RowStore

namespace Storage

variable {ω : Type} [Storage ω] {good : ω → Prop}

/-- Good stores take the entry, and what they hold then is what they held, with the entry. -/
structure Stores (good : ω → Prop) (e : Bytes × Bytes) : Prop extends Takes good e where
  holds : ∀ store, good store → entries (put e.1 e.2 store).2 = (entries store).insert e.1 e.2

end Storage

namespace Insertion

/-- The checks before the first tuple have passed, with this result. -/
structure Prepared (i : Insertion) (c : Catalog) (t : Target) : Prop where
  table : c.table i.table = .ok t.schema
  declared : i.positions t.schema = .ok t.positions
  first : t.schema.columns.head? = some t.key
  integer : t.key.type.isInteger = true

variable {i : Insertion} {c : Catalog} {t : Target} {tuple : List Value}
  {tuples : List (List Value)}

theorem keyColumn_eq_ok_iff {s : Schema} {key : Column} :
    i.keyColumn s = .ok key ↔ s.columns.head? = some key ∧ key.type.isInteger = true := by
  unfold keyColumn
  cases s.columns with
  | nil => exact ⟨nofun, fun ⟨first, _⟩ => nomatch first⟩
  | cons first rest =>
      simp only [List.head?_cons, Option.some.injEq]
      by_cases integer : first.type.isInteger = true
      · rw [if_pos integer, Except.ok.injEq]
        exact ⟨fun same => ⟨same, same ▸ integer⟩, And.left⟩
      · rw [if_neg integer]
        exact ⟨nofun, fun ⟨same, found⟩ => absurd (same ▸ found) integer⟩

theorem prepared_iff : i.Prepared c t ↔ i.target c = .ok t := by
  constructor
  · rintro ⟨table, declared, first, integer⟩
    rw [target_of_known table, declared, keyColumn_eq_ok_iff.mpr ⟨first, integer⟩]
    rfl
  · intro settled
    have table := table_of_target settled
    rw [target_of_known table] at settled
    obtain ⟨ps, declared, settled⟩ := bind_eq_ok_iff.mp settled
    obtain ⟨key, keyed, settled⟩ := bind_eq_ok_iff.mp settled
    have same : (⟨t.schema, ps, key⟩ : Target) = t := Except.ok.inj settled
    rw [← same]
    obtain ⟨first, integer⟩ := keyColumn_eq_ok_iff.mp keyed
    exact ⟨table, declared, first, integer⟩

section Writing

variable {τ : Type} [Storage τ]

end Writing
end Insertion

namespace Sql

/-- The expression is a whole number or a text, or a whole number with a sign that fits a word. -/
def Expression.isConstant : Expression → Bool
  | literal (.integer _) | literal (.string _) => true
  | unary .minus (literal (.integer v)) => v ≠ Int64.minValue
  | _ => false

theorem Expression.constant_cases (e : Expression) :
    (e.isConstant = true ∧ ∃ v, e.constant = .ok v) ∨
      e.isConstant = false ∧ ∃ described, e.constant = .error (.unsupportedLiteral described) := by
  cases e with
  | literal v =>
      cases v with
      | integer | string => exact .inl ⟨rfl, _, rfl⟩
      | _ => exact .inr ⟨rfl, _, rfl⟩
  | unary op operand =>
      cases op with
      | not => exact .inr ⟨rfl, _, rfl⟩
      | minus =>
          cases operand with
          | literal v =>
              cases v with
              | integer v =>
                  by_cases least : v = Int64.minValue
                  · exact .inr ⟨by simp [isConstant, least], _, if_pos least⟩
                  · exact .inl ⟨by simp [isConstant, least], _, if_neg least⟩
              | _ => exact .inr ⟨rfl, _, rfl⟩
          | _ => exact .inr ⟨rfl, _, rfl⟩
  | _ => exact .inr ⟨rfl, _, rfl⟩

end Sql
namespace Plan

variable {τ : Type} [Storage τ] {c : Catalog} {i : Insertion} {t : Insertion.Target}

theorem runPlan_of_target (settled : i.target c = .ok t) (store : τ) :
    Query.runPlan c (insertion i) store =
      ((i.write t i.tuples store).1.map fun _ => [], (i.write t i.tuples store).2.2) := by
  rw [runPlan_eq]
  simp only [opening, settled]
  cases (i.write t i.tuples store).1 <;> rfl

end Plan
end RowStore
