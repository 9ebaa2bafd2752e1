/-! Finite maps as lists of entries in ascending key order. -/
namespace RowStore

/-- A strict linear order that can be decided. -/
class KeyOrder (κ : Type) where
  before : κ → κ → Bool
  irrefl (a : κ) : before a a = false
  trans {a b c : κ} : before a b = true → before b c = true → before a c = true
  eq_of_neither {a b : κ} : before a b = false → before b a = false → a = b

export KeyOrder (before)

theorem KeyOrder.asymm {κ : Type} [KeyOrder κ] {a b : κ} (h : before a b = true) :
    before b a = false := by
  cases h' : before b a with
  | false => rfl
  | true => simpa [KeyOrder.irrefl a] using KeyOrder.trans h h'

instance : KeyOrder (List UInt8) where
  before a b := decide (a < b)
  irrefl a := by simp
  trans h h' := by
    simp only [decide_eq_true_eq] at *
    exact List.lt_trans h h'
  eq_of_neither h h' := by
    simp only [decide_eq_false_iff_not, List.not_lt] at *
    exact List.le_antisymm h' h

instance : KeyOrder String where
  before a b := decide (a < b)
  irrefl a := by simp
  trans h h' := by
    simp only [decide_eq_true_eq] at *
    exact String.lt_trans h h'
  eq_of_neither h h' := by
    simp only [decide_eq_false_iff_not, String.not_lt] at *
    exact String.le_antisymm h' h

section Entries

variable {κ ν : Type} [KeyOrder κ]

abbrev Ascending (es : List (κ × ν)) : Prop := es.Pairwise fun a b => before a.1 b.1 = true

def insertEntry (k : κ) (v : ν) : List (κ × ν) → List (κ × ν)
  | [] => [(k, v)]
  | (k', v') :: es =>
      if before k k' then (k, v) :: (k', v') :: es
      else if before k' k then (k', v') :: insertEntry k v es
      else (k, v) :: es

def eraseEntry (k : κ) : List (κ × ν) → List (κ × ν)
  | [] => []
  | (k', v') :: es =>
      if before k k' then (k', v') :: es
      else if before k' k then (k', v') :: eraseEntry k es
      else es

def findEntry (k : κ) : List (κ × ν) → Option ν
  | [] => none
  | (k', v') :: es =>
      if before k k' then none else if before k' k then findEntry k es else some v'

theorem mem_insertEntry {k : κ} {v : ν} {e : κ × ν} {es : List (κ × ν)}
    (h : e ∈ insertEntry k v es) : e = (k, v) ∨ e ∈ es := by
  induction es with
  | nil => exact .inl (by simpa [insertEntry] using h)
  | cons x es ih =>
      obtain ⟨k', v'⟩ := x
      simp only [insertEntry] at h
      split at h
      · simpa using h
      · split at h
        · rcases List.mem_cons.mp h with rfl | h
          · exact .inr List.mem_cons_self
          · exact (ih h).imp_right (List.mem_cons_of_mem _)
        · rcases List.mem_cons.mp h with rfl | h
          · exact .inl rfl
          · exact .inr (List.mem_cons_of_mem _ h)

theorem mem_of_mem_eraseEntry {k : κ} {e : κ × ν} {es : List (κ × ν)}
    (h : e ∈ eraseEntry k es) : e ∈ es := by
  induction es with
  | nil => simp [eraseEntry] at h
  | cons x es ih =>
      obtain ⟨k', v'⟩ := x
      simp only [eraseEntry] at h
      split at h
      · exact h
      · split at h
        · rcases List.mem_cons.mp h with rfl | h
          · exact List.mem_cons_self
          · exact List.mem_cons_of_mem _ (ih h)
        · exact List.mem_cons_of_mem _ h

theorem ascending_insertEntry {k : κ} {v : ν} {es : List (κ × ν)} (h : Ascending es) :
    Ascending (insertEntry k v es) := by
  induction es with
  | nil => exact List.pairwise_singleton ..
  | cons x es ih =>
      obtain ⟨k', v'⟩ := x
      obtain ⟨below, rest⟩ := List.pairwise_cons.mp h
      simp only [insertEntry]
      split
      · rename_i first
        refine List.pairwise_cons.mpr ⟨fun e he => ?_, h⟩
        rcases List.mem_cons.mp he with rfl | he
        · exact first
        · exact KeyOrder.trans first (below e he)
      · split
        · rename_i later
          refine List.pairwise_cons.mpr ⟨fun e he => ?_, ih rest⟩
          rcases mem_insertEntry he with rfl | he
          · exact later
          · exact below e he
        · rename_i early late
          have same : k = k' := KeyOrder.eq_of_neither (by simpa using early) (by simpa using late)
          exact List.pairwise_cons.mpr ⟨fun e he => same ▸ below e he, rest⟩

theorem ascending_eraseEntry {k : κ} {es : List (κ × ν)} (h : Ascending es) :
    Ascending (eraseEntry k es) := by
  induction es with
  | nil => exact h
  | cons x es ih =>
      obtain ⟨k', v'⟩ := x
      obtain ⟨below, rest⟩ := List.pairwise_cons.mp h
      simp only [eraseEntry]
      split
      · exact h
      · split
        · exact List.pairwise_cons.mpr
            ⟨fun e he => below e (mem_of_mem_eraseEntry he), ih rest⟩
        · exact rest

end Entries

structure OrderedMap (κ ν : Type) [KeyOrder κ] where
  entries : List (κ × ν)
  ascending : Ascending entries

namespace OrderedMap

variable {κ ν : Type} [KeyOrder κ]

instance [DecidableEq κ] [DecidableEq ν] : DecidableEq (OrderedMap κ ν) := fun m n =>
  if h : m.entries = n.entries then .isTrue (by cases m; cases n; simp_all)
  else .isFalse fun e => h (congrArg entries e)

def empty : OrderedMap κ ν := ⟨[], List.Pairwise.nil⟩

instance : Inhabited (OrderedMap κ ν) := ⟨empty⟩

def size (m : OrderedMap κ ν) : Nat := m.entries.length

def isEmpty (m : OrderedMap κ ν) : Bool := m.entries.isEmpty

def keys (m : OrderedMap κ ν) : List κ := m.entries.map Prod.fst

def get? (m : OrderedMap κ ν) (k : κ) : Option ν := findEntry k m.entries

def contains (m : OrderedMap κ ν) (k : κ) : Bool := (m.get? k).isSome

def insert (m : OrderedMap κ ν) (k : κ) (v : ν) : OrderedMap κ ν :=
  ⟨insertEntry k v m.entries, ascending_insertEntry m.ascending⟩

def erase (m : OrderedMap κ ν) (k : κ) : OrderedMap κ ν :=
  ⟨eraseEntry k m.entries, ascending_eraseEntry m.ascending⟩

/-- Later entries replace earlier ones under the same key. -/
def ofList (es : List (κ × ν)) : OrderedMap κ ν := es.foldl (fun m e => m.insert e.1 e.2) empty

/-- The entries from `low` up to, and without, `high`. -/
def range (m : OrderedMap κ ν) (low high : κ) : List (κ × ν) :=
  m.entries.filter fun e => !before e.1 low && before e.1 high

end OrderedMap
end RowStore
