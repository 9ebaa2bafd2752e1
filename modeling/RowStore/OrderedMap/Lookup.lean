import RowStore.OrderedMap

namespace RowStore

variable {κ ν : Type} [KeyOrder κ]

theorem KeyOrder.ne_of_before {a b : κ} (h : before a b = true) : a ≠ b := by
  rintro rfl
  simp [KeyOrder.irrefl] at h

theorem findEntry_insertEntry_self (k : κ) (v : ν) (es : List (κ × ν)) :
    findEntry k (insertEntry k v es) = some v := by
  induction es with
  | nil => simp [insertEntry, findEntry, KeyOrder.irrefl]
  | cons e es ih =>
      obtain ⟨k', v'⟩ := e
      simp only [insertEntry]
      split
      · simp [findEntry, KeyOrder.irrefl]
      · split
        · rename_i later
          simp [findEntry, later, KeyOrder.asymm later, ih]
        · simp [findEntry, KeyOrder.irrefl]

theorem findEntry_insertEntry_of_ne {k l : κ} (h : l ≠ k) (v : ν) (es : List (κ × ν)) :
    findEntry l (insertEntry k v es) = findEntry l es := by
  have apart : before l k = false → before k l = true := fun early =>
    (Bool.eq_false_or_eq_true (before k l)).resolve_right fun late =>
      h (KeyOrder.eq_of_neither early late)
  induction es with
  | nil =>
      cases early : before l k with
      | true => simp [insertEntry, findEntry, early]
      | false => simp [insertEntry, findEntry, early, apart early]
  | cons e es ih =>
      obtain ⟨k', v'⟩ := e
      simp only [insertEntry]
      split
      · rename_i first
        cases early : before l k with
        | true => simp [findEntry, early, KeyOrder.trans early first]
        | false => simp [findEntry, early, apart early]
      · split
        · simp only [findEntry, ih]
        · rename_i notFirst notLater
          have same : k = k' :=
            KeyOrder.eq_of_neither (by simpa using notFirst) (by simpa using notLater)
          subst same
          cases early : before l k with
          | true => simp [findEntry, early]
          | false => simp [findEntry, early, apart early]

theorem findEntry_eq_some_iff {k : κ} {v : ν} {es : List (κ × ν)} (asc : Ascending es) :
    findEntry k es = some v ↔ (k, v) ∈ es := by
  induction es with
  | nil => simp [findEntry]
  | cons e es ih =>
      obtain ⟨k', v'⟩ := e
      obtain ⟨below, rest⟩ := List.pairwise_cons.mp asc
      simp only [findEntry]
      split
      · rename_i first
        simp only [reduceCtorEq, List.mem_cons, Prod.mk.injEq, false_iff, not_or, not_and]
        refine ⟨fun same => absurd same (KeyOrder.ne_of_before first), fun member => ?_⟩
        exact KeyOrder.ne_of_before (KeyOrder.trans first (below _ member)) rfl
      · split
        · rename_i later
          rw [ih rest]
          simp [(KeyOrder.ne_of_before later).symm]
        · rename_i notFirst notLater
          have same : k = k' :=
            KeyOrder.eq_of_neither (by simpa using notFirst) (by simpa using notLater)
          subst same
          simp only [Option.some.injEq, List.mem_cons, Prod.mk.injEq, true_and]
          refine ⟨fun h => .inl h.symm, fun h => h.elim Eq.symm fun member => ?_⟩
          exact absurd rfl (KeyOrder.ne_of_before (below (k, v) member : before k k = true))

theorem insertEntry_of_later {k : κ} {v : ν} {es : List (κ × ν)}
    (later : ∀ e ∈ es, before e.1 k = true) : insertEntry k v es = es ++ [(k, v)] := by
  induction es with
  | nil => rfl
  | cons e es ih =>
      obtain ⟨first, rest⟩ := List.forall_mem_cons.mp later
      simp only [insertEntry, KeyOrder.asymm first, first, Bool.false_eq_true, if_false, if_true,
        ih rest, List.cons_append]

/-- Among other keys an insertion does not show. -/
theorem filter_insertEntry_of_not {p : κ → Bool} {k : κ} (other : p k = false) (v : ν)
    (es : List (κ × ν)) : ((insertEntry k v es).filter fun e => p e.1) = es.filter fun e => p e.1 := by
  induction es with
  | nil => simp [insertEntry, other]
  | cons e es ih =>
      obtain ⟨k', v'⟩ := e
      simp only [insertEntry]
      split
      · rw [List.filter_cons_of_neg (by simp [other])]
      · split
        · simp only [List.filter_cons, ih]
        · rename_i early late
          have same : k = k' := KeyOrder.eq_of_neither (by simpa using early) (by simpa using late)
          subst same
          rw [List.filter_cons_of_neg (by simp [other]), List.filter_cons_of_neg (by simp [other])]

namespace OrderedMap

@[simp] theorem get?_empty (k : κ) : (empty : OrderedMap κ ν).get? k = none := rfl

@[simp] theorem get?_insert_self (m : OrderedMap κ ν) (k : κ) (v : ν) :
    (m.insert k v).get? k = some v :=
  findEntry_insertEntry_self k v m.entries

theorem get?_insert_of_ne (m : OrderedMap κ ν) {k l : κ} (h : l ≠ k) (v : ν) :
    (m.insert k v).get? l = m.get? l :=
  findEntry_insertEntry_of_ne h v m.entries

theorem get?_eq_some_iff {m : OrderedMap κ ν} {k : κ} {v : ν} :
    m.get? k = some v ↔ (k, v) ∈ m.entries :=
  findEntry_eq_some_iff m.ascending

theorem ext_entries {m n : OrderedMap κ ν} (h : m.entries = n.entries) : m = n := by
  cases m
  cases n
  congr

theorem mem_insert {m : OrderedMap κ ν} {k : κ} {v : ν} {e : κ × ν}
    (h : e ∈ (m.insert k v).entries) : e = (k, v) ∨ e ∈ m.entries :=
  mem_insertEntry h

theorem mem_of_mem_erase {m : OrderedMap κ ν} {k : κ} {e : κ × ν}
    (h : e ∈ (m.erase k).entries) : e ∈ m.entries :=
  mem_of_mem_eraseEntry h

/-- Entries inserted one after another. -/
def insertAll (m : OrderedMap κ ν) (es : List (κ × ν)) : OrderedMap κ ν :=
  es.foldl (fun m e => m.insert e.1 e.2) m

@[simp] theorem insertAll_nil (m : OrderedMap κ ν) : m.insertAll [] = m := rfl

@[simp] theorem insertAll_cons (m : OrderedMap κ ν) (e : κ × ν) (es : List (κ × ν)) :
    m.insertAll (e :: es) = (m.insert e.1 e.2).insertAll es := rfl

theorem ofList_eq_insertAll (es : List (κ × ν)) : ofList es = empty.insertAll es := rfl

theorem insertAll_append (m : OrderedMap κ ν) (es more : List (κ × ν)) :
    m.insertAll (es ++ more) = (m.insertAll es).insertAll more :=
  List.foldl_append

/-- Inserting entries in ascending order after those that are there appends them. -/
theorem entries_insertAll_of_ascending {m : OrderedMap κ ν} {es : List (κ × ν)}
    (asc : Ascending (m.entries ++ es)) : (m.insertAll es).entries = m.entries ++ es := by
  induction es generalizing m with
  | nil => simp
  | cons e es ih =>
      have last : (m.insert e.1 e.2).entries = m.entries ++ [e] :=
        insertEntry_of_later fun e' he' =>
          (List.pairwise_append.mp asc).2.2 e' he' e List.mem_cons_self
      have asc' : Ascending ((m.insert e.1 e.2).entries ++ es) := by
        rw [last, List.append_assoc]
        exact asc
      rw [insertAll_cons, ih asc', last, List.append_assoc, List.singleton_append]

/-- A map is what its own entries come to. -/
theorem ofList_entries (m : OrderedMap κ ν) : ofList m.entries = m :=
  ext_entries (entries_insertAll_of_ascending (m := empty) m.ascending)

/-- What shows under a key is what was last inserted under it, or else what was there before. -/
theorem get?_insertAll [DecidableEq κ] (m : OrderedMap κ ν) (es : List (κ × ν)) (k : κ) :
    (m.insertAll es).get? k =
      ((es.filter (·.1 = k)).getLast?.map Prod.snd).or (m.get? k) := by
  induction es generalizing m with
  | nil => rfl
  | cons e es ih =>
      rw [insertAll_cons, ih]
      by_cases same : e.1 = k
      · subst same
        rw [List.filter_cons_of_pos (by simp), List.getLast?_cons, get?_insert_self]
        cases (es.filter (·.1 = e.1)).getLast? <;> rfl
      · rw [List.filter_cons_of_neg (by simpa using same), get?_insert_of_ne m (Ne.symm same)]

theorem get?_ofList [DecidableEq κ] (es : List (κ × ν)) (k : κ) :
    (ofList es).get? k = (es.filter (·.1 = k)).getLast?.map Prod.snd := by
  rw [ofList_eq_insertAll, get?_insertAll, get?_empty, Option.or_none]

theorem mem_of_mem_ofList [DecidableEq κ] {es : List (κ × ν)} {e : κ × ν}
    (h : e ∈ (ofList es).entries) : e ∈ es := by
  have found : (ofList es).get? e.1 = some e.2 := get?_eq_some_iff.mpr h
  rw [get?_ofList, Option.map_eq_some_iff] at found
  obtain ⟨last, chosen, value⟩ := found
  obtain ⟨member, key⟩ := List.mem_filter.mp (List.mem_of_getLast? chosen)
  exact Prod.ext (of_decide_eq_true key) value ▸ member

theorem ascending_range (m : OrderedMap κ ν) (low high : κ) : Ascending (m.range low high) :=
  m.ascending.filter _

theorem range_insert_of_outside (m : OrderedMap κ ν) {low high k : κ}
    (outside : (!before k low && before k high) = false) (v : ν) :
    (m.insert k v).range low high = m.range low high :=
  filter_insertEntry_of_not (p := fun k => !before k low && before k high) outside v m.entries

theorem mem_keys_range_iff {m : OrderedMap κ ν} {low high k : κ} :
    k ∈ (m.range low high).map Prod.fst ↔
      (!before k low && before k high) = true ∧ (m.get? k).isSome := by
  simp only [List.mem_map, Prod.exists, exists_and_right, exists_eq_right, Option.isSome_iff_exists,
    get?_eq_some_iff, range, List.mem_filter]
  exact and_comm

end OrderedMap
end RowStore
