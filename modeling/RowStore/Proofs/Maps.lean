import Mathlib.Data.List.Dedup
import Mathlib.Data.List.Sort
import RowStore.OrderedMap.Lookup

namespace RowStore.OrderedMap

variable {κ ν : Type} [KeyOrder κ]

theorem ext_get? {m n : OrderedMap κ ν} (same : ∀ k, m.get? k = n.get? k) : m = n := by
  have irrefl : Std.Irrefl fun a b : κ × ν => before a.1 b.1 = true :=
    ⟨fun a => by simp [KeyOrder.irrefl]⟩
  have antisymm : Std.Antisymm fun a b : κ × ν => before a.1 b.1 = true :=
    ⟨fun a b first last => nomatch (KeyOrder.asymm first).symm.trans last⟩
  refine ext_entries (List.Pairwise.eq_of_mem_iff m.ascending n.ascending fun e => ?_)
  rw [← get?_eq_some_iff, ← get?_eq_some_iff, same]

theorem contains_insert_eq_false_iff {m : OrderedMap κ ν} {k l : κ} {v : ν} :
    (m.insert k v).contains l = false ↔ l ≠ k ∧ m.contains l = false := by
  unfold contains
  constructor
  · intro absent
    have other : l ≠ k := by
      rintro rfl
      simp at absent
    rw [get?_insert_of_ne m other] at absent
    exact ⟨other, absent⟩
  · rintro ⟨other, absent⟩
    rw [get?_insert_of_ne m other]
    exact absent

theorem mem_keys_iff {m : OrderedMap κ ν} {k : κ} : k ∈ m.keys ↔ ∃ v, m.get? k = some v := by
  simp only [keys, List.mem_map, Prod.exists, exists_and_right, exists_eq_right, get?_eq_some_iff]

theorem nodup_keys (m : OrderedMap κ ν) : m.keys.Nodup :=
  List.pairwise_map.mpr (m.ascending.imp KeyOrder.ne_of_before)

section Repeated

variable [DecidableEq κ] {es : List (κ × ν)} {k : κ} {v : ν}

/-- What shows under a key is the last of its entries. -/
theorem get?_ofList_eq_some_iff :
    (ofList es).get? k = some v ↔
      ∃ before behind, es = before ++ (k, v) :: behind ∧ k ∉ behind.map Prod.fst := by
  rw [get?_ofList, Option.map_eq_some_iff, List.getLast?_eq_head?_reverse, ← List.filter_reverse,
    List.head?_filter]
  constructor
  · rintro ⟨e, found, rfl⟩
    obtain ⟨own, behind, before, split, others⟩ := List.find?_eq_some_iff_append.mp found
    obtain rfl := of_decide_eq_true own
    refine ⟨before.reverse, behind.reverse, ?_, fun member => ?_⟩
    · rw [← List.reverse_reverse es, split]
      simp
    · obtain ⟨d, later, same⟩ := List.mem_map.mp member
      have other := others d (List.mem_reverse.mp later)
      simp [same] at other
  · rintro ⟨before, behind, rfl, last⟩
    refine ⟨(k, v), List.find?_eq_some_iff_append.mpr ⟨decide_eq_true rfl, behind.reverse,
      before.reverse, by simp, fun d later => ?_⟩, rfl⟩
    have other : d.1 ≠ k := fun same =>
      last (List.mem_map.mpr ⟨d, List.mem_reverse.mp later, same⟩)
    simp [other]

theorem mem_keys_ofList_iff : k ∈ (ofList es).keys ↔ k ∈ es.map Prod.fst := by
  constructor
  · intro member
    obtain ⟨e, inside, rfl⟩ := List.mem_map.mp member
    exact List.mem_map_of_mem (mem_of_mem_ofList inside)
  · intro member
    obtain ⟨e, inside, rfl⟩ := List.mem_map.mp member
    have own : e ∈ es.filter (·.1 = e.1) := List.mem_filter.mpr ⟨inside, decide_eq_true rfl⟩
    have last := List.getLast?_eq_some_getLast (List.ne_nil_of_mem own)
    exact mem_keys_iff.mpr ⟨_, by rw [get?_ofList, last, Option.map_some]⟩

/-- There is one entry for each key, however often it is given. -/
theorem length_entries_ofList (es : List (κ × ν)) :
    (ofList es).entries.length = (es.map Prod.fst).dedup.length := by
  have perm : (ofList es).keys.Perm (es.map Prod.fst).dedup :=
    (List.perm_ext_iff_of_nodup (nodup_keys _) (List.nodup_dedup _)).mpr fun k => by
      rw [mem_keys_ofList_iff, List.mem_dedup]
  rw [← perm.length_eq, keys, List.length_map]

end Repeated

section Distinct

variable [DecidableEq κ] {es fs : List (κ × ν)} (distinct : (es.map Prod.fst).Nodup)

include distinct

theorem mem_ofList_iff {e : κ × ν} : e ∈ (ofList es).entries ↔ e ∈ es := by
  refine ⟨mem_of_mem_ofList, fun member => ?_⟩
  have own : e ∈ es.filter (·.1 = e.1) := List.mem_filter.mpr ⟨member, decide_eq_true rfl⟩
  have last := List.getLast?_eq_some_getLast (List.ne_nil_of_mem own)
  obtain ⟨inside, key⟩ := List.mem_filter.mp (List.mem_of_getLast? last)
  have same := List.inj_on_of_nodup_map distinct inside member (of_decide_eq_true key)
  refine get?_eq_some_iff.mp ?_
  rw [get?_ofList, last, same, Option.map_some]

theorem entries_ofList_perm : (ofList es).entries.Perm es := by
  have apart : (ofList es).entries.Nodup := (ofList es).ascending.imp fun first same => by
    rw [same, KeyOrder.irrefl] at first
    cases first
  exact (List.perm_ext_iff_of_nodup apart (.of_map _ distinct)).mpr fun _ =>
    mem_ofList_iff distinct

theorem ofList_eq_of_perm (perm : es.Perm fs) : ofList es = ofList fs := by
  have distinct' : (fs.map Prod.fst).Nodup := (perm.map Prod.fst).nodup_iff.mp distinct
  refine ext_get? fun k => Option.ext fun v => ?_
  rw [get?_eq_some_iff, get?_eq_some_iff, mem_ofList_iff distinct, mem_ofList_iff distinct',
    perm.mem_iff]

end Distinct

end RowStore.OrderedMap
