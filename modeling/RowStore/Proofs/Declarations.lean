import Mathlib.Data.List.Perm.Subperm
import RowStore.Proofs.Isolation
import RowStore.Proofs.Qualifying

namespace RowStore

section Rearranged

variable {α : Type}

/-- The members of a list at the given places. -/
def rearranged (order : List Nat) (xs : List α) : List α := order.filterMap (xs[·]?)

theorem getElem?_rearranged {order : List Nat} {xs : List α} (inside : ∀ n ∈ order, n < xs.length)
    (k : Nat) : (rearranged order xs)[k]? = order[k]?.bind (xs[·]?) := by
  induction order generalizing k with
  | nil => rfl
  | cons n order ih =>
      obtain ⟨first, rest⟩ := List.forall_mem_cons.mp inside
      have taken : xs[n]? = some xs[n] := List.getElem?_eq_getElem first
      rw [rearranged, List.filterMap_cons_some taken]
      cases k with
      | zero => simp [taken]
      | succ k => exact ih rest k

theorem length_rearranged {order : List Nat} {xs : List α}
    (inside : ∀ n ∈ order, n < xs.length) : (rearranged order xs).length = order.length := by
  rw [rearranged, List.length_filterMap_eq_countP, List.countP_eq_length]
  intro n member
  rw [List.getElem?_eq_getElem (inside n member)]
  rfl

theorem map_getElem?_eq {order : List Nat} {xs : List α} (inside : ∀ n ∈ order, n < xs.length) :
    order.map (xs[·]?) = (rearranged order xs).map some := by
  induction order with
  | nil => rfl
  | cons n order ih =>
      obtain ⟨first, rest⟩ := List.forall_mem_cons.mp inside
      have taken : xs[n]? = some xs[n] := List.getElem?_eq_getElem first
      rw [rearranged, List.filterMap_cons_some taken, List.map_cons, List.map_cons, taken, ih rest]
      rfl

theorem rearranged_range (xs : List α) : rearranged (List.range xs.length) xs = xs := by
  apply List.ext_getElem?
  intro k
  rw [getElem?_rearranged fun n member => List.mem_range.mp member]
  by_cases inside : k < xs.length
  · simp [inside]
  · simp [Nat.le_of_not_lt inside]

theorem lt_of_mem_order {order : List Nat} {n : Nat} (perm : order.Perm (List.range n)) :
    ∀ k ∈ order, k < n := by
  intro k member
  exact List.mem_range.mp (perm.mem_iff.mp member)

/-- What stands where a name stands after rearranging stood under the same place before. -/
theorem getElem?_rearranged_idxOf {names : List String} (distinct : names.Nodup)
    {order : List Nat} (perm : order.Perm (List.range names.length)) {xs : List α}
    (size : xs.length = names.length) {k : Nat} {name : String} (there : names[k]? = some name) :
    (rearranged order xs)[(rearranged order names).idxOf name]? = xs[k]? := by
  have inside := lt_of_mem_order perm
  obtain ⟨bound, found⟩ := List.getElem?_eq_some_iff.mp there
  have place : k ∈ order := perm.mem_iff.mpr (List.mem_range.mpr bound)
  have member : name ∈ rearranged order names := List.mem_filterMap.mpr ⟨k, place, there⟩
  have named := List.getElem?_idxOf member
  rw [getElem?_rearranged inside, Option.bind_eq_some_iff] at named
  obtain ⟨l, ordered, same⟩ := named
  obtain ⟨bound', found'⟩ := List.getElem?_eq_some_iff.mp same
  obtain rfl : l = k := (distinct.getElem_inj_iff).mp (found'.trans found.symm)
  rw [getElem?_rearranged fun n member => size ▸ inside n member, ordered, Option.bind_some]

theorem perm_rearranged {order : List Nat} {xs : List α}
    (perm : order.Perm (List.range xs.length)) : (rearranged order xs).Perm xs := by
  have moved := perm.filterMap (xs[·]?)
  have all := rearranged_range xs
  unfold rearranged at all ⊢
  rwa [all] at moved

end Rearranged

namespace Schema

theorem find?_of_mem {s : Schema} {name : String} (known : name ∈ s.names) :
    ∃ c, s.find? name = some (s.names.idxOf name, c) := by
  obtain ⟨t, cs⟩ := s
  induction cs with
  | nil => cases known
  | cons c cs ih =>
      have names : names ⟨t, c :: cs⟩ = c.name :: names ⟨t, cs⟩ := rfl
      rw [find?_cons, names]
      by_cases same : c.name = name
      · rw [if_pos same, same, List.idxOf_cons_self]
        exact ⟨c, rfl⟩
      · have later : name ∈ Schema.names ⟨t, cs⟩ := by
          rw [names] at known
          exact (List.mem_cons.mp known).resolve_left (Ne.symm same)
        obtain ⟨d, found⟩ := ih later
        rw [if_neg same, found, List.idxOf_cons_ne _ same]
        exact ⟨d, rfl⟩

/-- The names that the literals of a tuple stand for: those declared, or else all in their order. -/
def listed (s : Schema) (columns : List String) : List String :=
  if columns = [] then s.names else columns

theorem perm_listed {s : Schema} {columns : List String}
    (accepted : columns = [] ∨ columns.Perm s.names) : (s.listed columns).Perm s.names := by
  unfold listed
  split
  · exact List.Perm.refl _
  · rename_i declared
    exact accepted.resolve_left declared

end Schema

namespace Insertion

/-- What is wrong with a declaration: the number of its columns, or else the first name that is
unknown or was given before. -/
inductive Misdeclared (table : String) (s : Schema) (columns : List String) : QueryError → Prop
  | arity : columns.length ≠ s.columns.length →
      Misdeclared table s columns
        (.execution (.arityMismatch table s.columns.length columns.length))
  | unknown {first : List String} {name : String} {rest : List String} :
      columns = first ++ name :: rest → first.Nodup → (∀ x ∈ first, x ∈ s.names) →
      name ∉ s.names → Misdeclared table s columns (.catalog (.columnNotFound name))
  | repeated {first : List String} {name : String} {rest : List String} :
      columns = first ++ name :: rest → first.Nodup → (∀ x ∈ first, x ∈ s.names) →
      name ∈ first → Misdeclared table s columns (.catalog (.duplicateColumn table name))

/-- Looking up names one after another stops at the first that is unknown or was given before. -/
theorem declaredOrdinals_cases (table : String) (s : Schema) {before : List String}
    (distinct : before.Nodup) (known : ∀ x ∈ before, x ∈ s.names) (names : List String) :
    ((before ++ names).Nodup ∧ (∀ x ∈ before ++ names, x ∈ s.names) ∧
      declaredOrdinals table s (before.map s.names.idxOf).reverse names =
        .ok ((before ++ names).map s.names.idxOf)) ∨
    ∃ e first name rest, declaredOrdinals table s (before.map s.names.idxOf).reverse names =
        .error e ∧ before ++ names = first ++ name :: rest ∧ first.Nodup ∧
      (∀ x ∈ first, x ∈ s.names) ∧
      (name ∉ s.names ∧ e = .catalog (.columnNotFound name) ∨
        name ∈ first ∧ e = .catalog (.duplicateColumn table name)) := by
  induction names generalizing before with
  | nil =>
      left
      rw [List.append_nil]
      refine ⟨distinct, known, ?_⟩
      rw [declaredOrdinals, List.reverse_reverse]
  | cons name names ih =>
      by_cases there : name ∈ s.names
      · obtain ⟨c, found⟩ := Schema.find?_of_mem there
        have seen : (before.map s.names.idxOf).reverse.contains (s.names.idxOf name) = true ↔
            name ∈ before := by
          rw [List.contains_iff_mem, List.mem_reverse, List.mem_map]
          constructor
          · rintro ⟨x, member, same⟩
            obtain rfl := (List.idxOf_inj (known x member)).mp same
            exact member
          · intro member
            exact ⟨name, member, rfl⟩
        rw [declaredOrdinals, found]
        by_cases again : name ∈ before
        · right
          refine ⟨_, before, name, names, if_pos (seen.mpr again), rfl, distinct, known, ?_⟩
          exact .inr ⟨again, rfl⟩
        · have next : s.names.idxOf name :: (before.map s.names.idxOf).reverse =
              ((before ++ [name]).map s.names.idxOf).reverse := by
            rw [List.map_append, List.reverse_append]
            rfl
          have distinct' : (before ++ [name]).Nodup := by
            rw [List.nodup_append_comm]
            exact List.nodup_cons.mpr ⟨again, distinct⟩
          have known' : ∀ x ∈ before ++ [name], x ∈ s.names := by
            intro x member
            rcases List.mem_append.mp member with earlier | last
            · exact known x earlier
            · rwa [List.mem_singleton.mp last]
          have goesOn := ih distinct' known'
          rw [List.append_assoc, List.singleton_append] at goesOn
          simp only [if_neg (seen.not.mpr again), next]
          exact goesOn
      · right
        refine ⟨_, before, name, names, ?_, rfl, distinct, known, .inl ⟨there, rfl⟩⟩
        rw [declaredOrdinals, Schema.find?_eq_none_iff.mpr there]

section Positions

variable {i : Insertion} {s : Schema}

theorem length_names (s : Schema) : s.names.length = s.columns.length := List.length_map _

/-- As many names as there are columns, all known and none twice, are all of them. -/
theorem perm_of_nodup {columns : List String} (distinct : columns.Nodup)
    (known : ∀ x ∈ columns, x ∈ s.names) (count : columns.length = s.columns.length) :
    columns.Perm s.names := by
  apply (distinct.subperm known).perm_of_length_le
  exact Nat.le_of_eq ((length_names s).trans count.symm)

/-- The places of the declared names say where each column's name stands. -/
theorem filterMap_idxOf? (distinct : s.names.Nodup) {columns : List String}
    (perm : columns.Perm s.names) :
    ((List.range s.columns.length).filterMap fun k =>
      (columns.map s.names.idxOf).idxOf? k) = s.names.map columns.idxOf := by
  have all : s.names.map columns.idxOf =
      (List.range s.columns.length).filterMap fun k => (s.names[k]?).map columns.idxOf := by
    conv_lhs => rw [← rearranged_range s.names, length_names]
    rw [rearranged, List.map_filterMap]
  rw [all]
  -- The places form a permutation, and looking up a column among them goes the other way.
  apply List.filterMap_congr
  intro k bound
  rw [List.mem_range, ← length_names] at bound
  have member : s.names[k] ∈ columns := perm.mem_iff.mpr (List.getElem_mem bound)
  have place := List.idxOf_lt_length_of_mem member
  have found : columns[columns.idxOf s.names[k]] = s.names[k] := List.getElem_idxOf place
  have column : s.names.idxOf s.names[k] = k := distinct.idxOf_getElem k bound
  rw [List.getElem?_eq_getElem bound, Option.map_some, List.idxOf?_eq_some_iff]
  refine ⟨by rwa [List.length_map], ?_, ?_⟩
  · rw [List.getElem_map, found, column]
  · intro l earlier same
    rw [List.getElem_map] at same
    have short : l < columns.length := Nat.lt_trans earlier place
    have known : columns[l] ∈ s.names := perm.mem_iff.mp (List.getElem_mem short)
    have name : columns[l] = s.names[k] := by
      rw [← List.idxOf_inj known, same, column]
    have unique : l = columns.idxOf s.names[k] := by
      apply (perm.nodup_iff.mpr distinct).getElem_inj_iff.mp
      rw [name, found]
    omega

theorem positions_nil (undeclared : i.columns = []) :
    i.positions s = .ok (List.range s.columns.length) := by
  rw [positions, if_pos undeclared]
  rfl

/-- A declaration is a permutation of the columns, or it is refused for what is wrong with it. -/
theorem positions_cases (distinct : s.names.Nodup) (declared : i.columns ≠ []) :
    (i.columns.Perm s.names ∧ i.positions s = .ok (s.names.map i.columns.idxOf)) ∨
      ¬ i.columns.Perm s.names ∧
        ∃ e, i.positions s = .error e ∧ Misdeclared i.table s i.columns e := by
  unfold positions
  rw [if_neg declared]
  by_cases count : i.columns.length = s.columns.length
  · have outcome :=
      declaredOrdinals_cases i.table s List.nodup_nil (List.forall_mem_nil _) i.columns
    rw [List.nil_append, List.map_nil, List.reverse_nil] at outcome
    rcases outcome with
      ⟨unique, known, found⟩ | ⟨e, first, name, rest, failed, split, unique, known, why⟩
    · have perm := perm_of_nodup unique known count
      left
      refine ⟨perm, ?_⟩
      rw [if_neg (not_not_intro count), found, ← filterMap_idxOf? distinct perm]
      rfl
    · right
      rw [if_neg (not_not_intro count), failed]
      refine ⟨?_, e, rfl, ?_⟩
      · intro perm
        have nodup := perm.nodup_iff.mpr distinct
        rw [split] at nodup perm
        rcases why with ⟨unknown, _⟩ | ⟨again, _⟩
        · exact unknown (perm.mem_iff.mp (List.mem_append_right _ List.mem_cons_self))
        · exact (List.disjoint_of_nodup_append nodup) again List.mem_cons_self
      · rcases why with ⟨unknown, rfl⟩ | ⟨again, rfl⟩
        · exact .unknown split unique known unknown
        · exact .repeated split unique known again
  · right
    rw [if_pos count]
    refine ⟨?_, _, rfl, .arity count⟩
    intro perm
    apply count
    rw [perm.length_eq, length_names]

theorem positions_of_perm (distinct : s.names.Nodup) (declared : i.columns ≠ [])
    (perm : i.columns.Perm s.names) : i.positions s = .ok (s.names.map i.columns.idxOf) := by
  rcases positions_cases distinct declared with ⟨_, found⟩ | ⟨other, _⟩
  · exact found
  · exact absurd perm other

theorem map_idxOf_names (distinct : s.names.Nodup) :
    s.names.map s.names.idxOf = List.range s.columns.length := by
  rw [← length_names]
  apply List.ext_getElem
  · rw [List.length_map, List.length_range]
  · intro k bound _
    rw [List.length_map] at bound
    rw [List.getElem_map, List.getElem_range, distinct.idxOf_getElem k bound]

/-- Every column takes its value from where its name stands among those listed. -/
theorem positions_eq_ok_iff (distinct : s.names.Nodup) {places : List Nat} :
    i.positions s = .ok places ↔
      (i.columns = [] ∨ i.columns.Perm s.names) ∧
        places = s.names.map (s.listed i.columns).idxOf := by
  by_cases undeclared : i.columns = []
  · rw [positions_nil undeclared, Schema.listed, if_pos undeclared, map_idxOf_names distinct,
      Except.ok.injEq, eq_comm]
    exact ⟨fun same => ⟨.inl undeclared, same⟩, And.right⟩
  · rw [Schema.listed, if_neg undeclared]
    rcases positions_cases distinct undeclared with ⟨perm, found⟩ | ⟨other, e, failed, _⟩
    · rw [found, Except.ok.injEq, eq_comm]
      exact ⟨fun same => ⟨.inr perm, same⟩, And.right⟩
    · rw [failed]
      exact ⟨nofun, fun ⟨accepted, _⟩ => absurd accepted (by simp [undeclared, other])⟩

theorem length_positions (distinct : s.names.Nodup) {places : List Nat}
    (declared : i.positions s = .ok places) : places.length = s.columns.length := by
  obtain ⟨_, rfl⟩ := (positions_eq_ok_iff distinct).mp declared
  rw [List.length_map, length_names]

end Positions

theorem target_of_known {c : Catalog} {i : Insertion} {s : Schema}
    (known : c.table i.table = .ok s) :
    i.target c =
      (do
        let positions ← i.positions s
        return ⟨s, positions, ← i.keyColumn s⟩) := by
  rw [target, known]
  rfl

section Tuples

variable {i j : Insertion} {t u : Target} {tuple tuple' literals : List Value}

/-- Each column takes its value from the literal at its position. -/
theorem coerced_eq (taken : t.positions.map (tuple[·]?) = literals.map some) :
    coerced t tuple =
      (t.schema.columns.zip literals).mapM fun e => (coerce e.1 e.2).mapError .execution := by
  obtain ⟨⟨table, columns⟩, positions, key⟩ := t
  unfold coerced
  simp only at taken ⊢
  induction positions generalizing columns literals with
  | nil =>
      obtain rfl : literals = [] := List.map_eq_nil_iff.mp taken.symm
      rw [List.zip_nil_right, List.zip_nil_right]
      rfl
  | cons p ps ih =>
      cases literals with
      | nil => cases taken
      | cons v vs =>
          obtain ⟨first, rest⟩ := List.cons.inj taken
          cases columns with
          | nil => rfl
          | cons c cs =>
              have there : tuple[p]? = some v := first
              have picked : pick tuple c p = (coerce c v).mapError .execution := by
                rw [pick, there]
              rw [List.zip_cons_cons, List.zip_cons_cons, List.mapM_cons, List.mapM_cons, picked,
                ih cs rest]

/-- Two tuples of a table with the same literals for each column make the same entry. -/
theorem entry_eq_of_taken (table : i.table = j.table) (schema : t.schema = u.schema)
    (key : t.key = u.key) (left : t.positions.map (tuple[·]?) = literals.map some)
    (right : u.positions.map (tuple'[·]?) = literals.map some)
    (count : tuple.length = t.positions.length) (count' : tuple'.length = u.positions.length) :
    i.entry t tuple = j.entry u tuple' := by
  have same : coerced t tuple = coerced u tuple' := by
    rw [coerced_eq left, coerced_eq right, schema]
  unfold entry
  rw [if_neg (not_not_intro count), if_neg (not_not_intro count'), same, table, schema, key]

variable {τ : Type} [Storage τ]

/-- Writing depends on the entries of the tuples alone. -/
theorem write_map {f : List Value → List Value} {tuples : List (List Value)}
    (each : ∀ tuple ∈ tuples, i.entry t (f tuple) = j.entry u tuple) (store : τ) :
    i.write t (tuples.map f) store = j.write u tuples store := by
  induction tuples generalizing store with
  | nil => rfl
  | cons tuple tuples ih =>
      obtain ⟨first, rest⟩ := List.forall_mem_cons.mp each
      simp only [List.map_cons, write, first, ih rest]

end Tuples

section Order

variable {s : Schema} {order : List Nat}

/-- A rearranged tuple has the same literal for each column as the tuple itself. -/
theorem taken_rearranged (distinct : s.names.Nodup)
    (perm : order.Perm (List.range s.columns.length)) {tuple : List Value}
    (count : tuple.length = s.columns.length) :
    (s.names.map (rearranged order s.names).idxOf).map ((rearranged order tuple)[·]?) =
      tuple.map some := by
  have perm' : order.Perm (List.range s.names.length) := by rwa [length_names]
  have size : tuple.length = s.names.length := count.trans (length_names s).symm
  apply List.ext_getElem?
  intro k
  rw [List.getElem?_map, List.getElem?_map, List.getElem?_map, Option.map_map]
  cases there : s.names[k]? with
  | none =>
      have outside : tuple.length ≤ k := size ▸ List.getElem?_eq_none_iff.mp there
      rw [List.getElem?_eq_none outside]
      rfl
  | some name =>
      have bound : k < tuple.length := size ▸ (List.getElem?_eq_some_iff.mp there).1
      have same := getElem?_rearranged_idxOf distinct perm' size there
      rw [List.getElem?_eq_getElem bound] at same ⊢
      exact congrArg some same

theorem taken_in_order {tuple : List Value} (count : tuple.length = s.columns.length) :
    (List.range s.columns.length).map (tuple[·]?) = tuple.map some := by
  rw [← count, map_getElem?_eq fun n member => List.mem_range.mp member, rearranged_range]

/-- A rearranged tuple makes the entry that the tuple itself makes. -/
theorem entry_rearranged {i j : Insertion} (table : i.table = j.table) (distinct : s.names.Nodup)
    (perm : order.Perm (List.range s.columns.length)) (key : Column) {tuple : List Value}
    (count : tuple.length = s.columns.length) :
    i.entry ⟨s, s.names.map (rearranged order s.names).idxOf, key⟩ (rearranged order tuple) =
      j.entry ⟨s, List.range s.columns.length, key⟩ tuple := by
  have moves := taken_rearranged distinct perm count
  have stays := taken_in_order count
  refine entry_eq_of_taken table rfl rfl moves stays ?_ ?_
  · rw [List.length_map, length_names, length_rearranged, perm.length_eq, List.length_range]
    intro n inside
    rw [count]
    exact lt_of_mem_order perm n inside
  · rw [count, List.length_range]

end Order

end Insertion

namespace Plan

variable {τ : Type} [Storage τ] {c : Catalog} {i : Insertion} {s : Schema}

theorem start_of_refused {e : QueryError} (refused : i.target c = .error e) (state : Inserting)
    (w : Surroundings τ Unit) :
    (insertion i : Plan Empty).start c state w = (.error (.reported e), state, w) := by
  simp only [start, refused]
  rfl

/-- Two INSERTs into one table, whose tuples make the same entries, come to the same. -/
theorem start_eq_of_entries {j : Insertion} (table : i.table = j.table)
    (known : c.table j.table = .ok s) {ps qs : List Nat} (left : i.positions s = .ok ps)
    (right : j.positions s = .ok qs) {f : List Value → List Value}
    (tuples : i.tuples = j.tuples.map f)
    (each : ∀ key, ∀ tuple ∈ j.tuples,
      i.entry ⟨s, ps, key⟩ (f tuple) = j.entry ⟨s, qs, key⟩ tuple)
    (state : Inserting) (w : Surroundings τ Unit) :
    (insertion i : Plan Empty).start c state w = (insertion j : Plan Empty).start c state w := by
  have key : i.keyColumn s = j.keyColumn s := by
    rw [Insertion.keyColumn, Insertion.keyColumn, table]
  have leftTarget := Insertion.target_of_known (table ▸ known)
  have rightTarget := Insertion.target_of_known known
  rw [left, key] at leftTarget
  rw [right] at rightTarget
  cases keyed : j.keyColumn s with
  | error e =>
      rw [keyed] at leftTarget rightTarget
      exact (start_of_refused leftTarget state w).trans (start_of_refused rightTarget state w).symm
  | ok key =>
      rw [keyed] at leftTarget rightTarget
      have leftTarget : i.target c = .ok ⟨s, ps, key⟩ := leftTarget
      have rightTarget : j.target c = .ok ⟨s, qs, key⟩ := rightTarget
      have writes := Insertion.write_map (each key) w.store
      simp only [start, leftTarget, rightTarget, tuples, writes]
      rfl

/-- Declaring the columns in another order, and writing every tuple in it, changes nothing. -/
theorem start_rearranged (valid : s.fault? = none) (known : c.table i.table = .ok s)
    {order : List Nat} (perm : order.Perm (List.range s.columns.length))
    {tuples : List (List Value)} (counts : ∀ tuple ∈ tuples, tuple.length = s.columns.length)
    (state : Inserting) (w : Surroundings τ Unit) :
    (insertion ⟨i.table, rearranged order s.names, tuples.map (rearranged order)⟩ :
      Plan Empty).start c state w =
    (insertion ⟨i.table, [], tuples⟩ : Plan Empty).start c state w := by
  have distinct := (Schema.names_of_valid valid).1
  have moved : (rearranged order s.names).Perm s.names :=
    perm_rearranged (by rwa [Insertion.length_names])
  have declared : rearranged order s.names ≠ [] := by
    intro empty
    rw [empty] at moved
    exact (Schema.fault?_eq_none_iff.mp valid).2.2.1 (List.map_eq_nil_iff.mp moved.symm.eq_nil)
  let reordered : Insertion := ⟨i.table, rearranged order s.names, tuples.map (rearranged order)⟩
  let plain : Insertion := ⟨i.table, [], tuples⟩
  have left : reordered.positions s = .ok (s.names.map (rearranged order s.names).idxOf) :=
    Insertion.positions_of_perm distinct declared moved
  have right : plain.positions s = .ok (List.range s.columns.length) :=
    Insertion.positions_nil rfl
  apply start_eq_of_entries (i := reordered) (j := plain) rfl known left right rfl
  intro key tuple member
  exact Insertion.entry_rearranged rfl distinct perm key (counts tuple member)

/-- A declaration is taken if it is a permutation of the names of the columns, and otherwise refused
before anything is written. With the columns in another order, and the literals of every tuple in
that order too, an INSERT comes to the same as without a declaration: outcome, count and store. -/
theorem column_order_is_immaterial (valid : c.Validated) (known : c.table i.table = .ok s) :
    (i.columns ≠ [] →
      ((∃ places, i.positions s = .ok places) ↔ i.columns.Perm s.names) ∧
      (¬ i.columns.Perm s.names → ∃ e, Insertion.Misdeclared i.table s i.columns e ∧
        ∀ (state : Inserting) (w : Surroundings τ Unit),
          (insertion i : Plan Empty).start c state w = (.error (.reported e), state, w))) ∧
      ∀ order : List Nat, order.Perm (List.range s.columns.length) →
        ∀ tuples : List (List Value), (∀ tuple ∈ tuples, tuple.length = s.columns.length) →
          ∀ (state : Inserting) (w : Surroundings τ Unit),
            (insertion ⟨i.table, rearranged order s.names, tuples.map (rearranged order)⟩ :
              Plan Empty).start c state w =
            (insertion ⟨i.table, [], tuples⟩ : Plan Empty).start c state w := by
  obtain ⟨_, sound⟩ := valid _ s known
  have distinct := (Schema.names_of_valid sound).1
  constructor
  · intro declared
    rcases Insertion.positions_cases distinct declared with ⟨perm, found⟩ | ⟨other, e, failed, why⟩
    · exact ⟨⟨fun _ => perm, fun _ => ⟨_, found⟩⟩, fun other => absurd perm other⟩
    · refine ⟨⟨fun ⟨places, found⟩ => ?_, fun perm => absurd perm other⟩, fun _ => ⟨e, why, ?_⟩⟩
      · rw [failed] at found
        cases found
      · intro state w
        apply start_of_refused
        rw [Insertion.target_of_known known, failed]
        rfl
  · intro order perm tuples counts state w
    exact start_rearranged sound known perm counts state w

/-- With the first column named last, the second tuple fails as it does in the order of the table,
and the first is stored. A column named twice stops the INSERT before either. -/
theorem column_order_is_immaterial_of_rotated :
    let s : Schema := ⟨"t", [.plain .int32 "id", .plain .uint32 "age", .fixedString "name" 2]⟩
    let c : Catalog := ⟨OrderedMap.empty.insert "t" s⟩
    let tuples : List (List Value) :=
      [[.int64 1, .int64 20, .fixedString "ab"], [.int64 2, .int64 (-1), .fixedString "cd"]]
    let rotated : Insertion :=
      ⟨"t", ["age", "name", "id"],
        [[.int64 20, .fixedString "ab", .int64 1], [.int64 (-1), .fixedString "cd", .int64 2]]⟩
    let repeated : Insertion := ⟨"t", ["id", "age", "id"], tuples⟩
    let w : Surroundings Entries Unit := ⟨.empty, ()⟩
    let stored : Entries := OrderedMap.ofList
      [(RowKey.ofText "t" "1", [2, 0, 0, 0, 20, 0, 0, 0, 97, 98])]
    c.Validated ∧ c.table "t" = .ok s ∧ [1, 2, 0].Perm (List.range s.columns.length) ∧
      (∀ tuple ∈ tuples, tuple.length = s.columns.length) ∧
      (insertion rotated : Plan Empty).start c ⟨0, false⟩ w =
        (.error (.reported (.execution (.valueOutOfRange "age" .uint32 (.int64 (-1))))),
          ⟨1, false⟩, ⟨stored, ()⟩) ∧
      repeated.columns ≠ [] ∧ ¬ repeated.columns.Perm s.names ∧
      ∃ e, Insertion.Misdeclared "t" s repeated.columns e ∧
        (insertion repeated : Plan Empty).start c ⟨0, false⟩ w =
          (.error (.reported e), ⟨0, false⟩, w) := by
  intro s c tuples rotated repeated w stored
  have made : Catalog.ofSchemas [s] = .ok c := by decide +kernel
  have valid : c.Validated := Catalog.validated_of_ofSchemas made
  have known : c.table "t" = .ok s := rfl
  have perm : [1, 2, 0].Perm (List.range s.columns.length) := by decide
  have counts : ∀ tuple ∈ tuples, tuple.length = s.columns.length := by decide
  have twice : ¬ repeated.columns.Perm s.names := by decide
  obtain ⟨accepts, reorders⟩ :=
    @column_order_is_immaterial Entries _ c repeated s valid known
  obtain ⟨e, why, fails⟩ := (accepts (by decide)).2 twice
  refine ⟨valid, known, perm, counts, ?_, by decide, twice, e, why, fails ⟨0, false⟩ w⟩
  let plain : Insertion := ⟨"t", [], tuples⟩
  have settled : plain.target c = .ok ⟨s, [0, 1, 2], .plain .int32 "id"⟩ := by decide +kernel
  refine (reorders [1, 2, 0] perm tuples counts ⟨0, false⟩ w).trans ?_
  show (insertion plain : Plan Empty).start c ⟨0, false⟩ w = _
  simp only [start, settled]
  rfl

end Plan
end RowStore
