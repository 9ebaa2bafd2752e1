import RowStore.Proofs.Words

namespace RowStore.Varint

/-- Each byte but the last announces another one, and a last byte of zero stands alone. -/
structure Shortest (bs : Bytes) : Prop where
  announced : continued bs + 1 = bs.length
  tight : bs.getLast? = some 0 → bs.length = 1

/-- A word ends in a byte of zero only if it is zero. -/
theorem eq_zero_of_getLast?_bytes {v : UInt64} (last : (bytes v).getLast? = some 0) :
    v.toNat = 0 := by
  induction v using bytes.induct with
  | case1 v single =>
      have small : v.toNat < 128 := UInt64.lt_iff_toNat_lt.mp single
      have low : v.toUInt8.toNat = v.toNat % 256 := UInt64.toNat_toUInt8 v
      rw [bytes_of_last single] at last
      have zero : v.toUInt8 = 0 := Option.some.inj last
      rw [zero] at low
      have digit : (0 : UInt8).toNat = 0 := rfl
      omega
  | case2 v more ih =>
      have large : ¬ v.toNat < 128 := fun small => more (UInt64.lt_iff_toNat_lt.mpr small)
      have high := toNat_high7 v
      rw [bytes_of_more more, List.getLast?_cons_of_ne_nil (bytes_ne_nil _)] at last
      have zero := ih last
      omega

theorem shortest_bytes (v : UInt64) : Shortest (bytes v) := by
  obtain ⟨announced, spelt⟩ := bytes_spec v []
  rw [List.append_nil] at announced
  refine ⟨announced, ?_⟩
  intro last
  have zero := eq_zero_of_getLast?_bytes last
  have one : (bytes v).length ≤ 1 := (length_bytes_le_iff (by decide)).mpr (by omega)
  have positive : 0 < (bytes v).length := List.length_pos_iff.mpr (bytes_ne_nil v)
  omega

/-- Bytes of which each but the last announces another one: the last one stands alone, and the
others go on. -/
theorem announced_cons {b : UInt8} {bs : Bytes}
    (announced : continued (b :: bs) + 1 = (b :: bs).length) :
    (b < 0x80 ∧ bs = []) ∨ (0x80 ≤ b ∧ bs ≠ [] ∧ continued bs + 1 = bs.length) := by
  rw [continued_cons, List.length_cons] at announced
  split at announced
  · rename_i more
    refine .inr ⟨more, ?_, by omega⟩
    rintro rfl
    cases announced
  · rename_i ends
    exact .inl ⟨UInt8.not_le.mp ends, List.length_eq_zero_iff.mp (by omega)⟩

theorem continued_append {bs : Bytes} (announced : continued bs + 1 = bs.length) (rest : Bytes) :
    continued (bs ++ rest) = continued bs := by
  induction bs with
  | nil => cases announced
  | cons b bs ih =>
      rw [List.cons_append, continued_cons, continued_cons]
      rcases announced_cons announced with ⟨ends, rfl⟩ | ⟨more, _, later⟩
      · rw [if_neg (UInt8.not_le.mpr ends), if_neg (UInt8.not_le.mpr ends)]
      · rw [if_pos more, if_pos more, ih later]

theorem payload_pos {bs : Bytes} (announced : continued bs + 1 = bs.length)
    (last : bs.getLast? ≠ some 0) : 0 < payload bs := by
  induction bs with
  | nil => cases announced
  | cons b bs ih =>
      rw [payload]
      rcases announced_cons announced with ⟨ends, rfl⟩ | ⟨_, nonempty, later⟩
      · have small : b.toNat < 128 := UInt8.lt_iff_toNat_lt.mp ends
        have positive : b.toNat ≠ 0 :=
          fun zero => last (congrArg some (UInt8.toNat_inj.mp zero))
        omega
      · rw [List.getLast?_cons_of_ne_nil nonempty] at last
        have positive := ih later last
        omega

/-- A shortest word is one byte, or a byte that announces another before a shortest word other
than zero. -/
theorem Shortest.cons_cases {b : UInt8} {bs : Bytes} (short : Shortest (b :: bs)) :
    (b.toNat < 128 ∧ bs = []) ∨ (128 ≤ b.toNat ∧ Shortest bs ∧ 0 < payload bs) := by
  rcases announced_cons short.announced with ⟨ends, rfl⟩ | ⟨more, nonempty, later⟩
  · exact .inl ⟨UInt8.lt_iff_toNat_lt.mp ends, rfl⟩
  · have last : bs.getLast? ≠ some 0 := by
      intro zero
      have one := short.tight ((List.getLast?_cons_of_ne_nil nonempty).trans zero)
      rw [List.length_cons] at one
      exact nonempty (List.length_eq_zero_iff.mp (by omega))
    have tight : bs.getLast? = some 0 → bs.length = 1 := fun zero => absurd zero last
    exact .inr ⟨UInt8.le_iff_toNat_le.mp more, ⟨later, tight⟩, payload_pos later last⟩

/-- A number is spelt by one shortest word only. -/
theorem Shortest.unique {as bs : Bytes} (first : Shortest as) (second : Shortest bs)
    (same : payload as = payload bs) : as = bs := by
  induction as generalizing bs with
  | nil => cases first.announced
  | cons a as ih =>
      cases bs with
      | nil => cases second.announced
      | cons b bs =>
          have below := a.toNat_lt
          have below' := b.toNat_lt
          rw [payload, payload] at same
          rcases first.cons_cases with ⟨small, rfl⟩ | ⟨large, later, positive⟩
          · rcases second.cons_cases with ⟨small', rfl⟩ | ⟨_, _, positive'⟩
            · have equal : a.toNat = b.toNat := by
                rw [payload] at same
                omega
              rw [UInt8.toNat_inj.mp equal]
            · rw [payload] at same
              omega
          · rcases second.cons_cases with ⟨_, rfl⟩ | ⟨large', later', _⟩
            · rw [payload] at same
              omega
            · have equal : a.toNat = b.toNat := by omega
              rw [UInt8.toNat_inj.mp equal, ih later later' (by omega)]

/-- The bytes of a word are the only shortest ones that spell it. -/
theorem eq_bytes_of_shortest {word : Bytes} {v : UInt64} (short : Shortest word)
    (spelt : payload word = v.toNat) : word = bytes v := by
  apply short.unique (shortest_bytes v)
  rw [spelt, (bytes_spec v []).2]

end RowStore.Varint
