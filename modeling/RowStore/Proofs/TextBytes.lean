import RowStore.Text.Utf8

namespace RowStore.Text

theorem utf8_eq_flatMap (s : String) : utf8 s = s.toList.flatMap String.utf8EncodeChar := by
  have encoded : s.toByteArray = s.toList.utf8Encode := by
    rw [← String.toByteArray_ofList, String.ofList_toList]
  unfold utf8
  rw [encoded, List.utf8Encode, List.toList_data_toByteArray]

theorem utf8_inj {s t : String} : utf8 s = utf8 t ↔ s = t := by
  rw [← String.toByteArray_inj, ByteArray.ext_iff, ← Array.toList_inj]
  rfl

theorem ofUtf8?_utf8 (s : String) : ofUtf8? (utf8 s) = some s := by
  have bytes : (⟨(utf8 s).toArray⟩ : ByteArray) = s.toByteArray := by
    unfold utf8
    rw [Array.toArray_toList]
  unfold ofUtf8? String.fromUTF8?
  rw [bytes, dif_pos s.isValidUTF8]
  rfl

theorem utf8_of_ofUtf8? {bs : Bytes} {s : String} (read : ofUtf8? bs = some s) :
    utf8 s = bs := by
  unfold ofUtf8? String.fromUTF8? at read
  split at read
  · rw [← Option.some.inj read]
    rfl
  · nomatch read

theorem ofUtf8?_eq_some_iff {bs : Bytes} {s : String} : ofUtf8? bs = some s ↔ bs = utf8 s :=
  ⟨fun read => (utf8_of_ofUtf8? read).symm, fun same => same ▸ ofUtf8?_utf8 s⟩

/-- What starts with the first list comes before what starts with the second. -/
def Precedes (as bs : Bytes) : Prop := ∀ cs ds, as ++ cs < bs ++ ds

section Precedes

variable {as bs : Bytes}

theorem precedes_of_head {a b : UInt8} (first : a < b) (as bs : Bytes) :
    Precedes (a :: as) (b :: bs) :=
  fun _ _ => List.cons_lt_cons_iff.mpr (.inl first)

theorem Precedes.append (before : Precedes as bs) (cs ds : Bytes) :
    Precedes (as ++ cs) (bs ++ ds) := by
  intro es fs
  rw [List.append_assoc, List.append_assoc]
  exact before _ _

theorem Precedes.append_left (before : Precedes as bs) (cs : Bytes) :
    Precedes (cs ++ as) (cs ++ bs) := by
  intro ds es
  rw [List.append_assoc, List.append_assoc]
  exact List.append_left_lt (before _ _)

end Precedes

/-- The byte of the lowest six bits of a character that is not written in one byte. -/
def trail (n : Nat) : UInt8 := UInt8.ofNat (n % 0x40 + 0x80)

theorem utf8EncodeChar_eq (c : Char) :
    String.utf8EncodeChar c =
      let n := c.val.toNat
      if n ≤ 0x7F then [UInt8.ofNat n]
      else if n ≤ 0x7FF then [UInt8.ofNat (n / 0x40 % 0x20 + 0xC0)] ++ [trail n]
      else if n ≤ 0xFFFF then
        [UInt8.ofNat (n / 0x40 / 0x40 % 0x10 + 0xE0)] ++ [trail (n / 0x40)] ++ [trail n]
      else
        [UInt8.ofNat (n / 0x40 / 0x40 / 0x40 % 0x08 + 0xF0)] ++ [trail (n / 0x40 / 0x40)] ++
          [trail (n / 0x40)] ++ [trail n] := by
  simp [String.utf8EncodeChar, trail, Nat.div_div_eq_div_mul]

/-- Six bits more decide only between what was alike before them. -/
theorem precedes_trail {as bs : Bytes} {m n : Nat} (less : m < n)
    (alike : m / 0x40 = n / 0x40 → as = bs) (before : m / 0x40 < n / 0x40 → Precedes as bs) :
    Precedes (as ++ [trail m]) (bs ++ [trail n]) := by
  rcases Nat.lt_or_eq_of_le (Nat.div_le_div_right (Nat.le_of_lt less) (c := 0x40)) with first | same
  · exact (before first).append _ _
  · rw [alike same]
    refine Precedes.append_left (precedes_of_head ?_ [] []) bs
    rw [UInt8.lt_iff_toNat_lt, trail, trail, UInt8.toNat_ofNat', UInt8.toNat_ofNat']
    omega

theorem ofNat_lt_ofNat {m n : Nat} (less : m < n) (small : n < 0x100) :
    UInt8.ofNat m < UInt8.ofNat n := by
  rw [UInt8.lt_iff_toNat_lt, UInt8.toNat_ofNat', UInt8.toNat_ofNat']
  omega

theorem toNat_val_lt (c : Char) : c.val.toNat < 0x110000 := by
  rcases c.valid with below | ⟨_, below⟩
  · exact Nat.lt_trans below (by decide)
  · exact below

/-- What is written for the lesser of two characters comes first. -/
theorem precedes_of_lt {c d : Char} (first : c < d) :
    Precedes (String.utf8EncodeChar c) (String.utf8EncodeChar d) := by
  have less : c.val.toNat < d.val.toNat := UInt32.lt_iff_toNat_lt.mp (Char.lt_def.mp first)
  have bounded := toNat_val_lt d
  rw [utf8EncodeChar_eq, utf8EncodeChar_eq]
  generalize c.val.toNat = m at *
  generalize d.val.toNat = n at *
  have apart {a b : Nat} (less : a < b) (small : b < 0x100) (as bs : Bytes) :
      Precedes (UInt8.ofNat a :: as) (UInt8.ofNat b :: bs) :=
    precedes_of_head (ofNat_lt_ofNat less small) as bs
  -- Characters of different lengths differ in their first bytes already.
  dsimp only
  split
  · split
    · exact apart less (by omega) _ _
    · split
      · exact apart (by omega) (by omega) _ _
      · split <;> exact apart (by omega) (by omega) _ _
  · rw [if_neg (show ¬ n ≤ 0x7F by omega)]
    split
    · split
      · refine precedes_trail less (fun same => by rw [same]) fun first => ?_
        exact apart (by omega) (by omega) _ _
      · split <;> exact apart (by omega) (by omega) _ _
    · rw [if_neg (show ¬ n ≤ 0x7FF by omega)]
      split
      · split
        · refine precedes_trail less (fun same => by rw [same]) fun first => ?_
          refine precedes_trail first (fun same => by rw [same]) fun first => ?_
          exact apart (by omega) (by omega) _ _
        · exact apart (by omega) (by omega) _ _
      · rw [if_neg (show ¬ n ≤ 0xFFFF by omega)]
        refine precedes_trail less (fun same => by rw [same]) fun first => ?_
        refine precedes_trail first (fun same => by rw [same]) fun first => ?_
        refine precedes_trail first (fun same => by rw [same]) fun first => ?_
        exact apart (by omega) (by omega) _ _

theorem utf8_lt_of_lt {s t : String} (first : s < t) : utf8 s < utf8 t := by
  rw [String.lt_iff] at first
  rw [utf8_eq_flatMap, utf8_eq_flatMap]
  generalize s.toList = cs at first
  generalize t.toList = ds at first
  induction first with
  | @nil d ds =>
      rw [List.flatMap_nil, List.flatMap_cons]
      obtain ⟨b, bs, bytes⟩ := List.exists_cons_of_ne_nil (String.utf8EncodeChar_ne_nil (c := d))
      rw [bytes]
      exact List.nil_lt_cons b _
  | rel less => exact precedes_of_lt less _ _
  | cons _ ih => exact List.append_left_lt ih

/-- The order of texts by their characters is the order of their bytes. -/
theorem utf8_lt_iff {s t : String} : utf8 s < utf8 t ↔ s < t := by
  refine ⟨fun first => ?_, utf8_lt_of_lt⟩
  rcases Std.lt_trichotomy s t with less | rfl | greater
  · exact less
  · exact absurd first (List.lt_irrefl _)
  · exact absurd first (List.lt_asymm (utf8_lt_of_lt greater))

end RowStore.Text
