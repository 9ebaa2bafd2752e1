import RowStore.Proofs.LogStore

namespace RowStore.LogStore

open Storage (performAll)

/-- The first `k` records lie within `n` bytes, and no more of them do. -/
structure MostThatFit (rs : List Record) (n k : Nat) : Prop where
  inside : k ≤ rs.length
  fits : (Log.bytesOf (rs.take k)).length ≤ n
  most : ∀ j, j ≤ rs.length → (Log.bytesOf (rs.take j)).length ≤ n → j ≤ k

theorem mostThatFit_wholeRecords (rs : List Record) (n : Nat) :
    MostThatFit rs n (Log.wholeRecords n rs) where
  inside := Log.wholeRecords_le n rs
  fits := (Log.fits_iff_le_wholeRecords (Log.wholeRecords_le n rs)).mpr (Nat.le_refl _)
  most _ inside := (Log.fits_iff_le_wholeRecords inside).mp

/-- What a cut log opens as is the store before the record that was cut. -/
theorem ofFile_take {rs : List Record} (bounded : ∀ r ∈ rs, r.Bounded) (n : Nat) :
    ∃ t, ofFile ((Log.bytesOf rs).take n) = .ok t ∧
      t.Holds (rs.take (Log.wholeRecords n rs)) := by
  have kept : ∀ r ∈ rs.take (Log.wholeRecords n rs), r.Bounded := fun r member =>
    bounded r (List.mem_of_mem_take member)
  obtain ⟨tail, torn, cut⟩ := Log.take_bytesOf bounded n
  rw [cut]
  exact ⟨_, ofFile_bytesOf_append kept torn, holds_of_records kept⟩

theorem Holds.unique {s t : LogStore} {rs : List Record} (hs : s.Holds rs) (ht : t.Holds rs) :
    s = t := hs.eq.trans ht.eq.symm

/-- Wherever a log of puts and deletes ends, opening it gives the store as it was after those that
lie wholly before the end, with the file cut to them. What is written from there on is what the
next opening finds. -/
theorem crash_keeps_whole_records (rs : List Record) (bounded : ∀ r ∈ rs, r.Bounded) :
    ∃ start log, ofFile [] = .ok start ∧ performAll rs start = .ok log ∧
      ∀ n, n ≤ log.file.length → ∃ k opened, MostThatFit rs n k ∧
        ofFile (log.file.take n) = .ok opened ∧
        performAll (rs.take k) start = .ok opened ∧
        performAll (rs.take k) (.empty : Entries) = .ok opened.entries ∧
        opened.file = Log.bytesOf (rs.take k) ∧
        ∀ more : List Record, (∀ r ∈ more, r.Bounded) →
          ∃ later again, performAll more opened = .ok later ∧ ofFile later.close = .ok again ∧
            performAll more opened.entries = .ok again.entries := by
  obtain ⟨log, ran, holds⟩ := holds_empty.performAll bounded
  refine ⟨⟨[], [], .empty⟩, log, rfl, ran, fun n _ => ?_⟩
  obtain ⟨opened, cut, kept⟩ := ofFile_take bounded n
  have part : ∀ r ∈ rs.take (Log.wholeRecords n rs), r.Bounded := kept.bounded
  obtain ⟨earlier, ranPart, holdsPart⟩ := holds_empty.performAll part
  refine ⟨Log.wholeRecords n rs, opened, mostThatFit_wholeRecords rs n, ?_, ?_, ?_, kept.file,
    fun more short => ?_⟩
  · rw [holds.file]
    exact cut
  · rw [ranPart, holdsPart.unique kept]
  · rw [Storage.performAll_memory, kept.entries]
  · obtain ⟨later, ranMore, holdsMore⟩ := kept.performAll short
    refine ⟨later, later, ranMore, holdsMore.reopen, ?_⟩
    rw [Storage.performAll_memory, holdsMore.entries, kept.entries, Record.applyAll_append]

theorem crash_keeps_whole_records_of_three :
    (∀ r ∈ [Record.put [0x61] [0x31], .delete [0x61], .put [] []], r.Bounded) ∧
      ∃ start log, ofFile [] = .ok start ∧
        performAll [Record.put [0x61] [0x31], .delete [0x61], .put [] []] start = .ok log ∧
        ∀ n, n ≤ log.file.length → ∃ k opened,
          MostThatFit [Record.put [0x61] [0x31], .delete [0x61], .put [] []] n k ∧
          ofFile (log.file.take n) = .ok opened := by
  have bounded : ∀ r ∈ [Record.put [0x61] [0x31], .delete [0x61], .put [] []], r.Bounded := by
    decide
  obtain ⟨start, log, opens, ran, cuts⟩ := crash_keeps_whole_records _ bounded
  refine ⟨bounded, start, log, opens, ran, fun n within => ?_⟩
  obtain ⟨k, opened, most, cut, _⟩ := cuts n within
  exact ⟨k, opened, most, cut⟩

end RowStore.LogStore
