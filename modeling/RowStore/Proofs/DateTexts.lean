import Mathlib.Data.List.TakeWhile
import RowStore.Proofs.Characters
import RowStore.Proofs.Gregorian
import RowStore.Proofs.RowKeys
import RowStore.Proofs.RowLayout
import RowStore.Proofs.Splitting
import RowStore.Query.Insertion

namespace RowStore.Date

section Decimals

variable {width m n : Nat} {cs ds as bs : List Char}

theorem digits_padded (width n : Nat) : ∀ c ∈ padded width n, c.isDigit = true := by
  intro c member
  obtain zero | digit := List.mem_append.mp member
  · rw [(List.mem_replicate.mp zero).2]
    rfl
  · exact RowKey.digits_toDigits n c digit

theorem length_padded (positive : 0 < width) (small : n < 10 ^ width) :
    (padded width n).length = width := by
  have fits := (Nat.length_toDigits_le_iff (by decide) positive).mpr small
  rw [padded, List.length_append, List.length_replicate, Nat.sub_add_cancel fits]

theorem ofDigitChars_padded (width n : Nat) : Nat.ofDigitChars 10 (padded width n) 0 = n := by
  rw [padded, Nat.ofDigitChars_append, Nat.ofDigitChars_replicate_zero, Nat.mul_zero,
    Nat.ofDigitChars_ten_toDigits]

theorem exactly?_append (digits : ∀ c ∈ cs, c.isDigit = true) (rest : List Char) :
    exactly? cs.length (cs ++ rest) = some (Nat.ofDigitChars 10 cs 0, rest) := by
  rw [exactly?, List.take_left, List.takeWhile_eq_self_iff.mpr digits, if_pos rfl, List.drop_left]

theorem number?_append (filled : cs ≠ []) (digits : ∀ c ∈ cs, c.isDigit = true) (rest : List Char) :
    number? cs.length (cs ++ rest) = some (Nat.ofDigitChars 10 cs 0, rest) := by
  simp only [number?, List.take_left, List.takeWhile_eq_self_iff.mpr digits, List.isEmpty_iff,
    if_neg filled, List.drop_left]

theorem digit_bounds {c : Char} (digit : c.isDigit = true) : 48 ≤ c.toNat ∧ c.toNat ≤ 57 := by
  rw [Char.isDigit, Bool.and_eq_true, decide_eq_true_eq, decide_eq_true_eq] at digit
  exact ⟨UInt32.le_iff_toNat_le.mp digit.1, UInt32.le_iff_toNat_le.mp digit.2⟩

theorem digit_lt_iff {c d : Char} (left : c.isDigit = true) (right : d.isDigit = true) :
    (c < d ↔ c.toNat - 48 < d.toNat - 48) ∧ (c = d ↔ c.toNat - 48 = d.toNat - 48) := by
  have order : c < d ↔ c.toNat < d.toNat := UInt32.lt_iff_toNat_lt
  have boundsC := digit_bounds left
  have boundsD := digit_bounds right
  rw [order, ← Char.toNat_inj]
  omega

theorem ofDigitChars_cons_eq (c : Char) (cs : List Char) :
    Nat.ofDigitChars 10 (c :: cs) 0 =
      10 ^ cs.length * (c.toNat - 48) + Nat.ofDigitChars 10 cs 0 := by
  rw [Nat.ofDigitChars_cons, Nat.ofDigitChars_eq_ofDigitChars_zero, Nat.mul_zero, Nat.zero_add]
  rfl

theorem ofDigitChars_lt (digits : ∀ c ∈ cs, c.isDigit = true) :
    Nat.ofDigitChars 10 cs 0 < 10 ^ cs.length := by
  induction cs with
  | nil => exact Nat.one_pos
  | cons c cs ih =>
      obtain ⟨first, others⟩ := List.forall_mem_cons.mp digits
      have digit : c.toNat - 48 < 10 := by
        have := digit_bounds first
        omega
      have below := ih others
      rw [ofDigitChars_cons_eq, List.length_cons]
      calc 10 ^ cs.length * (c.toNat - 48) + Nat.ofDigitChars 10 cs 0
        _ < 10 ^ cs.length * (c.toNat - 48) + 10 ^ cs.length := Nat.add_lt_add_left below _
        _ = 10 ^ cs.length * (c.toNat - 48 + 1) := by rw [Nat.mul_succ]
        _ ≤ 10 ^ cs.length * 10 := Nat.mul_le_mul_left _ digit
        _ = 10 ^ (cs.length + 1) := (Nat.pow_succ ..).symm

/-- Below a place, the digit of the place decides. -/
theorem place_lt_iff {place x y u v : Nat} (low : u < place) (high : v < place) :
    (place * x + u < place * y + v ↔ x < y ∨ x = y ∧ u < v) ∧
      (place * x + u = place * y + v ↔ x = y ∧ u = v) := by
  obtain less | rfl | greater := Nat.lt_trichotomy x y
  · have := Nat.mul_le_mul_left place less
    rw [Nat.mul_succ] at this
    omega
  · omega
  · have := Nat.mul_le_mul_left place greater
    rw [Nat.mul_succ] at this
    omega

/-- Digits of one width are ordered as their numbers; what follows them decides between equals. -/
theorem digits_lt_iff (same : cs.length = ds.length) (left : ∀ c ∈ cs, c.isDigit = true)
    (right : ∀ d ∈ ds, d.isDigit = true) :
    cs ++ as < ds ++ bs ↔
      Nat.ofDigitChars 10 cs 0 < Nat.ofDigitChars 10 ds 0 ∨
        Nat.ofDigitChars 10 cs 0 = Nat.ofDigitChars 10 ds 0 ∧ as < bs := by
  induction cs generalizing ds with
  | nil =>
      obtain rfl := List.eq_nil_of_length_eq_zero same.symm
      simp
  | cons c cs ih =>
      cases ds with
      | nil => cases same
      | cons d ds =>
          obtain ⟨firstC, othersC⟩ := List.forall_mem_cons.mp left
          obtain ⟨firstD, othersD⟩ := List.forall_mem_cons.mp right
          have length : cs.length = ds.length := Nat.succ.inj same
          have high := ofDigitChars_lt othersD
          rw [← length] at high
          have place := place_lt_iff (x := c.toNat - 48) (y := d.toNat - 48)
            (ofDigitChars_lt othersC) high
          obtain ⟨order, equal⟩ := digit_lt_iff firstC firstD
          rw [List.cons_append, List.cons_append, List.cons_lt_cons_iff, ih length othersC othersD,
            ofDigitChars_cons_eq, ofDigitChars_cons_eq, ← length, place.1, place.2, order, equal,
            and_or_left, or_assoc, and_assoc]

theorem padded_lt_iff (positive : 0 < width) (left : m < 10 ^ width)
    (right : n < 10 ^ width) :
    padded width m ++ as < padded width n ++ bs ↔ m < n ∨ m = n ∧ as < bs := by
  have same : (padded width m).length = (padded width n).length :=
    (length_padded positive left).trans (length_padded positive right).symm
  rw [digits_lt_iff same (digits_padded width m) (digits_padded width n), ofDigitChars_padded,
    ofDigitChars_padded]

theorem exactly?_padded (positive : 0 < width) (small : n < 10 ^ width) (rest : List Char) :
    exactly? width (padded width n ++ rest) = some (n, rest) := by
  have read := exactly?_append (digits_padded width n) rest
  rwa [length_padded positive small, ofDigitChars_padded] at read

theorem number?_padded (positive : 0 < width) (small : n < 10 ^ width) (rest : List Char) :
    number? width (padded width n ++ rest) = some (n, rest) := by
  have length := length_padded positive small
  have filled : padded width n ≠ [] := List.ne_nil_of_length_pos (by rwa [length])
  have read := number?_append filled (digits_padded width n) rest
  rwa [length, ofDigitChars_padded] at read

theorem padded_eq_cons (positive : 0 < width) (small : n < 10 ^ width) :
    ∃ c cs, padded width n = c :: cs ∧ c.isDigit = true := by
  have filled : padded width n ≠ [] :=
    List.ne_nil_of_length_pos (by rwa [length_padded positive small])
  obtain ⟨c, cs, eq⟩ := List.exists_cons_of_ne_nil filled
  exact ⟨c, cs, eq, digits_padded width n c (eq ▸ List.mem_cons_self)⟩

theorem trimStart_padded (positive : 0 < width) (small : n < 10 ^ width) (rest : List Char) :
    Text.trimStart (padded width n ++ rest) = padded width n ++ rest := by
  obtain ⟨c, cs, eq, digit⟩ := padded_eq_cons positive small
  rw [eq]
  refine Text.trimStart_eq_self fun _ first => ?_
  obtain rfl := Option.some.inj first
  exact Bool.eq_false_iff.mpr fun blank => by
    rw [Sql.isDigit_of_blank blank] at digit
    cases digit

theorem year?_padded (small : n < 10 ^ 4) (rest : List Char) :
    year? (padded 4 n ++ rest) = some ((n : Int), rest) := by
  have read := number?_padded (by decide) small rest
  obtain ⟨c, cs, eq, digit⟩ := padded_eq_cons (by decide : 0 < 4) small
  rw [eq] at read ⊢
  unfold year?
  split
  · rename_i signed
    obtain rfl := (List.cons.inj signed).1
    cases digit
  · rename_i signed
    obtain rfl := (List.cons.inj signed).1
    cases digit
  · rw [read]
    rfl

end Decimals

/-- The day that a moment falls on. -/
def day (d : Date) : Calendar.Day := Calendar.ofNumber (d.seconds.toInt / secondsPerDay)

def secondOfDay (d : Date) : Nat := (d.seconds.toInt % secondsPerDay).toNat

/-- The first second of a day. -/
def midnight (day : Calendar.Day) : Date := ⟨Int64.ofInt (day.number * secondsPerDay)⟩

/-- A day of the calendar whose year has four digits and no sign. -/
structure Plain (day : Calendar.Day) : Prop where
  valid : day.Valid
  first : 0 ≤ day.year
  last : day.year ≤ 9999

section Parts

variable {day : Calendar.Day}

namespace Plain

theorem year_lt (plain : Plain day) : day.year.toNat < 10 ^ 4 := by
  have := plain.last
  omega

theorem month_lt (plain : Plain day) : day.month < 10 ^ 2 := by
  have := plain.valid.2.1
  omega

theorem day_lt (plain : Plain day) : day.day < 10 ^ 2 := by
  have := plain.valid.2.2.2
  have := Calendar.monthLength_le day.year day.month
  omega

/-- From the first day of year 0 to the last of year 9999. -/
theorem number_bounds (plain : Plain day) : -719528 ≤ day.number ∧ day.number ≤ 2932896 := by
  obtain ⟨valid, first, last⟩ := plain
  have notEarlier : ¬ day.Before ⟨0, 1, 1⟩ := by
    obtain ⟨_, _, _, _⟩ := valid
    simp only [Calendar.Day.Before]
    omega
  have notLater : ¬ (⟨9999, 12, 31⟩ : Calendar.Day).Before day := by
    obtain ⟨_, _, _, _⟩ := valid
    have := Calendar.monthLength_le day.year day.month
    simp only [Calendar.Day.Before]
    omega
  rw [← Calendar.Day.number_lt_iff valid (by decide)] at notEarlier
  rw [← Calendar.Day.number_lt_iff (by decide) valid] at notLater
  exact ⟨Int.not_lt.mp notEarlier, Int.not_lt.mp notLater⟩

end Plain

theorem dayText_of_plain (plain : Plain day) : dayText day =
    padded 4 day.year.toNat ++ '-' :: (padded 2 day.month ++ '-' :: padded 2 day.day) := by
  rw [dayText, yearText, if_neg (Int.not_lt.mpr plain.first), if_neg (Int.not_lt.mpr plain.last)]
  simp only [List.append_assoc, List.cons_append, List.nil_append]

/-- The text of a second of a day. -/
def stamp (day : Calendar.Day) (second : Nat) : List Char :=
  dayText day ++ ['T'] ++ clockText second ++ ['Z']

theorem stamp_of_plain (plain : Plain day) (second : Nat) : stamp day second =
    padded 4 day.year.toNat ++ '-' :: (padded 2 day.month ++ '-' :: (padded 2 day.day ++ 'T' ::
      (padded 2 (second / 3600) ++ ':' :: (padded 2 (second / 60 % 60) ++ ':' ::
        (padded 2 (second % 60) ++ ['Z']))))) := by
  rw [stamp, dayText_of_plain plain, clockText]
  simp only [List.append_assoc, List.cons_append, List.nil_append]

end Parts

section Reading

variable {α β : Type} {day : Calendar.Day} {second : Nat}

theorem bind_of_eq {x : Option α} {a : α} (found : x = some a) (f : α → Option β) :
    (x >>= f) = f a := by
  rw [found]
  rfl

theorem char?_self (c : Char) (cs : List Char) : char? c (c :: cs) = some cs := if_pos rfl

theorem moment?_of_plain (plain : Plain day) (second : Int) :
    moment? ⟨(day.year.toNat : Nat), day.month, day.day⟩ second =
      some ⟨Int64.ofInt (day.number * secondsPerDay + second)⟩ := by
  rw [Int.toNat_of_nonneg plain.first]
  exact if_pos plain.valid

theorem timestamp?_stamp (plain : Plain day) (within : second < 86400) :
    timestamp? (stamp day second) =
      some ⟨Int64.ofInt (day.number * secondsPerDay + second)⟩ := by
  have hour : second / 3600 < 10 ^ 2 := by omega
  have minute : second / 60 % 60 < 10 ^ 2 := by omega
  have last : second % 60 < 10 ^ 2 := by omega
  -- The fields are read in turn, with the marks between them.
  rw [stamp_of_plain plain]
  refine (bind_of_eq (exactly?_padded (Nat.zero_lt_succ 3) plain.year_lt _) _).trans ?_
  refine (bind_of_eq (char?_self _ _) _).trans ?_
  refine (bind_of_eq (exactly?_padded Nat.two_pos plain.month_lt _) _).trans ?_
  refine (bind_of_eq (char?_self _ _) _).trans ?_
  refine (bind_of_eq (exactly?_padded Nat.two_pos plain.day_lt _) _).trans ?_
  refine (bind_of_eq (congrArg (Option.or · _) (char?_self _ _)) _).trans ?_
  refine (bind_of_eq (exactly?_padded Nat.two_pos hour _) _).trans ?_
  refine (bind_of_eq (char?_self _ _) _).trans ?_
  refine (bind_of_eq (exactly?_padded Nat.two_pos minute _) _).trans ?_
  refine (bind_of_eq (char?_self _ _) _).trans ?_
  refine (bind_of_eq (exactly?_padded Nat.two_pos last _) _).trans ?_
  have clock : ¬ (23 < second / 3600 ∨ 59 < second / 60 % 60 ∨ 60 < second % 60) := by omega
  have sum : second / 3600 * 3600 + second / 60 % 60 * 60 + min (second % 60) 59 = second := by
    omega
  refine (if_neg clock).trans ?_
  rw [sum, Int.sub_zero]
  exact moment?_of_plain plain second

/-- A day without a time is no moment yet. -/
theorem timestamp?_dayText (plain : Plain day) : timestamp? (dayText day) = none := by
  rw [dayText_of_plain plain, ← List.append_nil (padded 2 day.day)]
  refine (bind_of_eq (exactly?_padded (Nat.zero_lt_succ 3) plain.year_lt _) _).trans ?_
  refine (bind_of_eq (char?_self _ _) _).trans ?_
  refine (bind_of_eq (exactly?_padded Nat.two_pos plain.month_lt _) _).trans ?_
  refine (bind_of_eq (char?_self _ _) _).trans ?_
  exact bind_of_eq (exactly?_padded Nat.two_pos plain.day_lt _) _

theorem bareDay?_dayText (plain : Plain day) : bareDay? (dayText day) = some (midnight day) := by
  rw [dayText_of_plain plain, ← List.append_nil (padded 2 day.day), bareDay?,
    trimStart_padded (Nat.zero_lt_succ 3) plain.year_lt]
  refine (bind_of_eq (year?_padded plain.year_lt _) _).trans ?_
  refine (bind_of_eq (char?_self _ _) _).trans ?_
  dsimp only
  rw [trimStart_padded Nat.two_pos plain.month_lt]
  refine (bind_of_eq (number?_padded Nat.two_pos plain.month_lt _) _).trans ?_
  refine (bind_of_eq (char?_self _ _) _).trans ?_
  dsimp only
  rw [trimStart_padded Nat.two_pos plain.day_lt]
  refine (bind_of_eq (number?_padded Nat.two_pos plain.day_lt _) _).trans ?_
  have early : ¬ (day.year.toNat : Int) < firstYear := by
    unfold firstYear
    omega
  have late : ¬ lastYear < (day.year.toNat : Int) := by
    have := plain.year_lt
    unfold lastYear
    omega
  have inRange : ¬ (!([] : List Char).isEmpty || decide ((day.year.toNat : Int) < firstYear) ||
      decide (lastYear < (day.year.toNat : Int))) = true := by
    rw [decide_eq_false early, decide_eq_false late]
    exact Bool.false_ne_true
  refine (if_neg inRange).trans ((moment?_of_plain plain 0).trans ?_)
  rw [Int.add_zero]
  rfl

end Reading

section Moments

theorem seconds_eq (d : Date) : d.day.Valid ∧ d.secondOfDay < 86400 ∧
    d.seconds.toInt = d.day.number * secondsPerDay + d.secondOfDay := by
  obtain ⟨valid, number⟩ := Calendar.ofNumber_spec (d.seconds.toInt / secondsPerDay)
  refine ⟨valid, ?_⟩
  rw [day, number, secondOfDay]
  unfold secondsPerDay
  omega

variable {d e : Date} {day : Calendar.Day}

theorem render_of_plain (plain : Plain d.day) :
    d.render = String.ofList (stamp d.day d.secondOfDay) := by
  obtain ⟨_, within, seconds⟩ := d.seconds_eq
  have bounds := plain.number_bounds
  refine if_pos ?_
  rw [seconds]
  unfold firstSecond lastSecond secondsPerDay
  omega

theorem parse?_render (plain : Plain d.day) : parse? d.render = some d := by
  obtain ⟨_, within, seconds⟩ := d.seconds_eq
  rw [parse?, render_of_plain plain, String.toList_ofList, timestamp?_stamp plain within,
    ← seconds, Int64.ofInt_toInt, Option.some_or]

theorem seconds_midnight (plain : Plain day) :
    (midnight day).seconds.toInt = day.number * secondsPerDay := by
  have bounds := plain.number_bounds
  unfold midnight secondsPerDay
  exact Int64.toInt_ofInt_of_le (by omega) (by omega)

theorem day_midnight (plain : Plain day) :
    (midnight day).day = day ∧ (midnight day).secondOfDay = 0 := by
  have nonzero : secondsPerDay ≠ 0 := by decide
  rw [Date.day, secondOfDay, seconds_midnight plain, Int.mul_ediv_cancel _ nonzero,
    Calendar.ofNumber_number plain.valid, Int.mul_emod_left]
  exact ⟨rfl, rfl⟩

theorem parse?_dayText (plain : Plain day) :
    parse? (String.ofList (dayText day)) = some (midnight day) := by
  rw [parse?, String.toList_ofList, timestamp?_dayText plain, bareDay?_dayText plain]
  rfl

theorem render_midnight (plain : Plain day) :
    (midnight day).render = String.ofList (dayText day) ++ "T00:00:00Z" := by
  obtain ⟨same, start⟩ := day_midnight plain
  rw [render_of_plain (by rwa [same]), same, start, stamp, List.append_assoc, List.append_assoc,
    String.ofList_append]
  rfl

/-- Of two seconds of a day, the hour tells them apart, or the minute, or the second. -/
theorem clock_lt_iff (m n : Nat) :
    m / 3600 < n / 3600 ∨ m / 3600 = n / 3600 ∧ (m / 60 % 60 < n / 60 % 60 ∨
      m / 60 % 60 = n / 60 % 60 ∧ m % 60 < n % 60) ↔ m < n := by
  have hourM : m / 60 / 60 = m / 3600 := Nat.div_div_eq_div_mul ..
  have hourN : n / 60 / 60 = n / 3600 := Nat.div_div_eq_div_mul ..
  omega

theorem stamp_lt_iff (left : Plain d.day) (right : Plain e.day) :
    stamp d.day d.secondOfDay < stamp e.day e.secondOfDay ↔
      d.day.Before e.day ∨ d.day = e.day ∧ d.secondOfDay < e.secondOfDay := by
  have withinD := d.seconds_eq.2.1
  have withinE := e.seconds_eq.2.1
  have earlier : d.day.year.toNat < e.day.year.toNat ↔ d.day.year < e.day.year := by
    have := left.first
    omega
  have sameYear : d.day.year.toNat = e.day.year.toNat ↔ d.day.year = e.day.year := by
    have := left.first
    have := right.first
    omega
  have sameDay : d.day = e.day ↔
      d.day.year = e.day.year ∧ d.day.month = e.day.month ∧ d.day.day = e.day.day := by
    rw [← Calendar.Day.mk.injEq]
  have last : ¬ ['Z'] < ['Z'] := List.lt_irrefl _
  -- The same separators stand at the same places of both texts.
  rw [stamp_of_plain left, stamp_of_plain right,
    padded_lt_iff (Nat.zero_lt_succ 3) left.year_lt right.year_lt, List.cons_lt_cons_self,
    padded_lt_iff Nat.two_pos left.month_lt right.month_lt, List.cons_lt_cons_self,
    padded_lt_iff Nat.two_pos left.day_lt right.day_lt, List.cons_lt_cons_self,
    padded_lt_iff Nat.two_pos (by omega) (by omega), List.cons_lt_cons_self,
    padded_lt_iff Nat.two_pos (by omega) (by omega), List.cons_lt_cons_self,
    padded_lt_iff Nat.two_pos (by omega) (by omega), earlier, sameYear, sameDay,
    ← clock_lt_iff d.secondOfDay]
  simp only [Calendar.Day.Before, last, and_false, or_false, and_or_left, and_assoc, or_assoc]

theorem seconds_lt_iff : d.seconds < e.seconds ↔
    d.day.Before e.day ∨ d.day = e.day ∧ d.secondOfDay < e.secondOfDay := by
  obtain ⟨validD, withinD, secondsD⟩ := d.seconds_eq
  obtain ⟨validE, withinE, secondsE⟩ := e.seconds_eq
  have same : d.day = e.day ↔ d.day.number = e.day.number :=
    ⟨congrArg _, Calendar.Day.number_inj validD validE⟩
  rw [Int64.lt_iff_toInt_lt, secondsD, secondsE, ← Calendar.Day.number_lt_iff validD validE, same]
  unfold secondsPerDay
  omega

theorem utf8_render_lt_iff (left : Plain d.day) (right : Plain e.day) :
    Text.utf8 d.render < Text.utf8 e.render ↔ d.seconds < e.seconds := by
  rw [Text.utf8_lt_iff, String.lt_iff, render_of_plain left, render_of_plain right,
    String.toList_ofList, String.toList_ofList, stamp_lt_iff left right, seconds_lt_iff]

end Moments

section Storing

open RowFormat (Field encodeField decodeField)

variable {d : Date} {f : Field}

/-- The text of a moment is its own in a tuple too, and the moment is what a field then holds. -/
theorem reinserted (plain : Plain d.day) (typed : f.column.type = .date)
    (wide : f.width = f.column.span) :
    Insertion.coerce f.column (.fixedString (Value.date d).render) = .ok (.date d) ∧
      ∃ bs, encodeField f (.date d) = .ok bs ∧ decodeField f bs = .ok (.date d) := by
  have bounds := plain.number_bounds
  obtain ⟨_, within, seconds⟩ := d.seconds_eq
  have room : f.column.type.HasRoom d.seconds.toInt := by
    rw [typed, seconds]
    simp only [ColumnType.HasRoom, secondsPerDay]
    omega
  have coerced : Insertion.coerce f.column (.fixedString (Value.date d).render) =
      .ok (.date d) := by
    simp only [Insertion.coerce, typed, Value.render, parse?_render plain]
  obtain ⟨w, _, written⟩ :=
    RowFormat.encodeField_of_number wide typed.symm (v := .date d) rfl rfl
  rw [if_pos room] at written
  exact ⟨coerced, _, written, (RowFormat.decodeField_encodeField written).2⟩

end Storing

/-- Days are counted from 1970-01-01, each one more than the day before it, and each moment is a
second of one of them. In the years 0 to 9999 its text is read as the moment again, also where a
tuple has the text for a field of dates, which then holds the moment; a day alone is read as its
first second; and the texts are ordered byte by byte as the moments are. -/
theorem dates_survive_their_text :
    (⟨1970, 1, 1⟩ : Calendar.Day).number = 0 ∧
    (∀ day : Calendar.Day, day.Valid → day.next.Valid ∧ day.next.number = day.number + 1) ∧
    (∀ d : Date, d.day.Valid ∧ d.secondOfDay < 86400 ∧
      d.seconds.toInt = d.day.number * 86400 + d.secondOfDay) ∧
    (∀ d : Date, 0 ≤ d.day.year → d.day.year ≤ 9999 → parse? d.render = some d ∧
      ∀ f : RowFormat.Field, f.column.type = .date → f.width = f.column.span →
        Insertion.coerce f.column (.fixedString (Value.date d).render) = .ok (.date d) ∧
          ∃ bs, RowFormat.encodeField f (.date d) = .ok bs ∧
            RowFormat.decodeField f bs = .ok (.date d)) ∧
    (∀ day : Calendar.Day, day.Valid → 0 ≤ day.year → day.year ≤ 9999 → ∃ d : Date,
      d.day = day ∧ d.secondOfDay = 0 ∧ parse? (String.ofList (dayText day)) = some d ∧
        parse? (String.ofList (dayText day) ++ "T00:00:00Z") = some d) ∧
    (∀ d e : Date, 0 ≤ d.day.year → d.day.year ≤ 9999 → 0 ≤ e.day.year → e.day.year ≤ 9999 →
      (d.seconds < e.seconds ↔ Text.utf8 d.render < Text.utf8 e.render)) := by
  refine ⟨rfl, fun day valid => ⟨Calendar.Day.valid_next valid, Calendar.Day.number_next valid⟩,
    seconds_eq, fun d first last => ?_, fun day valid first last => ?_,
    fun d e firstD lastD firstE lastE => ?_⟩
  · have plain : Plain d.day := ⟨d.seconds_eq.1, first, last⟩
    exact ⟨parse?_render plain, fun f typed wide => reinserted plain typed wide⟩
  · have plain : Plain day := ⟨valid, first, last⟩
    obtain ⟨same, start⟩ := day_midnight plain
    have whole := parse?_render (d := midnight day) (by rwa [same])
    rw [render_midnight plain] at whole
    exact ⟨midnight day, same, start, parse?_dayText plain, whole⟩
  · exact (utf8_render_lt_iff ⟨d.seconds_eq.1, firstD, lastD⟩ ⟨e.seconds_eq.1, firstE, lastE⟩).symm

theorem dates_survive_their_text_at_year_limits :
    parse? "0000-01-01T00:00:00Z" = some ⟨-62167219200⟩ ∧
      parse? "9999-12-31T23:59:59Z" = some ⟨253402300799⟩ ∧
      parse? "0000-02-29" = parse? "0000-02-29T00:00:00Z" ∧
      Text.utf8 "1969-12-31T23:59:59Z" < Text.utf8 "1970-01-01T00:00:00Z" := by
  obtain ⟨_, _, _, survives, bare, order⟩ := dates_survive_their_text
  have first := (survives ⟨-62167219200⟩ (by decide +kernel) (by decide +kernel)).1
  have last := (survives ⟨253402300799⟩ (by decide +kernel) (by decide +kernel)).1
  obtain ⟨_, _, _, day, moment⟩ := bare ⟨0, 2, 29⟩ (by decide) (by decide) (by decide)
  have earlier := (order ⟨-1⟩ ⟨0⟩ (by decide +kernel) (by decide +kernel) (by decide +kernel)
    (by decide +kernel)).mp (by decide)
  have firstText : (⟨-62167219200⟩ : Date).render = "0000-01-01T00:00:00Z" := by decide +kernel
  have lastText : (⟨253402300799⟩ : Date).render = "9999-12-31T23:59:59Z" := by decide +kernel
  have dayIs : String.ofList (dayText ⟨0, 2, 29⟩) = "0000-02-29" := by decide +kernel
  have eveText : (⟨-1⟩ : Date).render = "1969-12-31T23:59:59Z" := by decide +kernel
  have epochText : (⟨0⟩ : Date).render = "1970-01-01T00:00:00Z" := by decide +kernel
  rw [firstText] at first
  rw [lastText] at last
  rw [dayIs] at day moment
  rw [eveText, epochText] at earlier
  exact ⟨first, last, day.trans moment.symm, earlier⟩

end RowStore.Date
