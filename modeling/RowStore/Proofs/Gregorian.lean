import Mathlib.Order.Monotone.Basic
import Mathlib.Tactic.IntervalCases
import Mathlib.Tactic.Ring
import RowStore.Calendar

/-! Days and their numbers. The number of a day counts the days from 1970-01-01 in the Gregorian
calendar, so days are ordered as their numbers are, and each number is that of one day. -/
namespace RowStore.Calendar

/-- The day after. -/
def Day.next (d : Day) : Day :=
  if d.day < monthLength d.year d.month then ⟨d.year, d.month, d.day + 1⟩
  else if d.month < 12 then ⟨d.year, d.month + 1, 1⟩
  else ⟨d.year + 1, 1, 1⟩

/-- The earlier year, or in one year the earlier month, or in one month the earlier day. -/
def Day.Before (d e : Day) : Prop :=
  d.year < e.year ∨ d.year = e.year ∧ (d.month < e.month ∨ d.month = e.month ∧ d.day < e.day)

/-- The days before the first of March of a year, counted from that of year 0. -/
def marchStart (year : Int) : Int := 365 * year + year / 4 - year / 100 + year / 400

/-- The days of a year from March before a month of it. March is month 0. -/
def beforeMonth (monthFromMarch : Int) : Int := (153 * monthFromMarch + 2) / 5

theorem isLeap_iff {year : Int} :
    isLeap year = true ↔ year % 4 = 0 ∧ (year % 100 ≠ 0 ∨ year % 400 = 0) := by
  rw [isLeap, decide_eq_true_iff]

theorem isLeap_add_era (year era : Int) : isLeap (year + era * 400) = isLeap year := by
  have fours : (year + era * 400) % 4 = year % 4 := by omega
  have hundreds : (year + era * 400) % 100 = year % 100 := by omega
  have eras : (year + era * 400) % 400 = year % 400 := by omega
  rw [isLeap, isLeap, fours, hundreds, eras]

theorem Day.valid_mk {year : Int} {month day : Nat} :
    (⟨year, month, day⟩ : Day).Valid ↔
      1 ≤ month ∧ month ≤ 12 ∧ 1 ≤ day ∧ day ≤ monthLength year month := Iff.rfl

theorem marchStart_succ (year : Int) :
    marchStart (year + 1) = marchStart year + if isLeap (year + 1) then 366 else 365 := by
  unfold marchStart
  split
  · rename_i leap
    rw [isLeap_iff] at leap
    omega
  · rename_i common
    rw [isLeap_iff] at common
    omega

theorem number_of_early (year : Int) {month : Nat} (early : month ≤ 2) (day : Nat) :
    (⟨year, month, day⟩ : Day).number =
      marchStart (year - 1) + beforeMonth (month + 9) + day - 719469 := by
  simp only [Day.number, if_pos early, marchStart, beforeMonth]
  omega

theorem number_of_late (year : Int) {month : Nat} (late : ¬ month ≤ 2) (day : Nat) :
    (⟨year, month, day⟩ : Day).number =
      marchStart year + beforeMonth (month - 3) + day - 719469 := by
  simp only [Day.number, if_neg late, marchStart, beforeMonth]
  omega

section Counting

theorem Day.number_eq (d : Day) :
    d.number = (⟨d.year, d.month, 1⟩ : Day).number + d.day - 1 := by
  obtain ⟨year, month, day⟩ := d
  simp only
  by_cases early : month ≤ 2
  · rw [number_of_early year early, number_of_early year early]
    omega
  · rw [number_of_late year early, number_of_late year early]
    omega

theorem monthLength_february (year : Int) :
    (monthLength year 2 : Int) = (if isLeap year then 366 else 365) - 337 := by
  rw [monthLength, if_pos rfl]
  split <;> rfl

theorem monthLength_late (year : Int) {month : Nat} (late : ¬ month ≤ 2) (last : month ≤ 12) :
    (monthLength year month : Int) = beforeMonth (month - 2) - beforeMonth (month - 3) := by
  rw [monthLength, if_neg (by omega)]
  interval_cases month <;> rfl

theorem number_month_succ (year : Int) {month : Nat} (first : 1 ≤ month) (last : month < 12) :
    (⟨year, month + 1, 1⟩ : Day).number =
      (⟨year, month, 1⟩ : Day).number + monthLength year month := by
  -- Only the end of February crosses from one March year to the next.
  by_cases february : month = 2
  · subst february
    have march := marchStart_succ (year - 1)
    rw [Int.sub_add_cancel] at march
    rw [number_of_late year (by decide), number_of_early year (Nat.le_refl 2), march,
      monthLength_february]
    simp only [beforeMonth]
    omega
  · by_cases january : month = 1
    · subst january
      rw [number_of_early year (by decide), number_of_early year (by decide),
        show monthLength year 1 = 31 from rfl]
      simp only [beforeMonth]
      omega
    · rw [number_of_late year (by omega), number_of_late year (by omega),
        monthLength_late year (by omega) (by omega),
        show ((month + 1 : Nat) : Int) - 3 = month - 2 by omega]
      omega

theorem number_year_succ (year : Int) :
    (⟨year + 1, 1, 1⟩ : Day).number = (⟨year, 12, 1⟩ : Day).number + 31 := by
  rw [number_of_early (year + 1) (by decide), number_of_late year (by decide),
    Int.add_sub_cancel]
  simp only [beforeMonth]
  omega

theorem one_le_monthLength (year : Int) (month : Nat) : 1 ≤ monthLength year month := by
  unfold monthLength
  split
  · split <;> decide
  · split <;> decide

theorem monthLength_le (year : Int) (month : Nat) : monthLength year month ≤ 31 := by
  unfold monthLength
  split
  · split <;> decide
  · split <;> decide

theorem Day.valid_next {d : Day} (valid : d.Valid) : d.next.Valid := by
  obtain ⟨firstMonth, lastMonth, firstDay, lastDay⟩ := valid
  unfold Day.next
  split
  · rename_i within
    exact ⟨firstMonth, lastMonth, Nat.le_add_left 1 _, within⟩
  · split
    · rename_i more
      exact ⟨Nat.le_add_left 1 _, more, Nat.le_refl 1, one_le_monthLength _ _⟩
    · exact ⟨Nat.le_refl 1, Nat.le_add_left 1 11, Nat.le_refl 1, one_le_monthLength _ _⟩

theorem Day.number_next {d : Day} (valid : d.Valid) : d.next.number = d.number + 1 := by
  obtain ⟨firstMonth, lastMonth, firstDay, lastDay⟩ := valid
  have here := d.number_eq
  unfold Day.next
  split
  · have after := (⟨d.year, d.month, d.day + 1⟩ : Day).number_eq
    simp only at after
    omega
  · split
    · rename_i more
      rw [number_month_succ d.year firstMonth more]
      omega
    · have december : d.month = 12 := by omega
      have length : monthLength d.year d.month = 31 := by rw [december]; rfl
      rw [december] at here
      rw [number_year_succ]
      omega

end Counting

section Order

/-- The months before this one, counted from January of year 0. -/
def Day.monthIndex (d : Day) : Int := 12 * d.year + d.month - 1

/-- The first day of the month with an index. -/
def monthStart (index : Int) : Day := ⟨index / 12, (index % 12).toNat + 1, 1⟩

theorem number_monthStart_succ (index : Int) :
    (monthStart (index + 1)).number = (monthStart index).number +
      monthLength (index / 12) ((index % 12).toNat + 1) := by
  unfold monthStart
  by_cases december : index % 12 = 11
  · have year : (index + 1) / 12 = index / 12 + 1 := by omega
    have month : (index + 1) % 12 = 0 := by omega
    rw [year, month, december]
    exact number_year_succ _
  · have year : (index + 1) / 12 = index / 12 := by omega
    have month : ((index + 1) % 12).toNat = (index % 12).toNat + 1 := by omega
    rw [year, month]
    exact number_month_succ _ (by omega) (by omega)

theorem number_monthStart_le {m n : Int} (notLater : m ≤ n) :
    (monthStart m).number ≤ (monthStart n).number := by
  have mono : Monotone fun index => (monthStart index).number :=
    monotone_int_of_le_succ fun index => by
      rw [number_monthStart_succ]
      exact Int.le_add_of_nonneg_right (Int.natCast_nonneg _)
  exact mono notLater

theorem Day.number_monthIndex {d : Day} (valid : d.Valid) :
    d.number = (monthStart d.monthIndex).number + d.day - 1 ∧
      d.number < (monthStart (d.monthIndex + 1)).number := by
  obtain ⟨firstMonth, lastMonth, -, lastDay⟩ := valid
  have year : d.monthIndex / 12 = d.year := by unfold Day.monthIndex; omega
  have month : (d.monthIndex % 12).toNat + 1 = d.month := by unfold Day.monthIndex; omega
  have start : monthStart d.monthIndex = ⟨d.year, d.month, 1⟩ := by rw [monthStart, year, month]
  have here := d.number_eq
  have after := number_monthStart_succ d.monthIndex
  rw [year, month, start] at after
  rw [start]
  omega

theorem Day.number_lt_of_before {d e : Day} (left : d.Valid) (right : e.Valid)
    (before : d.Before e) : d.number < e.number := by
  obtain ⟨atD, underD⟩ := number_monthIndex left
  obtain ⟨atE, -⟩ := number_monthIndex right
  have days : d.monthIndex < e.monthIndex ∨ d.monthIndex = e.monthIndex ∧ d.day < e.day := by
    obtain ⟨-, lastD, -, -⟩ := left
    obtain ⟨firstE, -, -, -⟩ := right
    unfold Day.monthIndex
    unfold Day.Before at before
    omega
  obtain earlier | ⟨same, day⟩ := days
  · have months := number_monthStart_le (Int.add_one_le_iff.mpr earlier)
    have : 1 ≤ e.day := right.2.2.1
    omega
  · rw [same] at atD
    omega

theorem Day.before_trichotomy (d e : Day) : d.Before e ∨ d = e ∨ e.Before d := by
  by_cases year : d.year = e.year
  · by_cases month : d.month = e.month
    · by_cases day : d.day = e.day
      · exact .inr (.inl (by cases d; cases e; simp_all))
      · unfold Day.Before
        omega
    · unfold Day.Before
      omega
  · unfold Day.Before
    omega

theorem Day.number_lt_iff {d e : Day} (left : d.Valid) (right : e.Valid) :
    d.number < e.number ↔ d.Before e := by
  refine ⟨fun lower => ?_, number_lt_of_before left right⟩
  obtain before | same | after := before_trichotomy d e
  · exact before
  · exact absurd lower (by rw [same]; exact Int.lt_irrefl _)
  · exact absurd lower (Int.not_lt.mpr (Int.le_of_lt (number_lt_of_before right left after)))

theorem Day.number_inj {d e : Day} (left : d.Valid) (right : e.Valid)
    (same : d.number = e.number) : d = e := by
  obtain before | equal | after := before_trichotomy d e
  · exact absurd same (Int.ne_of_lt (number_lt_of_before left right before))
  · exact equal
  · exact absurd same (Int.ne_of_gt (number_lt_of_before right left after))

end Order

section OfNumber

/-- The year of an era, from March, that a day of the era falls in. -/
def yearOfEra (day : Int) : Int := (day - day / 1460 + day / 36524 - day / 146096) / 365

/-- An era is four centuries, a century 25 times four years, and these are four years. Only the
last part of each may be a day longer than the others. -/
structure EraSplit (day century cycle year rest : Int) : Prop where
  sum : day = 36524 * century + 1461 * cycle + 365 * year + rest
  centuries : 0 ≤ century ∧ century ≤ 3
  cycles : 0 ≤ cycle ∧ cycle ≤ 24
  years : 0 ≤ year ∧ year ≤ 3
  rests : 0 ≤ rest ∧ rest ≤ 365
  longYear : rest = 365 → year = 3
  longCycle : rest = 365 → cycle = 24 → century = 3

theorem exists_eraSplit {day : Int} (first : 0 ≤ day) (last : day < 146097) :
    ∃ century cycle year rest, EraSplit day century cycle year rest := by
  obtain ⟨century, inCentury, isDay, centuries, inCenturies, longCentury⟩ :
      ∃ century inCentury : Int, day = 36524 * century + inCentury ∧
        (0 ≤ century ∧ century ≤ 3) ∧ (0 ≤ inCentury ∧ inCentury ≤ 36524) ∧
        (inCentury = 36524 → century = 3) :=
    ⟨min (day / 36524) 3, day - 36524 * min (day / 36524) 3, by omega⟩
  obtain ⟨year, rest, isRest, years, rests, longYear⟩ :
      ∃ year rest : Int, inCentury % 1461 = 365 * year + rest ∧ (0 ≤ year ∧ year ≤ 3) ∧
        (0 ≤ rest ∧ rest ≤ 365) ∧ (rest = 365 → year = 3) :=
    ⟨min (inCentury % 1461 / 365) 3, inCentury % 1461 - 365 * min (inCentury % 1461 / 365) 3,
      by omega⟩
  exact ⟨century, inCentury / 1461, year, rest,
    { sum := by omega
      centuries := centuries
      cycles := by omega
      years := years
      rests := rests
      longYear := longYear
      longCycle := by omega }⟩

theorem yearOfEra_eq {day century cycle year rest : Int}
    (split : EraSplit day century cycle year rest) :
    yearOfEra day = 100 * century + 4 * cycle + year := by
  obtain ⟨sum, centuries, cycles, years, rests, longYear, longCycle⟩ := split
  have inCentury : 1461 * cycle + 365 * year + rest ≤ 36524 := by omega
  have longCentury : 1461 * cycle + 365 * year + rest = 36524 → century = 3 := by omega
  have byCentury : day / 36524 - day / 146096 = century := by
    by_cases last : day = 146096
    · omega
    · have : day / 36524 = century := by omega
      have : day / 146096 = 0 := by omega
      omega
  -- Parts of 1460 days fall behind the cycles by a day for each, so one may end too early.
  have before : rest ≤ 364 ∨ 1460 ≤ 24 * century + cycle + 365 * year + rest := by omega
  obtain ⟨early, byCycle, within⟩ : ∃ early, day / 1460 = 25 * century + cycle + early ∧
      0 ≤ rest - early ∧ rest - early < 365 := by
    by_cases short : 24 * century + cycle + 365 * year + rest < 1460
    · exact ⟨0, by omega⟩
    · exact ⟨1, by omega⟩
  have inYears : day - day / 1460 + day / 36524 - day / 146096 =
      rest - early + (100 * century + 4 * cycle + year) * 365 := by
    rw [byCycle, Int.add_sub_assoc, byCentury, sum]
    ring
  rw [yearOfEra, inYears, Int.add_mul_ediv_right _ _ (by decide),
    Int.ediv_eq_zero_of_lt within.1 within.2, Int.zero_add]

/-- Only the last day of a leap year, which ends in February, is that far from its start. -/
theorem rest_of_era {day : Int} (first : 0 ≤ day) (last : day < 146097) :
    0 ≤ yearOfEra day ∧ yearOfEra day < 400 ∧ ∃ rest, day = marchStart (yearOfEra day) + rest ∧
      0 ≤ rest ∧ rest ≤ 365 ∧ (rest = 365 → isLeap (yearOfEra day + 1) = true) := by
  obtain ⟨century, cycle, year, rest, split⟩ := exists_eraSplit first last
  rw [yearOfEra_eq split]
  obtain ⟨sum, centuries, cycles, years, rests, longYear, longCycle⟩ := split
  refine ⟨by omega, by omega, rest, ?_, rests.1, rests.2, fun last => ?_⟩
  · have leaps : (100 * century + 4 * cycle + year) / 4 = 25 * century + cycle := by omega
    have skipped : (100 * century + 4 * cycle + year) / 100 = century := by omega
    unfold marchStart
    omega
  · rw [isLeap_iff]
    omega

/-- The day of a year that starts in March, counted from 0. -/
def ofMarch (year dayOfYear : Int) : Day :=
  let monthFromMarch := (5 * dayOfYear + 2) / 153
  let day := dayOfYear - (153 * monthFromMarch + 2) / 5 + 1
  let month := if monthFromMarch < 10 then monthFromMarch + 3 else monthFromMarch - 9
  ⟨if month ≤ 2 then year + 1 else year, month.toNat, day.toNat⟩

theorem ofMarch_spec {year dayOfYear : Int} (first : 0 ≤ dayOfYear) (last : dayOfYear ≤ 365)
    (leap : dayOfYear = 365 → isLeap (year + 1) = true) :
    (ofMarch year dayOfYear).Valid ∧
      (ofMarch year dayOfYear).number = marchStart year + dayOfYear - 719468 := by
  obtain ⟨month, isMonth⟩ : ∃ month, month = (5 * dayOfYear + 2) / 153 := ⟨_, rfl⟩
  obtain ⟨day, isDay⟩ : ∃ day, day = dayOfYear - beforeMonth month + 1 := ⟨_, rfl⟩
  have started : 1 ≤ day := by
    unfold beforeMonth at isDay
    omega
  have within : dayOfYear < beforeMonth (month + 1) := by
    unfold beforeMonth
    omega
  -- January and February, the last months of a year from March, belong to the next year.
  by_cases early : month < 10
  · have eq : ofMarch year dayOfYear = ⟨year, (month + 3).toNat, day.toNat⟩ := by
      simp only [ofMarch, ← isMonth, if_pos early]
      rw [if_neg (by omega), isDay, beforeMonth]
    have late : ¬ (month + 3).toNat ≤ 2 := by omega
    have length := monthLength_late year late (by omega)
    have fromMarch : ((month + 3).toNat : Int) - 3 = month := by omega
    rw [show ((month + 3).toNat : Int) - 2 = month + 1 by omega, fromMarch] at length
    rw [eq, Day.valid_mk, number_of_late year late, fromMarch]
    omega
  · have eq : ofMarch year dayOfYear = ⟨year + 1, (month - 9).toNat, day.toNat⟩ := by
      simp only [ofMarch, ← isMonth, if_neg early]
      rw [if_pos (by omega), isDay, beforeMonth]
    have fromMarch : ((month - 9).toNat : Int) + 9 = month := by omega
    have length : day ≤ monthLength (year + 1) (month - 9).toNat := by
      obtain january | february : month = 10 ∨ month = 11 := by omega
      · rw [january] at within isDay ⊢
        have : monthLength (year + 1) (10 - 9 : Int).toNat = 31 := rfl
        simp only [beforeMonth] at within isDay
        omega
      · rw [february] at isDay ⊢
        have february := monthLength_february (year + 1)
        rw [show (11 - 9 : Int).toNat = 2 from rfl, february]
        simp only [beforeMonth] at isDay
        split
        · omega
        · rename_i common
          have : dayOfYear ≠ 365 := fun full => common (leap full)
          omega
    rw [eq, Day.valid_mk, number_of_early _ (by omega), Int.add_sub_cancel, fromMarch]
    omega

theorem ofNumber_eq (number : Int) :
    ofNumber number =
      ofMarch (yearOfEra ((number + 719468) % 146097) + (number + 719468) / 146097 * 400)
        ((number + 719468) % 146097 - (365 * yearOfEra ((number + 719468) % 146097) +
          yearOfEra ((number + 719468) % 146097) / 4 -
          yearOfEra ((number + 719468) % 146097) / 100)) := rfl

theorem ofNumber_spec (number : Int) :
    (ofNumber number).Valid ∧ (ofNumber number).number = number := by
  obtain ⟨era, isEra⟩ : ∃ era, era = (number + 719468) / 146097 := ⟨_, rfl⟩
  obtain ⟨day, isDay⟩ : ∃ day, day = (number + 719468) % 146097 := ⟨_, rfl⟩
  have started : 0 ≤ day := by omega
  have within : day < 146097 := by omega
  obtain ⟨firstYear, lastYear, rest, isRest, first, last, leap⟩ := rest_of_era started within
  rw [ofNumber_eq, ← isEra, ← isDay]
  generalize yearOfEra day = year at *
  have dayOfYear : day - (365 * year + year / 4 - year / 100) = rest := by
    unfold marchStart at isRest
    omega
  have start : marchStart (year + era * 400) = marchStart year + era * 146097 := by
    have leaps : (year + era * 400) / 4 = year / 4 + era * 100 := by omega
    have skipped : (year + era * 400) / 100 = year / 100 + era * 4 := by omega
    have kept : (year + era * 400) / 400 = year / 400 + era := by omega
    unfold marchStart
    omega
  have next : year + era * 400 + 1 = year + 1 + era * 400 := by omega
  rw [dayOfYear]
  have fullYear : rest = 365 → isLeap (year + era * 400 + 1) = true := fun full => by
    rw [next, isLeap_add_era, leap full]
  obtain ⟨valid, isNumber⟩ := ofMarch_spec first last fullYear
  exact ⟨valid, by omega⟩

theorem ofNumber_number {d : Day} (valid : d.Valid) : ofNumber d.number = d :=
  Day.number_inj (ofNumber_spec d.number).1 valid (ofNumber_spec d.number).2

end OfNumber
end RowStore.Calendar
