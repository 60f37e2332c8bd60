import Mathlib.Tactic.IntervalCases
import SeriesQuery.Time.Calendar

/-!
# Days and dates

The numbers of dates are those of the calendar: each date has the number after that of the day
before it (`toDays_next`), and 1 January 1970 has number 0.  Every whole number is the number of
the date that is worked out from it, and this date exists (`toDays_ofDays`, `exists_ofDays`).

The date is worked out by levels, and at two of them the quotient is cut at its last value, since
the last century of an era and the last year of four may have a day more.  What carries the proofs
is that only those may: a cut quotient leaves at most a whole level, and a whole level only if the
quotient is the last (`cut_quotient`).  Where the day more is the 366th of a year, that year is
then a leap year (`Parts.isLeap_succ`).
-/

namespace SeriesQuery.Date

/-! ## Years from March -/

/-- Days from 1 March of the year 0 to 1 March of a year. -/
def marchStart (year : Int) : Int :=
  year / 400 * 146097 + (year % 400 * 365 + year % 400 / 4 - year % 400 / 100)

/-- Days from 1 March to the start of a month, counted from March. -/
def monthStart (monthFromMarch : Nat) : Nat := (153 * monthFromMarch + 2) / 5

/-- A date by a year that starts in March and a month counted from March. -/
def ofMarch (year : Int) (monthFromMarch day : Nat) : Date :=
  let month := if monthFromMarch < 10 then monthFromMarch + 3 else monthFromMarch - 9
  ⟨if month ≤ 2 then year + 1 else year, month, day⟩

theorem isLeap_iff {year : Int} :
    isLeap year = true ↔ year % 4 = 0 ∧ (year % 100 ≠ 0 ∨ year % 400 = 0) := by
  simp [isLeap]

theorem marchStart_succ (year : Int) :
    marchStart (year + 1) = marchStart year + if isLeap (year + 1) then 366 else 365 := by
  unfold marchStart
  split
  next h =>
    rw [isLeap_iff] at h
    omega
  next h =>
    rw [isLeap_iff] at h
    omega

theorem ofMarch_of_lt {m : Nat} (h : m < 10) (year : Int) (day : Nat) :
    ofMarch year m day = ⟨year, m + 3, day⟩ := by
  have hmonth : ¬ m + 3 ≤ 2 := by omega
  rw [ofMarch, if_pos h, if_neg hmonth]

theorem ofMarch_of_ge {m : Nat} (h : 10 ≤ m) (hlt : m < 12) (year : Int) (day : Nat) :
    ofMarch year m day = ⟨year + 1, m - 9, day⟩ := by
  have hmonth : m - 9 ≤ 2 := by omega
  rw [ofMarch, if_neg (Nat.not_lt.mpr h), if_pos hmonth]

theorem toDays_ofMarch (year : Int) {m : Nat} (h : m < 12) (day : Nat) :
    (ofMarch year m day).toDays = marchStart year + monthStart m + day - 1 - epochOffset := by
  by_cases hm : m < 10
  · have hback : (m + 3 + 9) % 12 = m := by omega
    have hmonth : ¬ m + 3 ≤ 2 := by omega
    rw [ofMarch_of_lt hm, toDays, marchStart, monthStart]
    dsimp only
    rw [if_neg hmonth, hback]
    omega
  · have hback : (m - 9 + 9) % 12 = m := by omega
    have hmonth : m - 9 ≤ 2 := by omega
    rw [ofMarch_of_ge (Nat.not_lt.mp hm) h, toDays, marchStart, monthStart]
    dsimp only
    rw [if_pos hmonth, hback, Int.add_sub_cancel]
    omega

/-- Every month is counted from March. -/
theorem exists_eq_ofMarch {d : Date} (h : d.Exists) :
    ∃ year m, m < 12 ∧ d = ofMarch year m d.day := by
  obtain ⟨hone, htwelve, -, -⟩ := h
  obtain ⟨year, month, day⟩ := d
  dsimp only at hone htwelve ⊢
  by_cases hmonth : month ≤ 2
  · refine ⟨year - 1, month + 9, by omega, ?_⟩
    rw [ofMarch_of_ge (by omega) (by omega), Int.sub_add_cancel, Nat.add_sub_cancel]
  · refine ⟨year, month - 3, by omega, ?_⟩
    rw [ofMarch_of_lt (by omega), Nat.sub_add_cancel (by omega)]

theorem daysInMonth_le (year : Int) (month : Nat) : daysInMonth year month ≤ 31 := by
  rw [daysInMonth]
  split
  next => split <;> decide
  next => split <;> decide

/-! ## Day after day -/

/-- The date of the following day. -/
def next (d : Date) : Date :=
  if d.day < daysInMonth d.year d.month then ⟨d.year, d.month, d.day + 1⟩
  else if d.month < 12 then ⟨d.year, d.month + 1, 1⟩
  else ⟨d.year + 1, 1, 1⟩

/-- The number of days of a month, counted from March.  February is the last. -/
def marchMonthLength (year : Int) (m : Nat) : Nat :=
  if m < 11 then monthStart (m + 1) - monthStart m else if isLeap (year + 1) then 29 else 28

theorem daysInMonth_ofMarch (year : Int) {m : Nat} (h : m < 12) (day : Nat) :
    daysInMonth (ofMarch year m day).year (ofMarch year m day).month = marchMonthLength year m := by
  interval_cases m <;> rfl

theorem exists_ofMarch {year : Int} {m day : Nat} (h : m < 12) (hpos : 1 ≤ day)
    (hday : day ≤ marchMonthLength year m) : (ofMarch year m day).Exists := by
  rw [← daysInMonth_ofMarch year h day] at hday
  have hmonth : 1 ≤ (ofMarch year m day).month ∧ (ofMarch year m day).month ≤ 12 := by
    by_cases hm : m < 10
    · rw [ofMarch_of_lt hm]
      dsimp only
      omega
    · rw [ofMarch_of_ge (Nat.not_lt.mp hm) h]
      dsimp only
      omega
  have hsame : (ofMarch year m day).day = day := rfl
  exact ⟨hmonth.1, hmonth.2, hsame ▸ hpos, hsame ▸ hday⟩

theorem next_ofMarch (year : Int) {m : Nat} (h : m < 12) (day : Nat) :
    (ofMarch year m day).next = if day < marchMonthLength year m then ofMarch year m (day + 1)
      else if m < 11 then ofMarch year (m + 1) 1 else ofMarch (year + 1) 0 1 := by
  rw [← daysInMonth_ofMarch year h day]
  interval_cases m <;> rfl

/-- The day after has the number after. -/
theorem toDays_next {d : Date} (h : d.Exists) : d.next.toDays = d.toDays + 1 := by
  obtain ⟨year, m, hm, hd⟩ := exists_eq_ofMarch h
  have hday : d.day ≤ marchMonthLength year m := by
    rw [← daysInMonth_ofMarch year hm d.day, ← hd]
    exact h.2.2.2
  rw [hd, next_ofMarch year hm, toDays_ofMarch year hm]
  split
  next =>
    rw [toDays_ofMarch year hm]
    omega
  next hlast =>
    split
    next hlt =>
      have hm' : m + 1 < 12 := Nat.succ_lt_succ hlt
      rw [toDays_ofMarch year hm']
      rw [marchMonthLength, if_pos hlt] at hlast hday
      have hstart : monthStart m ≤ monthStart (m + 1) := by
        unfold monthStart
        omega
      omega
    next hge =>
      obtain rfl : m = 11 := by omega
      rw [marchMonthLength, if_neg hge] at hlast hday
      have hmarch : monthStart 0 = 0 := rfl
      have hfebruary : monthStart 11 = 337 := rfl
      rw [toDays_ofMarch (year + 1) (by decide), marchStart_succ, hmarch, hfebruary]
      by_cases hleap : isLeap (year + 1) = true
      · rw [if_pos hleap] at hlast hday ⊢
        omega
      · rw [if_neg hleap] at hlast hday ⊢
        omega

/-! ## The date of a day -/

/-- A quotient that is cut at its last value leaves at most a whole level, and a whole level only
if it is the last. -/
theorem cut_quotient {n w last : Nat} (hw : 0 < w) (h : n ≤ (last + 1) * w) :
    ∃ rest, n = min (n / w) last * w + rest ∧ rest ≤ w ∧
      (rest = w → min (n / w) last = last) := by
  have hdiv := Nat.div_add_mod' n w
  have hmod := Nat.mod_lt n hw
  by_cases hlast : n / w ≤ last
  · rw [min_eq_left hlast]
    exact ⟨n % w, hdiv.symm, Nat.le_of_lt hmod, fun he => absurd he (Nat.ne_of_lt hmod)⟩
  · have hge : last * w ≤ n / w * w := Nat.mul_le_mul_right w (by omega)
    rw [min_eq_right (by omega)]
    rw [Nat.succ_mul] at h
    exact ⟨n - last * w, by omega, by omega, fun _ => rfl⟩

/-- A day of an era by century, four years, year and day, the years from March. -/
structure Parts (dayOfEra century quad year day : Nat) : Prop where
  sum_eq : dayOfEra = century * 36524 + quad * 1461 + year * 365 + day
  century_le : century ≤ 3
  quad_le : quad ≤ 24
  year_le : year ≤ 3
  day_le : day ≤ 365
  /-- Only the last year of four may have a 366th day, and in the last four years of a century
  only that of the last century. -/
  last : day = 365 → year = 3 ∧ (quad = 24 → century = 3)

theorem exists_parts {dayOfEra : Nat} (h : dayOfEra < 146097) :
    ∃ century dayOfCentury year day,
      century = min (dayOfEra / 36524) 3 ∧ dayOfCentury = dayOfEra - century * 36524 ∧
      year = min (dayOfCentury % 1461 / 365) 3 ∧ day = dayOfCentury % 1461 - year * 365 ∧
      Parts dayOfEra century (dayOfCentury / 1461) year day := by
  have hera : dayOfEra ≤ (3 + 1) * 36524 := by omega
  obtain ⟨dayOfCentury, hcentury, hrest, hlastCentury⟩ := cut_quotient (by decide) hera
  have hfour : dayOfCentury % 1461 ≤ (3 + 1) * 365 := by omega
  obtain ⟨day, hyear, hday, hlastYear⟩ := cut_quotient (by decide) hfour
  have hcentury_le : min (dayOfEra / 36524) 3 ≤ 3 := min_le_right _ _
  have hyear_le : min (dayOfCentury % 1461 / 365) 3 ≤ 3 := min_le_right _ _
  generalize hc : min (dayOfEra / 36524) 3 = century at hcentury hlastCentury hcentury_le
  generalize hy : min (dayOfCentury % 1461 / 365) 3 = year at hyear hlastYear hyear_le
  have hsum : dayOfEra = century * 36524 + dayOfCentury / 1461 * 1461 + year * 365 + day := by
    rw [Nat.add_assoc _ (year * 365), ← hyear, Nat.add_assoc, Nat.div_add_mod', ← hcentury]
  refine ⟨century, dayOfCentury, year, day, rfl, by omega, hy.symm, by omega, ?_⟩
  refine ⟨hsum, hcentury_le, by omega, hyear_le, hday, fun hlast => ⟨hlastYear hlast, ?_⟩⟩
  intro hquad
  have hyear3 := hlastYear hlast
  exact hlastCentury (by omega)

namespace Parts

variable {dayOfEra century quad year day : Nat}

theorem marchStart_eq (h : Parts dayOfEra century quad year day) (era : Int) :
    marchStart (era * 400 + (century * 100 + quad * 4 + year : Nat)) + day =
      era * 146097 + dayOfEra := by
  obtain ⟨hsum, hcentury, hquad, hyear, -, -⟩ := h
  unfold marchStart
  have hera : (era * 400 + (century * 100 + quad * 4 + year : Nat)) / 400 = era := by omega
  have hyearOfEra : (era * 400 + (century * 100 + quad * 4 + year : Nat)) % 400 =
      (century * 100 + quad * 4 + year : Nat) := by omega
  have hfour : ((century * 100 + quad * 4 + year : Nat) : Int) / 4 = century * 25 + quad := by omega
  have hhundred : ((century * 100 + quad * 4 + year : Nat) : Int) / 100 = century := by omega
  rw [hera, hyearOfEra, hfour, hhundred, hsum]
  omega

/-- The 366th day of a year that starts in March is the 29 February of the next. -/
theorem isLeap_succ (h : Parts dayOfEra century quad year day) (hday : day = 365) (era : Int) :
    isLeap (era * 400 + (century * 100 + quad * 4 + year : Nat) + 1) = true := by
  obtain ⟨hyear, hlast⟩ := h.last hday
  have hcentury := h.century_le
  have hquad := h.quad_le
  rw [isLeap_iff]
  omega

end Parts

/-- A day of a year from March is a day of one of its months. -/
theorem exists_month {year : Int} {day : Nat} (h : day ≤ 365)
    (hlast : day = 365 → isLeap (year + 1) = true) :
    ∃ m, m = (5 * day + 2) / 153 ∧ m < 12 ∧ monthStart m ≤ day ∧
      day < monthStart m + marchMonthLength year m := by
  have hmonth : (5 * day + 2) / 153 < 12 := by omega
  generalize hm : (5 * day + 2) / 153 = m at hmonth
  refine ⟨m, rfl, hmonth, ?_, ?_⟩
  · unfold monthStart
    omega
  · rw [marchMonthLength]
    split
    next hlt =>
      unfold monthStart
      omega
    next hge =>
      have hfebruary : monthStart m = 337 := by rw [show m = 11 by omega]; rfl
      rw [hfebruary]
      split
      next => omega
      next hleap =>
        have hne : day ≠ 365 := fun hd => hleap (hlast hd)
        omega

/-- The date that is worked out for a number, by year, month and day. -/
theorem exists_ofDays_eq (n : Int) :
    ∃ (year : Int) (m day : Nat), ofDays n = ofMarch year m day ∧ m < 12 ∧ 1 ≤ day ∧
      day ≤ marchMonthLength year m ∧
      marchStart year + monthStart m + day - 1 - epochOffset = n := by
  have hera : ((n + epochOffset) % 146097).toNat < 146097 := by omega
  obtain ⟨century, dayOfCentury, year, day, hc, hdoc, hy, hd, hparts⟩ := exists_parts hera
  have hstart := hparts.marchStart_eq ((n + epochOffset) / 146097)
  obtain ⟨m, hm, hlt, hge, hday⟩ := exists_month hparts.day_le
    (hparts.isLeap_succ · ((n + epochOffset) / 146097))
  refine ⟨(n + epochOffset) / 146097 * 400 +
    (century * 100 + dayOfCentury / 1461 * 4 + year : Nat), m, day - monthStart m + 1, ?_, hlt,
    by omega, by omega, by omega⟩
  subst hm hd hy hdoc hc
  rfl

/-- The date that is worked out from a number has that number. -/
theorem toDays_ofDays (n : Int) : (ofDays n).toDays = n := by
  obtain ⟨year, m, day, hdate, hm, -, -, hn⟩ := exists_ofDays_eq n
  rw [hdate, toDays_ofMarch year hm, hn]

/-- The calendar has the date that is worked out from a number. -/
theorem exists_ofDays (n : Int) : (ofDays n).Exists := by
  obtain ⟨year, m, day, hdate, hm, hpos, hday, -⟩ := exists_ofDays_eq n
  rw [hdate]
  exact exists_ofMarch hm hpos hday

end SeriesQuery.Date
