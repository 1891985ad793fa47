import FaultAction.Timestamp.Basic

namespace FaultAction

/-!
# Instants — days and seconds counted through

Dates have a day after and a day before, and instants are shifted by going there.  That this is
right is seen by counting the days and the seconds from the beginning of the year 1:

* `daysBeforeYear`, `daysOfMonths` — the days before a year, and those of its first months;
* `Date.dayNumber`           — the days before a date; `dayNumber_injective`, it tells dates apart;
* `Date.next?_eq_some_iff`, `Date.prev?_eq_some_iff` — the day after has the next number and the day
  before the previous one, through the ends of months, leap days and years;
* `Timestamp.seconds`        — the seconds before an instant;
* `Timestamp.shift?_eq_some_iff` — an instant is shifted by as many seconds as its minutes have;
* `Timestamp.exists_shift?_iff`  — as far as there are years.
-/

/-! ### Years and months -/

/-- The days from the beginning of the year 1 to that of `year`, with a leap day for each leap
    year. -/
def daysBeforeYear (year : Int) : Int :=
  365 * (year - 1) + (year - 1) / 4 - (year - 1) / 100 + (year - 1) / 400

/-- The days of the first months of `year`, as many months as are counted. -/
def daysOfMonths (year : Int) : Nat → Nat
  | 0 => 0
  | count + 1 => daysOfMonths year count + daysInMonth year (count + 1)

/-- A month of any `year` has at least 28 days. -/
theorem le_daysInMonth (year : Int) (month : Nat) : 28 ≤ daysInMonth year month := by
  unfold daysInMonth
  split
  · split <;> decide
  · split <;> decide

/-- Twelve months of a `year` have 365 days, and one more in leap years. -/
theorem daysOfMonths_twelve (year : Int) :
    daysOfMonths year 12 = if isLeapYear year then 366 else 365 := by
  cases h : isLeapYear year <;> simp [daysOfMonths, daysInMonth, h]

/-- More months, `count'` of them, have more days, if anything. -/
theorem daysOfMonths_le (year : Int) {count count' : Nat} (h : count ≤ count') :
    daysOfMonths year count ≤ daysOfMonths year count' := by
  induction h with
  | refl => exact Nat.le_refl _
  | step _ ih => exact Nat.le_trans ih (Nat.le_add_right _ _)

/-- The next year begins after the twelve months of `year`. -/
theorem daysBeforeYear_succ (year : Int) :
    daysBeforeYear (year + 1) = daysBeforeYear year + daysOfMonths year 12 := by
  rw [daysOfMonths_twelve]
  unfold daysBeforeYear isLeapYear
  by_cases h4 : year % 4 = 0 <;> by_cases h100 : year % 100 = 0 <;>
    by_cases h400 : year % 400 = 0 <;> simp [h4, h100, h400] <;> omega

/-- A later year `year'` begins no sooner. -/
theorem daysBeforeYear_le {year year' : Int} (h : year ≤ year') :
    daysBeforeYear year ≤ daysBeforeYear year' := by
  unfold daysBeforeYear
  omega

/-! ### Days -/

namespace Date

variable {d e : Date}

/-- Dates `d` and `e` of one year, month and day are equal. -/
theorem ext (year : d.year = e.year) (month : d.month = e.month) (day : d.day = e.day) : d = e := by
  cases d; cases e; cases year; cases month; cases day; rfl

/-- The date that is made of a year, a month and a day has them, and no other date has. -/
theorem of?_eq_some_iff {year : Int} {month day : Nat} :
    of? year month day = some d ↔ d.year = year ∧ d.month = month ∧ d.day = day := by
  unfold of?
  constructor
  · intro h
    split at h
    · cases h
      exact ⟨rfl, rfl, rfl⟩
    · cases h
  · rintro ⟨rfl, rfl, rfl⟩
    exact dif_pos d.valid

/-- The days from the beginning of the year 1 to that of the date `d`. -/
def dayNumber (d : Date) : Int :=
  daysBeforeYear d.year + daysOfMonths d.year (d.month - 1) + (d.day - 1)

/-- A date `d` lies before the beginning of the next month of its year. -/
theorem dayOfYear_lt (d : Date) :
    daysOfMonths d.year (d.month - 1) + (d.day - 1) < daysOfMonths d.year d.month := by
  obtain ⟨-, -, hmonth, -, hday, hday'⟩ := d.valid
  obtain ⟨count, hcount⟩ : ∃ count, d.month = count + 1 := ⟨d.month - 1, by omega⟩
  rw [hcount] at hday' ⊢
  rw [daysOfMonths, Nat.add_sub_cancel]
  omega

/-- A date `d` lies before the beginning of the next year. -/
theorem dayNumber_lt (d : Date) : d.dayNumber < daysBeforeYear (d.year + 1) := by
  have hyear := d.dayOfYear_lt
  obtain ⟨-, -, -, hmonth, hday, -⟩ := d.valid
  have hmonths := daysOfMonths_le d.year hmonth
  rw [daysBeforeYear_succ, dayNumber]
  omega

/-- A date `d` does not lie before the beginning of its year. -/
theorem le_dayNumber (d : Date) : daysBeforeYear d.year ≤ d.dayNumber := by
  obtain ⟨-, -, -, -, hday, -⟩ := d.valid
  rw [dayNumber]
  omega

/-- Of dates in different years, `e` in the later one has the greater number. -/
theorem dayNumber_lt_of_year_lt (h : d.year < e.year) : d.dayNumber < e.dayNumber := by
  have hd := d.dayNumber_lt
  have he := e.le_dayNumber
  have hyears := daysBeforeYear_le (show d.year + 1 ≤ e.year by omega)
  omega

/-- Of dates in different months of a year, `e` in the later one has the greater number. -/
theorem dayNumber_lt_of_month_lt (hyear : d.year = e.year) (h : d.month < e.month) :
    d.dayNumber < e.dayNumber := by
  have hd := d.dayOfYear_lt
  obtain ⟨-, -, -, -, hday, -⟩ := d.valid
  obtain ⟨-, -, hmonth, -, hday', -⟩ := e.valid
  have hmonths := daysOfMonths_le d.year (show d.month ≤ e.month - 1 by omega)
  rw [dayNumber, dayNumber, ← hyear]
  omega

/-- **Numbers of days.**  Different dates have different numbers, so that dates `d` and `e` of one
    number are equal. -/
theorem dayNumber_injective (h : d.dayNumber = e.dayNumber) : d = e := by
  -- dates with one number lie neither in different years nor in different months
  have hyear : d.year = e.year := by
    rcases Int.lt_trichotomy d.year e.year with hlt | heq | hlt
    · have := dayNumber_lt_of_year_lt hlt
      omega
    · exact heq
    · have := dayNumber_lt_of_year_lt hlt
      omega
  have hmonth : d.month = e.month := by
    rcases Nat.lt_trichotomy d.month e.month with hlt | heq | hlt
    · have := dayNumber_lt_of_month_lt hyear hlt
      omega
    · exact heq
    · have := dayNumber_lt_of_month_lt hyear.symm hlt
      omega
  obtain ⟨-, -, -, -, hday, -⟩ := d.valid
  obtain ⟨-, -, -, -, hday', -⟩ := e.valid
  rw [dayNumber, dayNumber, hyear, hmonth] at h
  exact ext hyear hmonth (by omega)

/-! ### The day after and the day before -/

/-- The number of a date `d` in a month counted from zero, so that the months before it are `month`
    many. -/
theorem dayNumber_eq {month : Nat} (h : d.month = month + 1) :
    d.dayNumber = daysBeforeYear d.year + daysOfMonths d.year month + (d.day - 1) := by
  rw [dayNumber, h, Nat.add_sub_cancel]

/-- The day after `d`, if there is one, has the next number. -/
theorem dayNumber_of_next? (h : d.next? = some e) : e.dayNumber = d.dayNumber + 1 := by
  obtain ⟨-, -, hmonth, hmonth', hday, hday'⟩ := d.valid
  obtain ⟨month, hm⟩ : ∃ month, d.month = month + 1 := ⟨d.month - 1, by omega⟩
  rw [dayNumber_eq hm]
  rw [hm] at hday' hmonth'
  unfold next? at h
  split at h
  · -- within a month
    obtain ⟨hy, hm', hd⟩ := of?_eq_some_iff.1 h
    rw [dayNumber_eq (hm'.trans hm), hy, hd]
    omega
  · next hlast =>
    rw [hm] at hlast h
    split at h
    · -- from the last day of a month to the first of the next
      obtain ⟨hy, hm', hd⟩ := of?_eq_some_iff.1 h
      rw [dayNumber_eq hm', hy, hd, daysOfMonths]
      omega
    · next hdecember =>
      -- from the last day of a year to the first of the next
      obtain rfl : month = 11 := by omega
      obtain ⟨hy, hm', hd⟩ := of?_eq_some_iff.1 h
      rw [dayNumber_eq (hm'.trans (Nat.zero_add 1).symm), hy, hd, daysBeforeYear_succ,
        daysOfMonths, daysOfMonths]
      omega

/-- The day before `d`, if there is one, has the previous number, for its day after is `d`. -/
theorem dayNumber_of_prev? (h : d.prev? = some e) : e.dayNumber + 1 = d.dayNumber := by
  obtain ⟨-, -, hmonth, hmonth', hday, hday'⟩ := d.valid
  have hnext : e.next? = some d := by
    unfold prev? at h
    unfold next?
    -- within a month, from its first day, and from the first day of a year
    split at h
    · obtain ⟨hy, hm, hd⟩ := of?_eq_some_iff.1 h
      rw [hy, hm, hd, if_pos (by omega), Nat.sub_add_cancel hday]
      exact of?_eq_some_iff.2 ⟨rfl, rfl, rfl⟩
    · split at h
      · obtain ⟨hy, hm, hd⟩ := of?_eq_some_iff.1 h
        rw [hy, hm, hd, if_neg (by omega), if_pos (by omega), Nat.sub_add_cancel hmonth]
        exact of?_eq_some_iff.2 ⟨rfl, rfl, by omega⟩
      · obtain ⟨hy, hm, hd⟩ := of?_eq_some_iff.1 h
        have hdecember : daysInMonth (d.year - 1) 12 = 31 := rfl
        rw [hy, hm, hd, hdecember, if_neg (by decide), if_neg (by decide)]
        exact of?_eq_some_iff.2 ⟨by omega, by omega, by omega⟩
  exact (dayNumber_of_next? hnext).symm

/-- Every date `d` but the last one has a day after. -/
theorem exists_next? (h : d.dayNumber + 1 < daysBeforeYear (lastYear + 1)) :
    ∃ e, d.next? = some e := by
  obtain ⟨hfirst, hlast, hmonth, hmonth', hday, hday'⟩ := d.valid
  have hshort := le_daysInMonth d.year (d.month + 1)
  unfold next?
  split
  · next hlt => exact ⟨_, dif_pos ⟨hfirst, hlast, hmonth, hmonth', by omega, hlt⟩⟩
  · next hend =>
    split
    · next hlt => exact ⟨_, dif_pos ⟨hfirst, hlast, by omega, hlt, Nat.le_refl 1, by omega⟩⟩
    · next hdecember =>
      -- the last day of a year is followed by the first of the next, unless it is the last year
      have hend' : d.dayNumber + 1 = daysBeforeYear (d.year + 1) := by
        have htwelve : d.month = 12 := by omega
        have hmonths : daysOfMonths d.year 12 =
            daysOfMonths d.year 11 + daysInMonth d.year 12 := rfl
        rw [htwelve] at hend hday'
        rw [dayNumber_eq (show d.month = 11 + 1 from htwelve), daysBeforeYear_succ, hmonths]
        omega
      have hyear : d.year + 1 ≤ lastYear := by
        refine Int.not_lt.1 (fun hgt => ?_)
        have hyears := daysBeforeYear_le (show lastYear + 1 ≤ d.year + 1 by omega)
        omega
      have hdays := le_daysInMonth (d.year + 1) 1
      exact ⟨_, dif_pos ⟨by omega, hyear, by decide, by decide, by decide, by omega⟩⟩

/-- Every date `d` but the first one has a day before. -/
theorem exists_prev? (h : daysBeforeYear firstYear < d.dayNumber) : ∃ e, d.prev? = some e := by
  obtain ⟨hfirst, hlast, hmonth, hmonth', hday, hday'⟩ := d.valid
  have hshort := le_daysInMonth d.year (d.month - 1)
  unfold prev?
  split
  · exact ⟨_, dif_pos ⟨hfirst, hlast, hmonth, hmonth', by omega, by omega⟩⟩
  · split
    · exact ⟨_, dif_pos ⟨hfirst, hlast, by omega, by omega, by omega, Nat.le_refl _⟩⟩
    · next hjanuary =>
      -- the first day of a year is preceded by the last of the one before, unless it is the first
      have hstart : d.dayNumber = daysBeforeYear d.year := by
        have h0 : d.month = 0 + 1 := by omega
        rw [dayNumber_eq h0, daysOfMonths]
        omega
      have hyear : firstYear ≤ d.year - 1 := by
        refine Int.not_lt.1 (fun hlt => ?_)
        have hyears := daysBeforeYear_le (show d.year ≤ firstYear by omega)
        omega
      exact ⟨_, dif_pos ⟨hyear, by omega, by decide, by decide, by decide, Nat.le_refl 31⟩⟩

/-- **The day after** a date `d` is the date with the next number. -/
theorem next?_eq_some_iff : d.next? = some e ↔ e.dayNumber = d.dayNumber + 1 := by
  refine ⟨dayNumber_of_next?, fun h => ?_⟩
  have hlast : daysBeforeYear (e.year + 1) ≤ daysBeforeYear (lastYear + 1) :=
    daysBeforeYear_le (Int.add_le_add_right e.valid.2.1 1)
  have hlt := e.dayNumber_lt
  obtain ⟨e', he'⟩ := exists_next? (d := d) (by omega)
  have hnumber := dayNumber_of_next? he'
  rw [he', dayNumber_injective (show e'.dayNumber = e.dayNumber by omega)]

/-- **The day before** a date `d` is the date with the previous number. -/
theorem prev?_eq_some_iff : d.prev? = some e ↔ e.dayNumber + 1 = d.dayNumber := by
  refine ⟨dayNumber_of_prev?, fun h => ?_⟩
  have hfirst : daysBeforeYear firstYear ≤ daysBeforeYear e.year := daysBeforeYear_le e.valid.1
  have hle := e.le_dayNumber
  obtain ⟨e', he'⟩ := exists_prev? (d := d) (by omega)
  have hnumber := dayNumber_of_prev? he'
  rw [he', dayNumber_injective (show e'.dayNumber = e.dayNumber by omega)]

end Date

/-! ### Seconds -/

namespace Timestamp

/-- The seconds from the beginning of the year 1 to that of the instant `t`.  A leap second counts
    as the second before it. -/
def seconds (t : Timestamp) : Int := t.date.dayNumber * 86400 + t.second

/-- Instants `t` and `u` of one date, second and nanosecond are equal. -/
theorem ext {t u : Timestamp} (date : t.date = u.date) (second : t.second = u.second)
    (nano : t.nano = u.nano) : t = u := by
  cases t; cases u; cases date; cases second; cases nano; rfl

/-- The date `e` of a second `s` counted from the beginning of `d`, a day before it or a day
    after. -/
theorem shiftedDate_eq_some_iff {d e : Date} {s : Int} (hlower : -86400 ≤ s) (hupper : s < 172800) :
    (if s < 0 then d.prev? else if s < 86400 then some d else d.next?) = some e ↔
      e.dayNumber = d.dayNumber + s / 86400 := by
  split
  · have hday : s / 86400 = -1 := by omega
    rw [Date.prev?_eq_some_iff, hday]
    omega
  · split
    · -- the seconds stay within the day, so the date is the same
      have hday : s / 86400 = 0 := by omega
      rw [hday, Int.add_zero]
      constructor
      · intro h
        cases h
        rfl
      · intro h
        rw [Date.dayNumber_injective h]
    · have hday : s / 86400 = 1 := by omega
      rw [Date.next?_eq_some_iff, hday]

variable {t u : Timestamp} {minutes : Int}

/-- **Shifts.**  An instant `t` is shifted by less than a day to the one as many seconds later as
    the `minutes` have, with the same nanoseconds. -/
theorem shift?_eq_some_iff (h : minutes.natAbs < 1440) :
    t.shift? minutes = some u ↔
      u.seconds = t.seconds + 60 * minutes ∧ u.nano = t.nano := by
  have hsecond := t.second_lt
  have hsecond' := u.second_lt
  -- a shift changes the date by as many days as the seconds overflow
  have hdate := shiftedDate_eq_some_iff (d := t.date) (e := u.date)
    (s := t.second + 60 * minutes) (by omega) (by omega)
  unfold shift? seconds
  constructor
  · intro hshift
    obtain ⟨date, hsome, rfl⟩ := Option.map_eq_some_iff.1 hshift
    have hnumber := hdate.1 hsome
    refine ⟨?_, rfl⟩
    simp only at hnumber ⊢
    omega
  · rintro ⟨hseconds, hnano⟩
    have hsome := hdate.2 (by omega)
    simp only [hsome, Option.map_some, Option.some.injEq]
    exact ext rfl (by simp only; omega) hnano.symm

/-- An instant `t` can be shifted by less than a day exactly if that does not lead out of the
    years. -/
theorem exists_shift?_iff (h : minutes.natAbs < 1440) :
    (∃ u, t.shift? minutes = some u) ↔
      daysBeforeYear firstYear * 86400 ≤ t.seconds + 60 * minutes ∧
        t.seconds + 60 * minutes < daysBeforeYear (lastYear + 1) * 86400 := by
  have hsecond := t.second_lt
  constructor
  · rintro ⟨u, hu⟩
    obtain ⟨hseconds, -⟩ := (shift?_eq_some_iff h).1 hu
    have hsecond' := u.second_lt
    have hfirst := daysBeforeYear_le u.date.valid.1
    have hlast := daysBeforeYear_le (Int.add_le_add_right u.date.valid.2.1 1)
    have hle := u.date.le_dayNumber
    have hlt := u.date.dayNumber_lt
    unfold seconds at hseconds
    unfold seconds
    omega
  · rintro ⟨hlower, hupper⟩
    unfold seconds at hlower hupper
    unfold shift?
    simp only
    -- the three cases of a shift: to the day before, within the day, and to the day after
    split
    · obtain ⟨d, hd⟩ := Date.exists_prev? (d := t.date) (by omega)
      rw [hd]
      exact ⟨_, rfl⟩
    · split
      · exact ⟨_, rfl⟩
      · obtain ⟨d, hd⟩ := Date.exists_next? (d := t.date) (by omega)
        rw [hd]
        exact ⟨_, rfl⟩

end Timestamp

end FaultAction
