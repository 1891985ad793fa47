namespace FaultAction

/-!
# Instants — days, seconds and leap seconds

Instants of UTC, to the nanosecond:

* `Date`               — a day of the proleptic Gregorian calendar, in the years from `firstYear` to
  `lastYear`;
* `Timestamp`          — a day, a second of it and nanoseconds; a leap second counts as the second
  before it, with `10 ^ 9` nanoseconds more;
* `Timestamp.shift?`   — the instant some minutes later;
* `Timestamp.ofUnix?`  — the instant some seconds after 1970 began.
-/

/-! ### Days -/

/-- Is there a 29 February in the `year`? -/
def isLeapYear (year : Int) : Bool := year % 4 = 0 && (year % 100 ≠ 0 || year % 400 = 0)

/-- The number of days that the `month` has in the `year`. -/
def daysInMonth (year : Int) (month : Nat) : Nat :=
  if month = 2 then if isLeapYear year then 29 else 28
  else if month = 4 ∨ month = 6 ∨ month = 9 ∨ month = 11 then 30
  else 31

/-- The first year that a date can have.  The calendar goes on before it, but no instant is
    there. -/
def firstYear : Int := -262143

/-- The last year that a date can have, as `firstYear` is the first one. -/
def lastYear : Int := 262142

/-- There is a day with these numbers, in a year from `firstYear` to `lastYear`. -/
def IsDate (year : Int) (month day : Nat) : Prop :=
  firstYear ≤ year ∧ year ≤ lastYear ∧ 1 ≤ month ∧ month ≤ 12 ∧
    1 ≤ day ∧ day ≤ daysInMonth year month

instance (year : Int) (month day : Nat) : Decidable (IsDate year month day) :=
  inferInstanceAs (Decidable (_ ∧ _))

/-- A day of the calendar, together with the proof `valid` that it exists. -/
structure Date where
  year : Int
  month : Nat
  day : Nat
  valid : IsDate year month day
  deriving DecidableEq

namespace Date

/-- The day of a `year`, a `month` and a `day` of the month, if there is one. -/
def of? (year : Int) (month day : Nat) : Option Date :=
  if h : IsDate year month day then some ⟨year, month, day, h⟩ else none

/-- The day after `d`, which may be in the next month or the next year.  The last day of `lastYear`
    has none. -/
def next? (d : Date) : Option Date :=
  if d.day < daysInMonth d.year d.month then of? d.year d.month (d.day + 1)
  else if d.month < 12 then of? d.year (d.month + 1) 1
  else of? (d.year + 1) 1 1

/-- The day before `d`, which may be in the previous month or year.  The first day of `firstYear`
    has none. -/
def prev? (d : Date) : Option Date :=
  if 1 < d.day then of? d.year d.month (d.day - 1)
  else if 1 < d.month then of? d.year (d.month - 1) (daysInMonth d.year (d.month - 1))
  else of? (d.year - 1) 12 31

/-- The day that is some `days` after 1 January 1970.  Years are counted from March on, so that a
    leap day ends its year, and in cycles of 400 years. -/
def ofUnixDay? (days : Int) : Option Date :=
  let shifted := days + 719468
  let cycle := shifted / 146097
  let dayOfCycle := (shifted % 146097).toNat
  let yearOfCycle :=
    (dayOfCycle - dayOfCycle / 1460 + dayOfCycle / 36524 - dayOfCycle / 146096) / 365
  let dayOfYear := dayOfCycle - (365 * yearOfCycle + yearOfCycle / 4 - yearOfCycle / 100)
  let fromMarch := (5 * dayOfYear + 2) / 153
  let day := dayOfYear - (153 * fromMarch + 2) / 5 + 1
  let month := if fromMarch < 10 then fromMarch + 3 else fromMarch - 9
  let year := yearOfCycle + cycle * 400 + (if month ≤ 2 then 1 else 0)
  of? year month day

end Date

/-! ### Instants -/

/-- An instant of UTC: a day `date`, a `second` of it, and nanoseconds. -/
structure Timestamp where
  date : Date
  /-- The second of the day, which is below 86400 also on a day with a leap second. -/
  second : Nat
  /-- Nanoseconds; from `10 ^ 9` on they belong to a leap second after `second`. -/
  nano : Nat
  second_lt : second < 86400
  nano_lt : nano < 2000000000
  leap : 1000000000 ≤ nano → second % 60 = 59
  deriving DecidableEq

namespace Timestamp

/-- The instant some `minutes` after `t`, or before it if negative, less than a day apart.
    Nanoseconds stay as they are, so a leap second stays one. -/
def shift? (t : Timestamp) (minutes : Int) : Option Timestamp :=
  let s : Int := t.second + 60 * minutes
  let date? := if s < 0 then t.date.prev? else if s < 86400 then some t.date else t.date.next?
  let s' := s % 86400
  date?.map fun date =>
    { date
      second := s'.toNat
      nano := t.nano
      second_lt := by omega
      nano_lt := t.nano_lt
      leap := fun h => by have := t.leap h; omega }

/-- The instant some `seconds` after 1970 began, with nanoseconds, if there is one. -/
def ofUnix? (seconds : Int) (nano : Nat) : Option Timestamp := do
  let date ← Date.ofUnixDay? (seconds / 86400)
  if h : nano < 2000000000 ∧ (1000000000 ≤ nano → seconds % 60 = 59) then
    some
      { date
        second := (seconds % 86400).toNat
        nano
        second_lt := by omega
        nano_lt := h.1
        leap := fun hn => by have := h.2 hn; omega }
  else none

end Timestamp

end FaultAction
