import FaultAction.Proofs.Timestamp.Parts
import FaultAction.Proofs.Wire.ReadBack
import FaultAction.Proofs.Timestamp.Calendar
import Mathlib.Data.List.Basic

namespace FaultAction

/-!
# Instants as text — reading back what was written

The text of an instant in UTC is read back part by part:

* `parse_clockChars` — the text of a clock is read part by part, whatever zone follows it;
* `clock?_reading`   — the parts are those of the clock, leap seconds included;
* `parse_text`       — the text of an instant in UTC is read as the instant;
* `readsBack`        — and so it is on the wire.

An instant may also be written with the date and time of any clock, followed by the minutes that
the clock runs ahead of UTC:

* `parseOffset_offsetChars` — the minutes are read back;
* `Shows`          — what a clock shows at an instant, told by counting seconds;
* `exists_shows_iff` — it shows a time as long as there are years;
* `parse_localText`  — the text of a clock is read as the instant.
-/

namespace Timestamp

/-! ### Bounds of the parts -/

/-- No month of any `year` has more than 31 days, so that two digits are enough for a day. -/
theorem daysInMonth_le (year : Int) (month : Nat) : daysInMonth year month ≤ 31 := by
  unfold daysInMonth
  split
  · split <;> decide
  · split <;> decide

/-! ### The text of a clock -/

/-- The parts that are read from the text of a clock `t` that runs ahead of UTC by `offset`. -/
def reading (t : Timestamp) (offset : Int) : Reading where
  year := t.date.year
  month := t.date.month
  day := t.date.day
  hour := t.second / 3600
  minute := t.second / 60 % 60
  second := t.second % 60 + t.nano / 1000000000
  nano := t.nano % 1000000000
  offset

/-- The text of a clock `t`, followed by a `zone`, part by part. -/
theorem clockChars_append (t : Timestamp) (zone : List Char) :
    clockChars t ++ zone =
      yearChars t.date.year ++ '-' :: (Decimal.padded 2 t.date.month ++
        '-' :: (Decimal.padded 2 t.date.day ++ 'T' :: (Decimal.padded 2 (t.second / 3600) ++
          ':' :: (Decimal.padded 2 (t.second / 60 % 60) ++
            ':' :: (Decimal.padded 2 (t.second % 60 + t.nano / 1000000000) ++
              (fractionChars (t.nano % 1000000000) ++ zone)))))) := by
  simp only [clockChars, dateChars, timeChars, List.append_assoc, List.cons_append, List.nil_append]

/-- **The clock.**  The text of a clock `t` is read part by part, if a `zone` follows that does not
    go on with the digits or the fraction. -/
theorem parse_clockChars (t : Timestamp) {zone : List Char} {offset : Int}
    (hdigit : NoDigitAhead zone) (hpoint : ∀ cs, zone ≠ '.' :: cs)
    (hzone : parseZone zone = .ok (offset, [])) :
    Reading.parse (clockChars t ++ zone) = .ok (t.reading offset) := by
  obtain ⟨hfirst, hlast, hmonth, hmonth', hday, hday'⟩ := t.date.valid
  have hdays : daysInMonth t.date.year t.date.month ≤ 31 := daysInMonth_le _ _
  have hsecond := t.second_lt
  have hnano := t.nano_lt
  have hleap := t.leap
  -- what each part is read as, whatever follows it
  have hyear := fun rest => parseYear_yearChars hfirst hlast
    (noDigitAhead_cons (c := '-') (by decide) rest)
  have hmiddle : ∀ rest, parseMiddle ('T' :: rest) = .ok ((), rest) := fun _ => rfl
  have hdash := parseSeparator_cons (c := '-') (by decide)
  have hcolon := parseSeparator_cons (c := ':') (by decide)
  have hmonths := parseField_padded hmonth hmonth' (by decide)
  have hdays := parseField_padded hday (Nat.le_trans hday' hdays) (by decide)
  have hhours : ∀ rest, parseField 0 23 (Decimal.padded 2 (t.second / 3600) ++ rest) =
      .ok (t.second / 3600, rest) := parseField_padded (Nat.zero_le _) (by omega) (by decide)
  have hminutes : ∀ rest, parseField 0 59 (Decimal.padded 2 (t.second / 60 % 60) ++ rest) =
      .ok (t.second / 60 % 60, rest) := parseField_padded (Nat.zero_le _) (by omega) (by decide)
  have hseconds : ∀ rest, parseField 0 60
      (Decimal.padded 2 (t.second % 60 + t.nano / 1000000000) ++ rest) =
      .ok (t.second % 60 + t.nano / 1000000000, rest) :=
    parseField_padded (Nat.zero_le _) (by omega) (by decide)
  have hfraction : parseFraction (fractionChars (t.nano % 1000000000) ++ zone) =
      .ok (t.nano % 1000000000, zone) := parseFraction_fractionChars (by omega) hdigit hpoint
  rw [clockChars_append]
  simp only [Reading.parse, hyear, hdash, hmonths, hdays, hmiddle, hhours, hcolon, hminutes,
    hseconds, hfraction, hzone, bind, Except.bind]
  rfl

/-! ### From parts to instants -/

/-- **The parts.**  The `reading` of a clock `t` shows that clock.  A leap second is written as
    second 60, and read as the second before with the nanoseconds that it had. -/
theorem clock?_reading (t : Timestamp) (offset : Int) :
    (t.reading offset).clock? = some t := by
  obtain ⟨date, second, nano, hsecond, hnano, hleap⟩ := t
  have hdate : Date.of? date.year date.month date.day = some date := dif_pos date.valid
  by_cases h : 1000000000 ≤ nano
  · -- in a leap second, the second is written one too high and the nanoseconds too low
    have hlast : second % 60 = 59 := hleap h
    have hone : nano / 1000000000 = 1 := by omega
    have hclock : second / 3600 * 3600 + second / 60 % 60 * 60 + 59 = second := by omega
    have hparts : nano % 1000000000 + 1000000000 = nano := by omega
    simp [Reading.clock?, reading, hdate, hlast, hone, hclock, hparts, hsecond, hnano]
  · have hzero : nano / 1000000000 = 0 := by omega
    have hplain : second % 60 ≠ 60 := by omega
    have hclock : second / 3600 * 3600 + second / 60 % 60 * 60 + second % 60 = second := by omega
    have hparts : nano % 1000000000 = nano := by omega
    simp [Reading.clock?, reading, hdate, hzero, hplain, hclock, hparts, hsecond, hnano, h]

/-- The instant `t` is shifted by no minutes to itself. -/
theorem shift?_zero (t : Timestamp) : t.shift? 0 = some t := by
  obtain ⟨date, second, nano, hsecond, hnano, hleap⟩ := t
  have hs : ((second : Int) + 60 * 0) % 86400 = second := by omega
  have hneg : ¬ ((second : Int) + 60 * 0 < 0) := by omega
  have hlt : (second : Int) + 60 * 0 < 86400 := by omega
  rw [shift?]
  show Option.map _ (if (second : Int) + 60 * 0 < 0 then _ else _) = _
  rw [if_neg hneg, if_pos hlt]
  simp only [Option.map_some, hs, Int.toNat_natCast]

/-- **Round trip.**  The text of an instant `t` in UTC is read as `t`. -/
theorem parse_text (t : Timestamp) : parse t.text = .ok t := by
  have hparts : Reading.parse (clockChars t ++ ['Z']) = .ok (t.reading 0) :=
    parse_clockChars t (noDigitAhead_cons (by decide) []) (fun _ h => by cases h) rfl
  have hinstant : (t.reading 0).instant = .ok t := by
    have hshift : t.shift? (-(t.reading 0).offset) = some t := t.shift?_zero
    rw [Reading.instant, clock?_reading]
    simp only [hshift]
    rfl
  rw [parse, text, String.toList_ofList, hparts]
  exact hinstant

/-! ### On the wire -/

instance : Wire.NeverNull Timestamp := ⟨fun _ => Json.noConfusion⟩

/-- An instant `t` is read back as itself, on the wire. -/
theorem readsBack (t : Timestamp) : Wire.ReadsBack t t := by
  show (parse t.text).mapError _ = _
  rw [parse_text]
  rfl

/-! ### The offset -/

/-- Two digits are read back as the number `n` that they were written for. -/
theorem parseTwoDigits_padded {n : Nat} (h : n < 100) (rest : List Char) :
    parseTwoDigits (Decimal.padded 2 n ++ rest) = .ok (n, rest) := by
  have hlength : (Decimal.padded 2 n).length = 2 := Decimal.length_padded h
  obtain ⟨c, d, hcd⟩ := List.length_eq_two.1 hlength
  have hdigits := Decimal.isDigit_padded 2 n
  have hvalue := Decimal.value_padded 2 n
  rw [hcd] at hdigits hvalue ⊢
  have hc : c.isDigit = true := hdigits c (by simp)
  have hd : d.isDigit = true := hdigits d (by simp)
  show (if c.isDigit ∧ d.isDigit then Except.ok (Decimal.value [c, d], rest) else _) = _
  rw [if_pos ⟨hc, hd⟩, hvalue]

/-- Nothing but the colon is dropped in front of the minutes `n`, since they begin with a digit. -/
theorem dropWhile_colon_padded (n : Nat) :
    (':' :: Decimal.padded 2 n).dropWhile (fun c => c = ':' || Text.isBlank c) =
      Decimal.padded 2 n := by
  rw [List.dropWhile_cons_of_pos rfl]
  cases hpadded : Decimal.padded 2 n with
  | nil => rfl
  | cons c cs =>
    have hdigit : c.isDigit = true :=
      Decimal.isDigit_padded 2 n c (by rw [hpadded]; exact List.mem_cons_self)
    have hcolon : c ≠ ':' := by
      rintro rfl
      exact absurd hdigit (by decide)
    rw [List.dropWhile_cons_of_neg]
    simp [hcolon, Text.isBlank_of_isDigit hdigit]

/-- After a `sign`, `hours` and `minutes` are read back, and the sign counts. -/
theorem parseOffset_of_sign {sign : Char} {negative : Bool}
    (hsign : ∀ cs, parseSign (sign :: cs) = .ok (negative, cs)) {hours minutes : Nat}
    (hhours : hours < 100) (hminutes : minutes < 60) :
    parseOffset (sign :: (Decimal.padded 2 hours ++ ':' :: Decimal.padded 2 minutes)) =
      .ok (if negative then -((hours : Int) * 60 + minutes) else (hours : Int) * 60 + minutes,
        []) := by
  have hread : parseTwoDigits (Decimal.padded 2 minutes) = .ok (minutes, []) := by
    have happend := parseTwoDigits_padded (show minutes < 100 by omega) []
    rwa [List.append_nil] at happend
  have hsmall : ¬60 ≤ minutes := by omega
  simp only [parseOffset, hsign, parseTwoDigits_padded hhours, dropWhile_colon_padded, hread, bind,
    Except.bind]
  rw [if_neg hsmall]

/-- **Offsets.**  An offset of `minutes` that is less than a day is read back. -/
theorem parseOffset_offsetChars {minutes : Int} (h : minutes.natAbs < 1440) :
    parseOffset (offsetChars minutes) = .ok (minutes, []) := by
  have hhours : minutes.natAbs / 60 < 100 := by omega
  have hminutes : minutes.natAbs % 60 < 60 := by omega
  unfold offsetChars
  rw [List.append_assoc, List.singleton_append]
  by_cases hneg : minutes < 0
  · have hvalue : -(((minutes.natAbs / 60 : Nat) : Int) * 60 + (minutes.natAbs % 60 : Nat)) =
        minutes := by omega
    rw [if_pos hneg, parseOffset_of_sign (fun _ => rfl) hhours hminutes, if_pos rfl, hvalue]
  · have hvalue : ((minutes.natAbs / 60 : Nat) : Int) * 60 + (minutes.natAbs % 60 : Nat) =
        minutes := by omega
    rw [if_neg hneg, parseOffset_of_sign (fun _ => rfl) hhours hminutes,
      if_neg Bool.false_ne_true, hvalue]

/-- What begins with a `sign` is not taken for a `Z` or for `UTC`. -/
theorem parseZone_of_sign {sign : Char} (h : sign = '-' ∨ sign = '+') (cs : List Char) :
    parseZone (sign :: cs) = parseOffset (sign :: cs) := by
  have hblank : Text.isBlank sign = false := by rcases h with rfl | rfl <;> decide
  have hletter : sign.toLower ≠ 'u' := by rcases h with rfl | rfl <;> decide
  unfold parseZone
  rw [Text.trimLeft_cons hblank]
  split
  · next hZ => rcases h with rfl | rfl <;> cases hZ
  · next hz => rcases h with rfl | rfl <;> cases hz
  · next heq =>
    cases heq
    exact if_neg (fun hutc => hletter hutc.1)
  · rfl

/-- The zone of a clock is read as its offset of `minutes`. -/
theorem parseZone_offsetChars {minutes : Int} (h : minutes.natAbs < 1440) :
    parseZone (offsetChars minutes) = .ok (minutes, []) := by
  have hsign : (if minutes < 0 then '-' else '+') = '-' ∨
      (if minutes < 0 then '-' else '+') = '+' := by
    split
    · exact .inl rfl
    · exact .inr rfl
  rw [← parseOffset_offsetChars h]
  exact parseZone_of_sign hsign _

/-! ### Clocks -/

/-- At the instant `t`, a clock that runs `minutes` ahead of UTC shows the time `clock`. -/
def Shows (t : Timestamp) (minutes : Int) (clock : Timestamp) : Prop :=
  clock.seconds = t.seconds + 60 * minutes ∧ clock.nano = t.nano

instance (t : Timestamp) (minutes : Int) (clock : Timestamp) : Decidable (t.Shows minutes clock) :=
  inferInstanceAs (Decidable (_ ∧ _))

variable {t clock : Timestamp} {minutes : Int}

/-- A clock that runs less than a day ahead of UTC, or behind it, shows a time at `t` exactly if
    that does not lie outside of the years. -/
theorem exists_shows_iff (h : minutes.natAbs < 1440) :
    (∃ clock, t.Shows minutes clock) ↔
      daysBeforeYear firstYear * 86400 ≤ t.seconds + 60 * minutes ∧
        t.seconds + 60 * minutes < daysBeforeYear (lastYear + 1) * 86400 := by
  rw [← exists_shift?_iff h]
  exact exists_congr (fun clock => (shift?_eq_some_iff h).symm)

/-- **Clocks.**  The text of what a `clock` shows at the instant `t`, with the `minutes` that it
    runs ahead, is read as `t`. -/
theorem parse_localText (h : minutes.natAbs < 1440) (hclock : t.Shows minutes clock) :
    parse (localText clock minutes) = .ok t := by
  have hsign : (if minutes < 0 then '-' else '+').isDigit = false := by split <;> decide
  have hpoint : ∀ cs, offsetChars minutes ≠ '.' :: cs := by
    intro cs heq
    have hhead := (List.cons.inj heq).1
    split at hhead <;> cases hhead
  have hparts : Reading.parse (clockChars clock ++ offsetChars minutes) =
      .ok (clock.reading minutes) :=
    parse_clockChars clock (noDigitAhead_cons hsign _) hpoint (parseZone_offsetChars h)
  -- the reader goes back by the minutes that the clock is ahead
  have hback : clock.shift? (-minutes) = some t := by
    obtain ⟨hseconds, hnano⟩ := hclock
    exact (shift?_eq_some_iff (by omega)).2 ⟨by omega, hnano.symm⟩
  have hinstant : (clock.reading minutes).instant = .ok t := by
    have hoffset : (clock.reading minutes).offset = minutes := rfl
    rw [Reading.instant, clock?_reading]
    simp only [hoffset, hback, if_pos h]
  rw [parse, localText, String.toList_ofList, hparts]
  exact hinstant

end Timestamp

end FaultAction
