import FaultAction.Proofs.Text.Basic
import FaultAction.Timestamp.Rfc3339
import Mathlib.Data.List.TakeWhile

namespace FaultAction.Timestamp

/-!
# Instants as text — the parts

Each part of the text of an instant is read back as it was written, whatever follows it:

* `NoDigitAhead`            — what follows does not begin with a digit, so no number goes on there;
* `parseNumber_padded`, `parseNumber_stop` — numbers of a fixed width, and numbers that end where
  the digits end;
* `parseField_padded`, `parseYear_yearChars`, `parseFraction_fractionChars` — the parts.
-/

/-! ### What follows a number -/

/-- The text `cs` does not begin with a digit, be it empty or not. -/
def NoDigitAhead (cs : List Char) : Prop := ∀ c ∈ cs.head?, c.isDigit = false

/-- A text that begins with a character `c` that is no digit has no digit ahead. -/
theorem noDigitAhead_cons {c : Char} (h : c.isDigit = false) (cs : List Char) :
    NoDigitAhead (c :: cs) := by
  intro d hd
  cases hd
  exact h

/-- No digit is taken from a text `cs` without a digit ahead, nor from the beginning of it. -/
theorem takeWhile_take_of_noDigitAhead {cs : List Char} (h : NoDigitAhead cs) (count : Nat) :
    (cs.take count).takeWhile Char.isDigit = [] := by
  cases cs with
  | nil => rw [List.take_nil]; rfl
  | cons c cs =>
    have hc : c.isDigit = false := h c rfl
    cases count with
    | zero => rfl
    | succ count => rw [List.take_succ_cons, List.takeWhile_cons, hc]; rfl

/-- No digit is dropped from a text `cs` without a digit ahead. -/
theorem dropWhile_of_noDigitAhead {cs : List Char} (h : NoDigitAhead cs) :
    cs.dropWhile Char.isDigit = cs := by
  cases cs with
  | nil => rfl
  | cons c cs =>
    have hc : c.isDigit = false := h c rfl
    rw [List.dropWhile_cons, hc]
    rfl

/-! ### White space -/

/-- Nothing is trimmed in front of digits `ds`, for digits are no white space. -/
theorem trimLeft_digits {ds : List Char} (hne : ds ≠ [])
    (hds : ∀ c ∈ ds, c.isDigit = true) (rest : List Char) :
    Text.trimLeft (ds ++ rest) = ds ++ rest := by
  cases ds with
  | nil => exact absurd rfl hne
  | cons c ds =>
    have hc : Text.isBlank c = false := Text.isBlank_of_isDigit (hds c List.mem_cons_self)
    exact Text.trimLeft_cons hc (ds ++ rest)

/-- Nothing is trimmed in front of a padded number `n` either. -/
theorem trimLeft_padded (width n : Nat) (rest : List Char) :
    Text.trimLeft (Decimal.padded width n ++ rest) = Decimal.padded width n ++ rest :=
  trimLeft_digits (Decimal.padded_ne_nil width n) (Decimal.isDigit_padded width n) rest

/-! ### Numbers -/

/-- A number is read if the digits in reach, which `width` says, are exactly its own digits `ds`. -/
theorem parseNumber_append {width : Nat} {ds rest : List Char} (hne : ds ≠ [])
    (hds : ∀ c ∈ ds, c.isDigit = true)
    (hreach : ((ds ++ rest).take width).takeWhile Char.isDigit = ds) :
    parseNumber width (ds ++ rest) = .ok (Decimal.value ds, rest) := by
  cases ds with
  | nil => exact absurd rfl hne
  | cons c ds =>
    have hc : c.isDigit = true := hds c List.mem_cons_self
    -- `parseNumber` takes the digits in reach and drops as many characters
    have hdrop : (c :: ds ++ rest).drop (c :: ds).length = rest := List.drop_left
    show (if c.isDigit then
      Except.ok (Decimal.value (((c :: ds ++ rest).take width).takeWhile Char.isDigit),
        (c :: ds ++ rest).drop (((c :: ds ++ rest).take width).takeWhile Char.isDigit).length)
      else Except.error ParseError.invalid) = _
    rw [if_pos hc, hreach, hdrop]

/-- A number `n` that fills its width is read, whatever the `rest` is. -/
theorem parseNumber_padded {width n : Nat} (h : n < Nat.pow 10 (width + 1)) (rest : List Char) :
    parseNumber (width + 1) (Decimal.padded (width + 1) n ++ rest) = .ok (n, rest) := by
  have hlen : (Decimal.padded (width + 1) n).length = width + 1 := Decimal.length_padded h
  have hall := Decimal.isDigit_padded (width + 1) n
  have hreach : ((Decimal.padded (width + 1) n ++ rest).take (width + 1)).takeWhile Char.isDigit =
      Decimal.padded (width + 1) n := by
    rw [List.take_left' hlen]
    exact List.takeWhile_eq_self_iff.2 hall
  rw [parseNumber_append (Decimal.padded_ne_nil _ _) hall hreach, Decimal.value_padded]

/-- Digits `ds` that end within reach are all the digits in reach. -/
theorem takeWhile_take_append {width : Nat} {ds rest : List Char}
    (hds : ∀ c ∈ ds, c.isDigit = true) (hlen : ds.length ≤ width) (hrest : NoDigitAhead rest) :
    ((ds ++ rest).take width).takeWhile Char.isDigit = ds := by
  rw [List.take_append, List.take_of_length_le hlen, List.takeWhile_append_of_pos hds,
    takeWhile_take_of_noDigitAhead hrest, List.append_nil]

/-- A number is read up to where its digits `ds` end, if that is in reach. -/
theorem parseNumber_stop {width : Nat} {ds rest : List Char} (hne : ds ≠ [])
    (hds : ∀ c ∈ ds, c.isDigit = true) (hlen : ds.length ≤ width) (hrest : NoDigitAhead rest) :
    parseNumber width (ds ++ rest) = .ok (Decimal.value ds, rest) := by
  apply parseNumber_append hne hds
  exact takeWhile_take_append hds hlen hrest

/-- A field `n` of two digits is read back if it is in its range, from `least` to `greatest`. -/
theorem parseField_padded {least greatest n : Nat} (hleast : least ≤ n) (hn : n ≤ greatest)
    (hgreatest : greatest < 100) (rest : List Char) :
    parseField least greatest (Decimal.padded 2 n ++ rest) = .ok (n, rest) := by
  have hnumber : parseNumber 2 (Decimal.padded 2 n ++ rest) = .ok (n, rest) :=
    parseNumber_padded (by show n < 100; omega) rest
  rw [parseField, trimLeft_padded, hnumber]
  show (if least ≤ n ∧ n ≤ greatest then _ else _) = _
  rw [if_pos ⟨hleast, hn⟩]

/-! ### Separators -/

/-- A separator `c` that is no white space is read from the front of a text. -/
theorem parseSeparator_cons {c : Char} (h : Text.isBlank c = false) (rest : List Char) :
    parseSeparator c (c :: rest) = .ok ((), rest) := by
  rw [parseSeparator, Text.trimLeft_cons h]
  show (if c = c then _ else _) = _
  rw [if_pos rfl]

/-! ### The year -/

/-- A year that is read with its sign and fits in 32 bits is the `year` of the text. -/
theorem parseYear_of_parseSignedYear {cs rest : List Char} {year : Int}
    (h : parseSignedYear (Text.trimLeft cs) = .ok (year, rest))
    (hrange : -2147483648 ≤ year ∧ year < 2147483648) : parseYear cs = .ok (year, rest) := by
  rw [parseYear, h]
  exact if_pos hrange

/-- A year `n` without a sign is read as a number of four digits. -/
theorem parseSignedYear_digits {n : Nat} (h : n < 10000) (rest : List Char) :
    parseSignedYear (Decimal.padded 4 n ++ rest) = .ok ((n : Int), rest) := by
  have hnumber : parseNumber 4 (Decimal.padded 4 n ++ rest) = .ok (n, rest) :=
    parseNumber_padded h rest
  -- the first character is a digit, so it is not taken for a sign
  have hhead : ∀ c cs, Decimal.padded 4 n ++ rest = c :: cs → c.isDigit = true := by
    intro c cs hcs
    cases hd : Decimal.padded 4 n with
    | nil => exact absurd hd (Decimal.padded_ne_nil 4 n)
    | cons d ds =>
      rw [hd] at hcs
      have hcd : d = c := (List.cons.inj hcs).1
      have hmem : c ∈ Decimal.padded 4 n := by rw [hd, hcd]; exact List.mem_cons_self
      exact Decimal.isDigit_padded 4 n c hmem
  unfold parseSignedYear
  split
  · next cs hcs => exact absurd (hhead '-' cs hcs) (by decide)
  · next cs hcs => exact absurd (hhead '+' cs hcs) (by decide)
  · rw [hnumber]
    rfl

/-- After a `sign` any number of digits is read, up to the next character that is none. -/
theorem parseSignedYear_signed {sign : Char} (hsign : sign = '-' ∨ sign = '+') (n : Nat)
    {rest : List Char} (hrest : NoDigitAhead rest) :
    parseSignedYear (sign :: (Decimal.padded 4 n ++ rest)) =
      .ok (if sign = '-' then -(n : Int) else n, rest) := by
  have hlen : (Decimal.padded 4 n).length ≤ (Decimal.padded 4 n ++ rest).length := by
    rw [List.length_append]
    omega
  -- with a sign the reach is the whole text, so only the end of the digits counts
  have hnumber : parseNumber (Decimal.padded 4 n ++ rest).length (Decimal.padded 4 n ++ rest) =
      .ok (n, rest) := by
    rw [parseNumber_stop (Decimal.padded_ne_nil 4 n)
      (Decimal.isDigit_padded _ _) hlen hrest, Decimal.value_padded]
  rcases hsign with rfl | rfl
  · rw [parseSignedYear, hnumber]
    rfl
  · rw [parseSignedYear, hnumber]
    rfl

/-- **Years.**  The `year` of any date is read back, with a sign where it does not have four
    digits. -/
theorem parseYear_yearChars {year : Int} (hfirst : firstYear ≤ year) (hlast : year ≤ lastYear)
    {rest : List Char} (hrest : NoDigitAhead rest) :
    parseYear (yearChars year ++ rest) = .ok (year, rest) := by
  unfold firstYear at hfirst
  unfold lastYear at hlast
  refine parseYear_of_parseSignedYear ?_ (by omega)
  unfold yearChars
  by_cases hplain : 0 ≤ year ∧ year ≤ 9999
  · have hyear : (year.toNat : Int) = year := by omega
    rw [if_pos hplain, trimLeft_padded, parseSignedYear_digits (by omega), hyear]
  · -- outside of four digits there is a sign, and the number stops at the dash
    rw [if_neg hplain]
    by_cases hneg : year < 0
    · have hyear : -(year.natAbs : Int) = year := by omega
      rw [if_pos hneg, List.cons_append, Text.trimLeft_cons (by decide),
        parseSignedYear_signed (.inl rfl) _ hrest, if_pos rfl, hyear]
    · have hyear : (year.natAbs : Int) = year := by omega
      rw [if_neg hneg, List.cons_append, Text.trimLeft_cons (by decide),
        parseSignedYear_signed (.inr rfl) _ hrest, if_neg (by decide), hyear]

/-! ### The fraction -/

/-- Nanoseconds that are written with `width + 1` digits are read back from them, each unit counting
    for `scale`. -/
theorem parseFraction_padded {width scale n : Nat} (hwidth : width < 9)
    (hscale : Nat.pow 10 (9 - (width + 1)) = scale) (hn : n < Nat.pow 10 (width + 1))
    {rest : List Char} (hrest : NoDigitAhead rest) :
    parseFraction ('.' :: (Decimal.padded (width + 1) n ++ rest)) = .ok (n * scale, rest) := by
  have hall := Decimal.isDigit_padded (width + 1) n
  have hlen : (Decimal.padded (width + 1) n).length = width + 1 := Decimal.length_padded hn
  -- the reader takes the number, drops what digits are left, and scales by those that it lacks
  have hnumber : parseNumber 9 (Decimal.padded (width + 1) n ++ rest) =
      .ok (Decimal.value (Decimal.padded (width + 1) n), rest) :=
    parseNumber_stop (Decimal.padded_ne_nil _ _) hall (by rw [hlen]; omega) hrest
  have hreach : ((Decimal.padded (width + 1) n ++ rest).take 9).takeWhile Char.isDigit =
      Decimal.padded (width + 1) n := takeWhile_take_append hall (by rw [hlen]; omega) hrest
  have hdrop : (Decimal.padded (width + 1) n ++ rest).dropWhile Char.isDigit = rest := by
    rw [List.dropWhile_append_of_pos hall, dropWhile_of_noDigitAhead hrest]
  rw [parseFraction, hnumber]
  show Except.ok (Decimal.value (((Decimal.padded (width + 1) n ++ rest).take 9).takeWhile
    Char.isDigit) * Nat.pow 10 (9 - (((Decimal.padded (width + 1) n ++ rest).take 9).takeWhile
    Char.isDigit).length), (Decimal.padded (width + 1) n ++ rest).dropWhile Char.isDigit) = _
  rw [hreach, hdrop, hlen, Decimal.value_padded, hscale]

/-- **Fractions.**  Nanoseconds `nano` are read back from the digits that they need. -/
theorem parseFraction_fractionChars {nano : Nat} (h : nano < 1000000000) {rest : List Char}
    (hrest : NoDigitAhead rest) (hpoint : ∀ cs, rest ≠ '.' :: cs) :
    parseFraction (fractionChars nano ++ rest) = .ok (nano, rest) := by
  unfold fractionChars
  by_cases hzero : nano = 0
  · rw [if_pos hzero, List.nil_append, parseFraction, hzero]
    exact hpoint
  · -- trailing zeros are written in groups of three, and the reader puts them back
    rw [if_neg hzero]
    by_cases hmilli : nano % 1000000 = 0
    · have hnano : nano / 1000000 * 1000000 = nano := by omega
      have hlt : nano / 1000000 < Nat.pow 10 3 := by show _ < 1000; omega
      rw [if_pos hmilli, List.cons_append, parseFraction_padded (by omega) rfl hlt hrest]
      exact congrArg (fun n => Except.ok (n, rest)) hnano
    · rw [if_neg hmilli]
      by_cases hmicro : nano % 1000 = 0
      · have hnano : nano / 1000 * 1000 = nano := by omega
        have hlt : nano / 1000 < Nat.pow 10 6 := by show _ < 1000000; omega
        rw [if_pos hmicro, List.cons_append, parseFraction_padded (by omega) rfl hlt hrest]
        exact congrArg (fun n => Except.ok (n, rest)) hnano
      · have hnano : nano * 1 = nano := by omega
        rw [if_neg hmicro, List.cons_append, parseFraction_padded (by omega) rfl h hrest]
        exact congrArg (fun n => Except.ok (n, rest)) hnano

end FaultAction.Timestamp
