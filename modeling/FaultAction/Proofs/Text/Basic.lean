import FaultAction.Text.Basic
import Mathlib.Data.List.TakeWhile

namespace FaultAction

/-!
# Texts — trimming, and digits that are read back

* `Text.isBlank_of_isDigit` — digits are no white space;
* `Text.exists_trim`        — trimming takes away white space at both ends, and nothing else;
* `Text.trim_surrounded`    — it takes away all of it;
* `Decimal.value_padded`    — digits with zeros in front stand for the number they were written for;
* `Decimal.isDigit_padded`  — all of them are ASCII digits;
* `Decimal.length_padded`   — a number that is not too large fills its width exactly.
-/

/-! ### White space -/

namespace Text

/-- A digit is no white space: none of the `blanks` is one. -/
theorem isBlank_of_isDigit {c : Char} (h : c.isDigit = true) : isBlank c = false := by
  have hall : (blanks.all fun c => !c.isDigit) = true := by decide
  cases hb : isBlank c with
  | false => rfl
  | true =>
    have hmem : c ∈ blanks := List.contains_iff_mem.1 hb
    have hc : (!c.isDigit) = true := List.all_eq_true.1 hall c hmem
    rw [h] at hc
    exact Bool.noConfusion hc

/-- `trimLeft` leaves a text alone whose first character `c` is no white space. -/
theorem trimLeft_cons {c : Char} (h : isBlank c = false) (cs : List Char) :
    trimLeft (c :: cs) = c :: cs := by
  rw [trimLeft, List.dropWhile_cons, h]
  rfl

/-- What `trimLeft` takes away in front of `cs` is white space, and nothing else is lost. -/
theorem exists_trimLeft (cs : List Char) :
    ∃ left, (∀ c ∈ left, isBlank c = true) ∧ left ++ trimLeft cs = cs :=
  ⟨cs.takeWhile isBlank, fun _ hc => List.mem_takeWhile_imp hc, List.takeWhile_append_dropWhile⟩

/-- `trimLeft` takes away the white space `left`, and stops at `core`, which has none and is not
    empty. -/
theorem trimLeft_surrounded {left core : List Char} (hleft : ∀ c ∈ left, isBlank c = true)
    (hne : core ≠ []) (hcore : ∀ c ∈ core, isBlank c = false) (right : List Char) :
    trimLeft (left ++ (core ++ right)) = core ++ right := by
  have hdrop : trimLeft (left ++ (core ++ right)) = trimLeft (core ++ right) :=
    List.dropWhile_append_of_pos hleft
  rw [hdrop]
  -- nothing is left of `left`, so the first character of `core` decides
  cases core with
  | nil => exact absurd rfl hne
  | cons c core => exact trimLeft_cons (hcore c (by simp)) (core ++ right)

/-- What `trim` takes away on both sides of `cs` is white space, and nothing else is lost. -/
theorem exists_trim (cs : List Char) :
    ∃ left right, (∀ c ∈ left ++ right, isBlank c = true) ∧ left ++ trim cs ++ right = cs := by
  obtain ⟨left, hleft, hstart⟩ := exists_trimLeft cs
  obtain ⟨right, hright, hend⟩ := exists_trimLeft (trimLeft cs).reverse
  refine ⟨left, right.reverse, ?_, ?_⟩
  · intro c hc
    rcases List.mem_append.1 hc with hc | hc
    · exact hleft c hc
    · exact hright c (List.mem_reverse.1 hc)
  · -- the end is trimmed at the start of the reversed text
    have hrest : trim cs ++ right.reverse = trimLeft cs := by
      rw [trim, ← List.reverse_append, hend, List.reverse_reverse]
    rw [List.append_assoc, hrest, hstart]

/-- **Trimming.**  Between white space on both sides, `trim` finds exactly `core`, if that has none
    itself and is not empty. -/
theorem trim_surrounded {left core right : List Char}
    (hblank : ∀ c ∈ left ++ right, isBlank c = true) (hne : core ≠ [])
    (hcore : ∀ c ∈ core, isBlank c = false) : trim (left ++ core ++ right) = core := by
  -- both ends are trimmed at the start, the right one of the reversed text
  have hleft : ∀ c ∈ left, isBlank c = true := fun c hc => hblank c (by simp [hc])
  have hright : ∀ c ∈ right.reverse, isBlank c = true := fun c hc => hblank c (by simp_all)
  have hend : trimLeft (right.reverse ++ (core.reverse ++ [])) = core.reverse ++ [] :=
    trimLeft_surrounded hright (by simpa using hne) (fun c hc => hcore c (by simpa using hc)) []
  unfold trim
  rw [List.append_assoc, trimLeft_surrounded hleft hne hcore, List.reverse_append]
  simpa using congrArg List.reverse hend

end Text

/-! ### Decimal digits -/

namespace Decimal

/-- The digits of `padded width n` stand for `n`: the zeros in front count nothing. -/
theorem value_padded (width n : Nat) : value (padded width n) = n := by
  rw [padded, value, Nat.ofDigitChars_append, Nat.ofDigitChars_replicate_zero, Nat.mul_zero]
  exact Nat.ofDigitChars_ten_toDigits

/-- Every character of `padded width n` is an ASCII digit, be it one of `n` or a zero in front. -/
theorem isDigit_padded (width n : Nat) : ∀ c ∈ padded width n, c.isDigit = true := by
  intro c hc
  rcases List.mem_append.1 hc with hc | hc
  · rw [List.eq_of_mem_replicate hc]
    decide
  · exact Nat.isDigit_of_mem_toDigits (by decide) (by decide) hc

/-- `padded width n` is never empty, for `digits n` is not. -/
theorem padded_ne_nil (width n : Nat) : padded width n ≠ [] :=
  List.append_ne_nil_of_right_ne_nil _ Nat.toDigits_ne_nil

/-- A number below `10 ^ (width + 1)` fills the width of `padded (width + 1)` exactly. -/
theorem length_padded {width n : Nat} (h : n < Nat.pow 10 (width + 1)) :
    (padded (width + 1) n).length = width + 1 := by
  have hle : (digits n).length ≤ width + 1 :=
    (Nat.length_toDigits_le_iff (by decide) (Nat.succ_pos width)).2 h
  rw [padded, List.length_append, List.length_replicate]
  omega

/-- The minus sign of `signed n` makes it longer than the `digits`, if anything. -/
theorem length_digits_le_signed (n : Int) : (digits n.natAbs).length ≤ (signed n).length := by
  unfold signed
  split <;> simp

end Decimal

end FaultAction
