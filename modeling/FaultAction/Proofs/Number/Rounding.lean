import FaultAction.Json
import Mathlib.Algebra.Order.Field.Power
import Mathlib.Data.Int.Log
import Mathlib.Data.Rat.Floor
import Mathlib.Tactic.FieldSimp
import Mathlib.Tactic.Linarith
import Mathlib.Tactic.Positivity
import Mathlib.Tactic.Ring

namespace FaultAction

/-!
# Rounding — to the nearest number, ties to even

Doubles are rational numbers, and a ratio is rounded to the one that is nearest to it:

* `IsNearest x unit m`    — `m * unit` is the multiple of `unit` nearest to `x`, and of two that are
  as near it is the one with an even `m`;
* `isNearest_roundDiv`, `Precision.isNearest_round` — the quotient and the significand are;
* `binaryExponent_eq_log` — the exponent of a ratio is its logarithm to base two, rounded down, so a
  significand has the bits of its precision (`Precision.round_fst_le`, `Precision.le_round_fst`);
* `Binary64.value`        — the rational number that a finite double stands for;
* `Binary64.ofRatio_nearest`, `Binary64.ofInt_nearest` — no double is nearer to a ratio or to an
  integer than the one it is rounded to, unless the ratio is too great for a finite one;
* `Binary64.isFinite_ofInt` — an integer of 64 bits never is.
-/

/-! ### The nearest multiple of a unit -/

/-- The number `x` is at most half a `unit` away from `m * unit`, and if it is as much as that, then
    `m` is even. -/
structure IsNearest (x unit : ℚ) (m : Nat) : Prop where
  near : |x - m * unit| ≤ unit / 2
  even_of_tie : |x - m * unit| = unit / 2 → Even m

namespace IsNearest

variable {x unit : ℚ} {m : Nat}

/-- What is at most `bound` units is rounded to at most `bound`. -/
theorem le_bound (h : IsNearest x unit m) (hunit : 0 < unit) {bound : Nat}
    (hx : x ≤ bound * unit) : m ≤ bound := by
  by_contra hlt
  have hm : (bound : ℚ) + 1 ≤ m := by exact_mod_cast Nat.lt_of_not_le hlt
  have hmul : ((bound : ℚ) + 1) * unit ≤ m * unit := mul_le_mul_of_nonneg_right hm hunit.le
  have hnear := (abs_le.1 h.near).1
  linarith

/-- What is at least `bound` units is rounded to at least `bound`. -/
theorem bound_le (h : IsNearest x unit m) (hunit : 0 < unit) {bound : Nat}
    (hx : bound * unit ≤ x) : bound ≤ m := by
  by_contra hlt
  have hm : (m : ℚ) + 1 ≤ bound := by exact_mod_cast Nat.lt_of_not_le hlt
  have hmul : ((m : ℚ) + 1) * unit ≤ bound * unit := mul_le_mul_of_nonneg_right hm hunit.le
  have hnear := (abs_le.1 h.near).2
  linarith

/-- No other multiple `k * unit` is nearer to `x`, and if one is as near, then `m` is even. -/
theorem le_abs_sub (h : IsNearest x unit m) (hunit : 0 < unit) (k : Int) :
    |x - m * unit| ≤ |x - k * unit| ∧ (|x - m * unit| = |x - k * unit| → k = m ∨ Even m) := by
  by_cases hk : k = m
  · rw [hk]
    exact ⟨le_rfl, fun _ => .inl rfl⟩
  · -- two different multiples are a whole unit apart
    have hstep : unit ≤ |(m : ℚ) * unit - k * unit| := by
      have hone : (1 : ℚ) ≤ |(m : ℚ) - k| := by
        exact_mod_cast Int.one_le_abs (sub_ne_zero.2 (Ne.symm hk))
      rw [← sub_mul, abs_mul, abs_of_pos hunit]
      exact le_mul_of_one_le_left hunit.le hone
    have htriangle : |(m : ℚ) * unit - k * unit| ≤ |x - m * unit| + |x - k * unit| := by
      rw [abs_sub_comm x (m * unit)]
      exact abs_sub_le _ _ _
    have hnear := h.near
    refine ⟨by linarith, fun heq => .inr (h.even_of_tie (le_antisymm hnear ?_))⟩
    linarith

/-- A nearest integer to `x / unit` gives the nearest multiple of `unit` to `x`. -/
theorem of_div (hunit : 0 < unit) (h : IsNearest (x / unit) 1 m) : IsNearest x unit m := by
  have hscale : |x - m * unit| = |x / unit - m * 1| * unit := by
    rw [← abs_of_pos hunit, ← abs_mul, abs_of_pos hunit]
    congr 1
    field_simp
  constructor
  · rw [hscale]
    have := mul_le_mul_of_nonneg_right h.near hunit.le
    linarith
  · intro htie
    refine h.even_of_tie (mul_right_cancel₀ hunit.ne' ?_)
    rw [← hscale, htie]
    ring

end IsNearest

/-- The quotient and the remainder decide what `roundDiv num den` is: the quotient if the
    remainder is less than half of `den`, the next integer if it is more, and the even one of them
    at a tie. -/
theorem roundDiv_cases (num den : Nat) :
    (roundDiv num den = num / den ∧ 2 * (num % den) ≤ den ∧
        (2 * (num % den) = den → Even (num / den))) ∨
      (roundDiv num den = num / den + 1 ∧ den ≤ 2 * (num % den) ∧
        (2 * (num % den) = den → Even (num / den + 1))) := by
  simp only [roundDiv, Nat.even_iff]
  split
  · exact .inl (by omega)
  · split
    · exact .inr (by omega)
    · split
      · exact .inl (by omega)
      · exact .inr (by omega)

/-- **Rounded division.**  `roundDiv num den` is the integer nearest to the ratio. -/
theorem isNearest_roundDiv (num : Nat) {den : Nat} (hden : 0 < den) :
    IsNearest (num / den) 1 (roundDiv num den) := by
  have hpos : (0 : ℚ) < den := by exact_mod_cast hden
  -- what the quotient leaves of the ratio
  obtain ⟨rest, hrest⟩ : ∃ rest : ℚ, rest = (num % den : Nat) / den := ⟨_, rfl⟩
  have hratio : (num / den : ℚ) = (num / den : Nat) + rest := by
    rw [hrest]
    field_simp
    exact_mod_cast (Nat.div_add_mod num den).symm
  have hle : rest ≤ 1 / 2 ↔ 2 * (num % den) ≤ den := by
    rw [hrest, div_le_div_iff₀ hpos two_pos, mul_comm, one_mul]
    exact_mod_cast Iff.rfl
  have hge : 1 / 2 ≤ rest ↔ den ≤ 2 * (num % den) := by
    rw [hrest, div_le_div_iff₀ two_pos hpos, mul_comm _ (2 : ℚ), one_mul]
    exact_mod_cast Iff.rfl
  obtain ⟨hround, hhalf, heven⟩ | ⟨hround, hhalf, heven⟩ := roundDiv_cases num den
  · -- rounded down: what is cut off is the rest
    have hcut : |(num / den : ℚ) - (num / den : Nat) * 1| = rest := by
      rw [hratio, mul_one, add_sub_cancel_left, hrest, abs_of_nonneg (by positivity)]
    rw [hround]
    refine ⟨hcut.le.trans (hle.2 hhalf), fun htie => heven ?_⟩
    exact le_antisymm hhalf (hge.1 (hcut.symm.trans htie).ge)
  · -- rounded up: what is added is what the rest lacks
    have hone : rest ≤ 1 := by
      rw [hrest, div_le_one hpos]
      exact_mod_cast (Nat.mod_lt num hden).le
    have hadd : |(num / den : ℚ) - (num / den + 1 : Nat) * 1| = 1 - rest := by
      rw [hratio, abs_sub_comm, Nat.cast_succ, abs_of_nonneg (by linarith)]
      ring
    rw [hround]
    refine ⟨hadd.le.trans (by linarith [hge.2 hhalf]), fun htie => heven ?_⟩
    refine le_antisymm (hle.1 ?_) hhalf
    linarith [hadd.symm.trans htie]

/-- The halves `5 / 2` and `7 / 2` both go to an even integer. -/
example : roundDiv 5 2 = 2 ∧ roundDiv 7 2 = 4 := by decide

/-! ### The significand and the power of two -/

/-- A power of two, with an exponent `e` of either sign, is a ratio of natural numbers. -/
theorem two_zpow_eq_div (e : Int) :
    (2 : ℚ) ^ e = (Nat.pow 2 e.toNat : Nat) / (Nat.pow 2 (-e).toNat : Nat) := by
  obtain ⟨n, rfl | rfl⟩ := e.eq_nat_or_neg <;> simp

/-- The comparison that `binaryExponent` makes is that of the ratio with a power of two. -/
theorem scaled_lt_iff {num den : Nat} (hden : 0 < den) (e : Int) :
    num * Nat.pow 2 (-e).toNat < den * Nat.pow 2 e.toNat ↔ (num / den : ℚ) < 2 ^ e := by
  have hpow : (0 : ℚ) < (Nat.pow 2 (-e).toNat : Nat) := by exact_mod_cast Nat.two_pow_pos _
  rw [two_zpow_eq_div, div_lt_div_iff₀ (by exact_mod_cast hden) hpow, mul_comm _ (den : ℚ)]
  exact_mod_cast Iff.rfl

/-- A number from `2 ^ e` to below `2 ^ (e + 1)` has the logarithm `e`. -/
theorem log_two_eq {r : ℚ} {e : Int} (hlow : 2 ^ e ≤ r) (hhigh : r < 2 ^ (e + 1)) :
    Int.log 2 r = e := by
  have hr : 0 < r := lt_of_lt_of_le (by positivity) hlow
  have hle : e ≤ Int.log 2 r :=
    (Int.zpow_le_iff_le_log Nat.one_lt_two hr).1 (by exact_mod_cast hlow)
  have hlt : Int.log 2 r < e + 1 :=
    (Int.lt_zpow_iff_log_lt Nat.one_lt_two hr).1 (by exact_mod_cast hhigh)
  omega

/-- **Exponents.**  `binaryExponent num den` is the logarithm of the ratio to base two, rounded
    down: the numbers of bits of `num` and `den` leave one of two, and the comparison tells
    which. -/
theorem binaryExponent_eq_log {num den : Nat} (hnum : 0 < num) (hden : 0 < den) :
    binaryExponent num den = Int.log 2 (num / den : ℚ) := by
  have hpos : (0 : ℚ) < den := by exact_mod_cast hden
  have hnumLow : (2 : ℚ) ^ (num.log2 : Int) ≤ num := by
    exact_mod_cast Nat.log2_self_le hnum.ne'
  have hnumHigh : (num : ℚ) < 2 ^ (num.log2 + 1 : Int) := by
    exact_mod_cast Nat.lt_log2_self (n := num)
  have hdenLow : (2 : ℚ) ^ (den.log2 : Int) ≤ den := by
    exact_mod_cast Nat.log2_self_le hden.ne'
  have hdenHigh : (den : ℚ) < 2 ^ (den.log2 + 1 : Int) := by
    exact_mod_cast Nat.lt_log2_self (n := den)
  unfold binaryExponent
  simp only
  split
  · next hlt =>
    -- the ratio is below the power of two that the bits suggest
    refine (log_two_eq ?_ ?_).symm
    · rw [le_div_iff₀ hpos]
      calc (2 : ℚ) ^ ((num.log2 : Int) - den.log2 - 1) * den
          ≤ 2 ^ ((num.log2 : Int) - den.log2 - 1) * 2 ^ (den.log2 + 1 : Int) := by gcongr
        _ = 2 ^ (num.log2 : Int) := by rw [← zpow_add₀ two_ne_zero]; congr 1; ring
        _ ≤ num := hnumLow
    · rw [Int.sub_add_cancel]
      exact (scaled_lt_iff hden _).1 hlt
  · next hnot =>
    refine (log_two_eq (not_lt.1 (mt (scaled_lt_iff hden _).2 hnot)) ?_).symm
    rw [div_lt_iff₀ hpos]
    calc (num : ℚ) < 2 ^ (num.log2 + 1 : Int) := hnumHigh
      _ = 2 ^ ((num.log2 : Int) - den.log2 + 1) * 2 ^ (den.log2 : Int) := by
          rw [← zpow_add₀ two_ne_zero]; congr 1; ring
      _ ≤ 2 ^ ((num.log2 : Int) - den.log2 + 1) * den := by gcongr

namespace Precision

variable (p : Precision) {num den : Nat}

/-- The power of two that `p.round` counts in: as small as it can be with a significand of `p.bits`
    bits, but not below the least one. -/
theorem round_snd_eq (hnum : 0 < num) (hden : 0 < den) :
    (p.round num den).2 = max p.leastPower (Int.log 2 (num / den : ℚ) - (p.bits - 1 : Nat)) := by
  rw [← binaryExponent_eq_log hnum hden]
  rfl

/-- **Rounding.**  The significand of `p.round num den` is nearest to the ratio in units of the
    power of two, so the two together are within half a unit of it, and a tie goes to the even
    significand. -/
theorem isNearest_round (num : Nat) (hden : 0 < den) :
    IsNearest (num / den) (2 ^ (p.round num den).2) (p.round num den).1 := by
  obtain ⟨q, hq⟩ : ∃ q, (p.round num den).2 = q := ⟨_, rfl⟩
  have hscaled : (num / den / 2 ^ q : ℚ) =
      (num * Nat.pow 2 (-q).toNat : Nat) / (den * Nat.pow 2 q.toNat : Nat) := by
    rw [two_zpow_eq_div]
    push_cast
    field_simp
  refine IsNearest.of_div (by positivity) ?_
  rw [hq, hscaled]
  subst hq
  exact isNearest_roundDiv _ (Nat.mul_pos hden (Nat.two_pow_pos _))

/-- The significand of `p.round num den` has at most one bit more than fits, and then it is a power
    of two. -/
theorem round_fst_le (hbits : 0 < p.bits) (hnum : 0 < num) (hden : 0 < den) :
    (p.round num den).1 ≤ 2 ^ p.bits := by
  have hpos : (0 : ℚ) < num / den := by positivity
  refine (p.isNearest_round num hden).le_bound (by positivity) ?_
  have hlog : (num / den : ℚ) < 2 ^ (Int.log 2 (num / den : ℚ) + 1) := by
    exact_mod_cast Int.lt_zpow_succ_log_self Nat.one_lt_two (num / den : ℚ)
  calc (num / den : ℚ) ≤ 2 ^ (Int.log 2 (num / den : ℚ) + 1) := hlog.le
    _ ≤ 2 ^ ((p.bits : Int) + (p.round num den).2) := by
        refine zpow_le_zpow_right₀ one_le_two ?_
        rw [p.round_snd_eq hnum hden]
        omega
    _ = (2 ^ p.bits : Nat) * 2 ^ (p.round num den).2 := by
        rw [zpow_add₀ two_ne_zero]
        norm_cast

/-- Above the least power of two of `p`, a rounded significand has all its bits. -/
theorem le_round_fst (hnum : 0 < num) (hden : 0 < den) (h : p.leastPower < (p.round num den).2) :
    2 ^ (p.bits - 1) ≤ (p.round num den).1 ∧
      ((2 ^ (p.bits - 1) : Nat) : ℚ) * 2 ^ (p.round num den).2 ≤ num / den := by
  have hpos : (0 : ℚ) < num / den := by positivity
  have hlog : (2 : ℚ) ^ Int.log 2 (num / den : ℚ) ≤ num / den := by
    exact_mod_cast Int.zpow_log_le_self Nat.one_lt_two hpos
  have hle : ((2 ^ (p.bits - 1) : Nat) : ℚ) * 2 ^ (p.round num den).2 ≤ num / den := by
    refine le_trans (le_of_eq ?_) hlog
    rw [p.round_snd_eq hnum hden] at h ⊢
    have hq : max p.leastPower (Int.log 2 (num / den : ℚ) - (p.bits - 1 : Nat)) =
        Int.log 2 (num / den : ℚ) - (p.bits - 1 : Nat) := by omega
    rw [hq, Nat.cast_pow, Nat.cast_ofNat, ← zpow_natCast, ← zpow_add₀ two_ne_zero]
    congr 1
    ring
  exact ⟨(p.isNearest_round num hden).bound_le (by positivity) hle, hle⟩

end Precision

/-! ### Doubles -/

namespace Binary64

/-- The finite double `x` without its sign, as a rational number. -/
def magnitude (x : Binary64) : ℚ := x.significand * 2 ^ x.power

/-- The finite double `x` as a rational number, from its sign and its `magnitude`. -/
def value (x : Binary64) : ℚ := if x.negative then -x.magnitude else x.magnitude

/-- The double `x` with the other sign. -/
def neg (x : Binary64) : Binary64 := { x with negative := !x.negative }

@[simp] theorem value_neg (x : Binary64) : x.neg.value = -x.value := by
  cases hsign : x.negative <;> simp [value, neg, hsign] <;> rfl

/-- The significand of any double `x` has at most 53 bits. -/
theorem significand_lt (x : Binary64) : x.significand < 9007199254740992 := by
  have hfraction := x.fraction.isLt
  unfold significand
  split <;> omega

/-- The least power of two is `-1074`. -/
theorem le_power (x : Binary64) : -1074 ≤ x.power := by
  unfold power
  omega

/-- The double `y` is a multiple of `2 ^ q`, or it is less than any double with the power `q` and
    all bits of the significand. -/
theorem value_grid (y : Binary64) (q : Int) :
    (∃ k : Int, y.value = k * 2 ^ q) ∨ y.power < q ∧ y.value < (2 ^ 52 : Nat) * 2 ^ q := by
  by_cases h : q ≤ y.power
  · left
    -- the power of two of `y` is a multiple of that of the grid, so its value is one too
    have hmagnitude : y.magnitude = (y.significand * 2 ^ (y.power - q).toNat : Nat) * 2 ^ q := by
      have hpow : (2 : ℚ) ^ (y.power - q).toNat * 2 ^ q = 2 ^ y.power := by
        rw [← zpow_natCast, ← zpow_add₀ two_ne_zero]
        congr 1
        omega
      rw [magnitude, Nat.cast_mul, Nat.cast_pow, Nat.cast_ofNat, mul_assoc, hpow]
    unfold value
    split
    · exact ⟨-(y.significand * 2 ^ (y.power - q).toNat : Nat), by rw [hmagnitude]; push_cast; ring⟩
    · exact ⟨(y.significand * 2 ^ (y.power - q).toNat : Nat), by rw [hmagnitude]; push_cast; ring⟩
  · right
    -- the significand has 53 bits at most, and the power is below that of the grid
    have hsignificand : (y.significand : ℚ) < 2 ^ (53 : Int) := by
      exact_mod_cast y.significand_lt
    have hmagnitude : y.magnitude < (2 ^ 52 : Nat) * 2 ^ q := by
      calc y.magnitude < 2 ^ (53 : Int) * 2 ^ y.power :=
            mul_lt_mul_of_pos_right hsignificand (by positivity)
        _ = 2 ^ (53 + y.power) := (zpow_add₀ two_ne_zero _ _).symm
        _ ≤ 2 ^ (52 + q) := zpow_le_zpow_right₀ one_le_two (by omega)
        _ = (2 ^ 52 : Nat) * 2 ^ q := by
            rw [zpow_add₀ two_ne_zero]
            norm_cast
    have hpos : 0 ≤ y.magnitude := by
      unfold magnitude
      positivity
    refine ⟨not_le.1 h, lt_of_le_of_lt ?_ hmagnitude⟩
    unfold value
    split
    · linarith
    · exact le_rfl

/-- A `word` below that of infinity is taken as it is. -/
theorem ofMagnitude_of_lt {negative : Bool} {word : Nat} (h : word < infinityWord) :
    ofMagnitude negative word = { ofBits word with negative } := by
  rw [ofMagnitude, Nat.min_eq_left (Nat.le_of_lt h)]

/-- A `word` below that of infinity is the word of a finite number, and no other word is. -/
theorem isFinite_ofMagnitude_iff {negative : Bool} {word : Nat} :
    (ofMagnitude negative word).IsFinite ↔ word < infinityWord := by
  unfold infinityWord
  simp only [IsFinite, ofMagnitude, infinityWord, ofBits]
  omega

/-- The significand `m` and the power `q`, put into a word, make up the double with these two.  If
    `m` has one bit more than fits, it carries into the exponent, where it doubles the unit. -/
theorem significand_ofMagnitude (negative : Bool) {m : Nat} {q : Int} (hq : -1074 ≤ q)
    (hm : m ≤ 2 ^ 53) (hbits : -1074 < q → 2 ^ 52 ≤ m)
    (h : (q + 1074).toNat * 4503599627370496 + m < infinityWord) :
    let x := ofMagnitude negative ((q + 1074).toNat * 4503599627370496 + m)
    (x.significand = m ∧ x.power = q) ∨
      (m = 2 ^ 53 ∧ x.significand = 2 ^ 52 ∧ x.power = q + 1) := by
  intro x
  have hx : x = { ofBits ((q + 1074).toNat * 4503599627370496 + m) with negative } :=
    ofMagnitude_of_lt h
  unfold infinityWord at h
  have hexponent : x.exponent.val = (q + 1074).toNat + m / 4503599627370496 := by
    rw [hx]
    show ((q + 1074).toNat * 4503599627370496 + m) / 4503599627370496 % 2048 = _
    omega
  have hfraction : x.fraction.val = m % 4503599627370496 := by
    rw [hx]
    show ((q + 1074).toNat * 4503599627370496 + m) % 4503599627370496 = _
    omega
  rw [significand, power, hexponent, hfraction]
  by_cases hcarry : m = 2 ^ 53
  · right
    rw [if_neg (by omega)]
    omega
  · left
    by_cases hnormal : 2 ^ 52 ≤ m
    · rw [if_neg (by omega)]
      omega
    · -- too few bits, so the power is the least one and the exponent field is zero
      rw [if_pos (by omega)]
      omega

/-- The double `x` is nearest to the number `r`: within half a unit of its last bit, with no finite
    double nearer, and with an even significand if another one is as near. -/
structure Nearest (r : ℚ) (x : Binary64) : Prop where
  within : |r - x.value| ≤ 2 ^ x.power / 2
  near : ∀ y : Binary64, y.IsFinite → |r - x.value| ≤ |r - y.value|
  even_of_tie : ∀ y : Binary64, y.IsFinite → y.value ≠ x.value →
    |r - x.value| = |r - y.value| → Even x.significand

/-- Rounding does not depend on the sign: if `x` is nearest to `r`, then `x.neg` is nearest to
    `-r`. -/
theorem Nearest.neg {r : ℚ} {x : Binary64} (h : Nearest r x) : Nearest (-r) x.neg := by
  have hself : |-r - x.neg.value| = |r - x.value| := by
    rw [value_neg, neg_sub_neg, abs_sub_comm]
  have hother (y : Binary64) : |-r - y.value| = |r - y.neg.value| := by
    rw [value_neg, ← neg_add', abs_neg, sub_neg_eq_add]
  constructor
  · rw [hself]
    exact h.within
  · intro y hy
    rw [hself, hother]
    exact h.near y.neg hy
  · intro y hy hne htie
    rw [hself, hother] at htie
    refine h.even_of_tie y.neg hy (fun heq => hne ?_) htie
    rw [value_neg, ← heq, value_neg, neg_neg]

/-- The double of a positive ratio has the significand and power of `Precision.round` in its
    word. -/
theorem ofRatio_of_pos {negative : Bool} {num den : Nat} (hnum : 0 < num) :
    ofRatio negative num den =
      ofMagnitude negative (((Precision.double.round num den).2 + 1074).toNat * 4503599627370496 +
        (Precision.double.round num den).1) := by
  rw [ofRatio, if_neg hnum.ne']

/-- The double of a ratio has the value of the significand and power that `Precision.round` gives,
    and a unit that is not smaller.  A carry leaves a significand that is even. -/
theorem value_ofRatio {num den : Nat} (hnum : 0 < num) (hden : 0 < den)
    (hfinite : (ofRatio false num den).IsFinite) :
    let x := ofRatio false num den
    let r := Precision.double.round num den
    x.value = r.1 * 2 ^ r.2 ∧ r.2 ≤ x.power ∧ (Even r.1 → Even x.significand) := by
  intro x r
  have hx : x = ofMagnitude false ((r.2 + 1074).toNat * 4503599627370496 + r.1) :=
    ofRatio_of_pos hnum
  have hleast : -1074 ≤ r.2 := by
    rw [Precision.double.round_snd_eq hnum hden]
    exact le_max_left _ _
  have hfirst : x.value = x.significand * 2 ^ x.power := by
    rw [hx]
    rfl
  change x.IsFinite at hfinite
  rw [hx, isFinite_ofMagnitude_iff] at hfinite
  have hparts := significand_ofMagnitude false hleast
    (Precision.double.round_fst_le (by decide) hnum hden)
    (fun h => (Precision.double.le_round_fst hnum hden h).1) hfinite
  rw [← hx] at hparts
  -- either the word has the parts as they are, or the carry has gone into the exponent
  obtain ⟨hm, hq⟩ | ⟨hm, hcarry, hq⟩ := hparts
  · rw [hfirst, hm, hq]
    exact ⟨rfl, le_rfl, id⟩
  · rw [hfirst, hm, hcarry, hq]
    refine ⟨?_, by omega, fun _ => ⟨2 ^ 51, by norm_num⟩⟩
    rw [zpow_add_one₀ two_ne_zero]
    push_cast
    ring

/-- **Nearest doubles.**  A ratio `num / den` that is not too great for a finite double is rounded
    to the double nearest to it. -/
theorem ofRatio_nearest {num den : Nat} (hnum : 0 < num) (hden : 0 < den)
    (hfinite : (ofRatio false num den).IsFinite) : Nearest (num / den) (ofRatio false num den) := by
  obtain ⟨hvalue, hpower, heven⟩ := value_ofRatio hnum hden hfinite
  have hround := Precision.double.isNearest_round num hden
  have hge := Precision.double.le_round_fst hnum hden
  obtain ⟨m, hm⟩ : ∃ m, (Precision.double.round num den).1 = m := ⟨_, rfl⟩
  obtain ⟨q, hq⟩ : ∃ q, (Precision.double.round num den).2 = q := ⟨_, rfl⟩
  rw [hm, hq] at hvalue hround
  rw [hq] at hpower hge
  rw [hm] at heven
  have hunit : (0 : ℚ) < 2 ^ q := by positivity
  -- a double either counts in the same unit, or lies below all that have this one
  have hother (y : Binary64) : |(num / den : ℚ) - m * 2 ^ q| ≤ |(num / den : ℚ) - y.value| ∧
      (|(num / den : ℚ) - m * 2 ^ q| = |(num / den : ℚ) - y.value| →
        y.value = m * 2 ^ q ∨ Even m) := by
    obtain ⟨k, hk⟩ | ⟨hsmall, hlt⟩ := y.value_grid q
    · rw [hk]
      obtain ⟨hle, htie⟩ := hround.le_abs_sub hunit k
      refine ⟨hle, fun heq => (htie heq).imp_left ?_⟩
      rintro rfl
      rw [Int.cast_natCast]
    · have hleast : -1074 < q := lt_of_le_of_lt y.le_power hsmall
      have hratio : ((2 ^ 52 : Nat) : ℚ) * 2 ^ q ≤ num / den := (hge hleast).2
      have hle := (hround.le_abs_sub hunit (2 ^ 52 : Nat)).1
      rw [Int.cast_natCast, abs_of_nonneg (sub_nonneg.2 hratio)] at hle
      have hfar : |(num / den : ℚ) - m * 2 ^ q| < |(num / den : ℚ) - y.value| := by
        rw [abs_of_pos (sub_pos.2 (lt_of_lt_of_le hlt hratio))]
        exact lt_of_le_of_lt hle (sub_lt_sub_left hlt _)
      exact ⟨hfar.le, fun heq => absurd heq hfar.ne⟩
  constructor
  · rw [hvalue]
    refine hround.near.trans ?_
    have hunits : (2 : ℚ) ^ q ≤ 2 ^ (ofRatio false num den).power :=
      zpow_le_zpow_right₀ one_le_two hpower
    linarith
  · intro y _
    rw [hvalue]
    exact (hother y).1
  · intro y _ hne htie
    rw [hvalue] at hne htie
    exact heven (((hother y).2 htie).resolve_left hne)

/-- An integer `n` of at most 64 bits has a power of at most eleven in double precision, which is
    far from the greatest one. -/
theorem isFinite_ofRatio_of_lt {negative : Bool} {n : Nat} (hn : 0 < n)
    (hlt : n < 18446744073709551616) : (ofRatio negative n 1).IsFinite := by
  have hm : (Precision.double.round n 1).1 ≤ 2 ^ 53 :=
    Precision.double.round_fst_le (by decide) hn one_pos
  have hq : (Precision.double.round n 1).2 ≤ 11 := by
    rw [Precision.double.round_snd_eq hn one_pos, Nat.cast_one, div_one, Int.log_natCast,
      ← Nat.log2_eq_log_two]
    have hlog : n.log2 < 64 := (Nat.log2_lt hn.ne').2 hlt
    simp only [Precision.double]
    omega
  rw [ofRatio_of_pos hn, isFinite_ofMagnitude_iff]
  unfold infinityWord
  omega

/-- The double of a negative ratio is the one of the positive ratio `num / den`, with the other
    sign. -/
theorem ofRatio_true (num den : Nat) : ofRatio true num den = (ofRatio false num den).neg := by
  unfold ofRatio
  split <;> rfl

/-- **Finite rounding.**  An integer `n` of at most 64 bits rounds to a finite double. -/
theorem isFinite_ofInt {n : Int} (h : n.natAbs < 18446744073709551616) : (ofInt n).IsFinite := by
  by_cases hn : n.natAbs = 0
  · rw [ofInt, ofRatio, if_pos hn]
    exact isFinite_ofMagnitude_iff.2 (by decide)
  · exact isFinite_ofRatio_of_lt (Nat.pos_of_ne_zero hn) h

/-- **Nearest doubles of integers.**  An integer `n` of at most 64 bits rounds to the double nearest
    to it, a tie going to the even significand. -/
theorem ofInt_nearest {n : Int} (h : n.natAbs < 18446744073709551616) : Nearest n (ofInt n) := by
  obtain rfl | hn := eq_or_ne n 0
  · -- zero is exact, so nothing is nearer
    have hvalue : (ofInt 0).value = 0 := by
      show ((0 : Nat) : ℚ) * _ = 0
      rw [Nat.cast_zero, zero_mul]
    constructor
    · rw [hvalue, Int.cast_zero, sub_zero, abs_zero]
      positivity
    · intro y _
      rw [hvalue, Int.cast_zero, sub_zero, abs_zero]
      exact abs_nonneg _
    · intro y _ _ _
      exact ⟨0, rfl⟩
  · have hpos : 0 < n.natAbs := Int.natAbs_pos.2 hn
    have hnearest := ofRatio_nearest hpos one_pos (isFinite_ofRatio_of_lt hpos h)
    rw [Nat.cast_one, div_one, Nat.cast_natAbs] at hnearest
    -- the sign is put on the double of the absolute value
    obtain hneg | hnonneg := lt_or_ge n 0
    · have hofInt : ofInt n = (ofRatio false n.natAbs 1).neg := by
        rw [ofInt, decide_eq_true hneg, ofRatio_true]
      rw [abs_of_neg hneg, Int.cast_neg] at hnearest
      rw [hofInt, ← neg_neg (n : ℚ)]
      exact hnearest.neg
    · rw [abs_of_nonneg hnonneg] at hnearest
      rw [ofInt, decide_eq_false (not_lt.2 hnonneg)]
      exact hnearest

end Binary64

/-- The double that a JSON integer `n` is rounded to is finite, so it is a JSON number again. -/
theorem Json.Integer.isFinite_ofInt (n : Json.Integer) : (Binary64.ofInt n.val).IsFinite := by
  have hlower := n.lower
  have hupper := n.upper
  exact Binary64.isFinite_ofInt (by omega)

end FaultAction
