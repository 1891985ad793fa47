namespace FaultAction

/-!
# Binary floating point — doubles and exact rounding

Double-precision numbers by their three fields, and rounding into them without any error but that of
the last bit:

* `Binary64`          — a sign, an exponent field of 11 bits and a fraction field of 52 bits;
* `roundDiv`          — the integer nearest to a ratio, a tie going to the even one;
* `Precision.round`   — the significand and the power of two nearest to a ratio;
* `Binary64.ofRatio`, `Binary64.ofInt` — the double nearest to a ratio and to an integer;
* `Binary64.toSingle` — a double rounded to single precision;
* `Binary64.sameNumber` — equality as numbers: the two zeros agree, and a NaN equals nothing.
-/

/-- A double-precision number by its fields: the sign, the biased `exponent` and the `fraction`, the
    bits of the significand behind the point. -/
structure Binary64 where
  negative : Bool
  exponent : Fin 2048
  fraction : Fin 4503599627370496
  deriving DecidableEq, Repr

/-! ### Rounding -/

/-- The integer nearest to `num / den`.  The remainder `r` of the quotient `q` decides between `q`
    and `q + 1`; if it is just half of `den`, the even one of the two is taken. -/
def roundDiv (num den : Nat) : Nat :=
  let q := num / den
  let r := num % den
  if 2 * r < den then q
  else if den < 2 * r then q + 1
  else if q % 2 = 0 then q
  else q + 1

/-- A binary precision: the number of `bits` that a significand has, and the least power of two that
    it may count. -/
structure Precision where
  bits : Nat
  leastPower : Int

/-- Double precision, with 53 bits, one of which is not stored, down to `2 ^ (-1074)`. -/
def Precision.double : Precision := ⟨53, -1074⟩

/-- Single precision, with 24 bits, down to `2 ^ (-149)`. -/
def Precision.single : Precision := ⟨24, -149⟩

/-- The greatest `e` with `2 ^ e ≤ num / den`, for positive `num` and `den`.  The lengths of the two
    in bits leave a choice of two, which one comparison decides. -/
def binaryExponent (num den : Nat) : Int :=
  let e : Int := (num.log2 : Int) - den.log2
  if num * Nat.pow 2 (-e).toNat < den * Nat.pow 2 e.toNat then e - 1 else e

/-- The significand `m` and the power `q` with `m * 2 ^ q` nearest to `num / den`.  The power is
    such that `m` has all `bits` of the precision, unless that is below `leastPower`. -/
def Precision.round (p : Precision) (num den : Nat) : Nat × Int :=
  let q := max p.leastPower (binaryExponent num den - (p.bits - 1 : Nat))
  (roundDiv (num * Nat.pow 2 (-q).toNat) (den * Nat.pow 2 q.toNat), q)

namespace Binary64

/-! ### Kinds of numbers -/

/-- The number `x` is neither infinite nor a NaN: only those two have all bits of the exponent
    set. -/
def IsFinite (x : Binary64) : Prop := x.exponent.val ≠ 2047

instance (x : Binary64) : Decidable x.IsFinite := inferInstanceAs (Decidable (_ ≠ _))

/-- Is `x` a NaN, that is, does it have all bits of the exponent set and a `fraction` that is not
    zero? -/
def isNaN (x : Binary64) : Bool := x.exponent.val = 2047 && x.fraction.val ≠ 0

/-- Is `x` one of the two zeros, which differ in their sign alone? -/
def isZero (x : Binary64) : Bool := x.exponent.val = 0 && x.fraction.val = 0

/-- Equality of `x` and `y` as numbers, which is not that of their fields: a NaN does not equal
    itself, and the two zeros are equal. -/
def sameNumber (x y : Binary64) : Bool :=
  !x.isNaN && !y.isNaN && (x = y || x.isZero && y.isZero)

/-- The significand of a finite `x`, an integer below `2 ^ 53`.  Its first bit is not stored: it is
    one unless the exponent field is zero. -/
def significand (x : Binary64) : Nat :=
  if x.exponent.val = 0 then x.fraction.val else 4503599627370496 + x.fraction.val

/-- The power of two that the `significand` of `x` counts.  The exponent fields zero and one mean
    the same power. -/
def power (x : Binary64) : Int := max x.exponent.val 1 - 1075

/-! ### Words of 64 bits -/

/-- The number whose bits are the 64 low bits of `word`: 52 bits of fraction, 11 bits of exponent,
    and the sign. -/
def ofBits (word : Nat) : Binary64 where
  negative := word / 9223372036854775808 % 2 = 1
  exponent := ⟨word / 4503599627370496 % 2048, Nat.mod_lt _ (by decide)⟩
  fraction := ⟨word % 4503599627370496, Nat.mod_lt _ (by decide)⟩

/-- The word of 64 bits that `x` is stored as, which `ofBits` reads back. -/
def toBits (x : Binary64) : Nat :=
  (if x.negative then 9223372036854775808 else 0) + x.exponent.val * 4503599627370496 +
    x.fraction.val

/-- The word of `infinity` without its sign: all words below it are those of finite numbers. -/
def infinityWord : Nat := 2047 * 4503599627370496

/-- The number with the given sign and the `word`, cut off at `infinityWord`, so that nothing
    overflows into a NaN. -/
def ofMagnitude (negative : Bool) (word : Nat) : Binary64 :=
  let word := min word infinityWord
  { ofBits word with negative }

/-- The infinity of the given sign, whose word is `infinityWord`, beyond all finite doubles. -/
def infinity (negative : Bool) : Binary64 := ofMagnitude negative infinityWord

/-- The NaN of the given sign that arithmetic gives, with the first bit of its fraction set. -/
def nan (negative : Bool) : Binary64 :=
  ⟨negative, ⟨2047, by decide⟩, ⟨2251799813685248, by decide⟩⟩

/-! ### Nearest numbers -/

/-- The double nearest to `num / den`.  A significand `m` that rounds up to the next power of two
    carries into the exponent field, and past the greatest one to infinity. -/
def ofRatio (negative : Bool) (num den : Nat) : Binary64 :=
  if num = 0 then ofMagnitude negative 0
  else
    let (m, q) := Precision.double.round num den
    ofMagnitude negative ((q + 1074).toNat * 4503599627370496 + m)

/-- The double nearest to the integer `n`, which is `n` itself below `2 ^ 53`. -/
def ofInt (n : Int) : Binary64 := ofRatio (n < 0) n.natAbs 1

/-- The numerator and the denominator of the finite number `x` without its sign; one of them is a
    power of two. -/
def ratio (x : Binary64) : Nat × Nat :=
  (x.significand * Nat.pow 2 x.power.toNat, Nat.pow 2 (-x.power).toNat)

/-- The single-precision number nearest to `x`, as a double; from `2 ^ 128` on that is infinity.  A
    single-precision number is a double as well, so the second rounding changes nothing. -/
def toSingle (x : Binary64) : Binary64 :=
  if ¬x.IsFinite || x.isZero then x
  else
    let (m, q) := Precision.single.round x.ratio.1 x.ratio.2
    if 340282366920938463463374607431768211456 ≤ m * Nat.pow 2 q.toNat then infinity x.negative
    else ofRatio x.negative (m * Nat.pow 2 q.toNat) (Nat.pow 2 (-q).toNat)

end Binary64

end FaultAction
