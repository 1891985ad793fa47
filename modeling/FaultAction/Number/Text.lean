import FaultAction.Number.Binary64
import FaultAction.Text.Basic

namespace FaultAction

/-!
# Texts of doubles — writing and reading

A double is written with the fewest decimal digits that are read as the same double:

* `Scientific`       — the digits of a decimal and the exponent of the first one;
* `Interval`         — the reals that round to a number, by exact integers;
* `Interval.search`  — the coarsest decimal grid with a point in the interval, and that point;
* `Binary64.shortest` — the decimal with the fewest digits in the interval, of several the one
  nearest to the number;
* `Layout`           — where positional notation ends, the sign of an exponent, and ties, with the
  three layouts in use: `Layout.jsonNumber`, `Layout.singleKey` and `Layout.report`;
* `Layout.text`      — the text of any double in a layout;
* `Binary64.ofText?` — the double nearest to a decimal with an optional point and exponent, or one
  of the words for infinity and NaN.

For one digit, two digits and so on, `Interval.search` tries the two neighbours of the number on
that grid.  If any point of a grid lies in the interval, one of the two does.
-/

/-! ### Shortest decimals -/

/-- The positive decimal `d.ddd × 10 ^ exponent` by the characters of its `digits`, or zero as the
    digit `0`. -/
structure Scientific where
  digits : List Char
  exponent : Int
  deriving DecidableEq, Repr

/-- Which of two decimals is taken if a number lies half way between them: the one with an `even`
    last digit, or the greater one. -/
inductive Tie where
  | even
  | up
  deriving DecidableEq, Repr

/-- The reals that round to `value / unit`: those from `low / unit` to `high / unit`, the two ends
    among them if the interval is `closed`. -/
structure Interval where
  low : Nat
  value : Nat
  high : Nat
  unit : Nat
  closed : Bool
  deriving Repr

namespace Interval

/-- The interval of the number `m * 2 ^ q` in the precision `p`.  Below a power of two numbers are
    twice as close, so there the lower end is nearer.  The ends round to the number when `m` is
    even. -/
def ofSignificand (p : Precision) (m : Nat) (q : Int) : Interval :=
  let scale := Nat.pow 2 q.toNat
  let gap := if m = Nat.pow 2 (p.bits - 1) ∧ p.leastPower < q then 1 else 2
  { low := (4 * m - gap) * scale
    value := 4 * m * scale
    high := (4 * m + 2) * scale
    unit := 4 * Nat.pow 2 (-q).toNat
    closed := m % 2 = 0 }

/-- Does the point `c * 10 ^ k` lie in the interval `i`?  All is multiplied out, so that no digit
    gets lost. -/
def holds (i : Interval) (c : Nat) (k : Int) : Bool :=
  let point := c * Nat.pow 10 k.toNat * i.unit
  let scale := Nat.pow 10 (-k).toNat
  if i.closed then i.low * scale ≤ point && point ≤ i.high * scale
  else i.low * scale < point && point < i.high * scale

/-- The point of the grid with the step `10 ^ k` that stands for the number of `i`, if there is one
    in the interval; of two of them it is the nearer one, and `tie` decides between equally near
    ones. -/
def pointOn (i : Interval) (tie : Tie) (k : Int) : Option Nat :=
  let num := i.value * Nat.pow 10 (-k).toNat
  let den := i.unit * Nat.pow 10 k.toNat
  let below := num / den
  let rest := num % den
  match i.holds below k, i.holds (below + 1) k with
  | true, false => some below
  | false, true => some (below + 1)
  | false, false => none
  | true, true =>
    if 2 * rest < den then some below
    else if den < 2 * rest then some (below + 1)
    else if tie = .even ∧ below % 2 = 0 then some below
    else some (below + 1)

/-- The first grid with a point in the interval `i`, and the point, among so many `grids` from the
    step `10 ^ k` on, each ten times finer than the one before. -/
def search (i : Interval) (tie : Tie) : (grids : Nat) → (k : Int) → Nat × Int
  | 0, k => (i.value * Nat.pow 10 (-k).toNat / (i.unit * Nat.pow 10 k.toNat), k)
  | grids + 1, k =>
    match i.pointOn tie k with
    | some c => (c, k)
    | none => search i tie grids (k - 1)

/-- The greatest `e` with `10 ^ e ≤ value / unit`, by the number of digits of the quotient or of its
    reciprocal. -/
def decimalExponent (i : Interval) : Int :=
  if i.unit ≤ i.value then ((Decimal.digits (i.value / i.unit)).length : Int) - 1
  else -((Decimal.digits ((i.unit + i.value - 1) / i.value - 1)).length : Int)

end Interval

/-- The decimal `c * 10 ^ k` by its digits, without the zeros at the end, which `exponent` does not
    need. -/
def Scientific.ofGrid (c : Nat) (k : Int) : Scientific :=
  let digits := Decimal.digits c
  let kept := (digits.reverse.dropWhile (· = '0')).reverse
  if kept = [] then ⟨['0'], 0⟩ else ⟨kept, k + (digits.length : Int) - 1⟩

/-- The shortest decimal of the finite number `x` without its sign, as a number of the precision
    `p`.  Seventeen digits tell any two doubles apart, so `Interval.search` needs no more grids. -/
def Binary64.shortest (p : Precision) (tie : Tie) (x : Binary64) : Scientific :=
  if x.isZero then ⟨['0'], 0⟩
  else
    let (m, q) := p.round x.ratio.1 x.ratio.2
    let i := Interval.ofSignificand p m q
    let (c, k) := i.search tie 17 i.decimalExponent
    Scientific.ofGrid c k

/-! ### Layouts -/

/-- The choices that a text of a double leaves: its `precision`, the `tie` rule, and which exponents
    are written. -/
structure Layout where
  precision : Precision
  tie : Tie
  /-- The least exponent of the first digit that is written positionally. -/
  least : Int
  /-- The greatest exponent of the first digit that is written positionally. -/
  greatest : Int
  /-- Is a plus sign written before an exponent that is not negative? -/
  plus : Bool

/-- The layout of JSON numbers: positional from `0.00001` to below `10 ^ 16`, otherwise as in
    `1e+16` and `9.5e-8`. -/
def Layout.jsonNumber : Layout := ⟨.double, .even, -5, 15, true⟩

/-- The layout of single-precision numbers as names of members: positional from `0.000001` to below
    `10 ^ 13`. -/
def Layout.singleKey : Layout := ⟨.single, .even, -6, 12, true⟩

/-- The layout of doubles in error texts: positional from `0.0001` to below `10 ^ 16`, otherwise as
    in `1e16`. -/
def Layout.report : Layout := ⟨.double, .up, -4, 15, false⟩

namespace Layout

/-- The decimal `d` without an exponent: zeros fill the places between the digits and the point, and
    at least one digit stands after the point. -/
def positional (d : Scientific) : List Char :=
  if d.exponent < 0 then
    ['0', '.'] ++ List.replicate ((-d.exponent).toNat - 1) '0' ++ d.digits
  else
    let whole := d.exponent.toNat + 1
    if d.digits.length ≤ whole then
      d.digits ++ List.replicate (whole - d.digits.length) '0' ++ ['.', '0']
    else d.digits.take whole ++ ['.'] ++ d.digits.drop whole

/-- The decimal `d` with one digit in front of the point and the exponent after an `e`; whether the
    exponent has a plus sign is a choice of `l`. -/
def exponential (l : Layout) (d : Scientific) : List Char :=
  let sign := if d.exponent < 0 then ['-'] else if l.plus then ['+'] else []
  let point := if d.digits.length ≤ 1 then [] else ['.']
  d.digits.take 1 ++ point ++ d.digits.drop 1 ++ ['e'] ++ sign ++
    Decimal.digits d.exponent.natAbs

/-- The text of the decimal `d`: `positional` if its exponent lies in the range of `l`, otherwise
    `exponential`. -/
def place (l : Layout) (d : Scientific) : List Char :=
  if l.least ≤ d.exponent ∧ d.exponent ≤ l.greatest then positional d else l.exponential d

/-- The text of the finite number `x`: its sign and the text of its `shortest` decimal. -/
def finite (l : Layout) (x : Binary64) : List Char :=
  (if x.negative then ['-'] else []) ++ l.place (x.shortest l.precision l.tie)

/-- The text of any double `x`: that of `finite`, or one of the words `NaN`, `inf` and `-inf`. -/
def text (l : Layout) (x : Binary64) : List Char :=
  if x.IsFinite then l.finite x
  else if x.isNaN then "NaN".toList
  else if x.negative then "-inf".toList
  else "inf".toList

end Layout

/-! ### Numbers from text -/

namespace Binary64

/-- The double nearest to `digits * 10 ^ exponent`.  Numbers far out of the range of doubles are
    decided by their `size` alone, so that no power of ten becomes huge. -/
def ofDecimal (negative : Bool) (digits : Nat) (exponent : Int) : Binary64 :=
  let size : Int := (Decimal.digits digits).length + exponent
  if digits = 0 ∨ size < -330 then ofMagnitude negative 0
  else if 310 < size then infinity negative
  else ofRatio negative (digits * Nat.pow 10 exponent.toNat) (Nat.pow 10 (-exponent).toNat)

/-- The infinity or the NaN that the word `cs` stands for, in letters of either case. -/
def ofWord? (negative : Bool) (cs : List Char) : Option Binary64 :=
  let word := cs.map Char.toLower
  if word = "inf".toList ∨ word = "infinity".toList then some (infinity negative)
  else if word = "nan".toList then some (nan negative)
  else none

/-- The exponent at the end of a decimal: zero if nothing is there, otherwise the integer after an
    `e` of either case. -/
def exponent? : List Char → Option Int
  | [] => some 0
  | e :: cs =>
    if e = 'e' ∨ e = 'E' then Decimal.signed? cs else none

/-- The double of a decimal without a sign: digits with an optional point among them or at an end,
    and an exponent.  The digits behind the point lower the exponent. -/
def ofNumeral? (negative : Bool) (cs : List Char) : Option Binary64 := do
  let whole := cs.takeWhile Char.isDigit
  let rest := cs.dropWhile Char.isDigit
  let (fraction, rest) :=
    match rest with
    | '.' :: rest => (rest.takeWhile Char.isDigit, rest.dropWhile Char.isDigit)
    | rest => ([], rest)
  let digits ← Decimal.numeral? (whole ++ fraction)
  let exponent ← exponent? rest
  return ofDecimal negative digits (exponent - fraction.length)

/-- The double that the text `cs` stands for: after an optional sign, a decimal as in `ofNumeral?`
    or a word as in `ofWord?`. -/
def ofText? (cs : List Char) : Option Binary64 :=
  let (negative, cs) :=
    match cs with
    | '+' :: cs => (false, cs)
    | '-' :: cs => (true, cs)
    | cs => (false, cs)
  ofNumeral? negative cs <|> ofWord? negative cs

end Binary64

end FaultAction
