namespace FaultAction

/-!
# Texts — white space, decimal digits and positions

What the readers and writers of texts share:

* `Text.isBlank`, `Text.trim` — the characters with the Unicode property White_Space, and a text
  without them at both ends;
* `Decimal.digits`, `Decimal.padded`, `Decimal.signed` — whole numbers as ASCII digits, without
  leading zeros, filled up to a width, or after a minus sign;
* `Decimal.value`           — the number that a row of digits stands for;
* `Decimal.word?`, `Decimal.unsigned?`, `Decimal.integer?` — readers of whole texts: a natural
  number in 64 bits, one below a bound after an optional plus sign, an integer in a range;
* `Text.Position`, `Text.restatedPosition` — the place that a text may end in, as in
  `boom at line 3 column 5`, and the text with that place in plain numbers.
-/

/-! ### White space -/

namespace Text

/-- The characters with the Unicode property White_Space, in the order of their code points. -/
def blanks : List Char :=
  ['\t', '\n', '\x0b', '\x0c', '\r', ' ', '\x85', '\xa0', '\u1680', '\u2000', '\u2001', '\u2002',
    '\u2003', '\u2004', '\u2005', '\u2006', '\u2007', '\u2008', '\u2009', '\u200a', '\u2028',
    '\u2029', '\u202f', '\u205f', '\u3000']

/-- Is `c` white space, that is, one of `blanks`? -/
def isBlank (c : Char) : Bool := blanks.contains c

/-- `cs` without the white space at its start. -/
def trimLeft (cs : List Char) : List Char := cs.dropWhile isBlank

/-- `cs` without the white space at both ends; the end is trimmed by `trimLeft` on the reversed
    text. -/
def trim (cs : List Char) : List Char := (trimLeft (trimLeft cs).reverse).reverse

end Text

/-! ### Decimal digits -/

namespace Decimal

/-- The ASCII digits of `n`, without leading zeros; zero is `0`. -/
abbrev digits (n : Nat) : List Char := Nat.toDigits 10 n

/-- The `digits` of `n`, with zeros in front where there are fewer than `width`. -/
def padded (width n : Nat) : List Char :=
  List.replicate (width - (digits n).length) '0' ++ digits n

/-- The `digits` of an integer; a negative one has a minus sign in front. -/
def signed (n : Int) : List Char :=
  if n < 0 then '-' :: digits n.natAbs else digits n.natAbs

/-- The number that the digits `cs` stand for. -/
abbrev value (cs : List Char) : Nat := Nat.ofDigitChars 10 cs 0

/-- The text of a natural number: its `digits`. -/
def ofNat (n : Nat) : String := String.ofList (digits n)

/-- The text of an integer: its `signed` digits. -/
def ofInt (n : Int) : String := String.ofList (signed n)

/-- Does `cs` consist of one or more digits, and of nothing else? -/
def isNumeral (cs : List Char) : Bool := !cs.isEmpty && cs.all Char.isDigit

/-- The `value` of one or more digits; any other text is refused. -/
def numeral? (cs : List Char) : Option Nat := if isNumeral cs then some (value cs) else none

/-- The `value` of one or more digits, if it fits in 64 bits. -/
def word? (cs : List Char) : Option Nat := do
  let n ← numeral? cs
  if n < UInt64.size then some n else none

/-- The `value` of digits after an optional plus sign, if it is below `bound`. -/
def unsigned? (bound : Nat) (cs : List Char) : Option Nat := do
  let n ← numeral? (match cs with | '+' :: ds => ds | ds => ds)
  if n < bound then some n else none

/-- The integer that digits after an optional sign stand for. -/
def signed? : List Char → Option Int
  | '+' :: ds => (fun (n : Nat) => (n : Int)) <$> numeral? ds
  | '-' :: ds => (fun (n : Nat) => -(n : Int)) <$> numeral? ds
  | ds => (fun (n : Nat) => (n : Int)) <$> numeral? ds

/-- The integer of `signed?`, if it lies from `least` to below `bound`. -/
def integer? (least bound : Int) (cs : List Char) : Option Int := do
  let n ← signed? cs
  if least ≤ n ∧ n < bound then some n else none

end Decimal

/-! ### Positions -/

namespace Text

/-- A place in a text that was read, with a `line` and a `column` that fit in 64 bits.  Lines count
    from one; line zero says that no place is known. -/
structure Position where
  line : Nat
  column : Nat
  deriving DecidableEq, Repr

/-- The position `p` as the end of a reason, in plain numbers. -/
def Position.text (p : Position) : List Char :=
  " at line ".toList ++ Decimal.digits p.line ++ " column ".toList ++ Decimal.digits p.column

/-- The position that is all of `cs`, with numbers read by `Decimal.word?`. -/
def Position.ofText? (cs : List Char) : Option Position := do
  let rest ← " at line ".toList.isPrefixOf? cs
  let line ← Decimal.word? (rest.takeWhile Char.isDigit)
  let rest ← " column ".toList.isPrefixOf? (rest.dropWhile Char.isDigit)
  let column ← Decimal.word? rest
  return { line, column }

/-- A text without the `Position` at its end, and the position.  Only one end of a text can be a
    position, since none has a second ` at line ` in it. -/
def splitPosition : List Char → List Char × Option Position
  | [] => ([], none)
  | c :: cs =>
    match Position.ofText? (c :: cs) with
    | some p => ([], some p)
    | none =>
      let (front, p?) := splitPosition cs
      (c :: front, p?)

/-- The text `s` with the `Position` at its end, if there is one, in plain numbers; a position in
    line zero is left out. -/
def restatedPosition (s : String) : String :=
  match splitPosition s.toList with
  | (_, none) => s
  | (front, some p) => String.ofList (if p.line = 0 then front else front ++ p.text)

end Text

end FaultAction
