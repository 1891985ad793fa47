import FaultAction.Text.Basic
import FaultAction.Timestamp.Basic
import FaultAction.Wire.Basic

namespace FaultAction.Timestamp

/-!
# Instants as text — RFC 3339

The text of an instant is what a clock shows, with the offset of the clock:

* `Timestamp.text`      — the text of an instant in UTC, with a `Z`;
* `Timestamp.localText` — the text of an instant at an offset in minutes, given the instant that the
  local clock shows;
* `Timestamp.parse`     — reads a text, with white space, short numbers, long years and any offset
  allowed, and says why one is refused.

The reader goes from left to right.  Every number but the year is checked against its range as soon
as it is read; that the day exists and that the offset is less than a day is checked at the end.
-/

/-! ### Writing -/

/-- The characters of a `year`: four digits, or a sign and at least four digits outside of `0` to
    `9999`. -/
def yearChars (year : Int) : List Char :=
  if 0 ≤ year ∧ year ≤ 9999 then Decimal.padded 4 year.toNat
  else (if year < 0 then '-' else '+') :: Decimal.padded 4 year.natAbs

/-- The characters of the date `d`: year, month and day with hyphens between them. -/
def dateChars (d : Date) : List Char :=
  yearChars d.year ++ ['-'] ++ Decimal.padded 2 d.month ++ ['-'] ++ Decimal.padded 2 d.day

/-- The fraction of a second with as many digits of none, three, six and nine as `nano` needs. -/
def fractionChars (nano : Nat) : List Char :=
  if nano = 0 then []
  else if nano % 1000000 = 0 then '.' :: Decimal.padded 3 (nano / 1000000)
  else if nano % 1000 = 0 then '.' :: Decimal.padded 6 (nano / 1000)
  else '.' :: Decimal.padded 9 nano

/-- The characters of the time of day by its `second` and `nano`; a leap second is shown as second
    60. -/
def timeChars (second nano : Nat) : List Char :=
  Decimal.padded 2 (second / 3600) ++ [':'] ++ Decimal.padded 2 (second / 60 % 60) ++ [':'] ++
    Decimal.padded 2 (second % 60 + nano / 1000000000) ++ fractionChars (nano % 1000000000)

/-- The characters of the date and the time of day of `t`, as a clock shows them without its
    offset. -/
def clockChars (t : Timestamp) : List Char :=
  dateChars t.date ++ ['T'] ++ timeChars t.second t.nano

/-- The characters of an offset in `minutes`: a sign, hours and minutes. -/
def offsetChars (minutes : Int) : List Char :=
  (if minutes < 0 then '-' else '+') ::
    (Decimal.padded 2 (minutes.natAbs / 60) ++ [':'] ++ Decimal.padded 2 (minutes.natAbs % 60))

/-- The text of the instant `t` in UTC, which is what it is written as. -/
def text (t : Timestamp) : String := String.ofList (t.clockChars ++ ['Z'])

/-- The text of what a `clock` shows that runs some `minutes` ahead of UTC. -/
def localText (clock : Timestamp) (minutes : Int) : String :=
  String.ofList (clock.clockChars ++ offsetChars minutes)

/-! ### Reading -/

/-- The reason why a text is no instant. -/
inductive ParseError where
  | premature
  | invalid
  | outOfRange
  | trailing
  | impossible
  deriving DecidableEq, Repr

/-- The text of a `ParseError`, as errors show it. -/
def ParseError.message : ParseError → String
  | .premature => "premature end of input"
  | .invalid => "input contains invalid characters"
  | .outOfRange => "input is out of range"
  | .trailing => "trailing input"
  | .impossible => "no possible date and time matching input"

/-- The number of the first digits of `cs`, of which there must be one and at most `width` are
    taken, and the rest of the text. -/
def parseNumber (width : Nat) (cs : List Char) : Except ParseError (Nat × List Char) :=
  match cs with
  | [] => .error .premature
  | c :: _ =>
    if c.isDigit then
      let digits := (cs.take width).takeWhile Char.isDigit
      .ok (Decimal.value digits, cs.drop digits.length)
    else .error .invalid

/-- The number of one or two digits from `least` to `greatest`, after white space. -/
def parseField (least greatest : Nat) (cs : List Char) : Except ParseError (Nat × List Char) := do
  let (n, rest) ← parseNumber 2 (Text.trimLeft cs)
  if least ≤ n ∧ n ≤ greatest then .ok (n, rest) else .error .outOfRange

/-- The year at the front of a text: at most four digits, or a sign and any number of digits. -/
def parseSignedYear : List Char → Except ParseError (Int × List Char)
  | '-' :: cs => do
    let (n, rest) ← parseNumber cs.length cs
    return (-(n : Int), rest)
  | '+' :: cs => do
    let (n, rest) ← parseNumber cs.length cs
    return ((n : Int), rest)
  | cs => do
    let (n, rest) ← parseNumber 4 cs
    return ((n : Int), rest)

/-- The year after white space, which must fit in 32 bits.  That it is one that a date can have is
    checked later. -/
def parseYear (cs : List Char) : Except ParseError (Int × List Char) := do
  let (year, rest) ← parseSignedYear (Text.trimLeft cs)
  if -2147483648 ≤ year ∧ year < 2147483648 then .ok (year, rest) else .error .outOfRange

/-- The separator `c` after white space. -/
def parseSeparator (c : Char) (cs : List Char) : Except ParseError (Unit × List Char) :=
  match Text.trimLeft cs with
  | [] => .error .premature
  | d :: rest => if d = c then .ok ((), rest) else .error .invalid

/-- The character between date and time: a `T` of either case or a space. -/
def parseMiddle : List Char → Except ParseError (Unit × List Char)
  | [] => .error .premature
  | c :: rest => if c = 't' ∨ c = 'T' ∨ c = ' ' then .ok ((), rest) else .error .invalid

/-- The fraction of a second in nanoseconds, if a point follows; digits after the ninth are
    dropped. -/
def parseFraction : List Char → Except ParseError (Nat × List Char)
  | '.' :: cs => do
    let (_, _) ← parseNumber 9 cs
    let digits := (cs.take 9).takeWhile Char.isDigit
    .ok (Decimal.value digits * Nat.pow 10 (9 - digits.length), cs.dropWhile Char.isDigit)
  | cs => .ok (0, cs)

/-- The number of two digits.  A text with less than two bytes left is too short for them, and one
    with a longer character is wrong. -/
def parseTwoDigits (cs : List Char) : Except ParseError (Nat × List Char) :=
  match cs with
  | [] => .error .premature
  | [c] => if c.utf8Size < 2 then .error .premature else .error .invalid
  | c :: d :: rest =>
    if c.isDigit ∧ d.isDigit then .ok (Decimal.value [c, d], rest) else .error .invalid

/-- The sign of an offset: is it negative?  The minus sign may be a hyphen or a character of its
    own. -/
def parseSign : List Char → Except ParseError (Bool × List Char)
  | [] => .error .premature
  | c :: rest =>
    if c = '+' then .ok (false, rest)
    else if c = '-' ∨ c = '\u2212' then .ok (true, rest)
    else .error .invalid

/-- The offset in minutes by a sign, two digits of hours, and two digits of minutes, with colons and
    white space between them or not. -/
def parseOffset (cs : List Char) : Except ParseError (Int × List Char) := do
  let (negative, rest) ← parseSign cs
  let (hours, rest) ← parseTwoDigits rest
  let (minutes, rest) ← parseTwoDigits (rest.dropWhile fun c => c = ':' || Text.isBlank c)
  if 60 ≤ minutes then .error .outOfRange
  else
    let offset : Int := hours * 60 + minutes
    .ok (if negative then -offset else offset, rest)

/-- The zone after white space, as an offset in minutes: `UTC` in any case, `Z`, `z`, or a sign with
    hours and minutes. -/
def parseZone (cs : List Char) : Except ParseError (Int × List Char) :=
  match Text.trimLeft cs with
  | 'Z' :: rest | 'z' :: rest => .ok (0, rest)
  | u :: t :: c :: rest =>
    if u.toLower = 'u' ∧ t.toLower = 't' ∧ c.toLower = 'c' then .ok (0, rest)
    else parseOffset (u :: t :: c :: rest)
  | cs => parseOffset cs

/-- A date and a time of day as they are read, before it is known whether they exist. -/
structure Reading where
  year : Int
  month : Nat
  day : Nat
  hour : Nat
  minute : Nat
  second : Nat
  nano : Nat
  /-- Minutes that the clock runs ahead of UTC. -/
  offset : Int
  deriving DecidableEq, Repr

/-- Reads all parts of the text `cs`, from left to right; only white space may be left over. -/
def Reading.parse (cs : List Char) : Except ParseError Reading := do
  let (year, rest) ← parseYear cs
  let (_, rest) ← parseSeparator '-' rest
  let (month, rest) ← parseField 1 12 rest
  let (_, rest) ← parseSeparator '-' rest
  let (day, rest) ← parseField 1 31 rest
  let (_, rest) ← parseMiddle rest
  let (hour, rest) ← parseField 0 23 rest
  let (_, rest) ← parseSeparator ':' rest
  let (minute, rest) ← parseField 0 59 rest
  let (_, rest) ← parseSeparator ':' rest
  let (second, rest) ← parseField 0 60 rest
  let (nano, rest) ← parseFraction rest
  let (offset, rest) ← parseZone rest
  if Text.trimLeft rest = [] then
    .ok { year, month, day, hour, minute, second, nano, offset }
  else .error .trailing

/-- The time that the clock of a reading `r` shows, if there is such a time.  Second 60 is a leap
    second. -/
def Reading.clock? (r : Reading) : Option Timestamp := do
  let date ← Date.of? r.year r.month r.day
  let isLeap := r.second = 60
  let second := r.hour * 3600 + r.minute * 60 + (if isLeap then 59 else r.second)
  let nano := if isLeap then r.nano + 1000000000 else r.nano
  if h : second < 86400 ∧ nano < 2000000000 ∧ (1000000000 ≤ nano → second % 60 = 59) then
    some { date, second, nano, second_lt := h.1, nano_lt := h.2.1, leap := h.2.2 }
  else none

/-- The instant of the reading `r`: what the clock shows less its offset, which must be less than a
    day. -/
def Reading.instant (r : Reading) : Except ParseError Timestamp :=
  match r.clock? with
  | none => .error .outOfRange
  | some clock =>
    if r.offset.natAbs < 1440 then
      match clock.shift? (-r.offset) with
      | some t => .ok t
      | none => .error .impossible
    else .error .outOfRange

/-- Reads the text `s` of an instant. -/
def parse (s : String) : Except ParseError Timestamp := do
  let r ← Reading.parse s.toList
  r.instant

/-- On the wire an instant is its text in UTC, and it is read from any text that `parse` takes. -/
instance : Wire Timestamp where
  read
    | .str s => (parse s).mapError fun e => .malformed e.message
    | j => .error (.unexpected j "an RFC 3339 formatted date and time string")
  write t := .str t.text

end FaultAction.Timestamp
