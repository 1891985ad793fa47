import FaultAction.Text.Basic

namespace FaultAction.Base64

/-!
# Base64 — the standard alphabet with canonical padding

Bytes as texts of 64 symbols, and back:

* `symbol`, `value?` — the symbol of six bits, and the six bits of a symbol;
* `encode`           — four symbols for three bytes, the last ones filled up with `pad`;
* `decode`           — the bytes of a text, or a `DecodeError` for the first reason why there are
  none.

A text is refused for, in this order: one symbol too many, a wrong byte, a length that is no
multiple of four, bits of the last symbol that are not used and not zero.  A `pad` is a wrong byte
unless it is one of the last two of four and only further ones follow.
-/

/-- The reason why a text is refused, with the wrong `byte` and its `offset` in the text where there
    is one to blame. -/
inductive DecodeError where
  | invalidByte (byte : UInt8) (offset : Nat)
  | invalidLength
  | invalidPadding
  | invalidLastSymbol (byte : UInt8) (offset : Nat)
  deriving DecidableEq, Repr

/-- The text of a `DecodeError`, which names a wrong `byte` by its number, since it may be no
    character. -/
def DecodeError.message : DecodeError → String
  | .invalidByte byte offset =>
    "Invalid byte " ++ Decimal.ofNat byte.toNat ++ ", offset " ++ Decimal.ofNat offset ++ "."
  | .invalidLength => "Encoded text cannot have a 6-bit remainder."
  | .invalidPadding => "Invalid padding"
  | .invalidLastSymbol byte offset =>
    "Invalid last symbol " ++ Decimal.ofNat byte.toNat ++ ", offset " ++
      Decimal.ofNat offset ++ "."

/-! ### Symbols -/

/-- The byte `=`, which stands in place of the symbols that the last bytes do not need. -/
def pad : UInt8 := 61

/-- The symbol of the six bits `n`, a number below 64: one of `A` to `Z`, `a` to `z`, `0` to `9`,
    `+` and `/`, in this order. -/
def symbol (n : Nat) : UInt8 :=
  if n < 26 then UInt8.ofNat (65 + n)
  else if n < 52 then UInt8.ofNat (71 + n)
  else if n < 62 then UInt8.ofNat (n - 4)
  else if n = 62 then 43
  else 47

/-- The six bits that the symbol `b` stands for, which undoes `symbol`; any other byte, `pad` among
    them, has none. -/
def value? (b : UInt8) : Option Nat :=
  let n := b.toNat
  if 65 ≤ n ∧ n ≤ 90 then some (n - 65)
  else if 97 ≤ n ∧ n ≤ 122 then some (n - 71)
  else if 48 ≤ n ∧ n ≤ 57 then some (n + 4)
  else if n = 43 then some 62
  else if n = 47 then some 63
  else none

/-! ### Encoding -/

/-- The base64 text of the bytes, again as bytes.  Three bytes are one number `n` of 24 bits, cut
    into four symbols; one or two bytes at the end are filled up with zero bits and the text with
    `pad`. -/
def encode : List UInt8 → List UInt8
  | [] => []
  | [a] =>
    let n := a.toNat * 16
    [symbol (n / 64), symbol (n % 64), pad, pad]
  | [a, b] =>
    let n := (a.toNat * 256 + b.toNat) * 4
    [symbol (n / 4096), symbol (n / 64 % 64), symbol (n % 64), pad]
  | a :: b :: c :: bytes =>
    let n := (a.toNat * 256 + b.toNat) * 256 + c.toNat
    symbol (n / 262144) :: symbol (n / 4096 % 64) :: symbol (n / 64 % 64) ::
      symbol (n % 64) :: encode bytes

/-! ### Decoding -/

/-- The bits of each symbol by `value?`.  The first byte that is no symbol is an error, with its
    place in the text, counted from `offset` on. -/
def values (offset : Nat) : List UInt8 → Except DecodeError (List Nat)
  | [] => .ok []
  | b :: bs => do
    match value? b with
    | none => .error (.invalidByte b offset)
    | some v => do
      let vs ← values (offset + 1) bs
      return v :: vs

/-- The bytes that the six bits of each symbol make up: four symbols give three bytes, and what is
    left of the last symbol is dropped. -/
def bytesOf : List Nat → List UInt8
  | a :: b :: c :: d :: vs =>
    let n := ((a * 64 + b) * 64 + c) * 64 + d
    UInt8.ofNat (n / 65536) :: UInt8.ofNat (n / 256 % 256) :: UInt8.ofNat (n % 256) ::
      bytesOf vs
  | [a, b, c] =>
    let n := (a * 64 + b) * 64 + c
    [UInt8.ofNat (n / 1024), UInt8.ofNat (n / 4 % 256)]
  | [a, b] => [UInt8.ofNat ((a * 64 + b) / 16)]
  | _ => []

/-- How many values the unused low bits of the last symbol can have if there are `count` symbols:
    four bits are unused after two of four, two bits after three, and none after four. -/
def unusedValues (count : Nat) : Nat :=
  if count % 4 = 2 then 16 else if count % 4 = 3 then 4 else 1

/-- Decodes the `symbols` in front of the first `pad` and the `padding` from there on.  Symbols are
    looked at before `padding`, so that a wrong one is reported first. -/
def decodeParts (symbols padding : List UInt8) : Except DecodeError (List UInt8) := do
  let vs ← values 0 symbols
  let count := symbols.length
  if padding ≠ [] ∧ (count % 4 < 2 ∨ 4 < count % 4 + padding.length) ∨ padding.any (· ≠ pad) then
    .error (.invalidByte pad count)
  else if (count + padding.length) % 4 ≠ 0 then .error .invalidPadding
  else
    match symbols.getLast?, vs.getLast? with
    | some byte, some v =>
      if v % unusedValues count = 0 then .ok (bytesOf vs)
      else .error (.invalidLastSymbol byte (count - 1))
    | _, _ => .ok []

/-- The bytes of the base64 text `bs`.  One symbol more than a multiple of four is refused at once,
    before any other symbol is looked at; otherwise `decodeParts` does the work. -/
def decode (bs : List UInt8) : Except DecodeError (List UInt8) :=
  if bs.length % 4 = 1 then
    match bs.getLast? with
    | some b =>
      if b ≠ pad ∧ value? b = none then .error (.invalidByte b (bs.length - 1))
      else .error .invalidLength
    | none => .error .invalidLength
  else decodeParts (bs.takeWhile (· ≠ pad)) (bs.dropWhile (· ≠ pad))

end FaultAction.Base64
