import FaultAction.Members
import FaultAction.Number.Binary64
import FaultAction.Number.Text
import FaultAction.Text.Quoted

namespace FaultAction

/-!
# JSON — trees and their texts

The trees that all values are written to and read from:

* `Json`           — trees whose numbers are integers from `-2 ^ 63` to `2 ^ 64 - 1` or finite
  doubles; the members of an object keep the order of the list;
* `Json.sortKeys`  — the same tree with the members of every object in name order;
* `Json.WellKeyed` — in every object the names strictly ascend;
* `Json.text`      — the text of a tree without any white space, members in the order of the list.

Records are written with their members in the order of their fields, which is the order of their
text.  As a value, a tree has its members in name order.  In texts, strings escape quotes,
backslashes and the controls below the space, and nothing else.
-/

/-! ### Trees -/

/-- An integer of a JSON number: `val` fits in 64 bits, with a sign or without one. -/
structure Json.Integer where
  val : Int
  lower : -9223372036854775808 ≤ val
  upper : val < 18446744073709551616
  deriving DecidableEq

/-- A JSON number, which is an integer or a double; a double is `finite`, so NaN and the infinities
    cannot be one. -/
inductive Json.Number where
  | int (n : Json.Integer)
  | float (x : Binary64) (finite : x.IsFinite)
  deriving DecidableEq

/-- A JSON tree.  An object `obj` is a list of members, which may have a name more than once and in
    any order. -/
inductive Json where
  | null
  | bool (b : Bool)
  | num (n : Json.Number)
  | str (s : String)
  | arr (elems : List Json)
  | obj (members : List (String × Json))
  deriving Inhabited

namespace Json

/-! ### Numbers -/

/-- The JSON integer of `n`, a signed word of 32 bits. -/
def Integer.ofInt32 (n : Int32) : Integer where
  val := n.toInt
  lower := by have := n.le_toInt; omega
  upper := by have := n.toInt_lt; omega

/-- The JSON integer of `n`, a signed word of 64 bits. -/
def Integer.ofInt64 (n : Int64) : Integer where
  val := n.toInt
  lower := by have := n.le_toInt; omega
  upper := by have := n.toInt_lt; omega

/-- The JSON integer of the byte `n`. -/
def Integer.ofUInt8 (n : UInt8) : Integer where
  val := n.toNat
  lower := by omega
  upper := by have := n.toNat_lt; omega

/-- The JSON integer of `n`, an unsigned word of 32 bits. -/
def Integer.ofUInt32 (n : UInt32) : Integer where
  val := n.toNat
  lower := by omega
  upper := by have := n.toNat_lt; omega

/-- The JSON integer of `n`, an unsigned word of 64 bits. -/
def Integer.ofUInt64 (n : UInt64) : Integer where
  val := n.toNat
  lower := by omega
  upper := by have := n.toNat_lt; omega

/-- The JSON integer with the value `n`, unless `n` is out of range. -/
def Integer.ofInt? (n : Int) : Option Integer :=
  if h : -9223372036854775808 ≤ n ∧ n < 18446744073709551616 then some ⟨n, h.1, h.2⟩ else none

/-- The integer `n` as a tree. -/
def int (n : Integer) : Json := .num (.int n)

/-- The double `x` as a tree.  NaN and the infinities have no JSON number, and become null. -/
def double (x : Binary64) : Json :=
  if h : x.IsFinite then .num (.float x h) else .null

/-! ### Order of names -/

mutual

/-- The same tree with the members of every object in name order, at any depth; of two members of
    one name the later one counts. -/
def sortKeys : Json → Json
  | .arr xs => .arr (sortElems xs)
  | .obj ms => .obj (sortMembers ms)
  | j => j
termination_by structural j => j

/-- The elements of an array, each with its own objects in name order by `sortKeys`. -/
def sortElems : List Json → List Json
  | [] => []
  | x :: xs => x.sortKeys :: sortElems xs
termination_by structural xs => xs

/-- The members of an object in name order by `Members.adopt`, each value with its own objects in
    name order. -/
def sortMembers : List (String × Json) → Members Json
  | [] => []
  | (k, v) :: ms => Members.adopt k v.sortKeys (sortMembers ms)
termination_by structural ms => ms

end

mutual

/-- In every `obj` of the tree, at any depth, the names strictly ascend. -/
def WellKeyed : Json → Prop
  | .arr xs => WellKeyedElems xs
  | .obj ms => Members.Ascending ms ∧ WellKeyedMembers ms
  | _ => True
termination_by structural j => j

/-- Every tree of the list is `WellKeyed`. -/
def WellKeyedElems : List Json → Prop
  | [] => True
  | x :: xs => x.WellKeyed ∧ WellKeyedElems xs
termination_by structural xs => xs

/-- Every value of the members is `WellKeyed`. -/
def WellKeyedMembers : List (String × Json) → Prop
  | [] => True
  | (_, v) :: ms => v.WellKeyed ∧ WellKeyedMembers ms
termination_by structural ms => ms

end

end Json

/-! ### Texts -/

namespace Json

/-- The characters that stand for `c` inside a JSON string: quotes, backslashes and controls after a
    backslash, all else as it is. -/
def escaped (c : Char) : List Char :=
  if c = '"' then ['\\', '"']
  else if c = '\\' then ['\\', '\\']
  else if c = '\x08' then ['\\', 'b']
  else if c = '\t' then ['\\', 't']
  else if c = '\n' then ['\\', 'n']
  else if c = '\x0c' then ['\\', 'f']
  else if c = '\r' then ['\\', 'r']
  else if c.toNat < 0x20 then ['\\', 'u'] ++ Text.hexPadded 4 c.toNat
  else [c]

/-- The string `s` as a JSON text, in quotes and with its characters `escaped`. -/
def stringChars (s : String) : List Char := ['"'] ++ s.toList.flatMap escaped ++ ['"']

/-- The number as a JSON text: the digits of an integer, or the shortest decimal of a double in the
    layout `Layout.jsonNumber`. -/
def Number.chars : Number → List Char
  | .int n => Decimal.signed n.val
  | .float x _ => Layout.jsonNumber.finite x

mutual

/-- The characters of the text of a tree.  The first element or member is written here, what follows
    it by the two functions below. -/
def chars : Json → List Char
  | .null => "null".toList
  | .bool true => "true".toList
  | .bool false => "false".toList
  | .num n => n.chars
  | .str s => stringChars s
  | .arr [] => ['[', ']']
  | .arr (x :: xs) => ['['] ++ x.chars ++ charsAfterComma xs ++ [']']
  | .obj [] => ['\x7b', '\x7d']
  | .obj ((k, v) :: ms) =>
    ['\x7b'] ++ stringChars k ++ [':'] ++ v.chars ++ memberCharsAfterComma ms ++ ['\x7d']
termination_by structural j => j

/-- The characters of the elements `xs` that follow another one, each after a comma. -/
def charsAfterComma : List Json → List Char
  | [] => []
  | x :: xs => [','] ++ x.chars ++ charsAfterComma xs
termination_by structural xs => xs

/-- The characters of the members `ms` that follow another one, each after a comma. -/
def memberCharsAfterComma : List (String × Json) → List Char
  | [] => []
  | (k, v) :: ms => [','] ++ stringChars k ++ [':'] ++ v.chars ++ memberCharsAfterComma ms
termination_by structural ms => ms

end

/-- The JSON text of the tree `j`, without any white space. -/
def text (j : Json) : String := String.ofList j.chars

end Json

end FaultAction
