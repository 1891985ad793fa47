import FaultAction.Json

namespace FaultAction

/-!
# Values on the wire — readers, writers and why a tree cannot be read

Types are read from JSON trees and written to them:

* `Wire α`       — a type with a reader and a writer;
* `Wire.toValue` — the written tree with its members in name order;
* `Wire.text`    — the written text, members in the order of fields;
* `ReadError`    — the reasons of readers, with their texts in `ReadError.message`; what a reader
  met is `Found`;
* instances of the plain types: booleans, fixed-width integers, doubles, strings, lists, options,
  string maps, the unit type, and JSON trees themselves;
* `Wire.readVariant` — the reader of an enumeration, by the names of its values.

Integers are read from integers in range only, doubles from any number.
-/

/-! ### Why a tree cannot be read -/

/-- What a reader met in the place of what it expected, as a `ReadError` names it. -/
inductive Found where
  | null
  | bool (b : Bool)
  | integer (n : Int)
  | float (x : Binary64)
  | str (s : String)
  | sequence
  | map
  deriving DecidableEq

/-- The tree as an error names it: scalars with their values, arrays and objects by their kind. -/
def Found.ofJson : Json → Found
  | .null => .null
  | .bool b => .bool b
  | .num (.int n) => .integer n.val
  | .num (.float x _) => .float x
  | .str s => .str s
  | .arr _ => .sequence
  | .obj _ => .map

/-- The text of what was met, with the string of a `str` in quotes and other scalars between
    backquotes. -/
def Found.message : Found → String
  | .null => "null"
  | .bool b => "boolean `" ++ (if b then "true" else "false") ++ "`"
  | .integer n => "integer `" ++ Decimal.ofInt n ++ "`"
  | .float x => "floating point `" ++ String.ofList (Layout.jsonNumber.text x) ++ "`"
  | .str s => "string " ++ Text.quoted s
  | .sequence => "sequence"
  | .map => "map"

/-- The reason why a tree is no value of a type. -/
inductive ReadError where
  /-- The tree `found` is of another kind than `expected`. -/
  | invalidType (found : Found) (expected : String)
  /-- The tree `found` is of the right kind, but has a wrong value. -/
  | invalidValue (found : Found) (expected : String)
  /-- An array has too few or too many elements, namely `length`. -/
  | invalidLength (length : Nat) (expected : String)
  /-- An object lacks the member `name`, which is required. -/
  | missingField (name : String)
  /-- The string `name` is none of the names in `variants`. -/
  | unknownVariant (name : String) (variants : List String)
  /-- A string is no text of the type, for the `reason` given. -/
  | malformed (reason : String)
  deriving DecidableEq

namespace ReadError

/-- The error that the tree `found` is not of the kind `expected`. -/
def unexpected (found : Json) (expected : String) : ReadError :=
  .invalidType (Found.ofJson found) expected

/-- The names that are allowed, as an error lists them: two names with an `or` between them, more
    than two with commas. -/
def alternatives : List String → String
  | [] => "there are no variants"
  | [a] => "expected `" ++ a ++ "`"
  | [a, b] => "expected `" ++ a ++ "` or `" ++ b ++ "`"
  | names => "expected one of " ++ ", ".intercalate (names.map fun a => "`" ++ a ++ "`")

/-- The text of a `ReadError`, as it stands in errors of actions. -/
def message : ReadError → String
  | .invalidType found expected =>
    "invalid type: " ++ found.message ++ ", expected " ++ expected
  | .invalidValue found expected =>
    "invalid value: " ++ found.message ++ ", expected " ++ expected
  | .invalidLength length expected =>
    "invalid length " ++ Decimal.ofNat length ++ ", expected " ++ expected
  | .missingField name => "missing field `" ++ name ++ "`"
  | .unknownVariant name variants =>
    "unknown variant `" ++ name ++ "`, " ++ alternatives variants
  | .malformed reason => reason

end ReadError

/-! ### Values on the wire -/

/-- A type `α` that is read from JSON trees and written to them. -/
class Wire (α : Type) where
  read : Json → Except ReadError α
  write : α → Json

namespace Wire

variable {α : Type}

/-- The value `a` as a tree with the members of all objects in name order. -/
def toValue [Wire α] (a : α) : Json := (write a).sortKeys

/-- The value `a` as a text with the members in the order of fields. -/
def text [Wire α] (a : α) : String := (write a).text

/-- Reads an integer with `convert`, which refuses what is out of range; a double is no integer,
    even if it is a whole number. -/
def readInteger (expected : String) (convert : Int → Option α) : Json → Except ReadError α
  | .num (.int n) =>
    match convert n.val with
    | some a => .ok a
    | none => .error (.invalidValue (.integer n.val) expected)
  | j => .error (.unexpected j expected)

/-- Reads the elements of a list with `read`, in order, up to the first one that cannot be read. -/
def readElems (read : Json → Except ReadError α) : List Json → Except ReadError (List α)
  | [] => .ok []
  | x :: xs => do
    let a ← read x
    let as ← readElems read xs
    return a :: as

/-- Reads the values of the members of a map with `read`, in order, up to the first one that cannot
    be read; the names are taken as they are. -/
def readMembers (read : Json → Except ReadError α) :
    List (String × Json) → Except ReadError (Members α)
  | [] => .ok []
  | (k, v) :: ms => do
    let a ← read v
    let as ← readMembers read ms
    return (k, a) :: as

/-! ### Plain types -/

instance : Wire Json where
  read j := .ok j
  write j := j

instance : Wire Unit where
  read
    | .null => .ok ()
    | j => .error (.unexpected j "unit")
  write _ := .null

instance : Wire Bool where
  read
    | .bool b => .ok b
    | j => .error (.unexpected j "a boolean")
  write := .bool

instance : Wire String where
  read
    | .str s => .ok s
    | j => .error (.unexpected j "a string")
  write := .str

instance : Wire Int32 where
  read := readInteger "i32" fun n =>
    if -2147483648 ≤ n ∧ n < 2147483648 then some (Int32.ofInt n) else none
  write n := .int (.ofInt32 n)

instance : Wire Int64 where
  read := readInteger "i64" fun n =>
    if -9223372036854775808 ≤ n ∧ n < 9223372036854775808 then some (Int64.ofInt n) else none
  write n := .int (.ofInt64 n)

instance : Wire UInt8 where
  read := readInteger "u8" fun n =>
    if 0 ≤ n ∧ n < 256 then some (UInt8.ofNat n.toNat) else none
  write n := .int (.ofUInt8 n)

instance : Wire UInt32 where
  read := readInteger "u32" fun n =>
    if 0 ≤ n ∧ n < 4294967296 then some (UInt32.ofNat n.toNat) else none
  write n := .int (.ofUInt32 n)

instance : Wire UInt64 where
  read := readInteger "u64" fun n =>
    if 0 ≤ n ∧ n < 18446744073709551616 then some (UInt64.ofNat n.toNat) else none
  write n := .int (.ofUInt64 n)

instance : Wire Binary64 where
  read
    | .num (.int n) => .ok (.ofInt n.val)
    | .num (.float x _) => .ok x
    | j => .error (.unexpected j "f64")
  write := .double

instance [Wire α] : Wire (Option α) where
  read
    | .null => .ok none
    | j => some <$> read j
  write
    | none => .null
    | some a => write a

instance [Wire α] : Wire (List α) where
  read
    | .arr xs => readElems read xs
    | j => .error (.unexpected j "a sequence")
  write as := .arr (as.map write)

instance [Wire α] : Wire (Dictionary α) where
  read
    | .obj ms => .ofList <$> readMembers read ms
    | j => .error (.unexpected j "a map")
  write d := .obj (d.entries.map fun e => (e.1, write e.2))

/-! ### Enumerations -/

/-- The value with the `name` in a `table` of all names, or the error that lists the names there
    are. -/
def variant (table : List (String × α)) (name : String) : Except ReadError α :=
  match Members.get? name table with
  | some a => .ok a
  | none => .error (.unknownVariant name (table.map (·.1)))

/-- Reads one of the names of a `table`, alone or as the only name of an object with null under it.
    The name is looked at before the value. -/
def readVariant (table : List (String × α)) : Json → Except ReadError α
  | .str name => variant table name
  | .obj [(name, v)] => do
    let a ← variant table name
    let _ ← (read v : Except ReadError Unit)
    return a
  | .obj _ => .error (.invalidValue .map "map with a single key")
  | j => .error (.unexpected j "string or map")

end Wire

end FaultAction
