import FaultAction.Datum.Json
import FaultAction.Text.Basic

namespace FaultAction

/-!
# Sources — values of callers and their conversion

What a caller may hand in as the state of an action is any value made of scalars, sequences, maps,
records and variants:

* `Source`             — such a value, or one that refuses to be written;
* `Source.toJson`      — its JSON tree, or a `WriteError`;
* `Source.toKey`       — its text as a name of a JSON member, or a `WriteError`;
* `Datum.toSource`     — a dynamic value as a caller's value;
* `Conversion.convert` — the caller's value as a value of another type: the tree is written and read
  again, so members are matched by name.

Parts are visited from left to right, a key before its value, and the first part that cannot be
written decides the error.  An error of a conversion is of the unimplemented kind, has the text of
the writer or the reader, and no cause.
-/

/-! ### Values of callers -/

/-- A caller's value, as the writer of JSON trees meets it. -/
inductive Source where
  /-- A JSON tree `j`, which is written as it is. -/
  | tree (j : Json)
  | bool (b : Bool)
  /-- An integer `n` of at most 64 bits, with a sign or without one. -/
  | integer (n : Json.Integer)
  /-- An integer `n` of 128 bits, which may be out of the range of JSON numbers. -/
  | wide (n : Int)
  /-- A double `x` that is rounded to single precision. -/
  | single (x : Binary64)
  | double (x : Binary64)
  | text (s : String)
  | bytes (bs : List UInt8)
  /-- An absent value, or one without content. -/
  | nothing
  /-- A present value `s` of an option, written as `s` itself. -/
  | present (s : Source)
  /-- A record whose one field `s` has no name, written as `s` itself. -/
  | wrapped (s : Source)
  /-- A variant without content, written as its `name`. -/
  | variant (name : String)
  /-- A variant around the value `s`, written as an object with the one member `name`. -/
  | variantOf (name : String) (s : Source)
  | seq (elems : List Source)
  /-- A variant around a sequence, written as an object with the one member `name`. -/
  | variantSeq (name : String) (elems : List Source)
  | map (entries : List (Source × Source))
  | record (fields : List (String × Source))
  /-- A variant around a record, written as an object with the one member `name`. -/
  | variantRecord (name : String) (fields : List (String × Source))
  /-- A value that refuses to be written, with its own `reason`. -/
  | fail (reason : String)
  deriving Inhabited

/-- The reason why a value has no JSON tree: a number or a key that JSON cannot have, or a refusal
    of the value itself. -/
inductive WriteError where
  | numberOutOfRange
  | keyNotString
  | keyNotFinite
  | refused (reason : String)
  deriving DecidableEq

/-- The text of a `WriteError`.  The caller's own reason is taken as it is, but for a position at
    its end. -/
def WriteError.message : WriteError → String
  | .numberOutOfRange => "number out of range"
  | .keyNotString => "key must be a string"
  | .keyNotFinite => "float key must be finite (got NaN or +/-inf)"
  | .refused reason => Text.restatedPosition reason

namespace Source

/-- The name of the member that has the boolean `b` for a key. -/
def boolKey (b : Bool) : String := if b then "true" else "false"

/-- The name of the member that has the double `x` for a key, in the given `layout`; a key must be
    finite. -/
def floatKey (layout : Layout) (x : Binary64) : Except WriteError String :=
  if x.IsFinite then .ok (String.ofList (layout.finite x)) else .error .keyNotFinite

/-- The name of the member that has a tree for a key: a boolean, a number or a string. -/
def treeKey : Json → Except WriteError String
  | .bool b => .ok (boolKey b)
  | .num (.int n) => .ok (Decimal.ofInt n.val)
  | .num (.float x _) => floatKey .jsonNumber x
  | .str s => .ok s
  | _ => .error .keyNotString

/-- The name of the member that has the value for a key.  Texts, booleans, finite numbers and names
    of variants can be one; a `present` value cannot. -/
def toKey : Source → Except WriteError String
  | .tree j => treeKey j
  | .bool b => .ok (boolKey b)
  | .integer n => .ok (Decimal.ofInt n.val)
  | .wide n => .ok (Decimal.ofInt n)
  | .single x => floatKey .singleKey x.toSingle
  | .double x => floatKey .jsonNumber x
  | .text s => .ok s
  | .wrapped s => s.toKey
  | .variant name => .ok name
  | .fail reason => .error (.refused reason)
  | _ => .error .keyNotString
termination_by structural s => s

/-- The tree of the byte `b`, as elements of byte arrays are written. -/
def byteToJson (b : UInt8) : Json := Wire.write b

mutual

/-- The JSON tree of a value, with the members of all objects in name order, or a `WriteError`. -/
def toJson : Source → Except WriteError Json
  | .tree j => .ok j.sortKeys
  | .bool b => .ok (.bool b)
  | .integer n => .ok (.int n)
  | .wide n =>
    match Json.Integer.ofInt? n with
    | some n => .ok (.int n)
    | none => .error .numberOutOfRange
  | .single x => .ok (.double x.toSingle)
  | .double x => .ok (.double x)
  | .text s => .ok (.str s)
  | .bytes bs => .ok (.arr (bs.map byteToJson))
  | .nothing => .ok .null
  | .present s => s.toJson
  | .wrapped s => s.toJson
  | .variant name => .ok (.str name)
  | .variantOf name s => do return .obj [(name, ← s.toJson)]
  | .seq xs => do return .arr (← elemsToJson xs)
  | .variantSeq name xs => do return .obj [(name, .arr (← elemsToJson xs))]
  | .map es => do return .obj (← entriesToJson es)
  | .record fs => do return .obj (← fieldsToJson fs)
  | .variantRecord name fs => do return .obj [(name, .obj (← fieldsToJson fs))]
  | .fail reason => .error (.refused reason)
termination_by structural s => s

/-- The trees of the elements by `toJson`, up to the first one that cannot be written. -/
def elemsToJson : List Source → Except WriteError (List Json)
  | [] => .ok []
  | x :: xs => do
    let j ← x.toJson
    let js ← elemsToJson xs
    return j :: js
termination_by structural xs => xs

/-- The members of the entries of a map, each key before its value.  Of two entries of one name the
    later one counts, since `Members.adopt` puts them in from the end. -/
def entriesToJson : List (Source × Source) → Except WriteError (Members Json)
  | [] => .ok []
  | (k, v) :: es => do
    let key ← k.toKey
    let j ← v.toJson
    let ms ← entriesToJson es
    return Members.adopt key j ms
termination_by structural es => es

/-- The members of the fields of a record, which has names for keys.  Of two fields of one name the
    later one counts. -/
def fieldsToJson : List (String × Source) → Except WriteError (Members Json)
  | [] => .ok []
  | (name, v) :: fs => do
    let j ← v.toJson
    let ms ← fieldsToJson fs
    return Members.adopt name j ms
termination_by structural fs => fs

end

end Source

/-! ### Dynamic values as caller values -/

namespace Datum

mutual

/-- The dynamic value as a caller's value, with `nothing` for null. -/
def Raw.toSource : Datum.Raw → Source
  | .null => .nothing
  | .int n => .integer (.ofInt32 n)
  | .long n => .integer (.ofInt64 n)
  | .double x => .double x
  | .bool b => .bool b
  | .str s => .text s
  | .map es => .map (Raw.entriesToSource es)
  | .list xs => .seq (Raw.elemsToSource xs)
termination_by structural d => d

/-- The entries of a `map`, with its keys as texts. -/
def Raw.entriesToSource : List (String × Datum.Raw) → List (Source × Source)
  | [] => []
  | (k, d) :: es => (.text k, d.toSource) :: Raw.entriesToSource es
termination_by structural es => es

/-- The elements of a `list`, each as a caller's value. -/
def Raw.elemsToSource : List Datum.Raw → List Source
  | [] => []
  | d :: xs => d.toSource :: Raw.elemsToSource xs
termination_by structural xs => xs

end

/-- The dynamic value `d` as a caller's value. -/
def toSource (d : Datum) : Source := d.raw.toSource

end Datum

/-! ### Conversion between shapes -/

/-- The error of a value that cannot be written, with the text of `e` and nothing else. -/
def ActionError.ofWriteError (e : WriteError) : ActionError := .ofText e.message

/-- The error of a tree that cannot be read, with the text of `e` and nothing else. -/
def ActionError.ofReadError (e : ReadError) : ActionError := .ofText e.message

namespace Conversion

variable {α : Type} [Wire α]

/-- Reads the tree `j` as a value of the type `α`. -/
def ofTree (j : Json) : Except ActionError α :=
  (Wire.read j).mapError ActionError.ofReadError

/-- The tree of the caller's value `s`, with errors of actions. -/
def toTree (s : Source) : Except ActionError Json :=
  s.toJson.mapError ActionError.ofWriteError

/-- Converts the caller's value `s` to a value of the type `α`: `toTree` writes it and `ofTree`
    reads it. -/
def convert (s : Source) : Except ActionError α := do
  let j ← toTree s
  ofTree j

end Conversion

end FaultAction
