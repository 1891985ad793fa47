import FaultAction.Wire.Basic

namespace FaultAction

/-!
# Records on the wire — schemas, readers and writers

A record is described by the list of its fields, from which its reader and its writer follow:

* `Field`            — one field: its name, reader and writer, and what stands for it when it is
  absent;
* `Schema`           — the fields of a record, in the order of declaration;
* `Schema.ofMembers` — reads the members of an object;
* `Schema.ofElems`   — reads the elements of an array, by position;
* `RecordFormat`     — a record type with its schema, which makes it a `Wire` type.

The members of an object are visited in their order, and the first whose value cannot be read
decides the error.  Only then the fields are taken in the order of declaration, and the first that
is missing decides.  Members of other names are ignored.
-/

/-- A field of a record with values of the type `α`. -/
structure Field (α : Type) where
  name : String
  read : Json → Except ReadError α
  /-- The written value, or nothing when the member is left out. -/
  write : α → Option Json
  /-- The value of a field that an object lacks, unless the field is required. -/
  missing : Option α
  /-- The value of a field that an array is too short for, unless it is required there. -/
  short : Option α

namespace Field

variable {α : Type} [Wire α]

/-- The field under `name` that must be there, as an element as well as a member. -/
def required (name : String) : Field α where
  name
  read := Wire.read
  write a := some (Wire.write a)
  missing := none
  short := none

/-- The field under `name` that may be absent or null, and is left out when it has no value.  As an
    element of an array it must be there. -/
def optional (name : String) : Field (Option α) where
  name
  read := Wire.read
  write a := a.map Wire.write
  missing := some none
  short := none

/-- The field under `name` that may be absent or null like an `optional` one, but is written as null
    when it has no value. -/
def nullable (name : String) : Field (Option α) where
  name
  read := Wire.read
  write a := some (Wire.write a)
  missing := some none
  short := none

/-- The field under `name` that may be absent or null, in arrays too, and then stands for `default`;
    it is always written. -/
def defaulted (name : String) (default : α) : Field α where
  name
  read j := (·.getD default) <$> (Wire.read j : Except ReadError (Option α))
  write a := some (Wire.write a)
  missing := some default
  short := some default

end Field

/-- The values of the fields of a record, as nested pairs that end in the unit. -/
def Row : List Type → Type
  | [] => Unit
  | α :: αs => α × Row αs

/-- The fields of a record, in the order of declaration, with the types of their values. -/
inductive Schema : List Type → Type 1 where
  | nil : Schema []
  | cons {α : Type} {αs : List Type} (field : Field α) (fields : Schema αs) : Schema (α :: αs)

namespace Schema

/-- The number of fields of a schema, which is that of the elements that `takeElems` takes at
    most. -/
def length {αs : List Type} : Schema αs → Nat
  | .nil => 0
  | .cons _ fs => fs.length + 1

/-- The names of the fields of a schema, in the order of declaration. -/
def names {αs : List Type} : Schema αs → List String
  | .nil => []
  | .cons f fs => f.name :: fs.names

/-! ### Objects -/

/-- Can the value under a name be read by the field of that name?  A name that no field has is
    ignored, whatever value it has. -/
def checkMember {αs : List Type} : Schema αs → String → Json → Except ReadError Unit
  | .nil, _, _ => .ok ()
  | .cons f fs, k, v =>
    if f.name = k then (fun _ => ()) <$> f.read v else fs.checkMember k v

/-- The value of the field `f` in an object: that of its member in `ms`, or what stands for a
    missing one. -/
def fieldValue {α : Type} (f : Field α) (ms : Members Json) : Except ReadError α :=
  match Members.get? f.name ms with
  | some v => f.read v
  | none =>
    match f.missing with
    | some a => .ok a
    | none => .error (.missingField f.name)

/-- The values of all fields by `fieldValue`, in the order of declaration, up to the first one that
    is missing. -/
def collect {αs : List Type} : Schema αs → Members Json → Except ReadError (Row αs)
  | .nil, _ => .ok ()
  | .cons f fs, ms => do
    let a ← fieldValue f ms
    let as ← fs.collect ms
    return (a, as)

/-- Reads the members `ms` of an object: a first pass over the members checks that each can be read,
    a second one over the fields collects them. -/
def ofMembers {αs : List Type} (s : Schema αs) (ms : Members Json) :
    Except ReadError (Row αs) := do
  ms.forM fun m => s.checkMember m.1 m.2
  s.collect ms

/-! ### Arrays -/

/-- Reads elements from the field at `index` on, and gives back those that are left over.  The error
    of an array that is too short has the `index` of the first field without an element. -/
def takeElems {αs : List Type} (expected : String) :
    Schema αs → (index : Nat) → List Json → Except ReadError (Row αs × List Json)
  | .nil, _, xs => .ok ((), xs)
  | .cons f fs, index, x :: xs => do
    let a ← f.read x
    let (as, rest) ← fs.takeElems expected (index + 1) xs
    return ((a, as), rest)
  | .cons f fs, index, [] =>
    match f.short with
    | none => .error (.invalidLength index expected)
    | some a => do
      let (as, rest) ← fs.takeElems expected (index + 1) []
      return ((a, as), rest)

/-- What an array of the record called `title` should be, as an error names it, with the `count` of
    its fields. -/
def arrayTitle (title : String) (count : Nat) : String :=
  title ++ " with " ++ Decimal.ofNat count ++ (if count = 1 then " element" else " elements")

/-- Reads the elements `xs` of an array, by position; none may be left over. -/
def ofElems {αs : List Type} (title : String) (s : Schema αs) (xs : List Json) :
    Except ReadError (Row αs) := do
  let (row, rest) ← s.takeElems (arrayTitle title s.length) 0 xs
  if rest.isEmpty then .ok row
  else .error (.invalidLength xs.length "fewer elements in array")

/-! ### Writing -/

/-- The members of a record, in the order of declaration, without those that `Field.write` leaves
    out. -/
def members {αs : List Type} : Schema αs → Row αs → Members Json
  | .nil, _ => []
  | .cons f fs, (a, as) =>
    match f.write a with
    | some v => (f.name, v) :: fs.members as
    | none => fs.members as

end Schema

/-- A record type `ρ` by its fields: a `schema`, and how a record and the row of its values are made
    of each other. -/
structure RecordFormat (ρ : Type) where
  /-- What an error text calls the record, its `title`. -/
  title : String
  types : List Type
  schema : Schema types
  toRow : ρ → Row types
  ofRow : Row types → ρ

namespace RecordFormat

variable {ρ : Type}

/-- Reads a record from an object with `ofMembers` or, by position, from an array; no other tree is
    a record. -/
def read (f : RecordFormat ρ) : Json → Except ReadError ρ
  | .obj ms => f.ofRow <$> f.schema.ofMembers ms
  | .arr xs => f.ofRow <$> f.schema.ofElems f.title xs
  | j => .error (.unexpected j f.title)

/-- Writes the record `r` as an object. -/
def write (f : RecordFormat ρ) (r : ρ) : Json := .obj (f.schema.members (f.toRow r))

/-- The wire form of the record type that has the format `f`. -/
@[reducible] def wire (f : RecordFormat ρ) : Wire ρ := ⟨f.read, f.write⟩

end RecordFormat

end FaultAction
