import FaultAction.Source

namespace FaultAction

/-!
# The state of an action

The state that an action keeps between its steps is a finite map from names to dynamic values:

* `ActionState.ofSource` — the state of a caller's value;
* `ActionState.decode`   — the state as a value of a type;
* `ActionState.insert`, `get?`, `length` — the map;
* `ActionState.size`     — an estimate of the bytes it takes.
-/

/-- The state of an action: the `entries` have a dynamic value under each of its names. -/
structure ActionState where
  entries : Dictionary Datum

namespace ActionState

/-- Two states with the same `entries` are equal. -/
@[ext] theorem ext {a b : ActionState} (h : a.entries = b.entries) : a = b := by
  cases a; cases b; cases h; rfl

/-- The `empty` state has no entries; every action begins with it. -/
def empty : ActionState := ⟨.empty⟩

instance : Inhabited ActionState := ⟨empty⟩

/-- The state with these `entries`; of two entries of one name the later one counts. -/
def ofList (entries : List (String × Datum)) : ActionState := ⟨.ofList entries⟩

/-- The value of the state `s` under the name `key`, if it has one. -/
def get? (s : ActionState) (key : String) : Option Datum := s.entries.get? key

/-- The state `s` with `value` under the name `key`, in place of the value that the name had. -/
def insert (s : ActionState) (key : String) (value : Datum) : ActionState :=
  ⟨s.entries.insert key value⟩

/-- The number of entries of the state `s`. -/
def length (s : ActionState) : Nat := s.entries.entries.length

/-- Has the state `s` no entries? -/
def isEmpty (s : ActionState) : Bool := s.entries.entries.isEmpty

/-- The names of the state `s`, in ascending order. -/
def keys (s : ActionState) : List String := s.entries.entries.keys

/-- An estimate of the bytes that the state `s` takes: those of its names and of its values. -/
def size (s : ActionState) : Nat :=
  s.entries.entries.foldr (fun e total => e.1.utf8ByteSize + e.2.size + total) 0

/-- Equality of states, by their `entries` in order; the values are compared as dynamic values
    are. -/
instance : BEq ActionState := ⟨fun a b => a.entries.entries == b.entries.entries⟩

/-! ### Wire form -/

/-- On the wire a state is an object with a member for each of its `entries`. -/
instance : Wire ActionState where
  read j := ActionState.mk <$> Wire.read j
  write s := Wire.write s.entries

/-- The state `s` as a caller's value, a map with texts for keys. -/
def toSource (s : ActionState) : Source :=
  .map (s.entries.entries.map fun e => (.text e.1, e.2.toSource))

/-! ### Caller values -/

/-- The kind of a tree, as the error of `ofTree` for one that is neither an object nor null names
    it. -/
def kindOf : Json → String
  | .null => "null"
  | .bool _ => "a bool"
  | .num _ => "a number"
  | .str _ => "a string"
  | .arr _ => "an array"
  | .obj _ => "an object"

/-- The state of a tree: the members of an object as entries, or none for null.  Any other tree is
    an error. -/
def ofTree : Json → Except ActionError ActionState
  | .null => .ok empty
  | .obj ms => .ok (ofList (ms.map fun m => (m.1, Datum.ofJson m.2)))
  | j =>
    .error (.ofKind .illegalArgument ("action state must be an object, got " ++ kindOf j))

/-- The state of the caller's value `s`, by way of its tree. -/
def ofSource (s : Source) : Except ActionError ActionState := do
  let j ← Conversion.toTree s
  ofTree j

/-- The state `s` as a value of the type `α`.  A failure has the error of the conversion as its
    cause. -/
def decode {α : Type} [Wire α] (s : ActionState) : Except ActionError α :=
  (Conversion.convert s.toSource).mapError fun e =>
    (ActionError.ofKind .stateDecodeFailed "Failed to decode action state").withCause (.error e)

end ActionState

end FaultAction
