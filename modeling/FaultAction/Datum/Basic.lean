import FaultAction.ActionError
import FaultAction.Members
import FaultAction.Number.Text
import FaultAction.Text.Quoted

namespace FaultAction

/-!
# Dynamic values — what an action keeps in its state

Values whose kind is known only when they are looked at:

* `Datum.Raw` — null, 32-bit and 64-bit integers, doubles, booleans, strings, maps, lists;
* `Datum`     — such a value in which every map has its keys once, in ascending order;
* `Datum.Raw.size` — an estimate of the bytes that a value takes;
* `Datum.Raw.same` — equality, with doubles compared as numbers and maps entry by entry;
* `Datum.Raw.sameByLookup` — the same for maps whose keys are in no order: each key of one map is
  looked up in the other;
* `Datum.Raw.shown` — the text of a value in errors;
* `Datum.Raw.asBool` and its companions — the content of a value of one kind, or an error.

`Datum` has the operations of `Datum.Raw` that its users need.
-/

/-- A dynamic value.  A `map` is a list of entries, in which a key may occur more than once and
    anywhere. -/
inductive Datum.Raw where
  | null
  | int (n : Int32)
  | long (n : Int64)
  | double (x : Binary64)
  | bool (b : Bool)
  | str (s : String)
  | map (entries : List (String × Datum.Raw))
  | list (elems : List Datum.Raw)
  deriving Inhabited

namespace Datum.Raw

/-! ### Order of keys -/

mutual

/-- In every `map` of the value, at any depth, the keys strictly ascend. -/
def WellKeyed : Datum.Raw → Prop
  | .map es => Members.Ascending es ∧ EntriesWellKeyed es
  | .list xs => ElemsWellKeyed xs
  | _ => True
termination_by structural d => d

/-- Every value of the entries is `WellKeyed`. -/
def EntriesWellKeyed : List (String × Datum.Raw) → Prop
  | [] => True
  | (_, d) :: es => d.WellKeyed ∧ EntriesWellKeyed es
termination_by structural es => es

/-- Every element of the list is `WellKeyed`. -/
def ElemsWellKeyed : List Datum.Raw → Prop
  | [] => True
  | d :: xs => d.WellKeyed ∧ ElemsWellKeyed xs
termination_by structural xs => xs

end

/-- Entries are `EntriesWellKeyed` exactly if the value of each is `WellKeyed`, so that list lemmas
    apply. -/
theorem entriesWellKeyed_iff {es : List (String × Datum.Raw)} :
    EntriesWellKeyed es ↔ ∀ e ∈ es, e.2.WellKeyed := by
  induction es with
  | nil => simp [EntriesWellKeyed]
  | cons e es ih => obtain ⟨k, d⟩ := e; simp [EntriesWellKeyed, ih]

/-- Elements are `ElemsWellKeyed` exactly if each of them is `WellKeyed`. -/
theorem elemsWellKeyed_iff {xs : List Datum.Raw} :
    ElemsWellKeyed xs ↔ ∀ d ∈ xs, d.WellKeyed := by
  induction xs with
  | nil => simp [ElemsWellKeyed]
  | cons d xs ih => simp [ElemsWellKeyed, ih]

/-! ### Size -/

mutual

/-- An estimate of the bytes that a value takes, which does not count what holds a map or a list
    together. -/
def size : Datum.Raw → Nat
  | .null => 1
  | .int _ => 4
  | .long _ => 8
  | .double _ => 8
  | .bool _ => 1
  | .str s => s.utf8ByteSize
  | .map es => entriesSize es
  | .list xs => elemsSize xs
termination_by structural d => d

/-- The estimate of a `map`: the bytes of its keys and the estimates of its values. -/
def entriesSize : List (String × Datum.Raw) → Nat
  | [] => 0
  | (k, d) :: es => k.utf8ByteSize + d.size + entriesSize es
termination_by structural es => es

/-- The estimate of a `list`: the estimates of its elements. -/
def elemsSize : List Datum.Raw → Nat
  | [] => 0
  | d :: xs => d.size + elemsSize xs
termination_by structural xs => xs

end

/-! ### Equality -/

mutual

/-- Equality of values of which the keys ascend.  Kinds must agree, and doubles are compared as
    numbers by `Binary64.sameNumber`. -/
def same : Datum.Raw → Datum.Raw → Bool
  | .null, .null => true
  | .int m, .int n => m = n
  | .long m, .long n => m = n
  | .double x, .double y => x.sameNumber y
  | .bool a, .bool b => a = b
  | .str s, .str t => s = t
  | .map es, .map fs => sameEntries es fs
  | .list xs, .list ys => sameElems xs ys
  | _, _ => false
termination_by structural d => d

/-- Equality of maps with ascending keys: entry by entry, the same keys with values that are
    `same`. -/
def sameEntries : List (String × Datum.Raw) → List (String × Datum.Raw) → Bool
  | [], [] => true
  | (j, d) :: es, (k, e) :: fs => j = k && d.same e && sameEntries es fs
  | _, _ => false
termination_by structural es => es

/-- Equality of lists, element by element with `same`; lists of different lengths are not equal. -/
def sameElems : List Datum.Raw → List Datum.Raw → Bool
  | [], [] => true
  | d :: xs, e :: ys => d.same e && sameElems xs ys
  | _, _ => false
termination_by structural xs => xs

end

mutual

/-- Equality of values whose maps are compared without regard to the order of keys: they have as
    many entries, and `foundIn` finds each entry of the first map in the second one. -/
def sameByLookup : Datum.Raw → Datum.Raw → Bool
  | .null, .null => true
  | .int m, .int n => m = n
  | .long m, .long n => m = n
  | .double x, .double y => x.sameNumber y
  | .bool a, .bool b => a = b
  | .str s, .str t => s = t
  | .map es, .map fs => es.length = fs.length && foundIn es fs
  | .list xs, .list ys => sameElemsByLookup xs ys
  | _, _ => false
termination_by structural d => d

/-- Each key is found in the second map, and under it a value that is equal by `sameByLookup`. -/
def foundIn : List (String × Datum.Raw) → Members Datum.Raw → Bool
  | [], _ => true
  | (k, d) :: es, fs => (Members.get? k fs).any (fun e => d.sameByLookup e) && foundIn es fs
termination_by structural es => es

/-- Equality of lists, element by element by `sameByLookup`. -/
def sameElemsByLookup : List Datum.Raw → List Datum.Raw → Bool
  | [], [] => true
  | d :: xs, e :: ys => d.sameByLookup e && sameElemsByLookup xs ys
  | _, _ => false
termination_by structural xs => xs

end

/-! ### Text -/

mutual

/-- The text of a value in errors: its kind, with the content in brackets. -/
def shown : Datum.Raw → String
  | .null => "Null"
  | .int n => "Int(" ++ Decimal.ofInt n.toInt ++ ")"
  | .long n => "Long(" ++ Decimal.ofInt n.toInt ++ ")"
  | .double x => "Double(" ++ String.ofList (Layout.report.text x) ++ ")"
  | .bool true => "Boolean(true)"
  | .bool false => "Boolean(false)"
  | .str s => "String(" ++ Text.quoted s ++ ")"
  | .map [] => "Map(\x7b\x7d)"
  | .map ((k, d) :: es) =>
    "Map(\x7b" ++ Text.quoted k ++ ": " ++ d.shown ++ shownEntries es ++ "\x7d)"
  | .list [] => "List([])"
  | .list (d :: xs) => "List([" ++ d.shown ++ shownElems xs ++ "])"
termination_by structural d => d

/-- The text of the entries that follow another one in `shown`, each after a comma. -/
def shownEntries : List (String × Datum.Raw) → String
  | [] => ""
  | (k, d) :: es => ", " ++ Text.quoted k ++ ": " ++ d.shown ++ shownEntries es
termination_by structural es => es

/-- The text of the elements that follow another one in `shown`, each after a comma. -/
def shownElems : List Datum.Raw → String
  | [] => ""
  | d :: xs => ", " ++ d.shown ++ shownElems xs
termination_by structural xs => xs

end

/-! ### Kinds -/

/-- Is the value `null`?  It is the only one without content. -/
def isNull : Datum.Raw → Bool
  | .null => true
  | _ => false

/-- The error that the value `d` is not of the `kind` asked for, which shows the value. -/
def notA (kind : String) (d : Datum.Raw) : ActionError :=
  .ofKind .illegalArgument ("not " ++ kind ++ " " ++ d.shown)

/-- The content of a `bool`; a value of any other kind is an error. -/
def asBool : Datum.Raw → Except ActionError Bool
  | .bool b => .ok b
  | d => .error (d.notA "a bool")

/-- The content of a `str`; a value of any other kind is an error. -/
def asString : Datum.Raw → Except ActionError String
  | .str s => .ok s
  | d => .error (d.notA "a string")

/-- The content of an `int` or a `long`, in 64 bits; a value of any other kind is an error. -/
def asInt64 : Datum.Raw → Except ActionError Int64
  | .int n => .ok n.toInt64
  | .long n => .ok n
  | d => .error (d.notA "an integer")

/-- The double nearest to an `int`, a `long` or a `double`; a value of any other kind is an
    error. -/
def asDouble : Datum.Raw → Except ActionError Binary64
  | .int n => .ok (.ofInt n.toInt)
  | .long n => .ok (.ofInt n.toInt)
  | .double x => .ok x
  | d => .error (d.notA "a number")

/-- The entries of a `map`; a value of any other kind is an error. -/
def asMap : Datum.Raw → Except ActionError (Members Datum.Raw)
  | .map es => .ok es
  | d => .error (d.notA "a map")

end Datum.Raw

/-- A dynamic value `raw` whose maps have each key once, in ascending order, together with the proof
    of this. -/
structure Datum where
  raw : Datum.Raw
  wellKeyed : raw.WellKeyed

namespace Datum

/-- Two values with the same `raw` tree are equal, since the proof that keys ascend does not
    count. -/
@[ext] theorem ext {a b : Datum} (h : a.raw = b.raw) : a = b := by
  cases a; cases b; cases h; rfl

/-! ### Making values -/

/-- The absent value, which is `Raw.null`. -/
def null : Datum := ⟨.null, trivial⟩

/-- The 32-bit integer `n` as a dynamic value. -/
def int (n : Int32) : Datum := ⟨.int n, trivial⟩

/-- The 64-bit integer `n` as a dynamic value. -/
def long (n : Int64) : Datum := ⟨.long n, trivial⟩

/-- The double `x` as a dynamic value. -/
def double (x : Binary64) : Datum := ⟨.double x, trivial⟩

/-- The boolean `b` as a dynamic value. -/
def bool (b : Bool) : Datum := ⟨.bool b, trivial⟩

/-- The string `s` as a dynamic value. -/
def str (s : String) : Datum := ⟨.str s, trivial⟩

/-- The list of the values `ds`, in their order. -/
def list (ds : List Datum) : Datum where
  raw := .list (ds.map (·.raw))
  wellKeyed := by
    simp only [Raw.WellKeyed, Raw.elemsWellKeyed_iff, List.mem_map]
    rintro _ ⟨d, _, rfl⟩
    exact d.wellKeyed

/-- The map of the `entries`, in key order; of two entries of one key the later one counts. -/
def map (entries : List (String × Datum)) : Datum where
  raw := .map (Members.ofList (entries.map fun e => (e.1, e.2.raw)))
  wellKeyed := by
    refine ⟨Members.ascending_ofList _, Raw.entriesWellKeyed_iff.2 fun e he => ?_⟩
    obtain ⟨e', _, rfl⟩ := List.mem_map.1 (Members.mem_of_mem_ofList he)
    exact e'.2.wellKeyed

instance : Inhabited Datum := ⟨null⟩

/-- Equality of values by `Raw.same`, so a value with a NaN inside does not even equal itself. -/
instance : BEq Datum := ⟨fun a b => a.raw.same b.raw⟩

/-- The estimate of the bytes that the value `d` takes. -/
def size (d : Datum) : Nat := d.raw.size

end Datum

end FaultAction
