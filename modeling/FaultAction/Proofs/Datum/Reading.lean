import FaultAction.Datum.Json
import FaultAction.Proofs.Datum.NormalForm
import FaultAction.Proofs.Number.Rounding

namespace FaultAction

/-!
# Dynamic values — reading by trial, and the trees that they keep

Reading by trial takes the first of eight kinds of values that can be read from a tree:

* `readMap?`, `readList?`, `readNull?` — the kinds that `readScalar?` leaves out;
* `trials`                             — all eight, in the order in which they are tried;
* `read?_eq_findSome?`                 — the reader is the first success among them;
* `findSome?_trials`                   — which is the value that the kind of the tree determines.

A dynamic value has no unsigned 64-bit integer, so a tree that becomes a value and is written
again comes back with doubles in the place of such integers:

* `Json.widen`              — each integer from `2 ^ 63` the nearest double, nothing else changed;
* `Json.Signed`             — there is no such integer at any depth;
* `Json.widen_eq_self_iff`  — the signed trees are those that widening leaves alone;
* `Datum.Raw.toJson_ofJson` — reading a tree and writing the value sorts and widens the tree.
-/

namespace Datum.Raw

/-! ### The kinds -/

/-- A map of the values of the members `ms`, if the tree is an object and each of them can be
    read. -/
def readMap? : Json → Option Datum.Raw
  | .obj ms => Datum.Raw.map <$> readEntries? ms
  | _ => none

/-- A list of the values of the elements `xs`, if the tree is an array and each of them can be
    read. -/
def readList? : Json → Option Datum.Raw
  | .arr xs => Datum.Raw.list <$> readElems? xs
  | _ => none

/-- The value `null`, if the reader for nothing accepts the tree `j`, which it does for null
    only. -/
def readNull? (j : Json) : Option Datum.Raw :=
  (fun () => Datum.Raw.null) <$> (Wire.read j).toOption

/-- The eight kinds of values, in the order in which they are tried: the five scalars that
    `Wire.read` reads, a map, a list and null. -/
def trials : List (Json → Option Datum.Raw) :=
  [fun j => Datum.Raw.int <$> (Wire.read j).toOption,
   fun j => Datum.Raw.long <$> (Wire.read j).toOption,
   fun j => Datum.Raw.double <$> (Wire.read j).toOption,
   fun j => Datum.Raw.bool <$> (Wire.read j).toOption,
   fun j => Datum.Raw.str <$> (Wire.read j).toOption,
   readMap?, readList?, readNull?]

/-! ### The first success -/

/-- The first success among `f :: xs` is that of `f`, or else the first success among `xs`. -/
theorem findSome?_cons_eq_or {α β : Type} (f : α → Option β) (xs : List (α → Option β)) (a : α) :
    (f :: xs).findSome? (· a) = (f a).or (xs.findSome? (· a)) := by
  rw [List.findSome?_cons]
  cases f a <;> rfl

/-- The first success among `trials` is a scalar of `readScalar?`, or else a map, a list or null. -/
theorem findSome?_trials_eq_or (j : Json) :
    trials.findSome? (· j) =
      (readScalar? j).or ((readMap? j).or ((readList? j).or (readNull? j))) := by
  have hscalar : readScalar? j =
      (Datum.Raw.int <$> (Wire.read j).toOption).or
        ((Datum.Raw.long <$> (Wire.read j).toOption).or
          ((Datum.Raw.double <$> (Wire.read j).toOption).or
            ((Datum.Raw.bool <$> (Wire.read j).toOption).or
              (Datum.Raw.str <$> (Wire.read j).toOption)))) := by
    simp only [readScalar?, Option.orElse_eq_orElse, Option.orElse_eq_or]
  rw [hscalar]
  simp only [trials, findSome?_cons_eq_or, Option.or_assoc, List.findSome?_nil, Option.or_none]

/-- The reader `read?` takes the first of the `trials` that succeeds.  Of an object and an array it
    leaves out the kinds that can only fail. -/
theorem read?_eq_findSome? (j : Json) : read? j = trials.findSome? (· j) := by
  rw [findSome?_trials_eq_or]
  cases j with
  | obj ms =>
    have hnull : readNull? (.obj ms) = none := rfl
    have hlist : readList? (.obj ms) = none := rfl
    rw [hnull, hlist, Option.or_none, Option.or_none]
    rw [read?, Option.orElse_eq_orElse, Option.orElse_eq_or, readMap?]
  | arr xs =>
    have hnull : readNull? (.arr xs) = none := rfl
    have hmap : readMap? (.arr xs) = none := rfl
    rw [hnull, hmap, Option.or_none, Option.none_or]
    rw [read?, Option.orElse_eq_orElse, Option.orElse_eq_or, readList?]
  | null | bool | num | str =>
    -- a scalar tree is neither an object nor an array, so the two kinds in the middle fail
    simp only [read?, readMap?, readList?, Option.none_or]
    rw [Option.orElse_eq_orElse, Option.orElse_eq_or, readNull?]

/-- **Agreement.**  The first of the `trials` that succeeds on `j` gives the value `ofJson j`, which
    the kind of the tree alone determines. -/
theorem findSome?_trials (j : Json) : trials.findSome? (· j) = some (ofJson j) := by
  rw [← read?_eq_findSome?, read?_eq]

end Datum.Raw

namespace Json

mutual

/-- The tree with each integer from `2 ^ 63`, which 64 signed bits cannot hold, as the nearest
    double.  Names and positions stay. -/
def widen : Json → Json
  | .num (.int n) =>
    if n.val < 9223372036854775808 then .num (.int n)
    else .num (.float (.ofInt n.val) n.isFinite_ofInt)
  | .arr xs => .arr (widenElems xs)
  | .obj ms => .obj (widenMembers ms)
  | j => j
termination_by structural j => j

/-- The elements of an array under `widen`, each at its own position. -/
def widenElems : List Json → List Json
  | [] => []
  | x :: xs => x.widen :: widenElems xs
termination_by structural xs => xs

/-- The members with their values under `widen`, each under its own name. -/
def widenMembers : List (String × Json) → List (String × Json)
  | [] => []
  | (k, v) :: ms => (k, v.widen) :: widenMembers ms
termination_by structural ms => ms

end

mutual

/-- At no depth of the tree is there an integer from `2 ^ 63`, so that 64 signed bits hold each of
    them. -/
def Signed : Json → Prop
  | .num (.int n) => n.val < 9223372036854775808
  | .arr xs => SignedElems xs
  | .obj ms => SignedMembers ms
  | _ => True
termination_by structural j => j

/-- The elements are `Signed`, each of them. -/
def SignedElems : List Json → Prop
  | [] => True
  | x :: xs => x.Signed ∧ SignedElems xs
termination_by structural xs => xs

/-- The values of the members are `Signed`, whatever their names are. -/
def SignedMembers : List (String × Json) → Prop
  | [] => True
  | (_, v) :: ms => v.Signed ∧ SignedMembers ms
termination_by structural ms => ms

end

/-! ### The functions on elements and members -/

/-- Written as a map, `widenElems` widens each element of `xs` for itself. -/
theorem widenElems_eq (xs : List Json) : widenElems xs = xs.map widen :=
  eq_map_of_cons rfl (fun _ _ => rfl) xs

/-- Written as a map over the values, `widenMembers` widens each of them and leaves the names in
    `ms` alone. -/
theorem widenMembers_eq (ms : List (String × Json)) :
    widenMembers ms = Members.mapValues widen ms :=
  eq_map_of_cons rfl (fun _ _ => rfl) ms

/-- Elements are `SignedElems` exactly if each of them is `Signed`. -/
theorem signedElems_iff {xs : List Json} : SignedElems xs ↔ ∀ x ∈ xs, x.Signed :=
  iff_forall_of_cons trivial (fun _ _ => Iff.rfl)

/-- Members are `SignedMembers` exactly if each of their values is `Signed`. -/
theorem signedMembers_iff {ms : List (String × Json)} :
    SignedMembers ms ↔ ∀ m ∈ ms, m.2.Signed :=
  iff_forall_of_cons trivial (fun _ _ => Iff.rfl)

/-! ### Fixed points -/

/-- A tree `j` is left alone by `widen` exactly if it is `Signed`, for nothing else is ever
    changed. -/
theorem widen_eq_self_iff {j : Json} : j.widen = j ↔ j.Signed := by
  induction j with
  | null => simp [widen, Signed]
  | bool b => simp [widen, Signed]
  | num n =>
    cases n with
    | int n => by_cases h : n.val < 9223372036854775808 <;> simp [widen, Signed, h]
    | float x hx => simp [widen, Signed]
  | str s => simp [widen, Signed]
  | arr xs ih =>
    -- an array is left alone exactly if each of its elements is
    have hid : xs.map widen = xs ↔ ∀ x ∈ xs, x.widen = x := by
      simpa using List.map_inj_left (l := xs) (f := widen) (g := id)
    rw [widen, widenElems_eq, Signed, signedElems_iff, Json.arr.injEq, hid]
    exact forall₂_congr ih
  | obj ms ih =>
    rw [widen, widenMembers_eq, Signed, signedMembers_iff, Json.obj.injEq,
      Members.mapValues_eq_self_iff]
    exact forall₂_congr ih

end Json

/-! ### Reading a tree and writing the value -/

namespace Datum.Raw

/-- An integer `n` keeps its tree in either width, and is widened if it has become a double. -/
theorem toJson_ofInteger (n : Json.Integer) :
    (ofInteger n).toJson = (Json.num (.int n)).widen := by
  have hlower := n.lower
  unfold ofInteger
  rw [Json.widen]
  by_cases h32 : -2147483648 ≤ n.val ∧ n.val < 2147483648
  · have hval : (Int32.ofInt n.val).toInt = n.val := Int32.toInt_ofInt_of_le h32.1 h32.2
    rw [if_pos h32, if_pos (by omega)]
    exact congrArg Json.int (Json.Integer.ext hval)
  · rw [if_neg h32]
    by_cases h64 : n.val < 9223372036854775808
    · have hval : (Int64.ofInt n.val).toInt = n.val := Int64.toInt_ofInt_of_le hlower h64
      rw [if_pos h64, if_pos h64]
      exact congrArg Json.int (Json.Integer.ext hval)
    · -- the double is finite, so it is written as a number and not as null
      rw [if_neg h64, if_neg h64, toJson, Json.double, dif_pos n.isFinite_ofInt]

/-- **Widening.**  The value of a tree `j` is written as `j` in name order, with the integers that
    became doubles widened. -/
theorem toJson_ofJson (j : Json) : (ofJson j).toJson = j.sortKeys.widen := by
  induction j with
  | null => rfl
  | bool b => rfl
  | num n =>
    cases n with
    | int n => exact toJson_ofInteger n
    | float x hx =>
      show Json.double x = _
      rw [Json.double, dif_pos hx]
      rfl
  | str s => rfl
  | arr xs ih =>
    rw [ofJson, elemsOfJson_eq, toJson, elemsToJson_eq, List.map_map, Json.sortKeys,
      Json.sortElems_eq, Json.widen, Json.widenElems_eq, List.map_map]
    exact congrArg Json.arr (List.map_congr_left ih)
  | obj ms ih =>
    have hvalues : Members.mapValues (fun v => (ofJson v).toJson) ms =
        Members.mapValues (fun v => v.sortKeys.widen) ms := Members.mapValues_congr ih
    -- writing and widening look at the values only, so they commute with putting names in order
    rw [ofJson, entriesOfJson_eq, toJson, entriesToJson_eq, Members.mapValues_ofList,
      Members.mapValues_mapValues, hvalues, Json.sortKeys,
      Json.sortMembers_eq, Json.widen, Json.widenMembers_eq, Members.mapValues_ofList,
      Members.mapValues_mapValues]

end Datum.Raw

/-- The value of a tree `j` whose names are in order already is written as `j.widen`. -/
theorem Datum.toJson_ofJson {j : Json} (hkeys : j.WellKeyed) :
    (Datum.ofJson j).toJson = j.widen := by
  show (Datum.Raw.ofJson j).toJson = j.widen
  rw [Datum.Raw.toJson_ofJson, Json.sortKeys_of_wellKeyed hkeys]

end FaultAction
