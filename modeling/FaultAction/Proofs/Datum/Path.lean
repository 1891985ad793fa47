import FaultAction.Proofs.Datum.NormalForm
import FaultAction.Proofs.Members.Lookup
import FaultAction.Proofs.Datum.RoundTrip

namespace FaultAction

/-!
# Dynamic values — paths, and what an action sees after the trip over JSON

A value inside another one is found by a path of keys and positions:

* `Step`, `child?`, `at?` — one step down, and the value at the end of a path;
* `at?_of_child?`     — a change that is passed on at each step is found at the end of every path;
* `at?_normalize`     — so the normal form has the paths of the value, and at the end of each the
  normal form of what was there;
* `Everywhere`        — a property of the values at the ends of all paths;
* `everywhere_map_iff`, `everywhere_list_iff` — what it says of a map and of a list;
* `canonical_iff_everywhere` — a canonical value has nothing to change at the end of any path.

The trip narrows short integers and turns a NaN or an infinity to null.  An action that looks at
values through their accessors sees nothing of the former:

* `asInt64_normalize`, `asDouble_normalize` — the numbers are the same, whatever their width;
* `Raw.SeenAlike`        — two values that accessors agree on, up to a double that is not finite;
* `seenAlike_normalize`  — a value and its normal form are seen alike;
* `roundTrip_seenAlike`  — so are, at every path, a value and what comes back of it.
-/

namespace Datum.Raw

/-! ### The end of a path -/

/-- A step down into a value: under the key `name` of a map, or at position `i` of a list. -/
inductive Step where
  | key (name : String)
  | index (i : Nat)
  deriving DecidableEq

/-- The value one step `s` down, or `none` if the value has no such key or position, or is neither a
    map nor a list. -/
def child? : Datum.Raw → Step → Option Datum.Raw
  | .map es, .key name => Members.get? name es
  | .list xs, .index i => xs[i]?
  | _, _ => none

/-- The value at the end of a path from `d`, or `none` as soon as one of its steps leads nowhere.
    The empty path ends at `d` itself. -/
def at? : Datum.Raw → List Step → Option Datum.Raw
  | d, [] => some d
  | d, s :: path => (d.child? s).bind fun c => c.at? path

/-- If one step down in `f d` is always the value under `f` of what was one step down in `d`, then
    the same holds at the end of every path. -/
theorem at?_of_child? {f : Datum.Raw → Datum.Raw}
    (h : ∀ d s, (f d).child? s = (d.child? s).map f) (d : Datum.Raw) (path : List Step) :
    (f d).at? path = (d.at? path).map f := by
  induction path generalizing d with
  | nil => rfl
  | cons s path ih =>
    rw [at?, at?, h]
    cases d.child? s with
    | none => rfl
    | some c => exact ih c

/-- One step `s` down in a map whose values have been changed by `f` is the value that was there,
    changed by `f`. -/
theorem child?_map_mapValues (f : Datum.Raw → Datum.Raw) (es : List (String × Datum.Raw))
    (s : Step) : (map (Members.mapValues f es)).child? s = ((map es).child? s).map f := by
  cases s with
  | key name => exact Members.get?_mapValues f es name
  | index i => rfl

/-- One step `s` down in a list whose elements have been changed by `f` is the element that was
    there, changed by `f`. -/
theorem child?_list_map (f : Datum.Raw → Datum.Raw) (xs : List Datum.Raw) (s : Step) :
    (list (xs.map f)).child? s = ((list xs).child? s).map f := by
  cases s with
  | key name => rfl
  | index i => exact List.getElem?_map

/-- One step `s` down in the normal form of `d` is the normal form of what is one step down in
    `d`. -/
theorem child?_normalize (d : Datum.Raw) (s : Step) :
    d.normalize.child? s = (d.child? s).map normalize := by
  cases d with
  | null | int | bool | str => rfl
  -- a number has nothing inside, in either form
  | long n =>
    rw [normalize]
    split <;> rfl
  | double x =>
    rw [normalize]
    split <;> rfl
  | map es =>
    rw [normalize, normalizeEntries_eq]
    exact child?_map_mapValues normalize es s
  | list xs =>
    rw [normalize, normalizeElems_eq]
    exact child?_list_map normalize xs s

/-- **Paths.**  The normal form of `d` has the paths of `d` and no others, and at the end of each is
    the normal form of what was there. -/
theorem at?_normalize (d : Datum.Raw) (path : List Step) :
    d.normalize.at? path = (d.at? path).map normalize :=
  at?_of_child? child?_normalize d path

/-! ### Everywhere in a value -/

/-- The values at the ends of all paths from `d` have the property `p`, and `d` itself is among
    them. -/
def Everywhere (p : Datum.Raw → Prop) (d : Datum.Raw) : Prop :=
  ∀ path e, d.at? path = some e → p e

variable {p : Datum.Raw → Prop}

/-- A property `p` holds everywhere in `d` exactly if it holds of `d`, and everywhere in each value
    one step down. -/
theorem everywhere_iff_child? {d : Datum.Raw} :
    Everywhere p d ↔ p d ∧ ∀ s c, d.child? s = some c → Everywhere p c := by
  constructor
  · -- one way a path is made longer at its start, the other way its first step is taken off
    intro h
    refine ⟨h [] d rfl, fun s c hc path e he => h (s :: path) e ?_⟩
    rw [at?, hc]
    exact he
  · rintro ⟨hd, hchild⟩ path e he
    cases path with
    | nil =>
      cases he
      exact hd
    | cons s path =>
      obtain ⟨c, hc, he⟩ := Option.bind_eq_some_iff.1 he
      exact hchild s c hc path e he

/-- A value `d` without values inside has a property `p` everywhere exactly if it has it itself. -/
theorem everywhere_iff_of_child? {d : Datum.Raw} (h : ∀ s, d.child? s = none) :
    Everywhere p d ↔ p d := by
  rw [everywhere_iff_child?]
  refine and_iff_left (fun s c hc => ?_)
  rw [h s] at hc
  cases hc

/-- A map whose keys ascend has a property `p` everywhere exactly if it has it, and each of its
    values has it everywhere. -/
theorem everywhere_map_iff {es : List (String × Datum.Raw)} (hasc : Members.Ascending es) :
    Everywhere p (.map es) ↔ p (.map es) ∧ ∀ e ∈ es, Everywhere p e.2 := by
  rw [everywhere_iff_child?]
  refine and_congr_right (fun _ => ?_)
  -- with ascending keys each entry is the one found under its key
  constructor
  · rintro h ⟨name, d⟩ he
    exact h (.key name) d ((Members.mem_iff_get? hasc).1 he)
  · intro h s c hc
    cases s with
    | key name => exact h (name, c) ((Members.mem_iff_get? hasc).2 hc)
    | index i => cases hc

/-- A list has a property `p` everywhere exactly if it has it, and each of its elements has it
    everywhere. -/
theorem everywhere_list_iff {xs : List Datum.Raw} :
    Everywhere p (.list xs) ↔ p (.list xs) ∧ ∀ x ∈ xs, Everywhere p x := by
  rw [everywhere_iff_child?]
  refine and_congr_right (fun _ => ?_)
  constructor
  · intro h x hx
    obtain ⟨i, hi⟩ := List.mem_iff_getElem?.1 hx
    exact h (.index i) x hi
  · intro h s c hc
    cases s with
    | key name => cases hc
    | index i => exact h c (List.mem_of_getElem? hc)

/-! ### What a tree has no place for -/

/-- The value is a `long` that `IsShort`, which a trip over JSON narrows. -/
def IsShortLong : Datum.Raw → Prop
  | .long n => IsShort n
  | _ => False

/-- The value is a `double` that is a NaN or an infinity, which a trip over JSON turns to `null`. -/
def IsNonFinite : Datum.Raw → Prop
  | .double x => ¬x.IsFinite
  | _ => False

/-- A value `d` is `Canonical` exactly if, at the end of no path, there is a 64-bit integer that
    fits in 32 bits, or a NaN or an infinity. -/
theorem canonical_iff_everywhere {d : Datum.Raw} (h : d.WellKeyed) :
    d.Canonical ↔ Everywhere (fun e => ¬e.IsShortLong ∧ ¬e.IsNonFinite) d := by
  induction d with
  | null | int | long | double | bool | str =>
    rw [everywhere_iff_of_child? (fun _ => rfl)]
    simp [Canonical, IsShortLong, IsNonFinite]
  | map es ih =>
    obtain ⟨hasc, hes⟩ := h
    rw [everywhere_map_iff hasc, Canonical, entriesCanonical_iff]
    simp only [IsShortLong, IsNonFinite, not_false_eq_true, and_self, true_and]
    exact forall₂_congr (fun e he => ih e he (entriesWellKeyed_iff.1 hes e he))
  | list xs ih =>
    rw [everywhere_list_iff, Canonical, elemsCanonical_iff]
    simp only [IsShortLong, IsNonFinite, not_false_eq_true, and_self, true_and]
    exact forall₂_congr (fun x hx => ih x hx (elemsWellKeyed_iff.1 h x hx))

end Datum.Raw

namespace Datum

namespace Raw

/-! ### One accessor at a time -/

/-- An integer `n` that fits in 32 bits is the same number when it is narrowed and widened again. -/
theorem toInt64_ofInt {n : Int64} (h : IsShort n) : (Int32.ofInt n.toInt).toInt64 = n := by
  have hval : (Int32.ofInt n.toInt).toInt = n.toInt := Int32.toInt_ofInt_of_le h.1 h.2
  exact Int64.toInt_inj.1 ((Int32.toInt_toInt64 _).trans hval)

/-- The normal form of `d` is the boolean `b` exactly if `d` is, for no other value becomes one. -/
theorem asBool_normalize (d : Datum.Raw) (b : Bool) :
    d.normalize.asBool = .ok b ↔ d.asBool = .ok b := by
  cases d with
  | long n => by_cases h : IsShort n <;> simp [normalize, asBool, h]
  | double x => by_cases h : x.IsFinite <;> simp [normalize, asBool, h]
  | null | int | bool | str | map | list => simp [normalize, asBool]

/-- The normal form of `d` is the string `s` exactly if `d` is, for no other value becomes one. -/
theorem asString_normalize (d : Datum.Raw) (s : String) :
    d.normalize.asString = .ok s ↔ d.asString = .ok s := by
  cases d with
  | long n => by_cases h : IsShort n <;> simp [normalize, asString, h]
  | double x => by_cases h : x.IsFinite <;> simp [normalize, asString, h]
  | null | int | bool | str | map | list => simp [normalize, asString]

/-- The normal form of `d` is read as the integer `n` exactly if `d` is.  The accessor widens, so
    that the narrower width is not seen. -/
theorem asInt64_normalize (d : Datum.Raw) (n : Int64) :
    d.normalize.asInt64 = .ok n ↔ d.asInt64 = .ok n := by
  cases d with
  | long m =>
    by_cases h : IsShort m
    · have hnormal : (Raw.long m).normalize = .int (Int32.ofInt m.toInt) := if_pos h
      rw [hnormal, asInt64, toInt64_ofInt h, asInt64]
    · simp [normalize, asInt64, h]
  | double x => by_cases h : x.IsFinite <;> simp [normalize, asInt64, h]
  | null | int | bool | str | map | list => simp [normalize, asInt64]

/-- The normal form of `d` is read as the number `x` exactly if `d` is and is no NaN or infinity,
    for these become `null`. -/
theorem asDouble_normalize (d : Datum.Raw) (x : Binary64) :
    d.normalize.asDouble = .ok x ↔ d.asDouble = .ok x ∧ ¬d.IsNonFinite := by
  cases d with
  | long m =>
    by_cases h : IsShort m
    · have hnormal : (Raw.long m).normalize = .int (Int32.ofInt m.toInt) := if_pos h
      have hval : (Int32.ofInt m.toInt).toInt = m.toInt := Int32.toInt_ofInt_of_le h.1 h.2
      rw [hnormal, asDouble, hval, asDouble]
      exact (and_iff_left not_false).symm
    · simp [normalize, asDouble, IsNonFinite, h]
  | double y => by_cases h : y.IsFinite <;> simp [normalize, asDouble, IsNonFinite, h]
  | null | int | bool | str | map | list => simp [normalize, asDouble, IsNonFinite]

/-- The normal form of `d` is a map with the keys `names` exactly if `d` is one. -/
theorem asMap_normalize (d : Datum.Raw) (names : List String) :
    Members.keys <$> d.normalize.asMap = .ok names ↔ Members.keys <$> d.asMap = .ok names := by
  cases d with
  | long n => by_cases h : IsShort n <;> simp [normalize, asMap, h]
  | double x => by_cases h : x.IsFinite <;> simp [normalize, asMap, h]
  | map es =>
    have hkeys : Members.keys (Members.mapValues normalize es) = Members.keys es := by
      simp [Members.keys, Members.mapValues]
    simp [normalize, normalizeEntries_eq, asMap, hkeys]
  | null | int | bool | str | list => simp [normalize, asMap]

/-- The normal form of `d` is null exactly if `d` is null itself, or is a NaN or an infinity. -/
theorem isNull_normalize (d : Datum.Raw) :
    d.normalize.isNull = true ↔ d.isNull = true ∨ d.IsNonFinite := by
  cases d with
  | long n => by_cases h : IsShort n <;> simp [normalize, isNull, IsNonFinite, h]
  | double x => by_cases h : x.IsFinite <;> simp [normalize, isNull, IsNonFinite, h]
  | null | int | bool | str | map | list => simp [normalize, isNull, IsNonFinite]

/-! ### All accessors -/

/-- What the accessors say of the value `before` they say of `after` too, except that a NaN or an
    infinity has become null. -/
structure SeenAlike (before after : Datum.Raw) : Prop where
  asBool : ∀ b, after.asBool = .ok b ↔ before.asBool = .ok b
  asString : ∀ s, after.asString = .ok s ↔ before.asString = .ok s
  asInt64 : ∀ n, after.asInt64 = .ok n ↔ before.asInt64 = .ok n
  asDouble : ∀ x, after.asDouble = .ok x ↔ before.asDouble = .ok x ∧ ¬before.IsNonFinite
  /-- Both are maps or neither is, and the keys are the same. -/
  asMap : ∀ names,
    Members.keys <$> after.asMap = .ok names ↔ Members.keys <$> before.asMap = .ok names
  isNull : after.isNull = true ↔ before.isNull = true ∨ before.IsNonFinite

/-- A value `d` and its normal form are `SeenAlike`, by one lemma for each accessor. -/
theorem seenAlike_normalize (d : Datum.Raw) : SeenAlike d d.normalize where
  asBool := d.asBool_normalize
  asString := d.asString_normalize
  asInt64 := d.asInt64_normalize
  asDouble := d.asDouble_normalize
  asMap := d.asMap_normalize
  isNull := d.isNull_normalize

end Raw

/-! ### The trip -/

/-- **The trip is hardly seen.**  What comes back of `d` has the same paths.  At the end of each
    path the accessors succeed as before and with the same result; only a NaN or an infinity is seen
    as null.  The estimate never grows, and it stays exactly if nowhere in `d` is a 64-bit integer
    that fits in 32 bits, nor a NaN or an infinity. -/
theorem roundTrip_seenAlike (d : Datum) :
    (∀ path, ((ofJson d.toJson).raw.at? path).isSome = (d.raw.at? path).isSome) ∧
      (∀ path before, d.raw.at? path = some before →
        ∃ after, (ofJson d.toJson).raw.at? path = some after ∧ before.SeenAlike after) ∧
      (ofJson d.toJson).size ≤ d.size ∧
      ((ofJson d.toJson).size = d.size ↔
        ∀ path e, d.raw.at? path = some e → ¬e.IsShortLong ∧ ¬e.IsNonFinite) := by
  -- the trip computes the normal form, so each part is a fact about `normalize`
  have hpath : ∀ path, (ofJson d.toJson).raw.at? path = (d.raw.at? path).map Raw.normalize := by
    intro path
    rw [ofJson_toJson]
    exact d.raw.at?_normalize path
  have hsize : (ofJson d.toJson).size = d.raw.normalize.size := by
    rw [ofJson_toJson]
    rfl
  refine ⟨?_, ?_, ?_, ?_⟩
  · intro path
    rw [hpath, Option.isSome_map]
  · intro path before hbefore
    refine ⟨before.normalize, ?_, before.seenAlike_normalize⟩
    rw [hpath, hbefore]
    rfl
  · rw [hsize]
    exact d.raw.size_normalize_le
  · rw [hsize]
    exact Raw.size_normalize_eq_iff.trans (Raw.canonical_iff_everywhere d.wellKeyed)

/-- In a list of a short `long` and a map with a NaN, both are reached before and after, and eight
    bytes each become four and one. -/
theorem roundTrip_seenAlike_nested :
    let d : Datum := list [.long 7, .map [("k", .double (.nan false))]]
    (∃ after, (ofJson d.toJson).raw.at? [.index 0] = some after ∧ after.asInt64 = .ok 7) ∧
      (∃ after, (ofJson d.toJson).raw.at? [.index 1, .key "k"] = some after ∧
        after.isNull = true) ∧
      (ofJson d.toJson).size = 6 ∧ d.size = 17 := by
  intro d
  obtain ⟨-, hat, -, -⟩ := roundTrip_seenAlike d
  obtain ⟨first, hfirst, hinteger⟩ := hat [.index 0] (.long 7) rfl
  obtain ⟨inner, hinner, hnull⟩ := hat [.index 1, .key "k"] (.double (.nan false)) rfl
  have hnan : (Raw.double (.nan false)).IsNonFinite := fun h => h rfl
  exact ⟨⟨first, hfirst, (hinteger.asInt64 7).2 rfl⟩, ⟨inner, hinner, hnull.isNull.2 (.inr hnan)⟩,
    by decide, by decide⟩

end Datum

end FaultAction
