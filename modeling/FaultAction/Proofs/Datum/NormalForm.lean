import FaultAction.Datum.Json
import FaultAction.Proofs.Json.Basic
import Mathlib.Algebra.Order.BigOperators.Group.List
import Mathlib.Algebra.Order.Ring.Nat

namespace FaultAction

/-!
# Dynamic values — the normal form of a trip over JSON

A JSON tree has no place for the width of an integer, nor for a NaN or an infinity.  The normal
form of a value leaves out what a tree has no place for:

* `normalize`              — each 64-bit integer that fits 32 bits in that width, each NaN or
  infinity null, and nothing else changed;
* `Canonical`              — neither of the two occurs at any depth;
* `normalize_eq_self_iff`  — the canonical values are those that are their own normal form;
* `toJson_normalize`       — a value and its normal form have the same tree.

It also takes fewer bytes, for a narrow integer counts less than a wide one and null less than a
double:

* `entriesSize_eq_sum`, `elemsSize_eq_sum` — the estimates of maps and lists are sums;
* `sum_of_le`              — a sum of parts shrinks unless every part keeps its size;
* `size_normalize_le`      — so the estimate never grows;
* `size_normalize_eq_iff`  — and it stays only where there is nothing to change.
-/

namespace Datum

namespace Raw

/-! ### Induction -/

/-- Induction over a value, with one hypothesis `map` for the values of the entries and one `list`
    for the elements, in place of the mutual recursion. -/
@[elab_as_elim, induction_eliminator]
theorem ind {motive : Datum.Raw → Prop} (null : motive .null) (int : ∀ n, motive (.int n))
    (long : ∀ n, motive (.long n)) (double : ∀ x, motive (.double x))
    (bool : ∀ b, motive (.bool b)) (str : ∀ s, motive (.str s))
    (map : ∀ es : List (String × Datum.Raw), (∀ e ∈ es, motive e.2) → motive (.map es))
    (list : ∀ xs, (∀ x ∈ xs, motive x) → motive (.list xs)) (d : Datum.Raw) : motive d :=
  -- the nested lists have motives of their own: every value, or every element, has the property
  @Datum.Raw.rec motive (fun es => ∀ e ∈ es, motive e.2) (fun xs => ∀ x ∈ xs, motive x)
    (fun e => motive e.2) null int long double bool str map list
    (fun _ h => nomatch h) (fun _ _ he hes => List.forall_mem_cons.2 ⟨he, hes⟩)
    (fun _ h => nomatch h) (fun _ _ hx hxs => List.forall_mem_cons.2 ⟨hx, hxs⟩)
    (fun _ _ hd => hd) d

/-! ### The normal form -/

/-- The 64-bit integer `n` fits in 32 bits, so that a reader takes it for an `int` and not for a
    `long`. -/
def IsShort (n : Int64) : Prop := -2147483648 ≤ n.toInt ∧ n.toInt < 2147483648

instance (n : Int64) : Decidable (IsShort n) := inferInstanceAs (Decidable (_ ∧ _))

mutual

/-- The value `d` as a trip over JSON leaves it: each `long` that `IsShort` becomes an `int`, each
    `double` that is not finite becomes `null`.  Keys and positions stay. -/
def normalize : Datum.Raw → Datum.Raw
  | .long n => if IsShort n then .int (Int32.ofInt n.toInt) else .long n
  | .double x => if x.IsFinite then .double x else .null
  | .map es => .map (normalizeEntries es)
  | .list xs => .list (normalizeElems xs)
  | d => d
termination_by structural d => d

/-- The entries `es` with their values put in normal form, each under its own key. -/
def normalizeEntries : List (String × Datum.Raw) → List (String × Datum.Raw)
  | [] => []
  | (k, d) :: es => (k, d.normalize) :: normalizeEntries es
termination_by structural es => es

/-- The elements `xs` put in normal form, each at its own position. -/
def normalizeElems : List Datum.Raw → List Datum.Raw
  | [] => []
  | d :: xs => d.normalize :: normalizeElems xs
termination_by structural xs => xs

end

mutual

/-- At no depth of the value is there a `long` that `IsShort`, nor a `double` that is a NaN or an
    infinity. -/
def Canonical : Datum.Raw → Prop
  | .long n => ¬IsShort n
  | .double x => x.IsFinite
  | .map es => EntriesCanonical es
  | .list xs => ElemsCanonical xs
  | _ => True
termination_by structural d => d

/-- The values of the entries are `Canonical`, whatever their keys are. -/
def EntriesCanonical : List (String × Datum.Raw) → Prop
  | [] => True
  | (_, d) :: es => d.Canonical ∧ EntriesCanonical es
termination_by structural es => es

/-- The elements are `Canonical`, each of them. -/
def ElemsCanonical : List Datum.Raw → Prop
  | [] => True
  | d :: xs => d.Canonical ∧ ElemsCanonical xs
termination_by structural xs => xs

end

/-! ### The functions on entries and elements -/

/-- Written as a map over the values, `normalizeEntries` puts each of them in normal form and leaves
    the keys of `es` alone. -/
theorem normalizeEntries_eq (es : List (String × Datum.Raw)) :
    normalizeEntries es = Members.mapValues normalize es :=
  eq_map_of_cons rfl (fun _ _ => rfl) es

/-- Written as a map, `normalizeElems` puts each element of `xs` in normal form for itself. -/
theorem normalizeElems_eq (xs : List Datum.Raw) : normalizeElems xs = xs.map normalize :=
  eq_map_of_cons rfl (fun _ _ => rfl) xs

/-- Entries are `EntriesCanonical` exactly if each of their values is `Canonical`. -/
theorem entriesCanonical_iff {es : List (String × Datum.Raw)} :
    EntriesCanonical es ↔ ∀ e ∈ es, e.2.Canonical :=
  iff_forall_of_cons trivial (fun _ _ => Iff.rfl)

/-- Elements are `ElemsCanonical` exactly if each of them is `Canonical`. -/
theorem elemsCanonical_iff {xs : List Datum.Raw} :
    ElemsCanonical xs ↔ ∀ x ∈ xs, x.Canonical :=
  iff_forall_of_cons trivial (fun _ _ => Iff.rfl)

/-- Written as a map over the values, `entriesToJson` writes each of them with `toJson`, in the
    order of `es`. -/
theorem entriesToJson_eq (es : List (String × Datum.Raw)) :
    entriesToJson es = Members.mapValues toJson es :=
  eq_map_of_cons rfl (fun _ _ => rfl) es

/-- Written as a map, `elemsToJson` writes each element of `xs` with `toJson` for itself. -/
theorem elemsToJson_eq (xs : List Datum.Raw) : elemsToJson xs = xs.map toJson :=
  eq_map_of_cons rfl (fun _ _ => rfl) xs

/-- Reading the members `ms` is reading each value with `ofJson` and putting the entries in key
    order with `Members.ofList`. -/
theorem entriesOfJson_eq (ms : List (String × Json)) :
    entriesOfJson ms = Members.ofList (Members.mapValues ofJson ms) :=
  Members.eq_ofList_of_cons rfl (fun _ _ => rfl) ms

/-- Written as a map, `elemsOfJson` reads each element of `xs` with `ofJson` for itself. -/
theorem elemsOfJson_eq (xs : List Json) : elemsOfJson xs = xs.map ofJson :=
  eq_map_of_cons rfl (fun _ _ => rfl) xs

/-! ### Fixed points -/

/-- A value `d` is its own normal form exactly if it is `Canonical`, for there is then nothing to
    change at any depth. -/
theorem normalize_eq_self_iff {d : Datum.Raw} : d.normalize = d ↔ d.Canonical := by
  induction d with
  | null => simp [normalize, Canonical]
  | int n => simp [normalize, Canonical]
  | long n => by_cases h : IsShort n <;> simp [normalize, Canonical, h]
  | double x => by_cases h : x.IsFinite <;> simp [normalize, Canonical, h]
  | bool b => simp [normalize, Canonical]
  | str s => simp [normalize, Canonical]
  | map es ih =>
    -- the keys stay, so a map is left alone exactly if each of its values is
    rw [normalize, normalizeEntries_eq, Canonical, entriesCanonical_iff, Raw.map.injEq,
      Members.mapValues_eq_self_iff]
    exact forall₂_congr ih
  | list xs ih =>
    have hid : xs.map normalize = xs ↔ ∀ x ∈ xs, x.normalize = x := by
      simpa using List.map_inj_left (l := xs) (f := normalize) (g := id)
    rw [normalize, normalizeElems_eq, Canonical, elemsCanonical_iff, Raw.list.injEq, hid]
    exact forall₂_congr ih

/-- The normal form of any value `d` is `Canonical`, so that a second trip over JSON changes
    nothing. -/
theorem canonical_normalize (d : Datum.Raw) : d.normalize.Canonical := by
  induction d with
  | null => trivial
  | int n => trivial
  | long n => by_cases h : IsShort n <;> simp [normalize, Canonical, h]
  | double x => by_cases h : x.IsFinite <;> simp [normalize, Canonical, h]
  | bool b => trivial
  | str s => trivial
  | map es ih =>
    rw [normalize, normalizeEntries_eq, Canonical, entriesCanonical_iff]
    intro e he
    obtain ⟨e', he', rfl⟩ := List.mem_map.1 he
    exact ih e' he'
  | list xs ih =>
    rw [normalize, normalizeElems_eq, Canonical, elemsCanonical_iff]
    intro x hx
    obtain ⟨x', hx', rfl⟩ := List.mem_map.1 hx
    exact ih x' hx'

/-- Writing `d` and writing its normal form give the same tree: what a tree has no place for is not
    written in the first place. -/
theorem toJson_normalize (d : Datum.Raw) : d.normalize.toJson = d.toJson := by
  induction d with
  | null => rfl
  | int n => rfl
  | long n =>
    by_cases h : IsShort n
    · -- the width is gone in the tree, only the number is left
      have hval : (Int32.ofInt n.toInt).toInt = n.toInt := Int32.toInt_ofInt_of_le h.1 h.2
      rw [normalize, if_pos h]
      exact congrArg Json.int (Json.Integer.ext hval)
    · rw [normalize, if_neg h]
  | double x =>
    by_cases h : x.IsFinite <;> simp [normalize, h, toJson, Json.double]
  | bool b => rfl
  | str s => rfl
  | map es ih =>
    rw [normalize, toJson, toJson, entriesToJson_eq, entriesToJson_eq, normalizeEntries_eq,
      Members.mapValues_mapValues, Members.mapValues_congr ih]
  | list xs ih =>
    rw [normalize, toJson, toJson, elemsToJson_eq, elemsToJson_eq, normalizeElems_eq, List.map_map]
    exact congrArg Json.arr (List.map_congr_left ih)

/-- The normal form of a value `d` whose keys are in order has them in order too, since no key
    changes. -/
theorem wellKeyed_normalize {d : Datum.Raw} (h : d.WellKeyed) : d.normalize.WellKeyed := by
  induction d with
  | null => trivial
  | int n => trivial
  | long n =>
    rw [normalize]
    split <;> trivial
  | double x =>
    rw [normalize]
    split <;> trivial
  | bool b => trivial
  | str s => trivial
  | map es ih =>
    obtain ⟨hasc, hes⟩ := h
    rw [normalize, normalizeEntries_eq]
    refine ⟨Members.ascending_mapValues_iff.2 hasc, entriesWellKeyed_iff.2 (fun e he => ?_)⟩
    obtain ⟨e', he', rfl⟩ := List.mem_map.1 he
    exact ih e' he' (entriesWellKeyed_iff.1 hes e' he')
  | list xs ih =>
    rw [normalize, normalizeElems_eq]
    refine elemsWellKeyed_iff.2 (fun x hx => ?_)
    obtain ⟨x', hx', rfl⟩ := List.mem_map.1 hx
    exact ih x' hx' (elemsWellKeyed_iff.1 h x' hx')

end Raw

/-! ### Values with keys in order -/

/-- The normal form of `d`.  Its keys are those of `d`, so they are still in order. -/
def normalize (d : Datum) : Datum := ⟨d.raw.normalize, Raw.wellKeyed_normalize d.wellKeyed⟩

/-- At no depth of `d` is there a 64-bit integer that fits 32 bits, nor a NaN or an infinity. -/
def Canonical (d : Datum) : Prop := d.raw.Canonical

@[simp] theorem normalize_raw (d : Datum) : d.normalize.raw = d.raw.normalize := rfl

/-- A `Canonical` value `d` is its own normal form. -/
theorem Canonical.normalize_eq {d : Datum} (h : d.Canonical) : d.normalize = d :=
  Datum.ext (Raw.normalize_eq_self_iff.2 h)

/-- The normal form of `d` is `Canonical`, whatever `d` is. -/
theorem canonical_normalize (d : Datum) : d.normalize.Canonical :=
  Raw.canonical_normalize d.raw

end Datum

namespace Datum.Raw

/-! ### Sums -/

/-- The estimate of a map is the sum over its entries `es`, of the bytes of each key and the `size`
    of its value. -/
theorem entriesSize_eq_sum (es : List (String × Datum.Raw)) :
    entriesSize es = (es.map fun e => e.1.utf8ByteSize + e.2.size).sum := by
  induction es with
  | nil => rfl
  | cons e es ih =>
    rw [List.map_cons, List.sum_cons, ← ih]
    rfl

/-- The estimate of a list is the sum of the `size` of each of its elements `xs`. -/
theorem elemsSize_eq_sum (xs : List Datum.Raw) : elemsSize xs = (xs.map size).sum := by
  induction xs with
  | nil => rfl
  | cons x xs ih =>
    rw [List.map_cons, List.sum_cons, ← ih]
    rfl

/-- If no part grows from `f` to `g`, then neither does the sum over `xs`, and it stays the same
    only if each part does. -/
theorem sum_of_le {α : Type} {f g : α → Nat} {xs : List α} (h : ∀ x ∈ xs, g x ≤ f x) :
    (xs.map g).sum ≤ (xs.map f).sum ∧
      ((xs.map g).sum = (xs.map f).sum → ∀ x ∈ xs, g x = f x) := by
  refine ⟨List.sum_le_sum h, fun heq x hx => ?_⟩
  -- one part that shrinks makes the sum shrink
  by_contra hne
  have hlt : (xs.map g).sum < (xs.map f).sum :=
    List.sum_lt_sum g f h ⟨x, hx, Nat.lt_of_le_of_ne (h x hx) hne⟩
  omega

/-! ### The normal form -/

/-- The estimate of the normal form of `d` is at most that of `d`, and it is less unless `d` is
    `Canonical`. -/
theorem size_normalize (d : Datum.Raw) :
    d.normalize.size ≤ d.size ∧ (d.normalize.size = d.size → d.Canonical) := by
  induction d with
  | null | int | bool | str => exact ⟨Nat.le_refl _, fun _ => trivial⟩
  | long n =>
    -- eight bytes become four
    by_cases h : IsShort n <;> simp [normalize, size, Canonical, h]
  | double x =>
    -- eight bytes become one
    by_cases h : x.IsFinite <;> simp [normalize, size, Canonical, h]
  | map es ih =>
    -- the keys count the same before and after, so the difference comes from the values
    have hle : ∀ e ∈ es, e.1.utf8ByteSize + e.2.normalize.size ≤ e.1.utf8ByteSize + e.2.size :=
      fun e he => Nat.add_le_add_left (ih e he).1 _
    obtain ⟨hsum, hsame⟩ := sum_of_le hle
    rw [normalize, size, size, normalizeEntries_eq, entriesSize_eq_sum, entriesSize_eq_sum,
      Members.mapValues, List.map_map, Canonical, entriesCanonical_iff]
    refine ⟨hsum, fun heq e he => (ih e he).2 ?_⟩
    have hentry := hsame heq e he
    omega
  | list xs ih =>
    obtain ⟨hsum, hsame⟩ := sum_of_le (fun x hx => (ih x hx).1)
    rw [normalize, size, size, normalizeElems_eq, elemsSize_eq_sum, elemsSize_eq_sum,
      List.map_map, Canonical, elemsCanonical_iff]
    exact ⟨hsum, fun heq x hx => (ih x hx).2 (hsame heq x hx)⟩

/-- **Never larger.**  The estimate of the normal form of `d` is at most the estimate of `d`. -/
theorem size_normalize_le (d : Datum.Raw) : d.normalize.size ≤ d.size := (size_normalize d).1

/-- **Strictly smaller.**  The two estimates agree only for a `Canonical` value, where there is
    nothing to change. -/
theorem size_normalize_eq_iff {d : Datum.Raw} : d.normalize.size = d.size ↔ d.Canonical :=
  ⟨(size_normalize d).2, fun h => congrArg size (normalize_eq_self_iff.2 h)⟩

end Datum.Raw

end FaultAction
