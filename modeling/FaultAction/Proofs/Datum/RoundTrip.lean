import FaultAction.Proofs.Datum.NormalForm
import FaultAction.Proofs.Number.Rounding
import FaultAction.Source

namespace FaultAction.Datum

/-!
# Dynamic values — the trip over JSON

What comes back of a value that is written as a tree and read again is its normal form:

* `ofJson_toJson`        — writing a value and reading it back computes its normal form;
* `canonical_ofJson`     — reading gives canonical values only;
* `wellKeyed_toJson`     — the tree of a value has its names in order;
* `toJson_toSource`      — handed in as a caller's value, a dynamic value has the same tree;
* `roundTrip_normalForm` — the normal form is exactly what the trip changes.
-/

namespace Raw

/-! ### Writing and reading back -/

/-- A 32-bit integer `n` is read back as the `int` it was, since 32 bits are tried first. -/
theorem ofInteger_ofInt32 (n : Int32) : ofInteger (.ofInt32 n) = .int n := by
  have hle := n.le_toInt
  have hlt := n.toInt_lt
  unfold ofInteger
  rw [if_pos (by simp only [Json.Integer.ofInt32]; omega)]
  exact congrArg Raw.int (Int32.ofInt_toInt n)

/-- A 64-bit integer `n` is read back in the least width that holds it, which is its normal form. -/
theorem ofInteger_ofInt64 (n : Int64) : ofInteger (.ofInt64 n) = (Raw.long n).normalize := by
  have hlt : n.toInt < 9223372036854775808 := n.toInt_lt
  show (if IsShort n then Raw.int (Int32.ofInt n.toInt)
    else if n.toInt < 9223372036854775808 then Raw.long (Int64.ofInt n.toInt)
    else Raw.double (.ofInt n.toInt)) = _
  -- a 64-bit word is never too large for 64 bits, so it does not become a double
  rw [if_pos hlt, Int64.ofInt_toInt, normalize]

/-- **Round trip.**  Reading the tree of a value `d` gives its normal form, provided that its keys
    are in order. -/
theorem ofJson_toJson {d : Datum.Raw} (h : d.WellKeyed) : ofJson d.toJson = d.normalize := by
  induction d with
  | null => rfl
  | int n => exact ofInteger_ofInt32 n
  | long n => exact ofInteger_ofInt64 n
  | double x =>
    by_cases hx : x.IsFinite <;> simp [toJson, Json.double, hx, ofJson, normalize]
  | bool b => rfl
  | str s => rfl
  | map es ih =>
    obtain ⟨hasc, hes⟩ := h
    have hread : ∀ e ∈ es, ofJson e.2.toJson = e.2.normalize :=
      fun e he => ih e he (entriesWellKeyed_iff.1 hes e he)
    -- the members come back in key order, which is the order they were written in
    rw [toJson, entriesToJson_eq, ofJson, entriesOfJson_eq, Members.mapValues_mapValues,
      Members.mapValues_congr hread,
      Members.ofList_of_ascending (Members.ascending_mapValues_iff.2 hasc), normalize,
      normalizeEntries_eq]
  | list xs ih =>
    have hread : ∀ x ∈ xs, ofJson x.toJson = x.normalize :=
      fun x hx => ih x hx (elemsWellKeyed_iff.1 h x hx)
    rw [toJson, elemsToJson_eq, ofJson, elemsOfJson_eq, List.map_map, normalize, normalizeElems_eq]
    exact congrArg Raw.list (List.map_congr_left hread)

/-! ### What reading can give -/

/-- An integer `n` is read in the least width that holds it, or else as a finite double. -/
theorem canonical_ofInteger (n : Json.Integer) : (ofInteger n).Canonical := by
  have hlower := n.lower
  unfold ofInteger
  by_cases h32 : -2147483648 ≤ n.val ∧ n.val < 2147483648
  · rw [if_pos h32]
    trivial
  · rw [if_neg h32]
    by_cases h64 : n.val < 9223372036854775808
    · have hval : (Int64.ofInt n.val).toInt = n.val := Int64.toInt_ofInt_of_le hlower h64
      -- the 64-bit value is taken only when 32 bits are not enough
      rw [if_pos h64]
      show ¬(-2147483648 ≤ (Int64.ofInt n.val).toInt ∧ (Int64.ofInt n.val).toInt < 2147483648)
      rw [hval]
      exact h32
    · rw [if_neg h64]
      -- the nearest double to a 64-bit integer is no infinity
      exact n.isFinite_ofInt

/-- Reading gives `Canonical` values only, whatever the tree `j` is. -/
theorem canonical_ofJson (j : Json) : (ofJson j).Canonical := by
  induction j with
  | null => trivial
  | bool b => trivial
  | num n =>
    cases n with
    | int n => exact canonical_ofInteger n
    | float x hx => exact hx
  | str s => trivial
  | arr xs ih =>
    rw [ofJson, elemsOfJson_eq, Canonical, elemsCanonical_iff]
    intro x hx
    obtain ⟨y, hy, rfl⟩ := List.mem_map.1 hx
    exact ih y hy
  | obj ms ih =>
    rw [ofJson, entriesOfJson_eq, Canonical, entriesCanonical_iff]
    intro e he
    -- an entry of the map is one of the members, whichever of two with one name it is
    obtain ⟨m, hm, rfl⟩ := List.mem_map.1 (Members.mem_of_mem_ofList he)
    exact ih m hm

/-! ### The tree of a value -/

/-- The tree of a value `d` whose keys are in order has its names in order at every depth. -/
theorem wellKeyed_toJson {d : Datum.Raw} (h : d.WellKeyed) : d.toJson.WellKeyed := by
  induction d with
  | null => trivial
  | int n => trivial
  | long n => trivial
  | double x =>
    rw [toJson, Json.double]
    split <;> trivial
  | bool b => trivial
  | str s => trivial
  | map es ih =>
    obtain ⟨hasc, hes⟩ := h
    rw [toJson, entriesToJson_eq]
    -- the keys are the names, so their order carries over
    refine ⟨Members.ascending_mapValues_iff.2 hasc, Json.wellKeyedMembers_iff.2 ?_⟩
    intro m hm
    obtain ⟨e, he, rfl⟩ := List.mem_map.1 hm
    exact ih e he (entriesWellKeyed_iff.1 hes e he)
  | list xs ih =>
    rw [toJson, elemsToJson_eq]
    refine Json.wellKeyedElems_iff.2 (fun x hx => ?_)
    obtain ⟨y, hy, rfl⟩ := List.mem_map.1 hx
    exact ih y hy (elemsWellKeyed_iff.1 h y hy)

/-! ### As a caller's value -/

/-- Entries `es` handed in as a caller's map are written in key order, if each of their values is
    written as by its own `toJson`. -/
theorem entriesToJson_entriesToSource {es : List (String × Datum.Raw)}
    (h : ∀ e ∈ es, e.2.toSource.toJson = .ok e.2.toJson) :
    Source.entriesToJson (entriesToSource es) =
      .ok (Members.ofList (Members.mapValues toJson es)) := by
  induction es with
  | nil => rfl
  | cons e es ih =>
    obtain ⟨k, d⟩ := e
    have hd : d.toSource.toJson = .ok d.toJson := h (k, d) (by simp)
    have hes := ih (fun e he => h e (by simp [he]))
    simp only [entriesToSource, Source.entriesToJson, Source.toKey, hd, hes]
    rfl

/-- Elements `xs` handed in as a caller's list are written in order, if each of them is written as
    by its own `toJson`. -/
theorem elemsToJson_elemsToSource {xs : List Datum.Raw}
    (h : ∀ x ∈ xs, x.toSource.toJson = .ok x.toJson) :
    Source.elemsToJson (elemsToSource xs) = .ok (xs.map toJson) := by
  induction xs with
  | nil => rfl
  | cons x xs ih =>
    have hx : x.toSource.toJson = .ok x.toJson := h x (by simp)
    have hxs := ih (fun y hy => h y (by simp [hy]))
    simp only [elemsToSource, Source.elemsToJson, hx, hxs]
    rfl

/-- Handed in as a caller's value, a dynamic value `d` has the tree of its own writer. -/
theorem toJson_toSource {d : Datum.Raw} (h : d.WellKeyed) : d.toSource.toJson = .ok d.toJson := by
  induction d with
  | null => rfl
  | int n => rfl
  | long n => rfl
  | double x => rfl
  | bool b => rfl
  | str s => rfl
  | map es ih =>
    obtain ⟨hasc, hes⟩ := h
    have hread : ∀ e ∈ es, e.2.toSource.toJson = .ok e.2.toJson :=
      fun e he => ih e he (entriesWellKeyed_iff.1 hes e he)
    rw [toSource, Source.toJson, entriesToJson_entriesToSource hread,
      Members.ofList_of_ascending (Members.ascending_mapValues_iff.2 hasc), toJson,
      entriesToJson_eq]
    rfl
  | list xs ih =>
    have hread : ∀ x ∈ xs, x.toSource.toJson = .ok x.toJson :=
      fun x hx => ih x hx (elemsWellKeyed_iff.1 h x hx)
    rw [toSource, Source.toJson, elemsToJson_elemsToSource hread, toJson, elemsToJson_eq]
    rfl

end Raw

/-! ### Values with keys in order -/

/-- **Round trip.**  Reading the tree of `d` gives its normal form. -/
theorem ofJson_toJson (d : Datum) : ofJson d.toJson = d.normalize :=
  Datum.ext (Raw.ofJson_toJson d.wellKeyed)

/-- Reading gives `Canonical` values only, so that no tree has a value that a further trip would
    change. -/
theorem canonical_ofJson (j : Json) : (ofJson j).Canonical := Raw.canonical_ofJson j

/-- The tree of `d` has its names in order, as the keys of `d` are. -/
theorem wellKeyed_toJson (d : Datum) : d.toJson.WellKeyed := Raw.wellKeyed_toJson d.wellKeyed

/-- As a `Value`, the written tree of `d` is its tree, for sorting finds the names in order. -/
theorem toValue_eq (d : Datum) : Wire.toValue d = d.toJson :=
  Json.sortKeys_of_wellKeyed d.wellKeyed_toJson

/-- **The trip over JSON computes the normal form.**  Both ways to write `d` give the same tree, and
    reading it gives the normal form.  So the trip leaves exactly the `Canonical` values alone, a
    second trip changes nothing, and what can be read are the normal forms. -/
theorem roundTrip_normalForm (d : Datum) :
    ofJson d.toJson = d.normalize ∧
      d.toSource.toJson = .ok d.toJson ∧ Wire.toValue d = d.toJson ∧
      (ofJson d.toJson = d ↔ d.Canonical) ∧
      d.normalize.normalize = d.normalize ∧
      ((∃ j : Json, j.WellKeyed ∧ ofJson j = d) ↔ d.normalize = d) := by
  have htrip := d.ofJson_toJson
  -- the trip leaves exactly those values alone that are their own normal form
  have hself : d.normalize = d ↔ d.Canonical :=
    Datum.ext_iff.trans Raw.normalize_eq_self_iff
  refine ⟨htrip, Raw.toJson_toSource d.wellKeyed, d.toValue_eq, ?_,
    d.canonical_normalize.normalize_eq, ?_⟩
  · rw [htrip]
    exact hself
  · constructor
    · -- what has been read is canonical, and a normal form is read from its own tree
      rintro ⟨j, -, rfl⟩
      exact (canonical_ofJson j).normalize_eq
    · intro h
      exact ⟨d.toJson, d.wellKeyed_toJson, htrip.trans h⟩

end FaultAction.Datum
