import FaultAction.Proofs.Datum.Equality
import FaultAction.Proofs.State.NormalForm
import FaultAction.Proofs.State.TextSize

namespace FaultAction

/-!
# The state of an action — equality

States are equal exactly if their entries are, as maps of dynamic values:

* `ActionState.beq_eq_same`  — equality of states is equality of their values;
* `PartialEquality`          — the laws of an equality that compares doubles as numbers, and what
  equal things have in common;
* `PartialEquality.of_value` — they follow from the equality of dynamic values;
* `equality_partial`         — so dynamic values and states have them, with maps compared by looking
  up the keys of one in the other.
-/

namespace ActionState

/-- Entries `es` and `fs` of two states are equal exactly if they are equal as entries of a map of
    dynamic values. -/
theorem entries_beq_eq (es fs : List (String × Datum)) :
    (es == fs) =
      Datum.Raw.sameEntries (Members.mapValues Datum.raw es) (Members.mapValues Datum.raw fs) := by
  induction es generalizing fs with
  | nil => cases fs <;> rfl
  | cons e es ih =>
    cases fs with
    | nil => rfl
    | cons f fs =>
      rw [Members.mapValues_cons, Members.mapValues_cons, Datum.Raw.sameEntries, ← ih]
      rfl

/-- States `s` and `t` are equal exactly if they are `same` as dynamic values. -/
theorem beq_eq_same (s t : ActionState) : (s == t) = s.toDatum.raw.same t.toDatum.raw :=
  entries_beq_eq s.entries.entries t.entries.entries

end ActionState

/-! ### The laws -/

/-- An equality that compares doubles as numbers, on a type whose elements are dynamic values
    (`value`) with an estimate (`size`) and a tree (`tree`), from which they are read (`back`). -/
structure PartialEquality (α : Type) [BEq α] (value : α → Datum.Raw) (size : α → Nat)
    (tree : α → Json) (back : α → Except ReadError α) : Prop where
  symm : ∀ a b : α, (a == b) = true → (b == a) = true
  trans : ∀ a b c : α, (a == b) = true → (b == c) = true → (a == c) = true
  /-- What equals itself is that which has no NaN at the end of any `path`. -/
  refl_iff : ∀ a : α, (a == a) = true ↔
    ∀ path x, (value a).at? path = some (.double x) → x.isNaN = false
  /-- Where a `path` leads in `a`, it leads to a value of the same `kind` in `b`. -/
  kind_eq : ∀ a b : α, (a == b) = true → ∀ path,
    ((value a).at? path).map Datum.Raw.kind = ((value b).at? path).map Datum.Raw.kind
  size_eq : ∀ a b : α, (a == b) = true → size a = size b
  /-- The trees of `a` and `b` are equal, again with doubles compared as numbers. -/
  tree_same : ∀ a b : α, (a == b) = true → (tree a).same (tree b) = true
  /-- What is read back from the trees of `a` and `b` is equal as well. -/
  back_beq : ∀ a b : α, (a == b) = true →
    ∃ a' b', back a = .ok a' ∧ back b = .ok b' ∧ (a' == b') = true

/-- The laws hold of every type whose equality, `size` and `tree` are those of the dynamic values,
    if the `value` of what is read back is the normal form. -/
theorem PartialEquality.of_value {α : Type} [BEq α] {value : α → Datum.Raw} {size : α → Nat}
    {tree : α → Json} {back : α → Except ReadError α} (hkeys : ∀ a, (value a).WellKeyed)
    (hbeq : ∀ a b, (a == b) = (value a).same (value b)) (hsize : ∀ a, size a = (value a).size)
    (htree : ∀ a, tree a = (value a).toJson)
    (hback : ∀ a, ∃ a', back a = .ok a' ∧ value a' = (value a).normalize) :
    PartialEquality α value size tree back where
  symm a b h := by
    rw [hbeq] at h ⊢
    exact Datum.Raw.symm_of_same (hkeys a) (hkeys b) h
  trans a b c h h' := by
    rw [hbeq] at h h' ⊢
    exact Datum.Raw.trans_of_same (hkeys a) (hkeys b) h h'
  refl_iff a := by
    rw [hbeq]
    exact Datum.Raw.same_self_iff (hkeys a)
  kind_eq a b h := by
    rw [hbeq] at h
    exact Datum.Raw.kind_at?_eq_of_same (hkeys a) h
  size_eq a b h := by
    rw [hbeq] at h
    rw [hsize, hsize, Datum.Raw.size_eq_of_same (hkeys a) h]
  tree_same a b h := by
    rw [hbeq] at h
    rw [htree, htree]
    exact Datum.Raw.same_toJson_of_same (hkeys a) h
  back_beq a b h := by
    obtain ⟨a', ha', hvalue⟩ := hback a
    obtain ⟨b', hb', hvalue'⟩ := hback b
    rw [hbeq] at h
    refine ⟨a', b', ha', hb', ?_⟩
    rw [hbeq, hvalue, hvalue']
    exact Datum.Raw.same_normalize_of_same (hkeys a) h

/-- **Equality.**  Equality of dynamic values and of states looks up in the right map each key of
    the left one, and still it is a `PartialEquality`: symmetric and transitive.  What equals itself
    has no NaN inside.  Equal things are of one kind at every path, and have the same estimate;
    their trees are equal, and so is what is read back from these. -/
theorem equality_partial :
    (∀ a b : Datum, (a == b) = a.raw.sameByLookup b.raw) ∧
      (∀ s t : ActionState, (s == t) = s.toDatum.raw.sameByLookup t.toDatum.raw) ∧
      PartialEquality Datum Datum.raw Datum.size Datum.toJson
        (fun d => .ok (Datum.ofJson d.toJson)) ∧
      PartialEquality ActionState (fun s => s.toDatum.raw) ActionState.size Wire.toValue
        (fun s => Wire.read (Wire.toValue s)) := by
  -- keys ascend in values and states alike, and then both ways to compare agree
  refine ⟨?_, ?_, ?_, ?_⟩
  · intro a b
    exact (Datum.Raw.sameByLookup_eq_same a.wellKeyed b.wellKeyed).symm
  · intro s t
    rw [s.beq_eq_same]
    exact (Datum.Raw.sameByLookup_eq_same s.toDatum.wellKeyed t.toDatum.wellKeyed).symm
  · refine .of_value Datum.wellKeyed (fun _ _ => rfl) (fun _ => rfl) (fun _ => rfl) (fun d => ?_)
    exact ⟨Datum.ofJson d.toJson, rfl, congrArg Datum.raw d.ofJson_toJson⟩
  · refine .of_value (fun s => s.toDatum.wellKeyed) ActionState.beq_eq_same
      (fun s => s.size_eq_entriesSize) (fun s => s.toValue_eq) (fun s => ?_)
    exact ⟨s.normalize, s.readsBack, congrArg Datum.raw s.toDatum_normalize⟩

/-- The states `s` and `t` differ in the order of writing and in the sign of a zero, and yet are
    equal, while two integers of one value and different widths are not. -/
theorem equality_partial_zeros :
    let zero : Binary64 := .ofBits 0
    let s : ActionState := .ofList [("x", .double zero), ("n", .int 5)]
    let t : ActionState := .ofList [("n", .int 5), ("x", .double { zero with negative := true })]
    (s == t) = true ∧ (t == s) = true ∧ s.size = t.size ∧
      (Wire.toValue s).same (Wire.toValue t) = true ∧ ¬(Datum.int 5 == .long 5) = true := by
  intro zero s t
  obtain ⟨-, -, hdatum, hstate⟩ := equality_partial
  have heq : (s == t) = true := by decide
  have hwidth : ¬(Datum.int 5 == .long 5) = true := by
    intro h
    have hkind := hdatum.kind_eq _ _ h []
    cases hkind
  exact ⟨heq, hstate.symm s t heq, hstate.size_eq s t heq, hstate.tree_same s t heq, hwidth⟩

end FaultAction
