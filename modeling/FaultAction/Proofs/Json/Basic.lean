import FaultAction.Json
import FaultAction.Proofs.Members
import FaultAction.Proofs.Number.Rounding
import Mathlib.Data.List.Forall2

namespace FaultAction

/-!
# JSON trees — induction, order of names and equality

The mutual functions on elements and members are maps over them; with that said once, proofs about
trees need no mutual recursion:

* `Json.ind`              — induction over a tree with one hypothesis for the elements of an array
  and one for the members of an object;
* `sortKeys_of_wellKeyed` — sorting leaves a tree alone whose names ascend everywhere;
* `wellKeyed_sortKeys`    — and makes them ascend in any tree.

Trees are compared with their doubles as numbers, so that a negative zero equals a positive one:

* `iff_forall₂_of_cons`, `forall₂_iff_map_eq` — what a comparison of lists, element by element, is;
* `Binary64.plain`, `Json.plain`       — the number and the tree with every zero positive;
* `Binary64.sameNumber_iff`            — numbers are equal exactly if these are, and are no NaN;
* `Json.same`, `Json.same_iff`         — and trees are, whose numbers are all finite.
-/

/-! ### Induction -/

namespace Json

/-- Two JSON integers with the same `val` are equal. -/
theorem Integer.ext {m n : Integer} (h : m.val = n.val) : m = n := by
  cases m; cases n; cases h; rfl

/-- Induction over a tree `j`.  What is to be shown of an array is given for each of its elements,
    and of an object for the value of each of its members. -/
@[elab_as_elim, induction_eliminator]
theorem ind {motive : Json → Prop} (null : motive .null) (bool : ∀ b, motive (.bool b))
    (num : ∀ n, motive (.num n)) (str : ∀ s, motive (.str s))
    (arr : ∀ xs, (∀ x ∈ xs, motive x) → motive (.arr xs))
    (obj : ∀ ms : List (String × Json), (∀ m ∈ ms, motive m.2) → motive (.obj ms)) (j : Json) :
    motive j :=
  -- the recursor has a motive for each of the nested lists: all elements, or all values, have it
  @Json.rec motive (fun xs => ∀ x ∈ xs, motive x) (fun ms => ∀ m ∈ ms, motive m.2)
    (fun m => motive m.2) null bool num str arr obj
    (fun _ h => nomatch h) (fun _ _ hx hxs => List.forall_mem_cons.2 ⟨hx, hxs⟩)
    (fun _ h => nomatch h) (fun _ _ hm hms => List.forall_mem_cons.2 ⟨hm, hms⟩)
    (fun _ _ hv => hv) j

/-! ### The functions on elements and members -/

/-- Elements are `WellKeyedElems` exactly if each of them is `WellKeyed`. -/
theorem wellKeyedElems_iff {xs : List Json} :
    WellKeyedElems xs ↔ ∀ x ∈ xs, x.WellKeyed :=
  iff_forall_of_cons trivial (fun _ _ => Iff.rfl)

/-- Members are `WellKeyedMembers` exactly if each of their values is `WellKeyed`. -/
theorem wellKeyedMembers_iff {ms : List (String × Json)} :
    WellKeyedMembers ms ↔ ∀ m ∈ ms, m.2.WellKeyed :=
  iff_forall_of_cons trivial (fun _ _ => Iff.rfl)

/-- Written as a map, `sortElems` sorts every element of `xs` for itself. -/
theorem sortElems_eq (xs : List Json) : sortElems xs = xs.map sortKeys :=
  eq_map_of_cons rfl (fun _ _ => rfl) xs

/-- Written as a map over the values, `sortMembers` sorts each of them, and then puts the members in
    name order. -/
theorem sortMembers_eq (ms : List (String × Json)) :
    sortMembers ms = Members.ofList (Members.mapValues sortKeys ms) :=
  Members.eq_ofList_of_cons rfl (fun _ _ => rfl) ms

/-! ### Sorting -/

/-- A tree that is `WellKeyed` is left as it is by `sortKeys`. -/
theorem sortKeys_of_wellKeyed {j : Json} (h : j.WellKeyed) : j.sortKeys = j := by
  induction j with
  | null => rfl
  | bool b => rfl
  | num n => rfl
  | str s => rfl
  | arr xs ih =>
    have hxs : ∀ x ∈ xs, x.WellKeyed := wellKeyedElems_iff.1 h
    have heq : xs.map sortKeys = xs.map id := List.map_congr_left (fun x hx => ih x hx (hxs x hx))
    rw [sortKeys, sortElems_eq, heq, List.map_id]
  | obj ms ih =>
    obtain ⟨hasc, hms⟩ := h
    have heq : Members.mapValues sortKeys ms = ms :=
      Members.mapValues_eq_self_iff.2 (fun m hm => ih m hm (wellKeyedMembers_iff.1 hms m hm))
    rw [sortKeys, sortMembers_eq, heq, Members.ofList_of_ascending hasc]

/-- Values that are `WellKeyed` make such an object when their members `ms` are put in name
    order. -/
theorem wellKeyed_obj_ofList {ms : List (String × Json)} (h : ∀ m ∈ ms, m.2.WellKeyed) :
    (Json.obj (Members.ofList ms)).WellKeyed :=
  ⟨Members.ascending_ofList ms,
    wellKeyedMembers_iff.2 (fun m hm => h m (Members.mem_of_mem_ofList hm))⟩

/-- Every tree is `WellKeyed` after `sortKeys`, at any depth. -/
theorem wellKeyed_sortKeys (j : Json) : j.sortKeys.WellKeyed := by
  induction j with
  | null => trivial
  | bool b => trivial
  | num n => trivial
  | str s => trivial
  | arr xs ih =>
    rw [sortKeys, sortElems_eq]
    refine wellKeyedElems_iff.2 (fun x hx => ?_)
    obtain ⟨y, hy, rfl⟩ := List.mem_map.1 hx
    exact ih y hy
  | obj ms ih =>
    rw [sortKeys, sortMembers_eq]
    refine wellKeyed_obj_ofList (fun m hm => ?_)
    obtain ⟨n, hn, rfl⟩ := List.mem_map.1 hm
    exact ih n hn

end Json

/-! ### Lists compared element by element -/
section

variable {α β : Type}

/-- A comparison `f` of lists that compares the heads by `r` and then the tails holds exactly if `r`
    holds at each position and there are as many elements. -/
theorem iff_forall₂_of_cons {f : List α → List α → Bool} {r : α → α → Bool}
    (hnil : f [] [] = true) (hleft : ∀ x xs, f (x :: xs) [] = false)
    (hright : ∀ y ys, f [] (y :: ys) = false)
    (hcons : ∀ x xs y ys, f (x :: xs) (y :: ys) = (r x y && f xs ys)) {xs ys : List α} :
    f xs ys = true ↔ List.Forall₂ (fun x y => r x y = true) xs ys := by
  induction xs generalizing ys with
  | nil =>
    cases ys with
    | nil => exact iff_of_true hnil .nil
    | cons y ys => simp [hright]
  | cons x xs ih =>
    cases ys with
    | nil => simp [hleft]
    | cons y ys => rw [hcons, Bool.and_eq_true, ih, List.forall₂_cons]

/-- Relations that agree on the elements of `xs` and `ys` relate the two lists alike. -/
theorem forall₂_congr_of_mem {r s : α → β → Prop} {xs : List α} {ys : List β}
    (h : ∀ x ∈ xs, ∀ y ∈ ys, r x y ↔ s x y) : List.Forall₂ r xs ys ↔ List.Forall₂ s xs ys := by
  rw [List.forall₂_iff_zip, List.forall₂_iff_zip]
  refine and_congr_right (fun _ => forall₂_congr (fun x y => imp_congr_right (fun hzip => ?_)))
  obtain ⟨hx, hy⟩ := List.of_mem_zip hzip
  exact h x hx y hy

/-- If elements are related by `r` exactly when `g` makes the same of them and the left one has the
    property `p`, then lists are related exactly when `g` maps them to one list and `p` holds
    throughout the left one. -/
theorem forall₂_iff_map_eq {r : α → α → Prop} {g : α → β} {p : α → Prop} {xs ys : List α}
    (h : ∀ x ∈ xs, ∀ y, r x y ↔ g x = g y ∧ p x) :
    List.Forall₂ r xs ys ↔ xs.map g = ys.map g ∧ ∀ x ∈ xs, p x := by
  induction xs generalizing ys with
  | nil => cases ys <;> simp
  | cons x xs ih =>
    cases ys with
    | nil => simp
    | cons y ys =>
      have hrest : List.Forall₂ r xs ys ↔ xs.map g = ys.map g ∧ ∀ x ∈ xs, p x :=
        ih (fun z hz => h z (List.mem_cons_of_mem x hz))
      rw [List.forall₂_cons, h x List.mem_cons_self, hrest, List.map_cons, List.map_cons,
        List.cons.injEq, List.forall_mem_cons]
      exact and_and_and_comm

/-- The same as `forall₂_iff_map_eq` for members, which have names as well that must agree. -/
theorem forall₂_iff_mapValues_eq {r : α → α → Bool} {g : α → β} {p : α → Prop} {ms ns : Members α}
    (h : ∀ m ∈ ms, ∀ v, r m.2 v = true ↔ g m.2 = g v ∧ p m.2) :
    List.Forall₂ (fun m n => (decide (m.1 = n.1) && r m.2 n.2) = true) ms ns ↔
      Members.mapValues g ms = Members.mapValues g ns ∧ ∀ m ∈ ms, p m.2 := by
  refine forall₂_iff_map_eq ?_
  intro m hm n
  rw [Bool.and_eq_true, decide_eq_true_iff, h m hm, Prod.mk.injEq, and_assoc]

end

/-! ### Numbers -/

namespace Binary64

/-- The number `x` with a negative zero made positive. -/
def plain (x : Binary64) : Binary64 := if x.isZero then ofBits 0 else x

/-- A finite number stays finite under `plain`, and no other becomes so. -/
theorem isFinite_plain {x : Binary64} : x.plain.IsFinite ↔ x.IsFinite := by
  unfold plain
  split
  · next h =>
    -- both zeros have the exponent field zero
    refine iff_of_true (by decide) ?_
    simp only [isZero, Bool.and_eq_true, decide_eq_true_eq] at h
    simp [IsFinite, h.1]
  · exact Iff.rfl

/-- A NaN stays one under `plain`, and no number becomes one. -/
theorem isNaN_plain (x : Binary64) : x.plain.isNaN = x.isNaN := by
  unfold plain
  split
  · next h =>
    have hzero : (ofBits 0).isNaN = false := by decide
    simp only [isZero, Bool.and_eq_true, decide_eq_true_eq] at h
    rw [hzero, isNaN, h.1]
    rfl
  · rfl

/-- A finite number `x` is no NaN, which has all bits of its exponent set. -/
theorem isNaN_of_isFinite {x : Binary64} (h : x.IsFinite) : x.isNaN = false := by
  simp only [isNaN, Bool.and_eq_false_iff, decide_eq_false_iff_not]
  exact .inl h

/-- Two numbers `x` and `y` are equal exactly if they are up to the sign of zero, and are no NaN. -/
theorem sameNumber_iff {x y : Binary64} :
    x.sameNumber y = true ↔ x.plain = y.plain ∧ x.isNaN = false := by
  constructor
  · intro h
    simp only [sameNumber, Bool.and_eq_true, Bool.not_eq_true', Bool.or_eq_true,
      decide_eq_true_eq] at h
    obtain ⟨⟨hx, -⟩, rfl | ⟨hzero, hzero'⟩⟩ := h
    · -- equal fields, or two zeros, which both become the positive one
      exact ⟨rfl, hx⟩
    · exact ⟨by rw [plain, plain, if_pos hzero, if_pos hzero'], hx⟩
  · rintro ⟨hplain, hx⟩
    have hy : y.isNaN = false := by rw [← isNaN_plain, ← hplain, isNaN_plain, hx]
    have hzero : (ofBits 0).isZero = true := by decide
    simp only [sameNumber, hx, hy, Bool.not_false, Bool.true_and, Bool.or_eq_true,
      Bool.and_eq_true, decide_eq_true_eq]
    unfold plain at hplain
    -- a number that is positive zero is a zero
    by_cases hx' : x.isZero = true <;> by_cases hy' : y.isZero = true <;>
      simp only [hx', hy', if_true, if_false, Bool.false_eq_true] at hplain
    · exact .inr ⟨hx', hy'⟩
    · exact absurd (hplain ▸ hzero) hy'
    · exact absurd (hplain ▸ hzero) hx'
    · exact .inl hplain

end Binary64

/-! ### Trees -/

namespace Json

mutual

/-- Equality of trees with their members in name order.  An integer never equals a double, and
    doubles are compared by `Binary64.sameNumber`. -/
def same : Json → Json → Bool
  | .null, .null => true
  | .bool a, .bool b => a = b
  | .num (.int m), .num (.int n) => m = n
  | .num (.float x _), .num (.float y _) => x.sameNumber y
  | .str s, .str t => s = t
  | .arr xs, .arr ys => sameElems xs ys
  | .obj ms, .obj ns => sameMembers ms ns
  | _, _ => false
termination_by structural j => j

/-- Equality of arrays, element by element by `same`. -/
def sameElems : List Json → List Json → Bool
  | [], [] => true
  | x :: xs, y :: ys => x.same y && sameElems xs ys
  | _, _ => false
termination_by structural xs => xs

/-- Equality of objects, member by member: the same names with values that are `same`. -/
def sameMembers : List (String × Json) → List (String × Json) → Bool
  | [], [] => true
  | (k, v) :: ms, (l, w) :: ns => k = l && v.same w && sameMembers ms ns
  | _, _ => false
termination_by structural ms => ms

end

mutual

/-- The tree with every zero positive, at any depth, as `Binary64.plain` makes a number. -/
def plain : Json → Json
  | .num (.float x h) => .num (.float x.plain (Binary64.isFinite_plain.2 h))
  | .arr xs => .arr (plainElems xs)
  | .obj ms => .obj (plainMembers ms)
  | j => j
termination_by structural j => j

/-- The elements of an array under `plain`, each at its own position. -/
def plainElems : List Json → List Json
  | [] => []
  | x :: xs => x.plain :: plainElems xs
termination_by structural xs => xs

/-- The members of an object, each value under `plain` with its own name. -/
def plainMembers : List (String × Json) → List (String × Json)
  | [] => []
  | (k, v) :: ms => (k, v.plain) :: plainMembers ms
termination_by structural ms => ms

end

/-- Every element of an array is changed for itself by `plain`. -/
theorem plainElems_eq (xs : List Json) : plainElems xs = xs.map plain :=
  eq_map_of_cons rfl (fun _ _ => rfl) xs

/-- Every value of an object is changed for itself by `plain`. -/
theorem plainMembers_eq (ms : List (String × Json)) :
    plainMembers ms = Members.mapValues plain ms :=
  eq_map_of_cons rfl (fun _ _ => rfl) ms

/-- Arrays are equal by `sameElems` exactly if their elements are, position by position. -/
theorem sameElems_iff {xs ys : List Json} :
    sameElems xs ys = true ↔ List.Forall₂ (fun x y => x.same y = true) xs ys :=
  iff_forall₂_of_cons rfl (fun _ _ => rfl) (fun _ _ => rfl) (fun _ _ _ _ => rfl)

/-- Objects are equal by `sameMembers` exactly if their names and values are, position by
    position. -/
theorem sameMembers_iff {ms ns : List (String × Json)} :
    sameMembers ms ns = true ↔
      List.Forall₂ (fun m n => (decide (m.1 = n.1) && m.2.same n.2) = true) ms ns :=
  iff_forall₂_of_cons rfl (fun _ _ => rfl) (fun _ _ => rfl) (fun _ _ _ _ => rfl)

/-- Trees `j` and `k` are equal exactly if they are up to the signs of zeros: no number of a tree is
    a NaN, so unlike with dynamic values nothing else is asked. -/
theorem same_iff {j k : Json} : j.same k = true ↔ j.plain = k.plain := by
  induction j generalizing k with
  | null | bool | str => rcases k with _ | _ | (_ | _) | _ | _ | _ <;> simp [same, plain]
  | num n =>
    rcases n with m | ⟨x, hx⟩
    · rcases k with _ | _ | (_ | _) | _ | _ | _ <;> simp [same, plain]
    · -- a double of a tree is finite, and so no NaN
      have hnan : x.isNaN = false := Binary64.isNaN_of_isFinite hx
      rcases k with _ | _ | (_ | _) | _ | _ | _ <;>
        simp [same, plain, Binary64.sameNumber_iff, hnan]
  | arr xs ih =>
    have helems : ∀ ys, sameElems xs ys = true ↔ xs.map plain = ys.map plain := by
      intro ys
      have hforall : List.Forall₂ (fun x y => x.same y = true) xs ys ↔
          xs.map plain = ys.map plain ∧ ∀ x ∈ xs, True :=
        forall₂_iff_map_eq (fun x hx y => by rw [ih x hx, and_true])
      rw [sameElems_iff, hforall]
      exact and_iff_left (fun _ _ => trivial)
    rcases k with _ | _ | (_ | _) | _ | ys | _ <;> simp [same, plain, plainElems_eq, helems]
  | obj ms ih =>
    have hmembers : ∀ ns, sameMembers ms ns = true ↔
        Members.mapValues plain ms = Members.mapValues plain ns := by
      intro ns
      rw [sameMembers_iff, forall₂_iff_mapValues_eq (g := plain) (p := fun _ => True)
        (fun m hm v => by rw [ih m hm, and_true])]
      exact and_iff_left (fun _ _ => trivial)
    rcases k with _ | _ | (_ | _) | _ | _ | ns <;> simp [same, plain, plainMembers_eq, hmembers]

end Json

end FaultAction
