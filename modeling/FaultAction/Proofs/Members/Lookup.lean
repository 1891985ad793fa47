import FaultAction.Proofs.Members
import Mathlib.Data.List.Sort

namespace FaultAction

/-!
# Named members — what is found under a name

A list in name order is determined by what is found under each name, and this is how its changes are
described.  Where later elements of a list replace earlier ones, the last one counts that has
anything to say:

* `latest?`              — what a function makes of the last element that it makes anything of;
* `latest?_cons`, `latest?_append` — the later part of a list goes before the earlier one;
* `latest?_filter`       — elements that say nothing may be left out;
* `get?_foldl`           — what is left by steps that each replace something or leave it alone;
* `Members.last?`        — the last value under a name, in a list in any order;
* `Members.get?_ofList`  — a list put in name order has under each name the last value of it;
* `Members.get?_insert`  — writing changes what is under one name;
* `Members.mem_iff_get?`, `Members.ext_get?` — a list in name order has no other members than those
  that are found, so two that give the same for every name are equal;
* `Dictionary.ext_get?`  — and so are two dictionaries.
-/

/-! ### The last element that counts -/

section

variable {α β : Type} {f : α → Option β} {xs : List α}

/-- What `f` makes of the last element of `xs` that it makes anything of. -/
def latest? (f : α → Option β) (xs : List α) : Option β := (xs.filterMap f).getLast?

/-- Of two lists in a row, the second one counts, and the first one only if `f` makes nothing of any
    element of the second. -/
theorem latest?_append (xs ys : List α) :
    latest? f (xs ++ ys) = (latest? f ys).or (latest? f xs) := by
  rw [latest?, List.filterMap_append, List.getLast?_append]
  rfl

/-- The first element `x` counts only when no later one does. -/
theorem latest?_cons (x : α) (xs : List α) : latest? f (x :: xs) = (latest? f xs).or (f x) := by
  rw [latest?, List.filterMap_cons]
  cases f x with
  | none => exact Option.or_none.symm
  | some b =>
    rw [Option.or_some]
    exact List.getLast?_cons

/-- There is no such element exactly if `f` makes nothing of any element of `xs`. -/
theorem latest?_eq_none_iff : latest? f xs = none ↔ ∀ x ∈ xs, f x = none := by
  rw [latest?, List.getLast?_eq_none_iff, List.filterMap_eq_nil_iff]

/-- Elements may be filtered out of `xs` if `f` makes nothing of them: the one that counts stays. -/
theorem latest?_filter {keep : α → Bool} (h : ∀ x ∈ xs, keep x = false → f x = none) :
    latest? f (xs.filter keep) = latest? f xs := by
  induction xs with
  | nil => rfl
  | cons x xs ih =>
    have hrest := ih (fun y hy => h y (List.mem_cons_of_mem _ hy))
    by_cases hx : keep x = true
    · rw [List.filter_cons_of_pos hx, latest?_cons, latest?_cons, hrest]
    · have hnone : f x = none := h x List.mem_cons_self (Bool.eq_false_iff.2 hx)
      rw [List.filter_cons_of_neg hx, latest?_cons, hnone, Option.or_none, hrest]

/-- After steps that each put something in place of what `g` sees, or leave it alone, `g` sees what
    the last of them has put, or else what was there before. -/
theorem get?_foldl {σ : Type} {step : σ → α → σ} {g : σ → Option β}
    (hstep : ∀ s x, g (step s x) = (f x).or (g s)) (s : σ) (xs : List α) :
    g (xs.foldl step s) = (latest? f xs).or (g s) := by
  induction xs generalizing s with
  | nil => rfl
  | cons x xs ih => rw [List.foldl_cons, ih, hstep, latest?_cons, Option.or_assoc]

end

/-! ### What is found under a name -/

namespace Members

variable {α β : Type} {ms : Members α}

/-- The value of the member `m`, if it has the `name`. -/
def valueUnder (name : String) (m : String × α) : Option α := if m.1 = name then some m.2 else none

/-- The last value under `name` in a list of members in any order. -/
def last? (name : String) (ms : List (String × α)) : Option α := latest? (valueUnder name) ms

/-- There is no last value under `name` exactly if no member of `ms` has this name. -/
theorem last?_eq_none_iff {name : String} {ms : List (String × α)} :
    last? name ms = none ↔ name ∉ keys ms := by
  rw [last?, latest?_eq_none_iff, keys, List.mem_map, not_exists]
  refine forall_congr' (fun m => ?_)
  by_cases hm : m.1 = name <;> simp [valueUnder, hm]

/-- There is no value under `name` exactly if it is not among the names of `ms`. -/
theorem get?_eq_none_iff_not_mem {name : String} : get? name ms = none ↔ name ∉ keys ms := by
  rw [get?_eq_none_iff, keys, List.mem_map, not_exists]
  exact forall_congr' (fun m => not_and.symm)

/-! ### Changes -/

/-- **Lookup after ordering.**  The list `ofList ms` has under each name the last value that `ms`
    had under it. -/
theorem get?_ofList (name : String) (ms : List (String × α)) :
    get? name (ofList ms) = last? name ms := by
  induction ms with
  | nil => rfl
  | cons m ms ih =>
    rw [ofList, get?_adopt (ascending_ofList ms), ih, last?, last?, latest?_cons]
    rfl

/-- **Lookup after writing.**  After `insert key value ms` the name `key` has the new value, and
    every other name what it had. -/
theorem get?_insert (key : String) (value : α) (ms : Members α) (name : String) :
    get? name (insert key value ms) = if key = name then some value else get? name ms := by
  induction ms with
  | nil => rfl
  | cons m ms ih =>
    obtain ⟨k, v⟩ := m
    simp only [insert]
    split
    · rfl
    · split
      · next heq =>
        -- the old value of the name is found no more
        subst heq
        by_cases hname : key = name <;> simp [get?, hname]
      · next hne =>
        by_cases hname : key = name
        · subst hname
          simp [get?, ih, Ne.symm hne]
        · simp [get?, ih, hname]

/-- The same as `get?_insert`, with the write as a list of one member that goes before `ms`, as
    `get?_foldl` wants it. -/
theorem get?_insert_eq_or (key : String) (value : α) (ms : Members α) (name : String) :
    get? name (insert key value ms) = (valueUnder name (key, value)).or (get? name ms) := by
  rw [get?_insert, valueUnder]
  split <;> rfl

/-- A function `f` applied to all values of `ms` is applied to what is found. -/
theorem get?_mapValues (f : α → β) (ms : Members α) (name : String) :
    get? name (mapValues f ms) = (get? name ms).map f := by
  induction ms with
  | nil => rfl
  | cons m ms ih =>
    rw [mapValues_cons, get?, get?, ih]
    split <;> rfl

/-! ### Lists in name order -/

/-- In a list `ms` in name order no name occurs twice. -/
theorem nodup_keys (h : ms.Ascending) : (keys ms).Nodup := by
  refine List.pairwise_map.2 (h.imp (fun hlt => ?_))
  intro heq
  rw [heq] at hlt
  exact String.lt_irrefl _ hlt

/-- The members of a list in name order are just what `get?` finds under their names. -/
theorem mem_iff_get? (h : ms.Ascending) {name : String} {value : α} :
    (name, value) ∈ ms ↔ get? name ms = some value := by
  constructor
  · intro hmem
    cases hget : get? name ms with
    | none => exact absurd rfl (get?_eq_none_iff.1 hget _ hmem)
    | some a => exact congrArg some (eq_of_get? h hget _ hmem rfl).symm
  · exact mem_of_get?

/-- Two lists in name order are equal if `get?` gives the same for every name. -/
theorem ext_get? {ms ms' : Members α} (h : ms.Ascending) (h' : ms'.Ascending)
    (hget : ∀ name, get? name ms = get? name ms') : ms = ms' := by
  have : Std.Antisymm fun a b : String × α => a.1 < b.1 :=
    ⟨fun _ _ hab hba => absurd hba (String.lt_asymm hab)⟩
  have : Std.Irrefl fun a b : String × α => a.1 < b.1 := ⟨fun a => String.lt_irrefl a.1⟩
  -- lists in order are equal once they have the same members
  refine h.eq_of_mem_iff h' ?_
  rintro ⟨name, value⟩
  rw [mem_iff_get? h, mem_iff_get? h', hget]

end Members

/-- Dictionaries `a` and `b` that give the same for every name are equal. -/
theorem Dictionary.ext_get? {α : Type} {a b : Dictionary α}
    (h : ∀ name, a.get? name = b.get? name) : a = b :=
  Dictionary.ext (Members.ext_get? a.ascending b.ascending h)

end FaultAction
