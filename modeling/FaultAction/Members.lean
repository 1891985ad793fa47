namespace FaultAction

/-!
# Named members — lists of named values

The common form of JSON objects, maps and states is a list of named values in name order:

* `Members.get?`      — the first value under a name;
* `Members.insert`    — writes a value in name order, replacing one of the same name;
* `Members.adopt`     — the same, but a name that has a value keeps it;
* `Members.ofList`    — the members of a list in name order, a later one winning over an earlier one
  of the same name;
* `Members.Ascending` — names strictly ascend, by code points, so each occurs once;
* `Dictionary`        — such a list together with the proof that its names ascend.
-/

/-- Values of the type `α` under names, in the order of the list. -/
abbrev Members (α : Type) := List (String × α)

namespace Members

variable {α : Type}

/-- The names of the members `ms`, in their order. -/
def keys (ms : Members α) : List String := ms.map (·.1)

/-- The first value under the name `key`, if there is one. -/
def get? (key : String) : Members α → Option α
  | [] => none
  | (k, v) :: ms => if k = key then some v else get? key ms

/-- Writes `value` under the name `key`: in place of the value that the name has, otherwise in front
    of the first greater name. -/
def insert (key : String) (value : α) : Members α → Members α
  | [] => [(key, value)]
  | (k, v) :: ms =>
    if key < k then (key, value) :: (k, v) :: ms
    else if key = k then (key, value) :: ms
    else (k, v) :: insert key value ms

/-- Writes `value` under the name `key` as `insert` does, but only if the name has no value yet. -/
def adopt (key : String) (value : α) : Members α → Members α
  | [] => [(key, value)]
  | (k, v) :: ms =>
    if key < k then (key, value) :: (k, v) :: ms
    else if key = k then (k, v) :: ms
    else (k, v) :: adopt key value ms

/-- The members of a list in name order.  The list is put in from its end, and `adopt` lets the
    later one of two members of one name count. -/
def ofList : List (String × α) → Members α
  | [] => []
  | (k, v) :: ms => adopt k v (ofList ms)

/-- The names of `ms` strictly ascend, so that none occurs twice and `get?` finds the only value
    there is. -/
def Ascending (ms : Members α) : Prop := ms.Pairwise fun a b => a.1 < b.1

instance (ms : Members α) : Decidable ms.Ascending :=
  inferInstanceAs (Decidable (List.Pairwise _ _))

/-! ### Names of a changed list -/

/-- A member `m` after `insert` is the one that was written, or it was there before. -/
theorem mem_insert {key : String} {value : α} {ms : Members α} {m : String × α}
    (h : m ∈ insert key value ms) : m = (key, value) ∨ m ∈ ms := by
  induction ms with
  | nil => simpa [insert] using h
  | cons head ms ih => grind [insert]

/-- A member `m` after `adopt` is the one that was adopted, or it was there before. -/
theorem mem_adopt {key : String} {value : α} {ms : Members α} {m : String × α}
    (h : m ∈ adopt key value ms) : m = (key, value) ∨ m ∈ ms := by
  induction ms with
  | nil => simpa [adopt] using h
  | cons head ms ih => grind [adopt]

/-- The names stay ascending under `insert`: the new member goes in front of the first greater name,
    and every name before that is smaller. -/
theorem ascending_insert {key : String} {value : α} {ms : Members α} (h : Ascending ms) :
    Ascending (insert key value ms) := by
  induction ms with
  | nil => simp [insert, Ascending]
  | cons head ms ih =>
    obtain ⟨k, v⟩ := head
    rw [Ascending, List.pairwise_cons] at h
    simp only [insert]
    split
    · -- the new name is below the first one, and so below all others
      next hlt =>
      refine List.pairwise_cons.2 ⟨fun m hm => ?_, List.pairwise_cons.2 h⟩
      rcases List.mem_cons.1 hm with rfl | hm
      · exact hlt
      · exact String.lt_trans hlt (h.1 m hm)
    · -- the new name is the first one, or it is greater and goes further back
      split
      · next heq => exact List.pairwise_cons.2 ⟨fun m hm => heq ▸ h.1 m hm, h.2⟩
      · refine List.pairwise_cons.2 ⟨fun m hm => ?_, ih h.2⟩
        rcases mem_insert hm with rfl | hm
        · grind
        · exact h.1 m hm

/-- The names stay ascending under `adopt`, for the same reason as under `insert`. -/
theorem ascending_adopt {key : String} {value : α} {ms : Members α} (h : Ascending ms) :
    Ascending (adopt key value ms) := by
  induction ms with
  | nil => simp [adopt, Ascending]
  | cons head ms ih =>
    obtain ⟨k, v⟩ := head
    rw [Ascending, List.pairwise_cons] at h
    simp only [adopt]
    split
    · next hlt =>
      refine List.pairwise_cons.2 ⟨fun m hm => ?_, List.pairwise_cons.2 h⟩
      rcases List.mem_cons.1 hm with rfl | hm
      · exact hlt
      · exact String.lt_trans hlt (h.1 m hm)
    · split
      · exact List.pairwise_cons.2 h
      · refine List.pairwise_cons.2 ⟨fun m hm => ?_, ih h.2⟩
        rcases mem_adopt hm with rfl | hm
        · -- a name that `ms` has already is kept, so `key` is none of them
          grind
        · exact h.1 m hm

/-- The names ascend after `ofList`, whatever list it was, since each member is put in by
    `adopt`. -/
theorem ascending_ofList (ms : List (String × α)) : Ascending (ofList ms) := by
  induction ms with
  | nil => exact List.Pairwise.nil
  | cons head ms ih => exact ascending_adopt ih

/-- Every member of `ofList ms` is one of `ms`: putting a list in name order makes up no member. -/
theorem mem_of_mem_ofList {ms : List (String × α)} {m : String × α} (h : m ∈ ofList ms) :
    m ∈ ms := by
  induction ms with
  | nil => exact h
  | cons head ms ih =>
    rcases mem_adopt h with rfl | h
    · exact List.mem_cons_self
    · exact List.mem_cons_of_mem _ (ih h)

end Members

/-- A finite map from names to values of the type `α`: its `entries` have each name once, in
    ascending order. -/
structure Dictionary (α : Type) where
  entries : Members α
  ascending : entries.Ascending
  deriving DecidableEq

namespace Dictionary

variable {α : Type}

/-- Two dictionaries with the same `entries` are equal, since the proof that names ascend does not
    count. -/
@[ext] theorem ext {a b : Dictionary α} (h : a.entries = b.entries) : a = b := by
  cases a; cases b; cases h; rfl

/-- The `empty` dictionary has no entries. -/
def empty : Dictionary α := ⟨[], List.Pairwise.nil⟩

instance : Inhabited (Dictionary α) := ⟨empty⟩

/-- The dictionary of a list of entries; of two entries of one name the later one counts, as in
    `Members.ofList`. -/
def ofList (entries : List (String × α)) : Dictionary α :=
  ⟨Members.ofList entries, Members.ascending_ofList entries⟩

/-- The value of `d` under the name `key`, if it has one. -/
def get? (d : Dictionary α) (key : String) : Option α := d.entries.get? key

/-- The dictionary `d` with `value` under the name `key`, in place of the value that the name
    had. -/
def insert (d : Dictionary α) (key : String) (value : α) : Dictionary α :=
  ⟨d.entries.insert key value, Members.ascending_insert d.ascending⟩

end Dictionary

end FaultAction
