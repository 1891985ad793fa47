import FaultAction.Members

namespace FaultAction

/-!
# Named members — order, lookup and values

What `Members.adopt` and `Members.ofList` do to a list in name order:

* `get?_adopt`              — a name that has a value keeps it, and only the new name gains one;
* `ofList_of_ascending`     — a list in name order is left as it is;
* `Members.mapValues`       — a function on the values, which leaves names and order alone;
* `mapValues_ofList`        — it does not matter whether values are changed before or after a list
  is put in name order;
* `Dictionary.map`          — the same on finite maps;
* `eq_map_of_cons`, `iff_forall_of_cons`, `Members.eq_ofList_of_cons` — what a mutual function on
  lists is, once its equations are known.
-/

/-! ### Functions by recursion over a list -/

section

variable {α β : Type}

/-- A function `f` on lists that treats every element for itself by `g` is `List.map g`.  The two
    equations of a mutual definition are all that is asked for. -/
theorem eq_map_of_cons {f : List α → List β} {g : α → β} (hnil : f [] = [])
    (hcons : ∀ x xs, f (x :: xs) = g x :: f xs) (xs : List α) : f xs = xs.map g := by
  induction xs with
  | nil => exact hnil
  | cons x xs ih => rw [hcons, ih, List.map_cons]

/-- A property `p` of lists that asks every element for `q` holds exactly if `q` holds of each of
    them. -/
theorem iff_forall_of_cons {p : List α → Prop} {q : α → Prop} (hnil : p [])
    (hcons : ∀ x xs, p (x :: xs) ↔ q x ∧ p xs) {xs : List α} : p xs ↔ ∀ x ∈ xs, q x := by
  induction xs with
  | nil => exact iff_of_true hnil (fun _ h => nomatch h)
  | cons x xs ih => rw [hcons, ih, List.forall_mem_cons]

end

namespace Members

variable {α β γ : Type}

/-! ### Lookup -/

/-- A `key` below all names of `ms` has no value there, so `get?` finds nothing. -/
theorem get?_of_lt {key : String} {ms : Members α} (h : ∀ m ∈ ms, key < m.1) :
    get? key ms = none := by
  induction ms with
  | nil => rfl
  | cons head ms ih =>
    obtain ⟨k, v⟩ := head
    have hne : k ≠ key := by
      have hlt : key < k := h (k, v) (by simp)
      rintro rfl
      exact String.lt_irrefl k hlt
    rw [get?, if_neg hne]
    exact ih (fun m hm => h m (by simp [hm]))

/-- **Lookup after adopting.**  A name that has a value in `ms` keeps it under `adopt`; the name
    `key` takes the new value only when it had none. -/
theorem get?_adopt {key : String} {value : α} {ms : Members α} (h : Ascending ms)
    (name : String) :
    get? name (adopt key value ms) =
      (get? name ms).or (if key = name then some value else none) := by
  induction ms with
  | nil => simp [adopt, get?]
  | cons head ms ih =>
    obtain ⟨k, v⟩ := head
    rw [Ascending, List.pairwise_cons] at h
    simp only [adopt]
    split
    · next hlt =>
      -- `key` goes to the front, so nothing behind it can carry the same name.
      have hnone : get? key ((k, v) :: ms) = none := by
        refine get?_of_lt (fun m hm => ?_)
        rcases List.mem_cons.1 hm with rfl | hm
        · exact hlt
        · exact String.lt_trans hlt (h.1 m hm)
      rw [get?]
      by_cases hname : key = name
      · subst hname
        rw [if_pos rfl, hnone, if_pos rfl]
        rfl
      · rw [if_neg hname, if_neg hname, Option.or_none]
    · -- the names agree, so the member stays and the new value is dropped
      split
      · next heq =>
        rw [get?]
        by_cases hname : k = name
        · simp [hname]
        · have hkey : key ≠ name := fun he => hname (heq ▸ he)
          simp [hname, hkey]
      · -- the name is greater, so the member goes further back
        simp only [get?]
        by_cases hname : k = name
        · simp [hname]
        · rw [if_neg hname, if_neg hname]
          exact ih h.2

/-- There is no value under `key` exactly if no member of `ms` has this name. -/
theorem get?_eq_none_iff {key : String} {ms : Members α} :
    get? key ms = none ↔ ∀ m ∈ ms, m.1 ≠ key := by
  induction ms with
  | nil => simp [get?]
  | cons head ms ih =>
    obtain ⟨k, v⟩ := head
    by_cases hk : k = key <;> simp [get?, hk, ih]

/-- Under a `name` whose members are all kept, `ms` has the same value after others are filtered
    out. -/
theorem get?_filter {ms : Members α} {keep : String × α → Bool} {name : String}
    (h : ∀ m ∈ ms, m.1 = name → keep m = true) :
    get? name (ms.filter keep) = get? name ms := by
  induction ms with
  | nil => rfl
  | cons m ms ih =>
    have hrest := ih (fun n hn => h n (List.mem_cons_of_mem _ hn))
    by_cases hm : keep m = true
    · rw [List.filter_cons_of_pos hm, get?, get?, hrest]
    · have hne : m.1 ≠ name := fun he => hm (h m List.mem_cons_self he)
      rw [List.filter_cons_of_neg hm, get?, if_neg hne, hrest]

/-- What `get?` finds under `name` is a member of `ms`. -/
theorem mem_of_get? {ms : Members α} {name : String} {a : α}
    (h : get? name ms = some a) : (name, a) ∈ ms := by
  induction ms with
  | nil => cases h
  | cons m ms ih =>
    rw [get?] at h
    split at h
    · next he =>
      cases h
      rw [← he]
      exact List.mem_cons_self
    · exact List.mem_cons_of_mem _ (ih h)

/-- In a list in name order, a name has one value: that of any member with it is the value `a` that
    `get?` finds. -/
theorem eq_of_get? {ms : Members α} {name : String} {a : α}
    (hms : ms.Ascending) (h : get? name ms = some a) :
    ∀ m ∈ ms, m.1 = name → m.2 = a := by
  induction ms with
  | nil => exact fun _ hm => nomatch hm
  | cons m ms ih =>
    rw [Ascending, List.pairwise_cons] at hms
    rw [get?] at h
    intro n hn hname
    split at h
    · next he =>
      rcases List.mem_cons.1 hn with rfl | hn
      · exact Option.some.inj h
      · -- a later name is greater than that of the first member
        have hlt : m.1 < n.1 := hms.1 n hn
        rw [he, hname] at hlt
        exact absurd hlt (String.lt_irrefl name)
    · next hne =>
      rcases List.mem_cons.1 hn with rfl | hn
      · exact absurd hname hne
      · exact ih hms.2 h n hn hname

/-! ### Lists in name order -/

/-- A member with a name below all of `ms` goes to the front under `adopt`. -/
theorem adopt_of_lt {key : String} {value : α} {ms : Members α} (h : ∀ m ∈ ms, key < m.1) :
    adopt key value ms = (key, value) :: ms := by
  cases ms with
  | nil => rfl
  | cons head ms =>
    obtain ⟨k, v⟩ := head
    have hlt : key < k := h (k, v) (by simp)
    rw [adopt, if_pos hlt]

/-- A list that is in name order is left as it is by `ofList`. -/
theorem ofList_of_ascending {ms : Members α} (h : Ascending ms) : ofList ms = ms := by
  induction ms with
  | nil => rfl
  | cons head ms ih =>
    obtain ⟨k, v⟩ := head
    rw [Ascending, List.pairwise_cons] at h
    rw [ofList, ih h.2]
    exact adopt_of_lt h.1

/-! ### Values -/

/-- The members `ms` with the function `f` applied to their values. -/
def mapValues (f : α → β) (ms : Members α) : Members β := ms.map fun m => (m.1, f m.2)

@[simp] theorem mapValues_nil (f : α → β) : mapValues f [] = [] := rfl

@[simp] theorem mapValues_cons (f : α → β) (m : String × α) (ms : Members α) :
    mapValues f (m :: ms) = (m.1, f m.2) :: mapValues f ms := rfl

/-- Values may be changed by `f` and then by `g`, or by both at once. -/
theorem mapValues_mapValues (f : α → β) (g : β → γ) (ms : Members α) :
    mapValues g (mapValues f ms) = mapValues (fun a => g (f a)) ms := by
  simp [mapValues]

/-- Functions that agree on the values of `ms` change it alike. -/
theorem mapValues_congr {f g : α → β} {ms : Members α} (h : ∀ m ∈ ms, f m.2 = g m.2) :
    mapValues f ms = mapValues g ms := by
  refine List.map_congr_left (fun m hm => ?_)
  rw [h m hm]

/-- The list `ms` is left alone by `mapValues f` exactly if `f` leaves alone each of its values. -/
theorem mapValues_eq_self_iff {f : α → α} {ms : Members α} :
    mapValues f ms = ms ↔ ∀ m ∈ ms, f m.2 = m.2 := by
  induction ms with
  | nil => simp
  | cons m ms ih =>
    rw [mapValues_cons, List.cons.injEq, ih, List.forall_mem_cons]
    simp [Prod.ext_iff]

/-- Names ascend after `mapValues` exactly if they did before, as they are the same names. -/
theorem ascending_mapValues_iff {f : α → β} {ms : Members α} :
    Ascending (mapValues f ms) ↔ Ascending ms := by
  simp [Ascending, mapValues, List.pairwise_map]

/-- The function `adopt` looks at names only, so values may be changed by `f` before it or after. -/
theorem mapValues_adopt (f : α → β) (key : String) (value : α) (ms : Members α) :
    mapValues f (adopt key value ms) = adopt key (f value) (mapValues f ms) := by
  induction ms with
  | nil => rfl
  | cons head ms ih =>
    obtain ⟨k, v⟩ := head
    simp only [adopt, mapValues_cons]
    by_cases hlt : key < k
    · simp [hlt]
    · by_cases heq : key = k
      · simp [heq]
      · simp [hlt, heq, ih]

/-- Values may be changed by `f` before or after a list is put in name order. -/
theorem mapValues_ofList (f : α → β) (ms : List (String × α)) :
    mapValues f (ofList ms) = ofList (mapValues f ms) := by
  induction ms with
  | nil => rfl
  | cons head ms ih => rw [ofList, mapValues_adopt, ih]; rfl

/-- A function that adopts every member, with its value changed by `g`, puts the changed members in
    name order. -/
theorem eq_ofList_of_cons {f : List (String × α) → Members β} {g : α → β} (hnil : f [] = [])
    (hcons : ∀ m ms, f (m :: ms) = adopt m.1 (g m.2) (f ms)) (ms : List (String × α)) :
    f ms = ofList (mapValues g ms) := by
  induction ms with
  | nil => exact hnil
  | cons m ms ih => rw [hcons, ih, mapValues_cons, ofList]

end Members

namespace Dictionary

variable {α β : Type}

/-- The dictionary `d` with the function `f` applied to its values. -/
def map (f : α → β) (d : Dictionary α) : Dictionary β where
  entries := d.entries.mapValues f
  ascending := Members.ascending_mapValues_iff.2 d.ascending

@[simp] theorem map_entries (f : α → β) (d : Dictionary α) :
    (d.map f).entries = d.entries.mapValues f := rfl

end Dictionary

end FaultAction
