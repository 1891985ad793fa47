import FaultAction.Proofs.Wire.Records

namespace FaultAction

/-!
# Values on the wire — reading again what was read

Readers take more trees than writers make: arrays for records, null for what is absent, names
that no field has.  What they give does not show it any more:

* `Wire.Stable α`        — what is read from any tree is read back as itself from its own;
* `Field.Stable`, `Schema.Stable` — the same for the fields of a record, one by one;
* `RecordFormat.stable`  — a record is stable if its fields are, whether it was read from an object
  or from an array.

A field gets its value from a tree, or from what stands for a missing member (`Field.Gives`).  That
is all a reader of records can put into one (`gives_of_collect`, `gives_of_takeElems`), so it is
enough to look at fields.
-/

namespace Wire

/-- What is read as a value of the type `α`, from any tree, is read back as itself. -/
class Stable (α : Type) [Wire α] : Prop where
  readsBack_of_read : ∀ {j : Json} {a : α}, read j = .ok a → ReadsBack a a

/-! ### Plain types -/

instance : Stable String := ⟨fun _ => readsBack_string _⟩

instance : Stable Bool := ⟨fun _ => readsBack_bool _⟩

instance : Stable Binary64 := ⟨fun h => readsBack_double (isFinite_of_read h)⟩

/-! ### Containers -/

section

variable {α : Type} [Wire α] [Stable α]

instance : Stable (List α) where
  readsBack_of_read := by
    intro j as h
    cases j with
    | arr xs =>
      apply readsBack_list_self
      intro a ha
      obtain ⟨x, hx⟩ := exists_tree_of_mem h a ha
      exact Stable.readsBack_of_read hx
    | null | bool | num | str | obj => cases h

instance : Stable (Dictionary α) where
  readsBack_of_read := by
    intro j d h
    cases j with
    | obj ms =>
      obtain ⟨es, hes, rfl⟩ := map_eq_ok_iff.1 h
      apply readsBack_dictionary_self
      intro e he
      -- an entry is one of those that were read, for the map is a choice of them
      have hmem : e ∈ es := Members.mem_of_mem_ofList he
      obtain ⟨x, hx⟩ := exists_tree_of_mem_members hes e hmem
      exact Stable.readsBack_of_read hx
    | null | bool | num | str | arr => cases h

instance [NeverNull α] : Stable (Option α) where
  readsBack_of_read := by
    intro j o h
    cases o with
    | none => rfl
    | some a => exact readsBack_some (Stable.readsBack_of_read (read_of_read_some h))

end

end Wire

/-! ### Fields -/

namespace Field

variable {α : Type}

/-- A value `a` that a reader can put into the field `f`: from a tree, or for want of one. -/
def Gives (f : Field α) (a : α) : Prop :=
  (∃ j, f.read j = .ok a) ∨ f.missing = some a ∨ f.short = some a

/-- What a reader can put into the field `f` is read back as itself. -/
def Stable (f : Field α) : Prop := ∀ a, f.Gives a → f.ReadsBack a a

section

variable [Wire α] [Wire.Stable α] {name : String}

/-- A required field is stable if its type `α` is. -/
theorem stable_required : (required name : Field α).Stable := by
  intro a h
  rcases h with ⟨j, hj⟩ | h | h
  · exact readsBack_required (Wire.Stable.readsBack_of_read hj)
  · cases h
  · cases h

/-- An optional field is stable if its type `α` is and null cannot be mistaken for a value. -/
theorem stable_optional [Wire.NeverNull α] : (optional name : Field (Option α)).Stable := by
  intro o h
  rcases h with ⟨j, hj⟩ | h | h
  · apply readsBack_optional_self
    intro a ha
    subst ha
    exact Wire.Stable.readsBack_of_read (Wire.read_of_read_some hj)
  · cases h
    rfl
  · cases h

/-- A field with a `default` is stable if its type `α` is and the default is read back as itself. -/
theorem stable_defaulted [Wire.NeverNull α] {default : α}
    (hdefault : Wire.ReadsBack default default) : (defaulted name default).Stable := by
  intro a h
  rcases h with ⟨j, hj⟩ | h | h
  · obtain ⟨o, ho, rfl⟩ := map_eq_ok_iff.1 hj
    -- null has been read as the default, anything else as the value it is
    cases o with
    | none => exact readsBack_defaulted hdefault
    | some b =>
      exact readsBack_defaulted (Wire.Stable.readsBack_of_read (Wire.read_of_read_some ho))
  · cases h
    exact readsBack_defaulted hdefault
  · cases h
    exact readsBack_defaulted hdefault

end

end Field

/-! ### Schemas -/

namespace Schema

/-- Every value of the row can be put into its field by a reader, as `Field.Gives` says. -/
def Gives : {αs : List Type} → Schema αs → Row αs → Prop
  | _, .nil, _ => True
  | _, .cons f fs, (a, as) => f.Gives a ∧ fs.Gives as

/-- Every field of the schema is `Field.Stable`. -/
def Stable : {αs : List Type} → Schema αs → Prop
  | _, .nil => True
  | _, .cons f fs => f.Stable ∧ fs.Stable

variable {αs : List Type}

/-- What is collected from the members `ms` of an object can be put into the fields. -/
theorem gives_of_collect (s : Schema αs) {ms : Members Json} {row : Row αs}
    (h : s.collect ms = .ok row) : s.Gives row := by
  induction s with
  | nil => trivial
  | cons f fs ih =>
    obtain ⟨a, ha, hrest⟩ := bind_eq_ok_iff.1 h
    obtain ⟨as, has, hrow⟩ := bind_eq_ok_iff.1 hrest
    cases hrow
    refine ⟨?_, ih has⟩
    -- the value of the first field comes from a member, or stands for a missing one
    unfold fieldValue at ha
    split at ha
    · next v _ => exact .inl ⟨v, ha⟩
    · split at ha
      · next b hb =>
        cases ha
        exact .inr (.inl hb)
      · cases ha

/-- What is taken from the elements `xs` of an array, which may be too few, can be put into the
    fields. -/
theorem gives_of_takeElems {expected : String} (s : Schema αs) {index : Nat} {xs rest : List Json}
    {row : Row αs} (h : s.takeElems expected index xs = .ok (row, rest)) : s.Gives row := by
  induction s generalizing index xs rest with
  | nil => trivial
  | cons f fs ih =>
    -- an element is read by its field, and for want of one there is a value that stands for it
    cases xs with
    | cons x xs =>
      obtain ⟨a, ha, hrest⟩ := bind_eq_ok_iff.1 h
      obtain ⟨⟨as, rest'⟩, has, hrow⟩ := bind_eq_ok_iff.1 hrest
      cases hrow
      exact ⟨.inl ⟨x, ha⟩, ih has⟩
    | nil =>
      unfold takeElems at h
      cases hshort : f.short with
      | none =>
        rw [hshort] at h
        cases h
      | some a =>
        rw [hshort] at h
        obtain ⟨⟨as, rest'⟩, has, hrow⟩ := bind_eq_ok_iff.1 h
        cases hrow
        exact ⟨.inr (.inr hshort), ih has⟩

/-- A `row` that readers can give is read back as itself, if the fields are stable. -/
theorem Stable.readsBack {s : Schema αs} (hs : s.Stable) {row : Row αs} (h : s.Gives row) :
    s.ReadsBack row row := by
  induction s with
  | nil => trivial
  | cons f fs ih =>
    obtain ⟨a, as⟩ := row
    exact ⟨hs.1 a h.1, ih hs.2 h.2⟩

end Schema

namespace RecordFormat

variable {ρ : Type}

/-- What is read as a record `r` is made of a row that readers can give. -/
theorem exists_row_of_read (f : RecordFormat ρ) {j : Json} {r : ρ} (h : f.read j = .ok r) :
    ∃ row, f.schema.Gives row ∧ f.ofRow row = r := by
  cases j with
  | obj ms =>
    obtain ⟨row, hrow, hr⟩ := map_eq_ok_iff.1 h
    obtain ⟨_, -, hcollect⟩ := bind_eq_ok_iff.1 hrow
    exact ⟨row, f.schema.gives_of_collect hcollect, hr⟩
  | arr xs =>
    obtain ⟨row, hrow, hr⟩ := map_eq_ok_iff.1 h
    obtain ⟨⟨row', rest⟩, htake, hend⟩ := bind_eq_ok_iff.1 hrow
    -- that no element is left over says nothing about the row
    have heq : row' = row := by
      cases rest with
      | nil => exact Except.ok.inj hend
      | cons x xs => cases hend
    exact ⟨row, heq ▸ f.schema.gives_of_takeElems htake, hr⟩
  | null | bool | num | str => cases h

/-- **Records.**  A record of the format `f` is stable if its fields are. -/
theorem stable (f : RecordFormat ρ) (hnames : f.schema.names.Nodup)
    (hrow : ∀ row, f.toRow (f.ofRow row) = row) (hs : f.schema.Stable) :
    @Wire.Stable ρ f.wire := by
  refine @Wire.Stable.mk ρ f.wire ?_
  intro j r h
  obtain ⟨row, hgives, rfl⟩ := f.exists_row_of_read h
  apply f.readsBack_self hnames
  · rw [hrow]
  · rw [hrow]
    exact hs.readsBack hgives

end RecordFormat

end FaultAction
