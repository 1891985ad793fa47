import FaultAction.Proofs.Json.Basic
import FaultAction.Proofs.Members.Lookup
import FaultAction.Proofs.Wire.FirstField

namespace FaultAction

/-!
# Records on the wire — members that do not matter

A record is read from an object by the names of its fields, and takes null for an absent value where
a field need not be there.  So an object may lose members of other names, and nulls of such fields,
and the values of the members that stay may lose some in turn.

* `Members.Trims`, `Json.Trims` — an object before and after it lost members;
* `FieldNames`, `FieldNames.Idle` — the names of a record's fields, and which members it can lose;
* `Schema.Skips`, `Schema.ReadsAlike` — what a record makes nothing of, and the same of;
* `Schema.skips_of_described`     — a member that a record can lose is skipped by its fields;
* `RecordFormat.read_trims`       — the record that is read is the same, and so is the error.
-/

/-! ### Objects that lost members -/

/-- The later members are the earlier ones without some that were `idle`, and with some other
    values, by `inner`, in place of those that stayed. -/
inductive Members.Trims (idle : String → Json → Prop) (inner : String → Json → Json → Prop) :
    Members Json → Members Json → Prop
  | nil : Trims idle inner [] []
  | keep {name : String} {v v' : Json} {ms ms' : Members Json} (hv : inner name v v')
      (hms : Trims idle inner ms ms') : Trims idle inner ((name, v) :: ms) ((name, v') :: ms')
  | drop {name : String} {v : Json} {ms ms' : Members Json} (hv : idle name v)
      (hms : Trims idle inner ms ms') : Trims idle inner ((name, v) :: ms) ms'

/-- The later tree is the earlier one, or both are objects of which the later lost `members`. -/
inductive Json.Trims (idle : String → Json → Prop) (inner : String → Json → Json → Prop) :
    Json → Json → Prop
  | same (j : Json) : Trims idle inner j j
  | members {ms ms' : Members Json} (hms : Members.Trims idle inner ms ms') :
      Trims idle inner (.obj ms) (.obj ms')

section

variable {idle : String → Json → Prop} {inner : String → Json → Json → Prop}
  {ms ms' : Members Json} {j j' : Json}

/-- No name is made up: the names in `ms'` are some of those in `ms`, in the same order. -/
theorem Members.keys_trims (h : Trims idle inner ms ms') : (keys ms').Sublist (keys ms) := by
  induction h with
  | nil => exact .slnil
  | keep _ _ ih => exact ih.cons_cons _
  | drop _ _ ih => exact ih.cons _

/-- Objects that lost members, from `j` to `j'`, keep their names in order, if the values of their
    members do. -/
theorem Json.wellKeyed_trims (hinner : ∀ name v v', v.WellKeyed → inner name v v' → v'.WellKeyed)
    (hj : j.WellKeyed) (h : Trims idle inner j j') : j'.WellKeyed := by
  cases h with
  | same => exact hj
  | members hms =>
    obtain ⟨hasc, hvalues⟩ := hj
    refine ⟨List.pairwise_map.1 ((List.pairwise_map.2 hasc).sublist (Members.keys_trims hms)), ?_⟩
    clear hasc
    induction hms with
    | nil => trivial
    | keep hv _ ih => exact ⟨hinner _ _ _ hvalues.1 hv, ih hvalues.2⟩
    | drop _ _ ih => exact ih hvalues.2

end

/-! ### The names of a record's fields -/

/-- The names of a record's fields: of those that must be there, `required`, and of those that may
    be absent or null, `optional`. -/
structure FieldNames where
  required : List String
  optional : List String

/-- A member that an object can lose: its `name` is that of no field, or it is null and its field
    may be absent. -/
def FieldNames.Idle (names : FieldNames) (name : String) (v : Json) : Prop :=
  (name ∉ names.required ∧ name ∉ names.optional) ∨ (name ∈ names.optional ∧ v = .null)

/-- The field `f` takes null for an absent value. -/
def Field.TakesNull {α : Type} (f : Field α) : Prop :=
  ∃ a, f.read .null = .ok a ∧ f.missing = some a

/-- An optional field takes null for an absent value, and has none then. -/
theorem Field.takesNull_optional {α : Type} [Wire α] {name : String} :
    (Field.optional name : Field (Option α)).TakesNull := ⟨none, rfl, rfl⟩

/-- A field with a `default` takes null for an absent value, and has the default then. -/
theorem Field.takesNull_defaulted {α : Type} [Wire α] {name : String} {default : α} :
    (Field.defaulted name default).TakesNull := ⟨default, rfl, rfl⟩

namespace Schema

variable {αs : List Type} {s : Schema αs}

/-- Every field is named among the `names`, and those that may be absent take null for an absent
    value. -/
def Described : {αs : List Type} → Schema αs → FieldNames → Prop
  | _, .nil, _ => True
  | _, .cons f fs, names =>
    ((f.name ∈ names.required ∧ f.name ∉ names.optional) ∨
      (f.name ∈ names.optional ∧ f.TakesNull)) ∧ fs.Described names

/-- A member, of this name and value, says no more than if it were absent: its field reads what
    `missing` says. -/
def Skips : {αs : List Type} → Schema αs → String → Json → Prop
  | _, .nil, _, _ => True
  | _, .cons f fs, name, v =>
    (f.name = name → ∃ a, f.read v = .ok a ∧ f.missing = some a) ∧ fs.Skips name v

/-- Under a name two values are read alike by each field that has the name. -/
def ReadsAlike : {αs : List Type} → Schema αs → String → Json → Json → Prop
  | _, .nil, _, _, _ => True
  | _, .cons f fs, name, v, v' => (f.name = name → f.read v = f.read v') ∧ fs.ReadsAlike name v v'

/-- A member that a record with these `names` can lose says no more than if it were absent. -/
theorem skips_of_described {names : FieldNames} (hs : s.Described names) {name : String} {v : Json}
    (h : names.Idle name v) : s.Skips name v := by
  induction s with
  | nil => trivial
  | cons f fs ih =>
    obtain ⟨hf, hfs⟩ := hs
    refine ⟨?_, ih hfs⟩
    rintro rfl
    rcases h with ⟨hrequired, hoptional⟩ | ⟨hoptional, rfl⟩
    · -- a name of no field is not the name of this one
      rcases hf with ⟨hmem, -⟩ | ⟨hmem, -⟩
      · exact absurd hmem hrequired
      · exact absurd hmem hoptional
    · rcases hf with ⟨-, hnot⟩ | ⟨-, hnull⟩
      · exact absurd hoptional hnot
      · exact hnull

/-- A value `v` is read like itself, under any `name`. -/
theorem readsAlike_rfl (s : Schema αs) (name : String) (v : Json) : s.ReadsAlike name v v := by
  induction s with
  | nil => trivial
  | cons f fs ih => exact ⟨fun _ => rfl, ih⟩

/-- Under a `name` that no field has, nothing is read, so any two values are read alike. -/
theorem readsAlike_of_not_mem {name : String} {v v' : Json} (h : name ∉ s.names) :
    s.ReadsAlike name v v' := by
  induction s with
  | nil => trivial
  | cons f fs ih =>
    rw [names, List.mem_cons, not_or] at h
    exact ⟨fun hname => absurd hname.symm h.1, ih h.2⟩

/-- Under a `name` that the first field `f` has not, the others count. -/
theorem readsAlike_of_ne {α : Type} {f : Field α} {name : String} {v v' : Json} (h : f.name ≠ name)
    (hs : s.ReadsAlike name v v') : (cons f s).ReadsAlike name v v' :=
  ⟨fun hname => absurd hname h, hs⟩

/-! ### The pass over the members -/

/-- A member of value `v` that says nothing passes its check. -/
theorem checkMember_of_skips {name : String} {v : Json} (h : s.Skips name v) :
    s.checkMember name v = .ok () := by
  induction s with
  | nil => rfl
  | cons f fs ih =>
    rw [checkMember]
    split
    · next hname =>
      obtain ⟨a, ha, -⟩ := h.1 hname
      rw [ha]
      rfl
    · exact ih h.2

/-- Values `v` and `v'` that are read alike have the same check. -/
theorem checkMember_of_readsAlike {name : String} {v v' : Json} (h : s.ReadsAlike name v v') :
    s.checkMember name v = s.checkMember name v' := by
  induction s with
  | nil => rfl
  | cons f fs ih =>
    rw [checkMember, checkMember, ih h.2]
    split
    · next hname => rw [h.1 hname]
    · rfl

variable {idle : String → Json → Prop} {inner : String → Json → Json → Prop}
  {ms ms' : Members Json}

/-- The pass over the members has the same outcome for `ms` and for `ms'`, which lost some of
    them. -/
theorem forM_trims (hidle : ∀ name v, idle name v → s.Skips name v)
    (hinner : ∀ name v v', v.WellKeyed → inner name v v' → s.ReadsAlike name v v')
    (hvalues : Json.WellKeyedMembers ms) (h : Members.Trims idle inner ms ms') :
    ms.forM (fun m => s.checkMember m.1 m.2) = ms'.forM fun m => s.checkMember m.1 m.2 := by
  rw [List.forM_eq_forM]
  induction h with
  | nil => rfl
  | @keep name v v' ms ms' hv _ ih =>
    rw [List.forM_cons, List.forM_cons, checkMember_of_readsAlike (hinner name v v' hvalues.1 hv),
      ih hvalues.2]
  | @drop name v ms ms' hv _ ih =>
    rw [List.forM_cons, checkMember_of_skips (hidle name v hv), ← ih hvalues.2]
    rfl

/-! ### The pass over the fields -/

/-- A field `f` has the same value for `ms` and for `ms'`, which lost some members. -/
theorem fieldValue_trims {α : Type} {f : Field α}
    (hidle : ∀ v, idle f.name v → ∃ a, f.read v = .ok a ∧ f.missing = some a)
    (hinner : ∀ v v', v.WellKeyed → inner f.name v v' → f.read v = f.read v')
    (hms : (Json.obj ms).WellKeyed) (h : Members.Trims idle inner ms ms') :
    fieldValue f ms = fieldValue f ms' := by
  obtain ⟨hasc, hvalues⟩ := hms
  induction h with
  | nil => rfl
  | @keep name v v' ms ms' hv hms ih =>
    by_cases hname : name = f.name
    · subst hname
      simp only [fieldValue, Members.get?, if_true]
      exact hinner v v' hvalues.1 hv
    · have hrest := ih (List.pairwise_cons.1 hasc).2 hvalues.2
      simpa only [fieldValue, Members.get?, if_neg hname] using hrest
  | @drop name v ms ms' hv hms ih =>
    by_cases hname : name = f.name
    · -- the names are in order, so what is left has the field no more
      subst hname
      obtain ⟨a, ha, hmissing⟩ := hidle v hv
      have hnone : Members.get? f.name ms' = none := by
        rw [Members.get?_eq_none_iff_not_mem]
        intro hmem
        have hnodup := Members.nodup_keys hasc
        exact (List.nodup_cons.1 hnodup).1 ((Members.keys_trims hms).subset hmem)
      simp only [fieldValue, Members.get?, if_true, hnone, hmissing]
      exact ha
    · have hrest := ih (List.pairwise_cons.1 hasc).2 hvalues.2
      rw [← hrest]
      simp only [fieldValue, Members.get?, if_neg hname]

/-- All fields have the same values for `ms` and for `ms'`, which lost some members. -/
theorem collect_trims (hidle : ∀ name v, idle name v → s.Skips name v)
    (hinner : ∀ name v v', v.WellKeyed → inner name v v' → s.ReadsAlike name v v')
    (hms : (Json.obj ms).WellKeyed) (h : Members.Trims idle inner ms ms') :
    s.collect ms = s.collect ms' := by
  induction s with
  | nil => rfl
  | cons f fs ih =>
    have hf : fieldValue f ms = fieldValue f ms' :=
      fieldValue_trims (fun v hv => (hidle f.name v hv).1 rfl)
        (fun v v' hkeys hv => (hinner f.name v v' hkeys hv).1 rfl) hms h
    have hfs : fs.collect ms = fs.collect ms' :=
      ih (fun name v hv => (hidle name v hv).2)
        (fun name v v' hkeys hv => (hinner name v v' hkeys hv).2)
    rw [collect, collect, hf, hfs]

end Schema

/-- **Lost members do not matter.**  A record of the format `f` is read from a tree `j` as it is
    read from a tree `j'` that lost members, or refused with the same error. -/
theorem RecordFormat.read_trims {ρ : Type} (f : RecordFormat ρ) {names : FieldNames}
    {inner : String → Json → Json → Prop} {j j' : Json} (hf : f.schema.Described names)
    (hinner : ∀ name v v', v.WellKeyed → inner name v v' → f.schema.ReadsAlike name v v')
    (hj : j.WellKeyed) (h : Json.Trims names.Idle inner j j') : f.read j = f.read j' := by
  cases h with
  | same => rfl
  | @members ms ms' hms =>
    have hidle : ∀ name v, names.Idle name v → f.schema.Skips name v :=
      fun _ _ => Schema.skips_of_described hf
    have hrow : f.schema.ofMembers ms = f.schema.ofMembers ms' := by
      rw [Schema.ofMembers, Schema.ofMembers, Schema.forM_trims hidle hinner hj.2 hms,
        Schema.collect_trims hidle hinner hj hms]
    rw [read, read, hrow]

end FaultAction
