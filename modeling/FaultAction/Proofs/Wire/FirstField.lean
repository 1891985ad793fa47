import FaultAction.Proofs.Wire.Records

namespace FaultAction

/-!
# Records on the wire — one field more

Two records that differ in their first field read the same object alike:

* `Schema.ofMembers_map`     — a first field that makes something else of the same values;
* `Schema.ofMembers_absent`  — a first field whose member is taken out of the object;
* `Schema.ofMembers_present` — a first field whose member can be read;
* `Schema.ofMembers_missing` — a required first field that the object lacks.

What an object is read as depends on two things only: the outcome of the check of every member, in
order, and the members that are found under the names of the fields.
-/

/-! ### Rows -/

/-- The row with one more value `a` in front. -/
def Row.cons {α : Type} {αs : List Type} (a : α) (row : Row αs) : Row (α :: αs) := (a, row)

/-- The row with a function `φ` applied to its first value. -/
def Row.mapFirst {α β : Type} {αs : List Type} (φ : α → β) (row : Row (α :: αs)) :
    Row (β :: αs) := (φ row.1, row.2)

namespace Schema

/-! ### The pass over the members -/

section

variable {α : Type} {ms : List α} {check check' : α → Except ReadError Unit}

/-- Checks `check` and `check'` with the same outcome on every member of `ms` are the same pass. -/
theorem forM_congr (h : ∀ m ∈ ms, check m = check' m) : ms.forM check = ms.forM check' := by
  rw [List.forM_eq_forM]
  induction ms with
  | nil => rfl
  | cons m ms ih =>
    rw [List.forM_cons, List.forM_cons, h m List.mem_cons_self,
      ih (fun n hn => h n (List.mem_cons_of_mem _ hn))]

/-- A member that passes its check may be left out of `ms`, as by `keep`. -/
theorem forM_filter {keep : α → Bool} (h : ∀ m ∈ ms, keep m = false → check m = .ok ()) :
    (ms.filter keep).forM check = ms.forM check := by
  rw [List.forM_eq_forM]
  induction ms with
  | nil => rfl
  | cons m ms ih =>
    have hrest := ih (fun n hn => h n (List.mem_cons_of_mem _ hn))
    by_cases hm : keep m = true
    · rw [List.filter_cons_of_pos hm, List.forM_cons, List.forM_cons, hrest]
    · have hok : check m = .ok () := h m List.mem_cons_self (Bool.eq_false_iff.2 hm)
      rw [List.filter_cons_of_neg hm, hrest, List.forM_cons, hok]
      rfl

end

variable {α β : Type} {αs : List Type} {s fs : Schema αs} {f : Field α} {ms : Members Json}

/-- A member whose `name` no field has is not looked at, whatever its value `v` is. -/
theorem checkMember_of_not_mem {name : String} (h : name ∉ s.names) (v : Json) :
    s.checkMember name v = .ok () := by
  induction s with
  | nil => rfl
  | cons f fs ih =>
    have hne : f.name ≠ name := fun he => h (by simp [names, he])
    rw [checkMember, if_neg hne]
    exact ih (fun hmem => h (by simp [names, hmem]))

/-- A member of another `name` is not looked at for the first field `f`. -/
theorem checkMember_of_ne {name : String} (h : name ≠ f.name) (v : Json) :
    (cons f fs).checkMember name v = fs.checkMember name v := by
  rw [checkMember, if_neg (Ne.symm h)]

/-! ### The pass over the fields -/

/-- Members `ms` and `ms'` that agree under the names of the fields give the same values. -/
theorem collect_congr {ms ms' : Members Json}
    (h : ∀ name ∈ s.names, Members.get? name ms = Members.get? name ms') :
    s.collect ms = s.collect ms' := by
  induction s with
  | nil => rfl
  | cons f fs ih =>
    have hf : fieldValue f ms = fieldValue f ms' := by
      rw [fieldValue, fieldValue, h f.name List.mem_cons_self]
    have hfs : fs.collect ms = fs.collect ms' :=
      ih (fun name hname => h name (List.mem_cons_of_mem _ hname))
    rw [collect, collect, hf, hfs]

/-- No field of the schema is required: each has a value in `missing` that stands for a missing
    member. -/
def NoneRequired : {αs : List Type} → Schema αs → Prop
  | _, .nil => True
  | _, .cons f fs => f.missing ≠ none ∧ fs.NoneRequired

/-- Where no field is required, members `ms` that pass their checks have values for all fields. -/
theorem exists_collect (hs : s.NoneRequired) (hnames : s.names.Nodup)
    (hcheck : ∀ m ∈ ms, s.checkMember m.1 m.2 = .ok ()) : ∃ row, s.collect ms = .ok row := by
  induction s with
  | nil => exact ⟨(), rfl⟩
  | cons f fs ih =>
    obtain ⟨hmissing, hfs⟩ := hs
    rw [names, List.nodup_cons] at hnames
    -- a member of this field has passed its check, and without one the field has its default
    obtain ⟨a, ha⟩ : ∃ a, fieldValue f ms = .ok a := by
      rw [fieldValue]
      cases hget : Members.get? f.name ms with
      | some v =>
        have hv := hcheck (f.name, v) (Members.mem_of_get? hget)
        rw [checkMember, if_pos rfl] at hv
        obtain ⟨a, ha, -⟩ := map_eq_ok_iff.1 hv
        exact ⟨a, ha⟩
      | none =>
        cases hf : f.missing with
        | some a => exact ⟨a, rfl⟩
        | none => exact absurd hf hmissing
    -- the later fields look at the members that are not of this field
    have hlater : ∀ m ∈ ms, fs.checkMember m.1 m.2 = .ok () := by
      intro m hm
      by_cases hname : m.1 = f.name
      · exact checkMember_of_not_mem (hname ▸ hnames.1) m.2
      · rw [← checkMember_of_ne hname]
        exact hcheck m hm
    obtain ⟨row, hrow⟩ := ih hfs hnames.2 hlater
    refine ⟨(a, row), ?_⟩
    rw [collect, ha, hrow]
    rfl

/-! ### One field more -/

/-- A first field `g` that makes something else, by `φ`, of the same values as `f` gives rows with
    this in their first place, and the same errors. -/
theorem ofMembers_map {g : Field β} (φ : α → β) (hname : g.name = f.name)
    (hread : ∀ j, g.read j = φ <$> f.read j) (hmissing : g.missing = f.missing.map φ) :
    (cons g fs).ofMembers ms = Row.mapFirst φ <$> (cons f fs).ofMembers ms := by
  -- the first pass has the same outcome, and in the second the first value is changed by `φ`
  have hcheck : ms.forM (fun m => (cons g fs).checkMember m.1 m.2) =
      ms.forM (fun m => (cons f fs).checkMember m.1 m.2) := by
    refine forM_congr (fun m _ => ?_)
    rw [checkMember, checkMember, hname, hread]
    cases f.read m.2 <;> rfl
  have hvalue : fieldValue g ms = φ <$> fieldValue f ms := by
    rw [fieldValue, fieldValue, hname, hmissing]
    cases Members.get? f.name ms with
    | some v => exact hread v
    | none => cases f.missing <;> rfl
  have hcollect : (cons g fs).collect ms = Row.mapFirst φ <$> (cons f fs).collect ms := by
    rw [collect, collect, hvalue]
    cases fieldValue f ms with
    | error e => rfl
    | ok a => cases fs.collect ms <;> rfl
  rw [ofMembers, ofMembers, hcheck, hcollect]
  cases ms.forM (fun m => (cons f fs).checkMember m.1 m.2) <;> rfl

/-- Without its member, the first field `f` has the value `a` that stands for a missing one, and the
    others are read as if there were no such field. -/
theorem ofMembers_absent {a : α} (hname : f.name ∉ fs.names) (hmissing : f.missing = some a) :
    (cons f fs).ofMembers (ms.filter fun m => m.1 ≠ f.name) =
      Row.cons a <$> fs.ofMembers ms := by
  -- what is taken out passes every check of the other fields
  have hskipped : (ms.filter fun m => m.1 ≠ f.name).forM (fun m => fs.checkMember m.1 m.2) =
      ms.forM (fun m => fs.checkMember m.1 m.2) := by
    refine forM_filter (fun m _ hm => ?_)
    have heq : m.1 = f.name := by simpa using hm
    exact checkMember_of_not_mem (heq ▸ hname) m.2
  have hcheck : (ms.filter fun m => m.1 ≠ f.name).forM
      (fun m => (cons f fs).checkMember m.1 m.2) = ms.forM (fun m => fs.checkMember m.1 m.2) := by
    rw [← hskipped]
    refine forM_congr (fun m hm => ?_)
    exact checkMember_of_ne (of_decide_eq_true (List.mem_filter.1 hm).2) m.2
  have hnone : Members.get? f.name (ms.filter fun m => m.1 ≠ f.name) = none := by
    rw [Members.get?_eq_none_iff]
    intro m hm
    exact of_decide_eq_true (List.mem_filter.1 hm).2
  have hcollect : fs.collect (ms.filter fun m => m.1 ≠ f.name) = fs.collect ms := by
    refine collect_congr (fun name hmem => Members.get?_filter (fun m _ he => ?_))
    have hne : m.1 ≠ f.name := fun hm => hname (hm ▸ he ▸ hmem)
    exact decide_eq_true hne
  rw [ofMembers, ofMembers, hcheck, collect, fieldValue, hnone, hmissing, hcollect]
  cases ms.forM (fun m => fs.checkMember m.1 m.2) with
  | error e => rfl
  | ok _ => cases fs.collect ms <;> rfl

/-- With a member `v` that the first field `f` can read, this field has the value read, and the
    others are read as if there were no such field. -/
theorem ofMembers_present {a : α} {v : Json} (hname : f.name ∉ fs.names) (hms : ms.Ascending)
    (hget : Members.get? f.name ms = some v) (hread : f.read v = .ok a) :
    (cons f fs).ofMembers ms = Row.cons a <$> fs.ofMembers ms := by
  have hcheck : ms.forM (fun m => (cons f fs).checkMember m.1 m.2) =
      ms.forM (fun m => fs.checkMember m.1 m.2) := by
    -- the member of the first field is found once, and is not looked at for the others
    refine forM_congr (fun m hm => ?_)
    by_cases he : m.1 = f.name
    · have hv : m.2 = v := Members.eq_of_get? hms hget m hm he
      rw [checkMember, if_pos he.symm, hv, hread, checkMember_of_not_mem (he ▸ hname)]
      rfl
    · exact checkMember_of_ne he m.2
  rw [ofMembers, ofMembers, hcheck, collect, fieldValue, hget]
  cases ms.forM (fun m => fs.checkMember m.1 m.2) with
  | error e => rfl
  | ok _ =>
    -- the member has been read once to check it, and is read again for its value
    show (f.read v >>= fun a => fs.collect ms >>= fun as => .ok (a, as)) = _
    rw [hread]
    cases fs.collect ms <;> rfl

/-- Without its member, a required first field `f` is what the reader complains about, unless a
    member of another field cannot be read. -/
theorem ofMembers_missing (hnames : fs.names.Nodup) (hfs : fs.NoneRequired)
    (hget : Members.get? f.name ms = none) (hmissing : f.missing = none) :
    (cons f fs).ofMembers ms = fs.ofMembers ms >>= fun _ => .error (.missingField f.name) := by
  have hcheck : ms.forM (fun m => (cons f fs).checkMember m.1 m.2) =
      ms.forM (fun m => fs.checkMember m.1 m.2) := by
    refine forM_congr (fun m hm => ?_)
    exact checkMember_of_ne (Members.get?_eq_none_iff.1 hget m hm) m.2
  rw [ofMembers, ofMembers, hcheck, collect, fieldValue, hget, hmissing]
  cases hpass : ms.forM (fun m => fs.checkMember m.1 m.2) with
  | error e => rfl
  | ok _ =>
    -- nothing else can go wrong, since the other fields may all be missing
    obtain ⟨row, hrow⟩ := exists_collect hfs hnames (forM_eq_ok_iff.1 hpass)
    show _ = (fs.collect ms >>= fun _ => .error (.missingField f.name))
    rw [hrow]
    rfl

end Schema

end FaultAction
