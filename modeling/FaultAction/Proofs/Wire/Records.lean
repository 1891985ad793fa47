import FaultAction.Proofs.Wire.ReadBack
import FaultAction.Wire.Schema

namespace FaultAction

/-!
# Records on the wire — reading back what was written

* `Field.ReadsBack f a b`  — what an object keeps of a field's value `a` is read as `b`; an
  absent member counts as what stands for a missing one;
* `Schema.ReadsBack`       — the same for the fields of a record, one by one;
* `Schema.Holds`           — an object holds under each name what the field writes;
* `Schema.ofMembers_members`, `readsBack_of_ofMembers` — a record whose field names differ reads
  back, from its members in name order, exactly what its fields read back.

An object is read in two passes, over its members and then over the fields.  The first pass is
covered by `checkMember_members`, the second by `collect_eq_ok_iff`.
-/

/-! ### Fields -/

namespace Field

variable {α : Type}

/-- What an object keeps of the value `a` of a field `f` is read as `b`. -/
def ReadsBack (f : Field α) (a b : α) : Prop :=
  match f.write a with
  | some j => f.read j.sortKeys = .ok b
  | none => f.missing = some b

section

variable [Wire α]

/-- A required field reads back what its value `a` reads back. -/
theorem readsBack_required {name : String} {a b : α} (h : Wire.ReadsBack a b) :
    (required name).ReadsBack a b := h

/-- A field that may be null reads back what its option `a` reads back. -/
theorem readsBack_nullable {name : String} {a b : Option α} (h : Wire.ReadsBack a b) :
    (nullable name).ReadsBack a b := h

/-- An optional field reads back what its value, if any, reads back, which is given by `f`. -/
theorem readsBack_optional [Wire.NeverNull α] {name : String} {f : α → α} {a : Option α}
    (h : ∀ x, a = some x → Wire.ReadsBack x (f x)) :
    (optional name).ReadsBack a (a.map f) := by
  cases a with
  | none => rfl
  | some x => exact Wire.readsBack_some (h x rfl)

/-- An optional field whose value, if any, reads back as itself does so too, for `a` as a whole. -/
theorem readsBack_optional_self [Wire.NeverNull α] {name : String} {a : Option α}
    (h : ∀ x, a = some x → Wire.ReadsBack x x) : (optional name).ReadsBack a a := by
  have hmap : (optional name).ReadsBack a (a.map id) := readsBack_optional h
  rwa [Option.map_id] at hmap

/-- If an optional field with a value `a` is read back, its value is. -/
theorem exists_readsBack_of_optional [Wire.NeverNull α] {name : String} {a : α} {o : Option α}
    (h : (optional name).ReadsBack (some a) o) : ∃ b, Wire.ReadsBack a b := by
  have hsome : Wire.ReadsBack (some a) o := h
  exact Wire.exists_readsBack_of_some hsome

/-- A field with a `default` reads back what its value `a` reads back, be that the default or
    not. -/
theorem readsBack_defaulted [Wire.NeverNull α] {name : String} {default a b : α}
    (h : Wire.ReadsBack a b) : (defaulted name default).ReadsBack a b := by
  have hread : (Wire.read (Wire.toValue a) : Except ReadError (Option α)) = .ok (some b) :=
    Wire.readsBack_some h
  show (·.getD default) <$> (Wire.read (Wire.toValue a) : Except ReadError (Option α)) = _
  rw [hread]
  rfl

end

end Field

namespace Schema

/-- Field by field, what an object keeps of the first row is read as the second, by
    `Field.ReadsBack`. -/
def ReadsBack : {αs : List Type} → Schema αs → Row αs → Row αs → Prop
  | _, .nil, _, _ => True
  | _, .cons f fs, (a, as), (b, bs) => f.ReadsBack a b ∧ fs.ReadsBack as bs

/-- Under the name of each field, the members `ms` have what the field writes, if anything. -/
def Holds : {αs : List Type} → Schema αs → Row αs → Members Json → Prop
  | _, .nil, _, _ => True
  | _, .cons f fs, (a, as), ms =>
    ms.get? f.name = (f.write a).map Json.sortKeys ∧ fs.Holds as ms

variable {αs : List Type}

/-! ### The written members -/

/-- A written member `m` has the name of a field of `s`. -/
theorem name_mem_of_mem_members (s : Schema αs) (row : Row αs) {m : String × Json}
    (hm : m ∈ s.members row) : m.1 ∈ s.names := by
  induction s with
  | nil => exact nomatch hm
  | cons f fs ih =>
    obtain ⟨a, as⟩ := row
    rw [members] at hm
    rw [names]
    cases hw : f.write a with
    | none =>
      rw [hw] at hm
      exact List.mem_cons_of_mem _ (ih as hm)
    | some v =>
      rw [hw] at hm
      rcases List.mem_cons.1 hm with rfl | hm
      · exact List.mem_cons_self
      · exact List.mem_cons_of_mem _ (ih as hm)

/-- A member of another `name` changes nothing that the fields of `s` look for. -/
theorem holds_adopt (s : Schema αs) {row : Row αs} {ms : Members Json} {name : String} {v : Json}
    (hasc : ms.Ascending) (hname : name ∉ s.names) (h : s.Holds row ms) :
    s.Holds row (ms.adopt name v) := by
  induction s with
  | nil => trivial
  | cons f fs ih =>
    obtain ⟨a, as⟩ := row
    obtain ⟨hget, hrest⟩ := h
    have hne : name ≠ f.name := fun he => hname (by simp [names, he])
    refine ⟨?_, ih (fun hmem => hname (by simp [names, hmem])) hrest⟩
    rw [Members.get?_adopt hasc, if_neg hne, Option.or_none]
    exact hget

/-- The members of a record in name order hold what the fields of `s` write for the `row`. -/
theorem holds_members (s : Schema αs) (hnames : s.names.Nodup) (row : Row αs) :
    s.Holds row (Json.sortMembers (s.members row)) := by
  induction s with
  | nil => trivial
  | cons f fs ih =>
    obtain ⟨a, as⟩ := row
    rw [names, List.nodup_cons] at hnames
    obtain ⟨hf, hfs⟩ := hnames
    have hrest := ih hfs as
    have hasc : Members.Ascending (Json.sortMembers (fs.members as)) := by
      rw [Json.sortMembers_eq]
      exact Members.ascending_ofList _
    -- the later fields have other names, so they have written nothing under this one
    have hnone : Members.get? f.name (Json.sortMembers (fs.members as)) = none := by
      rw [Members.get?_eq_none_iff]
      intro m hm he
      rw [Json.sortMembers_eq] at hm
      obtain ⟨m', hm', rfl⟩ := List.mem_map.1 (Members.mem_of_mem_ofList hm)
      have hmem : m'.1 ∈ fs.names := fs.name_mem_of_mem_members as hm'
      have hname : m'.1 = f.name := he
      exact hf (hname ▸ hmem)
    cases hw : f.write a with
    | none =>
      simp only [members, hw, Holds]
      exact ⟨hnone, hrest⟩
    | some v =>
      simp only [members, hw, Json.sortMembers, Holds]
      refine ⟨?_, fs.holds_adopt hasc hf hrest⟩
      rw [Members.get?_adopt hasc, hnone, if_pos rfl]
      rfl

/-! ### The two passes of reading -/

/-- Every written member `m` passes the check of its field. -/
theorem checkMember_members (s : Schema αs) (hnames : s.names.Nodup) {row row' : Row αs}
    (h : s.ReadsBack row row') {m : String × Json} (hm : m ∈ s.members row) :
    s.checkMember m.1 m.2.sortKeys = .ok () := by
  induction s with
  | nil => rfl
  | cons f fs ih =>
    obtain ⟨a, as⟩ := row
    obtain ⟨b, bs⟩ := row'
    obtain ⟨hf, hfs⟩ := h
    rw [names, List.nodup_cons] at hnames
    rw [members] at hm
    rw [Field.ReadsBack] at hf
    -- a member of a later field has another name, so this field does not check it
    have hlater : m ∈ fs.members as →
        (cons f fs).checkMember m.1 m.2.sortKeys = .ok () := by
      intro hmem
      have hne : f.name ≠ m.1 :=
        fun he => hnames.1 (he ▸ fs.name_mem_of_mem_members as hmem)
      rw [checkMember, if_neg hne]
      exact ih hnames.2 hfs hmem
    cases hw : f.write a with
    | none =>
      rw [hw] at hm
      exact hlater hm
    | some v =>
      rw [hw] at hm hf
      rcases List.mem_cons.1 hm with rfl | hm
      · have hread : f.read v.sortKeys = .ok b := hf
        rw [checkMember, if_pos rfl, hread]
        rfl
      · exact hlater hm

/-- From members `ms` that hold what a field `f` writes of `a`, its value is what the field reads
    back. -/
theorem fieldValue_eq_ok_iff {α : Type} {f : Field α} {a b : α} {ms : Members Json}
    (hget : ms.get? f.name = (f.write a).map Json.sortKeys) :
    fieldValue f ms = .ok b ↔ f.ReadsBack a b := by
  rw [Field.ReadsBack, fieldValue, hget]
  cases f.write a with
  | some v => exact Iff.rfl
  | none =>
    -- nothing is written, so the value is what stands for a missing member
    rw [Option.map_none]
    cases f.missing with
    | none => exact iff_of_false (fun h => by cases h) (fun h => by cases h)
    | some c => exact ⟨fun h => congrArg some (Except.ok.inj h), fun h => by cases h; rfl⟩

/-- From members `ms` that hold what the fields write of `row`, that `row'` is collected which they
    read back. -/
theorem collect_eq_ok_iff (s : Schema αs) {row row' : Row αs} {ms : Members Json}
    (hms : s.Holds row ms) : s.collect ms = .ok row' ↔ s.ReadsBack row row' := by
  induction s with
  | nil => exact iff_of_true rfl trivial
  | cons f fs ih =>
    obtain ⟨a, as⟩ := row
    obtain ⟨b, bs⟩ := row'
    obtain ⟨hget, hrest⟩ := hms
    -- the values are collected one by one, and each is what its field reads back
    constructor
    · intro h
      obtain ⟨c, hc, hcollect⟩ := bind_eq_ok_iff.1 h
      obtain ⟨cs, hcs, hrow⟩ := bind_eq_ok_iff.1 hcollect
      cases hrow
      exact ⟨(fieldValue_eq_ok_iff hget).1 hc, (ih hrest).1 hcs⟩
    · rintro ⟨hf, hfs⟩
      have hb : fieldValue f ms = .ok b := (fieldValue_eq_ok_iff hget).2 hf
      have hbs : fs.collect ms = .ok bs := (ih hrest).2 hfs
      rw [collect, hb, hbs]
      rfl

/-- The first pass over the members `ms` succeeds exactly if every `check` does. -/
theorem forM_eq_ok_iff {α : Type} {ms : List α} {check : α → Except ReadError Unit} :
    ms.forM check = .ok () ↔ ∀ m ∈ ms, check m = .ok () := by
  rw [List.forM_eq_forM]
  induction ms with
  | nil => exact iff_of_true rfl (List.forall_mem_nil _)
  | cons m ms ih =>
    rw [List.forM_cons, bind_eq_ok_iff, List.forall_mem_cons, ih]
    exact ⟨fun ⟨_, h⟩ => h, fun h => ⟨(), h⟩⟩

/-- The first `check` that fails decides the error `e` of the first pass. -/
theorem forM_eq_error {α : Type} {ms ms' : List α} {m : α} {check : α → Except ReadError Unit}
    {e : ReadError} (h : ∀ m ∈ ms, check m = .ok ()) (hm : check m = .error e) :
    (ms ++ m :: ms').forM check = .error e := by
  have hok : forM ms check = .ok () := forM_eq_ok_iff.2 h
  rw [List.forM_eq_forM, List.forM_append, hok, List.forM_cons, hm]
  rfl

/-- A member `m` that fails its check decides the error `e`, if those before it pass theirs. -/
theorem ofMembers_eq_error (s : Schema αs) {ms ms' : Members Json} {m : String × Json}
    {e : ReadError} (h : ∀ m ∈ ms, s.checkMember m.1 m.2 = .ok ())
    (hm : s.checkMember m.1 m.2 = .error e) : s.ofMembers (ms ++ m :: ms') = .error e := by
  have hforM : (ms ++ m :: ms').forM (fun m => s.checkMember m.1 m.2) = .error e :=
    forM_eq_error h hm
  rw [ofMembers, hforM]
  rfl

/-- **Records read back.**  From the members of a `row` in name order, reading gives field by field
    what the fields read back. -/
theorem ofMembers_members (s : Schema αs) (hnames : s.names.Nodup) {row row' : Row αs}
    (h : s.ReadsBack row row') :
    s.ofMembers (Json.sortMembers (s.members row)) = .ok row' := by
  have hcheck : (Json.sortMembers (s.members row)).forM
      (fun m => s.checkMember m.1 m.2) = .ok () := by
    refine forM_eq_ok_iff.2 (fun m hm => ?_)
    rw [Json.sortMembers_eq] at hm
    obtain ⟨m', hm', rfl⟩ := List.mem_map.1 (Members.mem_of_mem_ofList hm)
    exact s.checkMember_members hnames h hm'
  rw [ofMembers, hcheck]
  exact (s.collect_eq_ok_iff (s.holds_members hnames row)).2 h

/-- What is read from the members of a `row` in name order, `row'`, the fields read back. -/
theorem readsBack_of_ofMembers (s : Schema αs) (hnames : s.names.Nodup) {row row' : Row αs}
    (h : s.ofMembers (Json.sortMembers (s.members row)) = .ok row') : s.ReadsBack row row' := by
  obtain ⟨_, -, hcollect⟩ := bind_eq_ok_iff.1 h
  exact (s.collect_eq_ok_iff (s.holds_members hnames row)).1 hcollect

end Schema

namespace RecordFormat

variable {ρ : Type}

/-- A record `r` reads back what its fields read back, as a `row`. -/
theorem readsBack (f : RecordFormat ρ) (hnames : f.schema.names.Nodup) {r : ρ}
    {row : Row f.types} (h : f.schema.ReadsBack (f.toRow r) row) :
    @Wire.ReadsBack ρ f.wire r (f.ofRow row) := by
  show f.ofRow <$> f.schema.ofMembers (Json.sortMembers (f.schema.members (f.toRow r))) = _
  rw [f.schema.ofMembers_members hnames h]
  rfl

/-- If a record `r` is read back, its fields are. -/
theorem exists_row_of_readsBack (f : RecordFormat ρ) (hnames : f.schema.names.Nodup) {r r' : ρ}
    (h : @Wire.ReadsBack ρ f.wire r r') : ∃ row, f.schema.ReadsBack (f.toRow r) row := by
  have hread : f.ofRow <$> f.schema.ofMembers (Json.sortMembers (f.schema.members (f.toRow r))) =
      .ok r' := h
  obtain ⟨row, hrow, -⟩ := map_eq_ok_iff.1 hread
  exact ⟨row, f.schema.readsBack_of_ofMembers hnames hrow⟩

/-- A record `r` whose fields read back as themselves does so too. -/
theorem readsBack_self (f : RecordFormat ρ) (hnames : f.schema.names.Nodup) {r : ρ}
    (hrow : f.ofRow (f.toRow r) = r) (h : f.schema.ReadsBack (f.toRow r) (f.toRow r)) :
    @Wire.ReadsBack ρ f.wire r r := by
  have hread := f.readsBack hnames h
  rwa [hrow] at hread

/-- A record is never written as null, whatever its format `f`. -/
theorem neverNull (f : RecordFormat ρ) : @Wire.NeverNull ρ f.wire :=
  @Wire.NeverNull.mk ρ f.wire (fun _ => Json.noConfusion)

end RecordFormat

end FaultAction
