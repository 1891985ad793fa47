import FaultAction.Proofs.RecordKind.ReadBack
import FaultAction.Proofs.Wire.Trimmed

namespace FaultAction

/-!
# Kinds of records — unknown names and nulls

A reader takes no notice of members that its record does not know, and takes a null for an absent
value wherever a value may be absent.  This holds of results and of the records inside them alike,
while a state, the fields of a message and the labels of a metric are data of their own.

* `RecordKind.fieldNames`   — the names of the fields of each kind;
* `Attachments.Trims`       — a member of a result, and what it is once the records in it lost
  members;
* `RecordKind.Trims`        — a tree and what it is once the records in it lost members;
* `RecordKind.trims_convertAlike` — both are converted to the same record, or fail with the same
  error.
-/

/-- The names of the fields of a kind, required and optional.  A `state` has none, for its names are
    data. -/
def RecordKind.fieldNames : RecordKind → FieldNames
  | state => ⟨[], []⟩
  | artifact => ⟨["label", "data"], []⟩
  | problem => ⟨["title"], ["detail", "instance", "status", "type"]⟩
  | message => ⟨["message"], ["level", "type", "fields", "timestamp"]⟩
  | metric => ⟨["timestamp", "value"], ["name", "metric"]⟩
  | prepare | start => ⟨[], ["state", "artifacts", "error", "messages", "metrics"]⟩
  | status => ⟨["completed"], ["state", "artifacts", "error", "messages", "metrics"]⟩
  | stop => ⟨[], ["artifacts", "error", "messages", "metrics"]⟩

/-- A record of the kind `k` without records in it, and what it is once it lost members that are
    idle. -/
def RecordKind.FlatTrims (k : RecordKind) : Json → Json → Prop :=
  Json.Trims k.fieldNames.Idle fun _ => Eq

/-- A member of a result, and what it is once the records in it, if any, lost members. -/
inductive Attachments.Trims : String → Json → Json → Prop
  | same (name : String) (v : Json) : Trims name v v
  | artifacts {xs xs' : List Json} (hxs : List.Forall₂ (RecordKind.FlatTrims .artifact) xs xs') :
      Trims "artifacts" (.arr xs) (.arr xs')
  | error {v v' : Json} (hv : RecordKind.FlatTrims .problem v v') : Trims "error" v v'
  | messages {xs xs' : List Json} (hxs : List.Forall₂ (RecordKind.FlatTrims .message) xs xs') :
      Trims "messages" (.arr xs) (.arr xs')
  | metrics {xs xs' : List Json} (hxs : List.Forall₂ (RecordKind.FlatTrims .metric) xs xs') :
      Trims "metrics" (.arr xs) (.arr xs')

/-- A tree of the kind `k`, and what it is once the record and the records in it lost members. -/
def RecordKind.Trims : RecordKind → Json → Json → Prop
  | state => Eq
  | artifact => FlatTrims .artifact
  | problem => FlatTrims .problem
  | message => FlatTrims .message
  | metric => FlatTrims .metric
  | prepare => Json.Trims prepare.fieldNames.Idle Attachments.Trims
  | start => Json.Trims start.fieldNames.Idle Attachments.Trims
  | status => Json.Trims status.fieldNames.Idle Attachments.Trims
  | stop => Json.Trims stop.fieldNames.Idle Attachments.Trims

/-! ### The fields of each kind -/

/-- An `Artifact` has nothing to leave out, since both of its fields are required. -/
theorem Artifact.described : format.schema.Described RecordKind.artifact.fieldNames :=
  ⟨.inl (by decide), .inl (by decide), trivial⟩

/-- A problem needs a `title` only, and takes null for each of its other fields. -/
theorem Problem.described : format.schema.Described RecordKind.problem.fieldNames :=
  ⟨.inl (by decide), .inr ⟨by decide, Field.takesNull_optional⟩,
    .inr ⟨by decide, Field.takesNull_optional⟩, .inr ⟨by decide, Field.takesNull_optional⟩,
    .inr ⟨by decide, Field.takesNull_optional⟩, trivial⟩

/-- A `Message` needs its text only, and takes null for each of its other fields. -/
theorem Message.described : format.schema.Described RecordKind.message.fieldNames :=
  ⟨.inl (by decide), .inr ⟨by decide, Field.takesNull_optional⟩,
    .inr ⟨by decide, Field.takesNull_optional⟩, .inr ⟨by decide, Field.takesNull_optional⟩,
    .inr ⟨by decide, Field.takesNull_optional⟩, trivial⟩

/-- A `Metric` needs an instant and a value.  No name is the default, and so are no labels. -/
theorem Metric.described : format.schema.Described RecordKind.metric.fieldNames :=
  ⟨.inr ⟨by decide, Field.takesNull_optional⟩, .inr ⟨by decide, Field.takesNull_defaulted⟩,
    .inl (by decide), .inl (by decide), trivial⟩

/-- The fields that every result has may all be absent, provided that their `names` are optional. -/
theorem Attachments.described {names : FieldNames}
    (h : ∀ name ∈ schema.names, name ∈ names.optional) : schema.Described names :=
  ⟨.inr ⟨h _ (by decide), Field.takesNull_optional⟩,
    .inr ⟨h _ (by decide), Field.takesNull_optional⟩,
    .inr ⟨h _ (by decide), Field.takesNull_optional⟩,
    .inr ⟨h _ (by decide), Field.takesNull_optional⟩, trivial⟩

/-! ### Records without records in them -/

section

variable {ρ : Type} {k : RecordKind} {f : RecordFormat ρ}

/-- A record of the format `f` without records in it is read from what is left, `j'`, as from
    `j`. -/
theorem RecordFormat.read_flatTrims (hf : f.schema.Described k.fieldNames) {j j' : Json}
    (hj : j.WellKeyed) (h : k.FlatTrims j j') : f.read j = f.read j' := by
  refine f.read_trims hf ?_ hj h
  rintro name v _ - rfl
  exact f.schema.readsAlike_rfl name v

/-- Records in a list `xs` are read from what is left of each, in `xs'`. -/
theorem RecordFormat.readElems_flatTrims (hf : f.schema.Described k.fieldNames)
    {xs xs' : List Json} (hxs : Json.WellKeyedElems xs) (h : List.Forall₂ k.FlatTrims xs xs') :
    Wire.readElems f.read xs = Wire.readElems f.read xs' := by
  induction h with
  | nil => rfl
  | cons hx _ ih =>
    rw [Wire.readElems, Wire.readElems, f.read_flatTrims hf hxs.1 hx, ih hxs.2]

/-- What is left of a record, `j'`, has its names in order, as `j` has. -/
theorem RecordKind.wellKeyed_flatTrims {j j' : Json} (hj : j.WellKeyed) (h : k.FlatTrims j j') :
    j'.WellKeyed := by
  refine Json.wellKeyed_trims ?_ hj h
  rintro _ v _ hv rfl
  exact hv

/-- What is left of the records in a list, `xs'`, has its names in order. -/
theorem RecordKind.wellKeyedElems_flatTrims {xs xs' : List Json} (hxs : Json.WellKeyedElems xs)
    (h : List.Forall₂ k.FlatTrims xs xs') : Json.WellKeyedElems xs' := by
  induction h with
  | nil => trivial
  | cons hx _ ih => exact ⟨RecordKind.wellKeyed_flatTrims hxs.1 hx, ih hxs.2⟩

end

/-! ### Results -/

namespace Attachments

variable {name : String} {v v' : Json}

/-- Under each `name` that a result has, the records in `v` are read from what is left of them in
    `v'`. -/
theorem readsAlike_schema (hv : v.WellKeyed) (h : Trims name v v') :
    schema.ReadsAlike name v v' := by
  cases h with
  | same => exact schema.readsAlike_rfl name v
  | artifacts hxs =>
    refine ⟨fun _ => ?_, Schema.readsAlike_of_not_mem (by decide)⟩
    exact congrArg (some <$> ·) (Artifact.format.readElems_flatTrims Artifact.described hv hxs)
  | error hv' =>
    -- each field that is not the one of this name is passed over
    refine Schema.readsAlike_of_ne (by decide)
      ⟨fun _ => ?_, Schema.readsAlike_of_not_mem (by decide)⟩
    have hread := Problem.format.read_flatTrims Problem.described hv hv'
    -- an object stays one, so that both values are there
    cases hv' with
    | same => rfl
    | members => exact congrArg (some <$> ·) hread
  | messages hxs =>
    refine Schema.readsAlike_of_ne (by decide) (Schema.readsAlike_of_ne (by decide)
      ⟨fun _ => ?_, Schema.readsAlike_of_not_mem (by decide)⟩)
    exact congrArg (some <$> ·) (Message.format.readElems_flatTrims Message.described hv hxs)
  | metrics hxs =>
    refine Schema.readsAlike_of_ne (by decide) (Schema.readsAlike_of_ne (by decide)
      (Schema.readsAlike_of_ne (by decide) ⟨fun _ => ?_, trivial⟩))
    exact congrArg (some <$> ·) (Metric.format.readElems_flatTrims Metric.described hv hxs)

/-- A field `f` in front of the attachments finds its value unchanged, for there are no records in
    it. -/
theorem readsAlike_cons {α : Type} {αs : List Type} {f : Field α} {fs : Schema αs}
    (hf : f.name ∉ schema.names) (h : Trims name v v') (hfs : fs.ReadsAlike name v v') :
    (Schema.cons f fs).ReadsAlike name v v' := by
  refine ⟨?_, hfs⟩
  rintro rfl
  generalize f.name = name at hf h
  cases h with
  | same => rfl
  | artifacts | error | messages | metrics => exact absurd (by decide) hf

/-- What is left of a member, `v'`, has its names in order. -/
theorem wellKeyed_trims (hv : v.WellKeyed) (h : Trims name v v') : v'.WellKeyed := by
  cases h with
  | same => exact hv
  | error hv' => exact RecordKind.wellKeyed_flatTrims hv hv'
  | artifacts hxs | messages hxs | metrics hxs =>
    exact RecordKind.wellKeyedElems_flatTrims hv hxs

end Attachments

namespace RecordKind

variable {j j' : Json}

/-- What is left of a tree, `j'`, has its names in order, whatever the kind `k`. -/
theorem wellKeyed_trims (k : RecordKind) (hj : j.WellKeyed) (h : k.Trims j j') : j'.WellKeyed := by
  cases k with
  | state => exact h ▸ hj
  | artifact | problem | message | metric => exact wellKeyed_flatTrims hj h
  | prepare | start | status | stop =>
    exact Json.wellKeyed_trims (fun _ _ _ => Attachments.wellKeyed_trims) hj h

/-- A record is read from what is left of its tree, `j'`, as from the whole tree `j`. -/
theorem read_trims (k : RecordKind) (hj : j.WellKeyed) (h : k.Trims j j') :
    (Wire.read j : Except ReadError k.Value) = Wire.read j' := by
  cases k with
  | state => exact congrArg _ h
  | artifact => exact Artifact.format.read_flatTrims Artifact.described hj h
  | problem => exact Problem.format.read_flatTrims Problem.described hj h
  | message => exact Message.format.read_flatTrims Message.described hj h
  | metric => exact Metric.format.read_flatTrims Metric.described hj h
  -- of a result, the first fields have no records in them, and the attachments are read alike
  | prepare =>
    refine PrepareResult.format.read_trims ?_ (fun name v v' hv hin => ?_) hj h
    · exact ⟨.inr ⟨by decide, Field.takesNull_defaulted⟩, Attachments.described (by decide)⟩
    · exact Attachments.readsAlike_cons (by decide) hin (Attachments.readsAlike_schema hv hin)
  | start =>
    refine StartResult.format.read_trims ?_ (fun name v v' hv hin => ?_) hj h
    · exact ⟨.inr ⟨by decide, Field.takesNull_optional⟩, Attachments.described (by decide)⟩
    · exact Attachments.readsAlike_cons (by decide) hin (Attachments.readsAlike_schema hv hin)
  | status =>
    refine StatusResult.format.read_trims ?_ (fun name v v' hv hin => ?_) hj h
    · exact ⟨.inl (by decide), .inr ⟨by decide, Field.takesNull_optional⟩,
        Attachments.described (by decide)⟩
    · exact Attachments.readsAlike_cons (by decide) hin
        (Attachments.readsAlike_cons (by decide) hin (Attachments.readsAlike_schema hv hin))
  | stop =>
    refine StopResult.format.read_trims ?_ (fun name v v' hv hin => ?_) hj h
    · exact Attachments.described (by decide)
    · exact Attachments.readsAlike_schema hv hin

/-- **Unknown names and nulls do not matter.**  A tree `j` that lost any members of names that its
    record does not know, and any nulls where a value may be absent, in the record itself and in the
    records inside it, is converted to the same record as before, or fails with the same error. -/
theorem trims_convertAlike (k : RecordKind) {j j' : Json} (hj : j.WellKeyed)
    (h : k.Trims j j') :
    (Conversion.convert (.tree j) : Except ActionError k.Value) =
      Conversion.convert (.tree j') := by
  rw [Conversion.convert_tree hj, Conversion.convert_tree (wellKeyed_trims k hj h),
    Conversion.ofTree, Conversion.ofTree, read_trims k hj h]

/-- A status loses a member that has no field and a null, and so does one of its messages, but the
    null in its state is data.  Without a flag of completion it is refused, with the same error. -/
theorem trims_convertAlike_status :
    (∃ r : StatusResult,
      Conversion.convert (.tree (.obj [("completed", .bool true), ("error", .null),
        ("messages", .arr [.obj [("level", .null), ("message", .str "a"), ("origin", .str "b")]]),
        ("next", .bool true), ("state", .obj [("x", .null)])])) = .ok r ∧
      Conversion.convert (.tree (.obj [("completed", .bool true),
        ("messages", .arr [.obj [("message", .str "a")]]),
        ("state", .obj [("x", .null)])])) = .ok r) ∧
    ∃ e, (Conversion.convert (.tree (.obj [("done", .bool true), ("metrics", .null)])) :
        Except ActionError StatusResult) = .error e ∧
      (Conversion.convert (.tree (.obj [])) : Except ActionError StatusResult) = .error e := by
  constructor
  · have hmessage : message.FlatTrims (.obj [("level", .null), ("message", .str "a"),
        ("origin", .str "b")]) (.obj [("message", .str "a")]) :=
      .members (.drop (.inr ⟨by decide, rfl⟩) (.keep rfl (.drop (.inl (by decide)) .nil)))
    refine ⟨_, (trims_convertAlike .status ?_ (.members (.keep (.same _ _)
      (.drop (.inr ⟨by decide, rfl⟩) (.keep (.messages (.cons hmessage .nil))
        (.drop (.inl (by decide)) (.keep (.same _ _) .nil))))))).trans rfl, rfl⟩
    exact ⟨by decide, trivial, trivial, ⟨⟨by decide, trivial, trivial, trivial, trivial⟩, trivial⟩,
      trivial, ⟨by decide, trivial, trivial⟩, trivial⟩
  · refine ⟨_, (trims_convertAlike .status ?_ (.members (.drop (.inl (by decide))
      (.drop (.inr ⟨by decide, rfl⟩) .nil)))).trans rfl, rfl⟩
    exact ⟨by decide, trivial, trivial, trivial⟩

end RecordKind

end FaultAction
