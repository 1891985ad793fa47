import FaultAction.Proofs.Source
import FaultAction.Proofs.Wire.FirstField
import FaultAction.Result.Basic

namespace FaultAction

/-!
# Results — one object read as different results

The results differ in their first fields only, so an object that is read as one of them is read as
the others too, up to what these fields make of it:

* `StartResult.toPrepare`, `StartResult.toStop`, `StartResult.toStatus` — a start result as a result
  of another type;
* `ofTree_of_read` — what is read alike is converted alike;
* `results_readAlike` — every result is read from an object as the start result is.
-/

namespace StartResult

/-- The result `r` as a prepare result, where no state is the empty one. -/
def toPrepare (r : StartResult) : PrepareResult :=
  { toAttachments := r.toAttachments, state := r.state.getD .empty }

/-- The result `r` as a stop result, without the state. -/
def toStop (r : StartResult) : StopResult := { toAttachments := r.toAttachments }

/-- The result `r` as a status result with this flag of completion. -/
def toStatus (completed : Bool) (r : StartResult) : StatusResult :=
  { toAttachments := r.toAttachments, completed, state := r.state }

end StartResult

/-! ### Reading -/

/-- None of the fields of a `StartResult` is required, so that each may be missing. -/
theorem StartResult.noneRequired : StartResult.format.schema.NoneRequired :=
  ⟨Option.some_ne_none _, Option.some_ne_none _, Option.some_ne_none _, Option.some_ne_none _,
    Option.some_ne_none _, trivial⟩

section

variable {ms : Members Json}

/-- The reader of start results, on an object of the members `ms`, goes by its format. -/
theorem StartResult.read_obj (ms : Members Json) :
    (Wire.read (.obj ms) : Except ReadError StartResult) =
      StartResult.format.ofRow <$> StartResult.format.schema.ofMembers ms := rfl

/-- A prepare result is read as a start result, and its state may be missing or null for the same
    reason, since one field is `defaulted` and the other `optional`. -/
theorem PrepareResult.read_eq (ms : Members Json) :
    (Wire.read (.obj ms) : Except ReadError PrepareResult) =
      StartResult.toPrepare <$> Wire.read (.obj ms) := by
  have hrows : PrepareResult.format.schema.ofMembers ms =
      Row.mapFirst (Option.getD · .empty) <$> StartResult.format.schema.ofMembers ms :=
    Schema.ofMembers_map _ rfl (fun _ => rfl) rfl
  show PrepareResult.format.ofRow <$> PrepareResult.format.schema.ofMembers ms = _
  rw [hrows, StartResult.read_obj]
  cases StartResult.format.schema.ofMembers ms <;> rfl

/-- A stop result is read as a start result is read from the object `ms` without a state. -/
theorem StopResult.read_eq (ms : Members Json) :
    (Wire.read (.obj ms) : Except ReadError StopResult) =
      StartResult.toStop <$> Wire.read (.obj (ms.filter fun m => m.1 ≠ "state")) := by
  have hrows : StartResult.format.schema.ofMembers (ms.filter fun m => m.1 ≠ "state") =
      Row.cons none <$> Attachments.schema.ofMembers ms :=
    Schema.ofMembers_absent (f := Field.optional "state") (by decide) rfl
  -- the fields of a stop result are those of a start result after the state
  show StopResult.format.ofRow <$> Attachments.schema.ofMembers ms = _
  rw [StartResult.read_obj, hrows]
  cases Attachments.schema.ofMembers ms <;> rfl

/-- With the flag `completed`, a status result is read as a start result, and the flag is its
    own. -/
theorem StatusResult.read_eq {completed : Bool} (hms : ms.Ascending)
    (h : Members.get? "completed" ms = some (.bool completed)) :
    (Wire.read (.obj ms) : Except ReadError StatusResult) =
      StartResult.toStatus completed <$> Wire.read (.obj ms) := by
  have hrows : StatusResult.format.schema.ofMembers ms =
      Row.cons completed <$> StartResult.format.schema.ofMembers ms :=
    Schema.ofMembers_present (f := Field.required "completed") (by decide) hms h rfl
  show StatusResult.format.ofRow <$> StatusResult.format.schema.ofMembers ms = _
  rw [hrows, StartResult.read_obj]
  cases StartResult.format.schema.ofMembers ms <;> rfl

/-- Without the flag `completed`, a status result is refused for it, unless the object is no start
    result either. -/
theorem StatusResult.read_eq_missing (h : Members.get? "completed" ms = none) :
    (Wire.read (.obj ms) : Except ReadError StatusResult) =
      (Wire.read (.obj ms) : Except ReadError StartResult) >>=
        fun _ => .error (.missingField "completed") := by
  have hrows : StatusResult.format.schema.ofMembers ms =
      StartResult.format.schema.ofMembers ms >>= fun _ => .error (.missingField "completed") :=
    Schema.ofMembers_missing (f := Field.required "completed") (by decide)
      StartResult.noneRequired h rfl
  show StatusResult.format.ofRow <$> StatusResult.format.schema.ofMembers ms = _
  rw [hrows, StartResult.read_obj]
  cases StartResult.format.schema.ofMembers ms <;> rfl

end

/-! ### Conversion -/

/-- What is read alike up to a function `f` is converted alike, errors included. -/
theorem ofTree_of_read {α β : Type} [Wire α] [Wire β] {f : α → β} {i j : Json}
    (h : (Wire.read i : Except ReadError β) = f <$> Wire.read j) :
    (Conversion.ofTree i : Except ActionError β) = f <$> Conversion.ofTree j := by
  rw [Conversion.ofTree, h, mapError_map]
  rfl

/-- **Results are read alike.**  Every object `d` is read as a prepare result as it is read as a
    start result, with the empty state where there is none; as a stop result it is read as a start
    result without its state; and as a status result it is read as a start result if it has a flag
    of completion, whereas without one the missing flag is the error of those objects that are start
    results. -/
theorem results_readAlike (d : Dictionary Json) :
    (Conversion.ofTree (.obj d.entries) : Except ActionError PrepareResult) =
      StartResult.toPrepare <$> Conversion.ofTree (.obj d.entries) ∧
    (Conversion.ofTree (.obj d.entries) : Except ActionError StopResult) =
      StartResult.toStop <$> Conversion.ofTree (.obj (d.entries.filter fun m => m.1 ≠ "state")) ∧
    (∀ completed, d.get? "completed" = some (.bool completed) →
      (Conversion.ofTree (.obj d.entries) : Except ActionError StatusResult) =
        StartResult.toStatus completed <$> Conversion.ofTree (.obj d.entries)) ∧
    (d.get? "completed" = none →
      (Conversion.ofTree (.obj d.entries) : Except ActionError StatusResult) =
        match (Conversion.ofTree (.obj d.entries) : Except ActionError StartResult) with
        | .error e => .error e
        | .ok _ => .error (.ofText "missing field `completed`")) := by
  refine ⟨ofTree_of_read (PrepareResult.read_eq _), ofTree_of_read (StopResult.read_eq _), ?_, ?_⟩
  · intro completed h
    exact ofTree_of_read (StatusResult.read_eq d.ascending h)
  · -- the missing flag is the error unless reading has failed before
    intro h
    rw [Conversion.ofTree, Conversion.ofTree, StatusResult.read_eq_missing h]
    cases (Wire.read (.obj d.entries) : Except ReadError StartResult) <;> rfl

/-- A flag of completion alone is a status result, and without it even a null state is refused. -/
theorem results_readAlike_flag :
    (Conversion.ofTree (.obj [("completed", .bool true)]) : Except ActionError StatusResult) =
      .ok { completed := true } ∧
    (Conversion.ofTree (.obj [("state", .null)]) : Except ActionError StatusResult) =
      .error (.ofText "missing field `completed`") := by
  obtain ⟨-, -, hpresent, -⟩ := results_readAlike ⟨[("completed", .bool true)], by decide⟩
  obtain ⟨-, -, -, hmissing⟩ := results_readAlike ⟨[("state", .null)], by decide⟩
  exact ⟨hpresent true rfl, hmissing rfl⟩

end FaultAction
