import FaultAction.ActionState
import FaultAction.Record

namespace FaultAction

/-!
# Results — what the steps of an action hand back

All results have the same `Attachments`; they differ in the state:

* `PrepareResult`  — the state is there always;
* `StartResult`    — a state may replace the one of the step before;
* `StatusResult`   — the same, and tells whether the action has completed;
* `StopResult`     — no state;
* `Modifier`       — sets or clears one of the attachments of a result;
* `applyModifiers` — a result with modifiers applied in order, so that of two of one kind the later
  one counts.
-/

/-! ### Results of the steps -/

/-- What every result may carry besides its state, each part of which may be absent. -/
structure Attachments where
  artifacts : Option (List Artifact) := none
  error : Option Problem := none
  messages : Option (List Message) := none
  metrics : Option (List Metric) := none

namespace Attachments

/-- Two `Attachments` with equal fields are equal. -/
@[ext] theorem ext {a b : Attachments} (artifacts : a.artifacts = b.artifacts)
    (error : a.error = b.error) (messages : a.messages = b.messages)
    (metrics : a.metrics = b.metrics) : a = b := by
  cases a; cases b; simp_all

/-- Equality of attachments, with the values of `metrics` compared as numbers and all else by its
    fields. -/
instance : BEq Attachments where
  beq a b :=
    decide (a.artifacts = b.artifacts) && decide (a.error = b.error) &&
      decide (a.messages = b.messages) && a.metrics == b.metrics

/-- The types of the fields in `schema`, for the rows of every result. -/
abbrev types : List Type :=
  [Option (List Artifact), Option Problem, Option (List Message), Option (List Metric)]

/-- The fields that every result has, all of which are optional. -/
def schema : Schema types :=
  .cons (.optional "artifacts")
    (.cons (.optional "error")
      (.cons (.optional "messages")
        (.cons (.optional "metrics") .nil)))

/-- The attachments `a` as the values of the fields in `schema`. -/
def toRow (a : Attachments) : Row types := (a.artifacts, a.error, a.messages, a.metrics, ())

/-- The attachments that have these values in the fields of `schema`. -/
def ofRow : Row types → Attachments :=
  fun (artifacts, error, messages, metrics, ()) => { artifacts, error, messages, metrics }

end Attachments

/-- The result of preparing an action.  Its `state` is the first one that the action has. -/
structure PrepareResult extends Attachments where
  state : ActionState := .empty

/-- The result of starting an action; without a `state` the one of the step before is kept. -/
structure StartResult extends Attachments where
  state : Option ActionState := none

/-- The result of asking for the status of an action, which says whether the action has
    `completed`. -/
structure StatusResult extends Attachments where
  completed : Bool := false
  state : Option ActionState := none

/-- The result of stopping an action, after which no state is needed. -/
structure StopResult extends Attachments

/-! ### Equality -/

instance : BEq PrepareResult where
  beq a b := a.state == b.state && a.toAttachments == b.toAttachments

instance : BEq StartResult where
  beq a b := a.state == b.state && a.toAttachments == b.toAttachments

instance : BEq StatusResult where
  beq a b :=
    a.completed == b.completed && a.state == b.state && a.toAttachments == b.toAttachments

instance : BEq StopResult where
  beq a b := a.toAttachments == b.toAttachments

/-! ### Wire forms -/

/-- The wire form of a `PrepareResult`, in which a missing or null state is read as the empty
    one. -/
def PrepareResult.format : RecordFormat PrepareResult where
  title := "struct PrepareResult"
  types := ActionState :: Attachments.types
  schema := .cons (.defaulted "state" .empty) Attachments.schema
  toRow r := (r.state, r.toAttachments.toRow)
  ofRow := fun (state, row) => { Attachments.ofRow row with state }

/-- The wire form of a `StartResult`, in which a missing or null state is none. -/
def StartResult.format : RecordFormat StartResult where
  title := "struct StartResult"
  types := Option ActionState :: Attachments.types
  schema := .cons (.optional "state") Attachments.schema
  toRow r := (r.state, r.toAttachments.toRow)
  ofRow := fun (state, row) => { Attachments.ofRow row with state }

/-- The wire form of a status result, in which `completed` must be there. -/
def StatusResult.format : RecordFormat StatusResult where
  title := "struct StatusResult"
  types := Bool :: Option ActionState :: Attachments.types
  schema := .cons (.required "completed") (.cons (.optional "state") Attachments.schema)
  toRow r := (r.completed, r.state, r.toAttachments.toRow)
  ofRow := fun (completed, state, row) => { Attachments.ofRow row with completed, state }

/-- The wire form of a `StopResult`, which is that of its attachments. -/
def StopResult.format : RecordFormat StopResult where
  title := "struct StopResult"
  types := Attachments.types
  schema := Attachments.schema
  toRow r := r.toAttachments.toRow
  ofRow row := { Attachments.ofRow row with }

instance : Wire PrepareResult := PrepareResult.format.wire

instance : Wire StartResult := StartResult.format.wire

instance : Wire StatusResult := StatusResult.format.wire

instance : Wire StopResult := StopResult.format.wire

/-! ### Modifiers -/

/-- A change of one attachment: its new value, or nothing to clear it. -/
inductive Modifier where
  | artifacts (value : Option (List Artifact))
  | error (value : Option Problem)
  | messages (value : Option (List Message))
  | metrics (value : Option (List Metric))

/-- The attachments `a` after a change, in which all but one field are as before. -/
def Attachments.apply (a : Attachments) : Modifier → Attachments
  | .artifacts value => { a with artifacts := value }
  | .error value => { a with error := value }
  | .messages value => { a with messages := value }
  | .metrics value => { a with metrics := value }

/-- A type `ρ` of results with attachments, which can be looked at and replaced. -/
class HasAttachments (ρ : Type) where
  attachments : ρ → Attachments
  withAttachments : ρ → Attachments → ρ

instance : HasAttachments PrepareResult where
  attachments r := r.toAttachments
  withAttachments r a := { r with toAttachments := a }

instance : HasAttachments StartResult where
  attachments r := r.toAttachments
  withAttachments r a := { r with toAttachments := a }

instance : HasAttachments StatusResult where
  attachments r := r.toAttachments
  withAttachments r a := { r with toAttachments := a }

instance : HasAttachments StopResult where
  attachments r := r.toAttachments
  withAttachments _ a := { toAttachments := a }

section

variable {ρ : Type} [HasAttachments ρ]

/-- The result `r` after the change `m` of its attachments; the state stays as it is. -/
def applyModifier (r : ρ) (m : Modifier) : ρ :=
  HasAttachments.withAttachments r ((HasAttachments.attachments r).apply m)

/-- The result `r` after the changes `ms`, the first one first. -/
def applyModifiers (r : ρ) (ms : List Modifier) : ρ := ms.foldl applyModifier r

end

end FaultAction
