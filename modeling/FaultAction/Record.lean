import FaultAction.ActionError
import FaultAction.Text.Base64
import FaultAction.Wire.Schema
import FaultAction.Settings
import FaultAction.Timestamp.Rfc3339

namespace FaultAction

/-!
# Records — artifacts, messages, metrics and problems

What results carry besides the state of an action:

* `Artifact` — a file that an action produced, with its content as base64 text; `Artifact.ofBytes`
  makes one of bytes and `Artifact.content` gives the bytes back;
* `Message`  — a line that an action shows to its user, with optional level, type, fields and time;
* `Metric`   — a measured value at an instant, with labels that tell what was measured;
* `Problem`  — what an action reports when it fails, in the form of problem details;
  `Problem.ofError` is the problem that stands for an error.

Each has a `format`, which names its fields in the order in which they are written.
-/

/-! ### Artifacts -/

/-- A file produced by an action, under a `label`. -/
structure Artifact where
  label : String
  /-- The content as base64 text; records from elsewhere may have any text for their `data`. -/
  data : String
  deriving DecidableEq

namespace Artifact

/-- The characters of the bytes `bs`, all of which are ASCII in a base64 text. -/
def charsOfBytes (bs : List UInt8) : List Char := bs.map fun b => Char.ofNat b.toNat

/-- The artifact with the content `bytes`, in base64. -/
def ofBytes (label : String) (bytes : List UInt8) : Artifact where
  label
  data := String.ofList (charsOfBytes (Base64.encode bytes))

/-- The content of the artifact `a`, or the error that its `data` is no base64 text, with the label
    and the first reason. -/
def content (a : Artifact) : Except ActionError (List UInt8) :=
  (Base64.decode a.data.toUTF8.data.toList).mapError fun e =>
    .ofKind .illegalArgument
      ("artifact " ++ a.label ++ " is not valid base64: " ++ e.message)

/-- The wire form of an `Artifact`: both fields are required. -/
def format : RecordFormat Artifact where
  title := "struct Artifact"
  types := [String, String]
  schema := .cons (.required "label") (.cons (.required "data") .nil)
  toRow a := (a.label, a.data, ())
  ofRow := fun (label, data, ()) => { label, data }

instance : Wire Artifact := format.wire

end Artifact

/-! ### Messages -/

/-- The level of a message, as its sender rates it. -/
inductive MessageLevel where
  | debug
  | info
  | warn
  | error
  deriving DecidableEq, Repr

namespace MessageLevel

/-- The levels by their `name`, for reading one from the wire. -/
def names : List (String × MessageLevel) :=
  [("debug", .debug), ("info", .info), ("warn", .warn), ("error", .error)]

/-- The name of a level on the wire, in lowercase. -/
def name : MessageLevel → String
  | .debug => "debug"
  | .info => "info"
  | .warn => "warn"
  | .error => "error"

/-- The level that has the `name`, if there is one. -/
def ofName? (name : String) : Option MessageLevel := Members.get? name names

/-- The level of the log record that a message of this level is shown with. -/
def logLevel : MessageLevel → LogLevel
  | .debug => .debug
  | .info => .info
  | .warn => .warn
  | .error => .error

instance : Wire MessageLevel where
  read := Wire.readVariant names
  write l := .str l.name

end MessageLevel

/-- A message of an action: a text, and what tells how to show it. -/
structure Message where
  message : String
  level : Option MessageLevel := none
  /-- The kind of view that the message is shown in. -/
  typeName : Option String := none
  fields : Option (Dictionary String) := none
  timestamp : Option Timestamp := none
  deriving DecidableEq

namespace Message

/-- The message `m` with this `level`, in place of the one it has had. -/
def withLevel (m : Message) (level : MessageLevel) : Message := { m with level := some level }

/-- The message `m` with `value` under `key` in its fields; the first field makes the dictionary
    that holds them. -/
def withField (m : Message) (key value : String) : Message :=
  { m with fields := some ((m.fields.getD .empty).insert key value) }

/-- The message `m` with this `timestamp`, in place of the one it has had. -/
def withTimestamp (m : Message) (timestamp : Timestamp) : Message :=
  { m with timestamp := some timestamp }

/-- The wire form of a message: all fields but the text itself are optional, and `typeName` is
    called `type`. -/
def format : RecordFormat Message where
  title := "struct Message"
  types :=
    [String, Option MessageLevel, Option String, Option (Dictionary String), Option Timestamp]
  schema :=
    .cons (.required "message")
      (.cons (.optional "level")
        (.cons (.optional "type")
          (.cons (.optional "fields")
            (.cons (.optional "timestamp") .nil))))
  toRow m := (m.message, m.level, m.typeName, m.fields, m.timestamp, ())
  ofRow := fun (message, level, typeName, fields, timestamp, ()) =>
    { message, level, typeName, fields, timestamp }

instance : Wire Message := format.wire

end Message

/-! ### Metrics -/

/-- A measurement: the `value` at an instant, with `labels` that tell what was measured. -/
structure Metric where
  name : Option String
  labels : Dictionary String
  timestamp : Timestamp
  value : Binary64

namespace Metric

/-- The measurement of `value` at `timestamp` under a `name`, without labels. -/
def ofValue (name : String) (value : Binary64) (timestamp : Timestamp) : Metric where
  name := some name
  labels := .empty
  timestamp
  value

/-- The measurement `m` with `value` for the label `key`, in place of the one it has had. -/
def withLabel (m : Metric) (key value : String) : Metric :=
  { m with labels := m.labels.insert key value }

/-- Equality of metrics, with their values compared by `Binary64.sameNumber` and all else by its
    fields. -/
instance : BEq Metric where
  beq a b :=
    decide (a.name = b.name) && decide (a.labels = b.labels) &&
      decide (a.timestamp = b.timestamp) && a.value.sameNumber b.value

/-- The wire form of a metric: `labels` are called `metric` and default to none, and the name is
    optional. -/
def format : RecordFormat Metric where
  title := "struct Metric"
  types := [Option String, Dictionary String, Timestamp, Binary64]
  schema :=
    .cons (.optional "name")
      (.cons (.defaulted "metric" .empty)
        (.cons (.required "timestamp")
          (.cons (.required "value") .nil)))
  toRow m := (m.name, m.labels, m.timestamp, m.value, ())
  ofRow := fun (name, labels, timestamp, value, ()) => { name, labels, timestamp, value }

instance : Wire Metric := format.wire

end Metric

/-! ### Problems -/

/-- The status of a problem, which tells whether the action did its work. -/
inductive ProblemStatus where
  /-- The action found what it looks for, such as a check that does not pass. -/
  | failed
  /-- The action itself could not be carried out. -/
  | errored
  deriving DecidableEq, Repr

namespace ProblemStatus

/-- The statuses by their `name`, for reading one from the wire. -/
def names : List (String × ProblemStatus) := [("failed", .failed), ("errored", .errored)]

/-- The name of a status on the wire, in lowercase. -/
def name : ProblemStatus → String
  | .failed => "failed"
  | .errored => "errored"

/-- The status that has the `name`, if there is one. -/
def ofName? (name : String) : Option ProblemStatus := Members.get? name names

instance : Wire ProblemStatus where
  read := Wire.readVariant names
  write s := .str s.name

end ProblemStatus

/-- A problem that an action reports, with a `title` and optional details. -/
structure Problem where
  /-- A short summary, the same for all occurrences of the problem. -/
  title : String
  /-- What is particular to this occurrence of the problem. -/
  detail : Option String := none
  /-- A reference that identifies this occurrence of the problem. -/
  instanceRef : Option String := none
  status : Option ProblemStatus := none
  /-- A reference that identifies the type of the problem. -/
  typeRef : Option String := none
  deriving DecidableEq

namespace Problem

/-- The problem that stands for the error `e`: its display text for a title, and the text of its
    cause for a detail. -/
def ofError (e : ActionError) : Problem where
  title := e.displayText
  detail := e.cause.map Cause.text
  status := some .errored

/-- The wire form of a problem: only the title is required, and the two references go without their
    `Ref`. -/
def format : RecordFormat Problem where
  title := "struct ActionKitError"
  types := [String, Option String, Option String, Option ProblemStatus, Option String]
  schema :=
    .cons (.required "title")
      (.cons (.optional "detail")
        (.cons (.optional "instance")
          (.cons (.optional "status")
            (.cons (.optional "type") .nil))))
  toRow p := (p.title, p.detail, p.instanceRef, p.status, p.typeRef, ())
  ofRow := fun (title, detail, instanceRef, status, typeRef, ()) =>
    { title, detail, instanceRef, status, typeRef }

instance : Wire Problem := format.wire

end Problem

end FaultAction
