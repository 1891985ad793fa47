import FaultAction.Source
import FaultAction.Wire.Schema

namespace FaultAction

/-!
# States of callers

Records that actions keep as their state: `Counter`, `Stress`, `Blackhole` and `Target`.  Each is
read from the wire by its format, and its `source` is what a caller hands in.
-/

/-- A counter `x`, which some action counts up. -/
structure Counter where
  x : Int32
  deriving DecidableEq

/-- A stress test of the container `containerId`: how many `workers` run, for how long, and against
    what. -/
structure Stress where
  containerId : String
  workers : UInt32
  timeoutMs : Int64
  targets : List String
  deriving DecidableEq

/-- A container that is cut off from the `ipRanges`, with the number of rules that this has
    taken. -/
structure Blackhole where
  executionId : String
  containerId : String
  ipRanges : List String
  restrictTo : Option String
  ruleCount : UInt64
  deriving DecidableEq

/-- A process of a container, by its number `pid`. -/
structure Target where
  containerId : String
  pid : UInt32
  deriving DecidableEq

/-! ### As caller values -/

/-- The counter `c` as a caller's value; the name of its field is in uppercase. -/
def Counter.source (c : Counter) : Source := .record [("X", .integer (.ofInt32 c.x))]

/-- The stress test `s` as a caller's value, with its fields in the order of declaration. -/
def Stress.source (s : Stress) : Source :=
  .record
    [("containerId", .text s.containerId),
      ("workers", .integer (.ofUInt32 s.workers)),
      ("timeoutMs", .integer (.ofInt64 s.timeoutMs)),
      ("targets", .seq (s.targets.map .text))]

/-- A string that may be absent, as a caller's value: `some s` is written as `s` alone. -/
def CallerState.optionalText : Option String → Source
  | none => .nothing
  | some s => .present (.text s)

/-- The container `b` that is cut off, as a caller's value.  Its field `ruleCount` may be any
    unsigned number of 64 bits. -/
def Blackhole.source (b : Blackhole) : Source :=
  .record
    [("executionId", .text b.executionId),
      ("containerId", .text b.containerId),
      ("ipRanges", .seq (b.ipRanges.map .text)),
      ("restrictTo", CallerState.optionalText b.restrictTo),
      ("ruleCount", .integer (.ofUInt64 b.ruleCount))]

/-- The process `t` as a caller's value, with names of fields in snake case. -/
def Target.source (t : Target) : Source :=
  .record [("container_id", .text t.containerId), ("pid", .integer (.ofUInt32 t.pid))]

/-! ### Wire forms -/

namespace CallerState

/-- The wire form of a `Counter`, whose name there is in upper case. -/
def counterFormat : RecordFormat Counter where
  title := "struct Counter"
  types := [Int32]
  schema := .cons (.required "X") .nil
  toRow c := (c.x, ())
  ofRow := fun (x, ()) => { x }

/-- The wire form of a `Stress`, all fields of which are required. -/
def stressFormat : RecordFormat Stress where
  title := "struct Stress"
  types := [String, UInt32, Int64, List String]
  schema :=
    .cons (.required "containerId")
      (.cons (.required "workers")
        (.cons (.required "timeoutMs")
          (.cons (.required "targets") .nil)))
  toRow s := (s.containerId, s.workers, s.timeoutMs, s.targets, ())
  ofRow := fun (containerId, workers, timeoutMs, targets, ()) =>
    { containerId, workers, timeoutMs, targets }

/-- The wire form of a container that is cut off.  Only `restrictTo` may be absent, and it is
    written as null then. -/
def blackholeFormat : RecordFormat Blackhole where
  title := "struct Blackhole"
  types := [String, String, List String, Option String, UInt64]
  schema :=
    .cons (.required "executionId")
      (.cons (.required "containerId")
        (.cons (.required "ipRanges")
          (.cons (.nullable "restrictTo")
            (.cons (.required "ruleCount") .nil))))
  toRow b := (b.executionId, b.containerId, b.ipRanges, b.restrictTo, b.ruleCount, ())
  ofRow := fun (executionId, containerId, ipRanges, restrictTo, ruleCount, ()) =>
    { executionId, containerId, ipRanges, restrictTo, ruleCount }

/-- The wire form of a `Target`, which is a process. -/
def targetFormat : RecordFormat Target where
  title := "struct Target"
  types := [String, UInt32]
  schema := .cons (.required "container_id") (.cons (.required "pid") .nil)
  toRow t := (t.containerId, t.pid, ())
  ofRow := fun (containerId, pid, ()) => { containerId, pid }

end CallerState

instance : Wire Counter := CallerState.counterFormat.wire

instance : Wire Stress := CallerState.stressFormat.wire

instance : Wire Blackhole := CallerState.blackholeFormat.wire

instance : Wire Target := CallerState.targetFormat.wire

end FaultAction
