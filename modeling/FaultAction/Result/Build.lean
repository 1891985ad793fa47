import FaultAction.Result.Basic
import FaultAction.Settings

namespace FaultAction

/-!
# Building results — from a caller's state and modifiers

The result of a step is built of the caller's state and of modifiers:

* `encodeState`        — the state of a caller's value, with a warning when it is too large;
* `PrepareResult.build`, `StartResult.build`, `StatusResult.build`, `StopResult.build` — the four
  results;
* `StartResult.buildStateless`, `StatusResult.buildStateless` — the same for actions that keep no
  state.

Only a state can make a builder fail.  Then nothing is built, the modifiers do not matter, and the
error names the reason as its cause.
-/

/-- The text of the error and of the warning when `encodeState` fails. -/
def encodeFailed : String := "Failed to encode action state"

/-- The error of a state that cannot be encoded, with the reason as its `cause`. -/
def encodeError (cause : ActionError) : ActionError :=
  (ActionError.ofKind .stateConversionFailed encodeFailed).withCause (.error cause)

/-- The warning about a state of so many bytes, by its estimate, with a limit of `kb` kilobytes. -/
def oversizeText (size : Nat) (kb : UInt64) : String :=
  "Action state of " ++ Decimal.ofNat size ++ " bytes exceeds the configured threshold of " ++
    Decimal.ofNat kb.toNat ++ " KB"

/-- The state of the caller's value `source`.  A state that cannot be encoded is an error and a
    warning; one that is too large is only a warning. -/
def encodeState (source : Source) : Build ActionState := do
  match ActionState.ofSource source with
  | .error e =>
    Session.note .warn (encodeFailed ++ ": " ++ e.message)
    throw (encodeError e)
  | .ok state =>
    let kb ← Session.limit
    if Settings.exceeds state.size kb then
      Session.note .warn (oversizeText state.size kb)
    return state

/-- The state of a caller's value, as `encodeState` gives it, if there is a value. -/
def encodeState? : Option Source → Build (Option ActionState)
  | none => return none
  | some source => some <$> encodeState source

/-- The boolean `b` in a log record. -/
def boolText (b : Bool) : String := if b then "true" else "false"

/-- The result of preparing an action, of the caller's state and the modifiers `ms`.  The record of
    it in the log has the number of entries. -/
def PrepareResult.build (source : Source) (ms : List Modifier) : Build PrepareResult := do
  let state ← encodeState source
  let r : PrepareResult := applyModifiers { state } ms
  Session.note .debug
    ("Prepare result built, state entries: " ++ Decimal.ofNat r.state.length)
  return r

/-- The number of entries of a state in a log record, if there is a state. -/
def entriesText : Option ActionState → String
  | none => "None"
  | some state => "Some(" ++ Decimal.ofNat state.length ++ ")"

/-- The result of starting an action, with or without a state by `source`.  The record of it in the
    log tells whether there is an error. -/
def StartResult.build (source : Option Source) (ms : List Modifier) : Build StartResult := do
  let state ← encodeState? source
  let r : StartResult := applyModifiers { state } ms
  Session.note .debug
    ("Start result built, state entries: " ++ entriesText r.state ++
      ", error: " ++ boolText r.error.isSome)
  return r

/-- The result of starting an action that keeps no state, with the modifiers `ms`. -/
def StartResult.buildStateless (ms : List Modifier) : Build StartResult :=
  StartResult.build none ms

/-- The result of asking for the status of an action, with or without a state.  The record of it in
    the log has the flag `completed`. -/
def StatusResult.build (completed : Bool) (source : Option Source) (ms : List Modifier) :
    Build StatusResult := do
  let state ← encodeState? source
  let r : StatusResult := applyModifiers { completed, state } ms
  Session.note .debug
    ("Status result built, completed: " ++ boolText r.completed ++
      ", error: " ++ boolText r.error.isSome)
  return r

/-- The result of asking for the status of an action that keeps no state, be it `completed` or
    not. -/
def StatusResult.buildStateless (completed : Bool) (ms : List Modifier) : Build StatusResult :=
  StatusResult.build completed none ms

/-- The result of stopping an action, with the modifiers `ms`, which is not logged. -/
def StopResult.build (ms : List Modifier) : Build StopResult :=
  return applyModifiers {} ms

end FaultAction
