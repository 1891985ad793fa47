import FaultAction.Text.Basic
import FaultAction.Text.Quoted
import FaultAction.Number.Text
import FaultAction.ActionError

namespace FaultAction

/-!
# Log, settings and sessions

What the builders of results read and write besides their results: settings from the environment of
the program, loaded when they are first needed, and a log.

* `LogRecord`           — a line of the log with its level;
* `Parameter`           — the parameters that are set from outside, by the names of their variables;
* `Parameter.value`     — the value of a parameter as a reader takes it; a value that the reader
  refuses counts as unset and is noted in the log;
* `Settings.ofVariable` — the settings by the text of their variable, with the log of it;
* `Settings.exceeds`    — is a state larger than the settings allow without a warning?
* `Session`             — the variable of the settings, the settings once loaded, the log so far;
* `Build α`             — builds an `α` in a session, or fails with an error;
* `Session.limit`       — the size limit, which loads the settings.
-/

/-! ### Log records -/

/-- How urgent a log record is, from `debug` upwards. -/
inductive LogLevel where
  | debug
  | info
  | warn
  | error
  deriving DecidableEq, Repr

/-- The name of a level, as a line of the log shows it. -/
def LogLevel.name : LogLevel → String
  | .debug => "DEBUG"
  | .info => "INFO"
  | .warn => "WARN"
  | .error => "ERROR"

/-- A line of a log: its `level` and its `text`. -/
structure LogRecord where
  level : LogLevel
  text : String
  deriving DecidableEq, Repr

/-! ### System parameters -/

/-- A parameter that is set from outside, by a variable of the environment. -/
inductive Parameter where
  /-- The greatest size of a state, in kilobytes, that is taken without a warning. -/
  | maxStateSizeKb
  deriving DecidableEq, Repr

namespace Parameter

/-- All parameters there are, for `ofName?` and `isName` to look through. -/
def all : List Parameter := [.maxStateSizeKb]

/-- The name of the variable that sets the parameter. -/
def name : Parameter → String
  | .maxStateSizeKb => "ACTIONKIT_MAX_ACTION_STATE_SIZE_KB"

/-- The parameter that the variable `name` sets, if it sets one. -/
def ofName? (name : String) : Option Parameter := all.find? fun p => p.name = name

/-- Does a variable called `name` set a parameter? -/
def isName (name : String) : Bool := all.any fun p => p.name = name

/-- The text of a variable by its `bytes`.  A variable that is not text counts as unset. -/
def textOfBytes? (bytes : List UInt8) : Option String :=
  String.fromUTF8? ⟨bytes.toArray⟩

/-- The warning that the variable of `p` has been set to `raw`, which no reader of the parameter
    takes. -/
def malformed (p : Parameter) (raw : String) : LogRecord :=
  ⟨.warn, "ignoring malformed value " ++ Text.quoted raw ++ " for " ++ p.name⟩

/-- The value of the parameter `p` by its variable, as the `reader` takes it without the white space
    around it.  What the reader refuses is `malformed`, and counts as unset. -/
def value {α : Type} (p : Parameter) (reader : List Char → Option α) :
    Option String → Option α × List LogRecord
  | none => (none, [])
  | some raw =>
    match reader (Text.trim raw.toList) with
    | some a => (some a, [])
    | none => (none, [p.malformed raw])

end Parameter

/-! ### Settings -/

/-- The settings of the builders of results, which `Settings.ofVariable` reads. -/
structure Settings where
  /-- The greatest size of a state, in kilobytes, that is taken without a warning. -/
  maxStateSizeKb : UInt64 := 256
  deriving DecidableEq

namespace Settings

/-- The settings by the text `raw` of their variable, if it is set: a natural number of 64 bits.
    Without a number the limit is its default. -/
def ofVariable (raw : Option String) : Settings × List LogRecord :=
  let (kb?, log) := Parameter.maxStateSizeKb.value (Decimal.unsigned? UInt64.size) raw
  match kb? with
  | some kb => ({ maxStateSizeKb := UInt64.ofNat kb }, log)
  | none => ({}, log)

/-- Is a `size` in bytes above the limit of `kb` kilobytes?  The limit in bytes is cut off at the
    greatest word, since it is counted in 64 bits. -/
def exceeds (size : Nat) (kb : UInt64) : Bool := min (kb.toNat * 1024) (UInt64.size - 1) < size

end Settings

/-! ### Sessions -/

/-- The state of a session, which the builders of results are run in. -/
structure Session where
  /-- The text of the variable of the settings, if it is set. -/
  variableText : Option String
  /-- The settings, once they are loaded; from then on the variable is not looked at. -/
  settings : Option Settings := none
  /-- The log records so far, the first one first. -/
  log : List LogRecord := []

/-- Builds an `α` in a session, or fails with an error.  The session is what it has become in either
    case, so the log of a failure is kept. -/
abbrev Build (α : Type) := ExceptT ActionError (StateM Session) α

namespace Session

/-- Adds a record with this `level` and `text` at the end of the log. -/
def note (level : LogLevel) (text : String) : StateM Session Unit :=
  modify fun s => { s with log := s.log ++ [⟨level, text⟩] }

/-- The size limit in kilobytes.  The settings are loaded the first time, and then what
    `Settings.ofVariable` has to log is added to the log. -/
def limit : StateM Session UInt64 := fun s =>
  match s.settings with
  | some settings => (settings.maxStateSizeKb, s)
  | none =>
    let (settings, log) := Settings.ofVariable s.variableText
    (settings.maxStateSizeKb, { s with settings := some settings, log := s.log ++ log })

end Session

end FaultAction
