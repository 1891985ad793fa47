import FaultAction.Text.Basic

namespace FaultAction

/-!
# Errors of actions — codes, messages and causes

An error has a code, a display text and perhaps a cause, which may be an error again:

* `ActionError`, `Cause`     — errors and what they wrap;
* `ActionError.message`      — the display text, followed by the text of the cause;
* `ActionError.text`         — the message with its code;
* `ActionError.sources`      — the texts of the causes, from the outermost inwards;
* `ActionError.ofReport`     — the error of a report, that is, of a root cause with contexts;
* `Cause.detailedText`       — the listing of a report with all its contexts and causes.

A report is closed: whoever walks the causes of an error sees a report as one cause, with the text
of its outermost context.
-/

/-- The kinds of errors that are made here, each with a `code` of its own. -/
inductive ErrorKind where
  | unimplemented
  | illegalArgument
  | stateConversionFailed
  | stateDecodeFailed
  deriving DecidableEq, Repr

/-- The code of each kind, which is what other programs see of the kind. -/
def ErrorKind.code : ErrorKind → UInt16
  | .unimplemented => 1001
  | .illegalArgument => 1002
  | .stateConversionFailed => 1010
  | .stateDecodeFailed => 1011

/-- The kind that has the `code`, if there is one: codes may come from elsewhere. -/
def ErrorKind.ofCode? (code : UInt16) : Option ErrorKind :=
  [.unimplemented, .illegalArgument, .stateConversionFailed, .stateDecodeFailed].find?
    fun k => k.code = code

mutual

/-- An error of an action, with its `code`, its `displayText` and what caused it.  A `traced` error
    remembers where it was made. -/
structure ActionError where
  code : UInt16
  displayText : String
  cause : Option Cause
  traced : Bool

/-- What an error wraps as its `cause`: an error of an action, one that is known by its text only,
    or a report. -/
inductive Cause where
  /-- An error that is known by its `text` only. -/
  | plain (text : String)
  /-- An error `e` of an action, with causes of its own. -/
  | error (e : ActionError)
  /-- A root cause with `contexts`, the outermost one first. -/
  | report (contexts : List String) (root : Cause)

end

/-- An error as it is shown: the `code` in digits and the `message`. -/
def ActionError.frame (code : UInt16) (message : String) : String :=
  "Code: " ++ Decimal.ofNat code.toNat ++ ", displayText = " ++ message ++ "."

mutual

/-- The message of an error: its `displayText`, followed by the text of its cause after a colon. -/
def ActionError.message : ActionError → String
  | ⟨_, displayText, none, _⟩ => displayText
  | ⟨_, displayText, some cause, _⟩ => displayText ++ ": " ++ cause.text
termination_by structural e => e

/-- The text of a cause.  A `report` shows its outermost context, and its root only if it has no
    context. -/
def Cause.text : Cause → String
  | .plain text => text
  | .error e => ActionError.frame e.code e.message
  | .report [] root => root.text
  | .report (context :: _) _ => context
termination_by structural c => c

end

/-- The text of the error `e`, that is, its code and message in the `frame`. -/
def ActionError.text (e : ActionError) : String := ActionError.frame e.code e.message

mutual

/-- The texts of the causes of an error, from the outermost one inwards, as a walk over the `cause`
    of each finds them. -/
def ActionError.sources : ActionError → List String
  | ⟨_, _, none, _⟩ => []
  | ⟨_, _, some cause, _⟩ => cause.texts
termination_by structural e => e

/-- The `text` of a cause, and those of its own causes.  What is inside a report stays hidden:
    neither its further contexts nor its root are walked. -/
def Cause.texts : Cause → List String
  | .plain text => [text]
  | .error e => e.text :: e.sources
  | .report contexts root => [(Cause.report contexts root).text]
termination_by structural c => c

end

namespace ActionError

/-! ### Making errors -/

/-- The error of a `kind` with this `displayText` and no cause yet. -/
def ofKind (kind : ErrorKind) (displayText : String) : ActionError :=
  ⟨kind.code, displayText, none, true⟩

/-- The error of a foreign error's `text`, which is all that is kept of it. -/
def ofText (text : String) : ActionError := ofKind .unimplemented text

/-- The error `e` with `cause` as its cause, in place of the one it has had. -/
def withCause (e : ActionError) (cause : Cause) : ActionError := { e with cause := some cause }

/-- The error of a report: the outermost text becomes its display text, and the report with all its
    `contexts` its cause. -/
def ofReport (contexts : List String) (root : Cause) : ActionError :=
  (ofText (Cause.report contexts root).text).withCause (.report contexts root)

/-! ### Detailed texts -/

/-- The text of the error `e` with a note on its trace, if it has one. -/
def detailedText (e : ActionError) : String :=
  if e.traced then
    e.text ++
      "\n\n<Backtrace disabled by default. Please use RUST_BACKTRACE=1 to enable> "
  else e.text

/-- The `text` after `head`, with each further line of it after `indent`. -/
def indented (head indent text : String) : String :=
  head ++ String.ofList (text.toList.flatMap fun c => if c = '\n' then c :: indent.toList else [c])

/-- The `number` right-aligned in a column of five places, and the `text` after it, set in by as
    much. -/
def numbered (number : Nat) (text : String) : String :=
  let head := String.ofList (List.leftpad 5 ' ' (Decimal.digits number)) ++ ": "
  indented head "       " text

/-- The texts of a report with all its causes, as a listing: a single cause is set in, several are
    `numbered`. -/
def listing : List String → String
  | [] => ""
  | [text] => text
  | [text, cause] => text ++ "\n\nCaused by:\n" ++ indented "    " "    " cause
  | text :: causes =>
    text ++ "\n\nCaused by:\n" ++ "\n".intercalate (causes.mapIdx numbered)

end ActionError

/-- The `listing` of a report with all its contexts and causes; any other cause is given by its
    text. -/
def Cause.detailedText : Cause → String
  | .report contexts root => ActionError.listing (contexts ++ root.texts)
  | cause => cause.text

end FaultAction
