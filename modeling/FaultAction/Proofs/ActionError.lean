import FaultAction.ActionError
import FaultAction.Record

namespace FaultAction

/-!
# Errors — causes and chains

Whoever looks for the reason of an error asks it for its cause, that one for its own, and so on:

* `Cause.source?`          — one step of this walk;
* `ActionError.sources_eq`, `Cause.texts_eq` — the texts of the causes are those met on it;
* `ActionError.sources_ofReport` — of a report the walk meets the outermost text and nothing else;
* `ActionError.report_reachable_iff` — so it meets all texts only if the report has no contexts,
  though the report as a whole is kept as the cause, with all its texts.

An error may wrap an error that wraps another one, and so on.  Its text then holds the texts of all
of them, one inside the other:

* `chained`, `wrapped` — a chain of errors, and the errors that its first one wraps;
* `message_chained`    — the message of a chain, link by link, with a full stop at the end for each
  error below the first;
* `sources_chained`    — on the way through its causes one meets the errors below the first;
* `foldl_withCause`    — of several causes that are attached to one error the last one stays;
* `Problem.message_eq` — the problem of an error has the parts of its message;
* `chain_keepsTexts`   — all of this together.
-/

/-! ### Walking the causes -/

/-- What a cause wraps in its turn, which is the next step of the walk.  A report keeps its contexts
    and its root to itself. -/
def Cause.source? : Cause → Option Cause
  | .error e => e.cause
  | .plain _ | .report _ _ => none

/-- The texts in `e.sources` begin with the cause of `e`, if there is one. -/
theorem ActionError.sources_eq (e : ActionError) : e.sources = e.cause.elim [] Cause.texts := by
  obtain ⟨_, _, cause, _⟩ := e
  cases cause <;> rfl

/-- The texts from the cause `c` on are its own text and those of what it wraps, as `source?` steps
    to it. -/
theorem Cause.texts_eq (c : Cause) : c.texts = c.text :: c.source?.elim [] Cause.texts := by
  cases c with
  | plain text => rfl
  | error e =>
    rw [Cause.texts, e.sources_eq]
    rfl
  | report contexts root => rfl

/-- The text of a report is that of its outermost context, or of its `root` if there is none. -/
theorem Cause.text_report (contexts : List String) (root : Cause) :
    (Cause.report contexts root).text = contexts.headD root.text := by
  cases contexts <;> rfl

namespace ActionError

/-- On the way through the causes of `ofReport contexts root` one meets its text and nothing else,
    for a report wraps nothing. -/
theorem sources_ofReport (contexts : List String) (root : Cause) :
    (ofReport contexts root).sources = [contexts.headD root.text] := by
  have hcause : (ofReport contexts root).cause = some (.report contexts root) := rfl
  rw [sources_eq, hcause, ← Cause.text_report]
  exact Cause.texts_eq (.report contexts root)

/-- **Causes of a report.**  The error of a report keeps the report as its cause, and shows the
    outermost text of it; from there one meets all its texts, from the outermost context down to the
    root, exactly if there are no `contexts`. -/
theorem report_reachable_iff (contexts : List String) (root : String) :
    (ofReport contexts (.plain root)).cause = some (.report contexts (.plain root)) ∧
    (ofReport contexts (.plain root)).displayText = contexts.headD root ∧
    (ofReport contexts (.plain root)).sources = [contexts.headD root] ∧
    ((contexts ++ [root]).Sublist (ofReport contexts (.plain root)).sources ↔ contexts = []) := by
  have hsources : (ofReport contexts (.plain root)).sources = [contexts.headD root] :=
    sources_ofReport contexts (.plain root)
  refine ⟨rfl, Cause.text_report contexts (.plain root), hsources, ?_⟩
  rw [hsources]
  constructor
  · intro hsub
    -- one text has no room for a context beside the root
    have hlength := hsub.length_le
    rw [List.length_append, List.length_singleton, List.length_singleton] at hlength
    exact List.length_eq_zero_iff.1 (by omega)
  · rintro rfl
    exact List.Sublist.refl _

/-- With two contexts, neither the inner one nor the root is met on the walk from `ofReport`. -/
theorem not_report_reachable_contexts :
    (ofReport ["outer", "mid"] (.plain "root")).sources = ["outer"] ∧
    ¬["outer", "mid", "root"].Sublist (ofReport ["outer", "mid"] (.plain "root")).sources := by
  decide

end ActionError

/-! ### Chains -/

/-- What `cause` adds to a message: its text after a colon, if there is one. -/
def Cause.suffix (cause : Option Cause) : String := cause.elim "" fun c => ": " ++ c.text

namespace ActionError

/-- The error `e` at the head of a chain.  Each error gets the next one as its cause, in place of
    the one it has; the last one keeps its own. -/
def chained (e : ActionError) : List ActionError → ActionError
  | [] => e
  | next :: rest => e.withCause (.error (next.chained rest))

/-- The errors that the first of a chain wraps, each as the chain from there on, as `sources` meets
    them. -/
def wrapped : List ActionError → List ActionError
  | [] => []
  | next :: rest => next.chained rest :: wrapped rest

/-- What the error `e` adds to the message of the one that wraps it, without its own cause. -/
def link (e : ActionError) : String :=
  ": Code: " ++ Decimal.ofNat e.code.toNat ++ ", displayText = " ++ e.displayText

/-! ### Attaching causes -/

@[simp] theorem code_withCause (e : ActionError) (c : Cause) : (e.withCause c).code = e.code := rfl

@[simp] theorem displayText_withCause (e : ActionError) (c : Cause) :
    (e.withCause c).displayText = e.displayText := rfl

@[simp] theorem cause_withCause (e : ActionError) (c : Cause) :
    (e.withCause c).cause = some c := rfl

@[simp] theorem withCause_withCause (e : ActionError) (c c' : Cause) :
    (e.withCause c).withCause c' = e.withCause c' := rfl

/-- Of the `causes` that are attached to `e` one after another only the last one stays. -/
theorem foldl_withCause (e : ActionError) (causes : List Cause) :
    causes.foldl withCause e = causes.getLast?.elim e e.withCause := by
  induction causes generalizing e with
  | nil => rfl
  | cons c causes ih =>
    rw [List.foldl_cons, ih]
    cases causes with
    | nil => rfl
    | cons c' causes =>
      rw [List.getLast?_cons_cons, List.getLast?_eq_some_getLast (List.cons_ne_nil c' causes)]
      simp

/-- The first error `e` of a chain keeps its code, whatever it wraps. -/
@[simp] theorem code_chained (e : ActionError) (rest : List ActionError) :
    (e.chained rest).code = e.code := by
  cases rest <;> simp [chained]

/-! ### Messages -/

/-- The message of `e` is its display text, followed by the text of its cause. -/
theorem message_eq (e : ActionError) : e.message = e.displayText ++ Cause.suffix e.cause := by
  obtain ⟨_, displayText, cause, _⟩ := e
  cases cause with
  | none => simp [message, Cause.suffix]
  | some c => simp [message, Cause.suffix, String.append_assoc]

/-- The text of `e` is its message between its code and a full stop. -/
theorem text_eq (e : ActionError) :
    e.text = "Code: " ++ Decimal.ofNat e.code.toNat ++ ", displayText = " ++ e.message ++ "." := rfl

/-- The message of a chain is made of the display texts of its errors, each but the first with its
    code as a `link`, and of what the last one wraps.  Every error below the first ends with a full
    stop. -/
theorem message_chained (e : ActionError) (rest : List ActionError) :
    (e.chained rest).message = e.displayText ++ String.join (rest.map link) ++
      Cause.suffix (rest.getLastD e).cause ++ String.ofList (List.replicate rest.length '.') := by
  induction rest generalizing e with
  | nil => simp [chained, message_eq]
  | cons next rest ih =>
    -- the full stop of the next error comes after all those inside it
    have hstops : String.ofList (List.replicate (next :: rest).length '.') =
        String.ofList (List.replicate rest.length '.') ++ "." := by
      rw [List.length_cons, List.replicate_succ', String.ofList_append]
    have hcode : ": Code: " = ": " ++ "Code: " := by decide
    have hnext : (Cause.error (next.chained rest)).text = (next.chained rest).text := rfl
    rw [chained, message_eq, displayText_withCause, cause_withCause, Cause.suffix, Option.elim_some,
      hnext, text_eq, code_chained, ih, hstops, List.getLastD_cons, List.map_cons, String.join_cons,
      link, hcode]
    simp only [String.append_assoc]

/-! ### Causes -/

/-- On the way through the causes of a chain one meets the `wrapped` errors below the first, and
    then what the last one wraps. -/
theorem sources_chained (e : ActionError) (rest : List ActionError) :
    (e.chained rest).sources = (wrapped rest).map text ++ (rest.getLastD e).sources := by
  induction rest generalizing e with
  | nil => simp [chained, wrapped]
  | cons next rest ih =>
    rw [chained, sources_eq, cause_withCause, Option.elim_some, Cause.texts, ih,
      List.getLastD_cons, wrapped, List.map_cons, List.cons_append]

/-- An error `e` meets at most one cause, if its cause wraps nothing. -/
theorem sources_of_source?_eq_none {e : ActionError} (h : e.cause.bind Cause.source? = none) :
    e.sources = (e.cause.map Cause.text).toList := by
  rw [sources_eq]
  cases hcause : e.cause with
  | none => rfl
  | some c =>
    rw [hcause, Option.bind_some] at h
    rw [Option.elim_some, Cause.texts_eq, h]
    rfl

end ActionError

/-! ### The problem of an error -/

/-- The message of `e` is the title of its problem, followed by the detail if there is one. -/
theorem Problem.message_eq (e : ActionError) :
    e.message = (ofError e).title ++ (ofError e).detail.elim "" (": " ++ ·) := by
  rw [e.message_eq, Cause.suffix, ofError]
  cases e.cause <;> rfl

namespace ActionError

/-- **Chains keep all texts.**  The message of the chain of `e` and `rest` is made of the display
    texts of its errors, each but the first with its code, of the text of what the last one wraps,
    and of a full stop for each error below the first; and on the way through its causes one meets
    all of them in order. Of several causes that are attached only the last one stays, with code and
    display text as they were; and the problem of an error has the parts of its message. -/
theorem chain_keepsTexts :
    (∀ (e : ActionError) (rest : List ActionError),
      (rest.getLastD e).cause.bind Cause.source? = none →
      let chain := e.chained rest
      let plain := (rest.getLastD e).cause.map Cause.text
      chain.message =
        e.displayText ++
          String.join (rest.map fun e' =>
            ": Code: " ++ Decimal.ofNat e'.code.toNat ++ ", displayText = " ++ e'.displayText) ++
          plain.elim "" (": " ++ ·) ++ String.ofList (List.replicate rest.length '.') ∧
      chain.text =
        "Code: " ++ Decimal.ofNat e.code.toNat ++ ", displayText = " ++ chain.message ++ "." ∧
      chain.sources = (wrapped rest).map text ++ plain.toList) ∧
    (∀ (e : ActionError) (causes : List Cause),
      let attached := causes.foldl withCause e
      attached = causes.getLast?.elim e e.withCause ∧
        attached.code = e.code ∧ attached.displayText = e.displayText) ∧
    ∀ e : ActionError,
      (Problem.ofError e).title = e.displayText ∧
      ((Problem.ofError e).detail.isSome ↔ e.cause.isSome) ∧
      (Problem.ofError e).status = some .errored ∧
      e.message = (Problem.ofError e).title ++ (Problem.ofError e).detail.elim "" (": " ++ ·) := by
  refine ⟨?_, ?_, ?_⟩
  · intro e rest hplain
    refine ⟨?_, ?_, ?_⟩
    · rw [message_chained, Cause.suffix]
      -- what the last error wraps is a text after a colon, or nothing
      cases (rest.getLastD e).cause <;> rfl
    · rw [text_eq, code_chained]
    · rw [sources_chained, sources_of_source?_eq_none hplain]
  · intro e causes
    have hlast := foldl_withCause e causes
    refine ⟨hlast, ?_⟩
    rw [hlast]
    -- attaching a cause leaves code and display text alone
    cases causes.getLast? with
    | none => exact ⟨rfl, rfl⟩
    | some c => exact ⟨code_withCause e c, displayText_withCause e c⟩
  · intro e
    refine ⟨rfl, ?_, rfl, Problem.message_eq e⟩
    rw [Problem.ofError, Option.isSome_map]

/-- Three errors `a`, `b` and `c` as a chain, the last of which wraps a foreign one. -/
theorem chain_keepsTexts_three :
    ((ofKind .stateConversionFailed "a").chained
      [ofKind .illegalArgument "b", (ofText "c").withCause (.plain "d")]).message =
      "a: Code: 1002, displayText = b: Code: 1001, displayText = c: d.." := by
  obtain ⟨hchain, -⟩ := chain_keepsTexts
  obtain ⟨hmessage, -⟩ := hchain (ofKind .stateConversionFailed "a")
    [ofKind .illegalArgument "b", (ofText "c").withCause (.plain "d")] rfl
  rw [hmessage]
  decide

end ActionError

end FaultAction
