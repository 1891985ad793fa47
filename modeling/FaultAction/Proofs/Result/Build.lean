import FaultAction.Proofs.Result.Modifier
import FaultAction.Result.Build
import FaultAction.Proofs.State.Conversion

namespace FaultAction

/-!
# Builders — what they return, and how they fail

A session decides what is logged, but not what is built:

* `Build.Returns m a`      — in every session, `m` succeeds with `a`;
* `Build.Refuses m e r`    — in every session, `m` fails with `e` and logs `r`, and nothing else;
* `encodeState_returns`    — a caller's value that has a state is encoded to it;
* `encodeState_refuses`    — one that has none is refused, with the reason as cause;
* `PrepareResult.build_returns`, `StartResult.build_returns`, `StatusResult.build_returns` — the
  built result has this state, and the attachments of its modifiers;
* `PrepareResult.exists_state_of_build` — a value that a builder accepts has a state.

Three builders take a caller's value, and the value alone decides whether they fail:

* `Refusal`             — the error of a refusal: what was tried, and why it failed as its cause;
* `Source.Accepted`     — all three builders return a result, whatever else they are given;
* `Source.Refused`      — all three builders fail with one error, and warn about it;
* `accepted_or_refused` — which of the two, by the tree of the value; without a value no builder
  fails.
-/

/-! ### Runs of a builder -/

section

namespace Build

variable {α β : Type}

/-- In every session `s`, `m` succeeds with `a`, whatever it logs. -/
def Returns (m : Build α) (a : α) : Prop := ∀ s, ∃ s', m s = (.ok a, s')

/-- In every session `s`, `m` fails with `e`.  The log gets one `record`, the settings stay. -/
def Refuses (m : Build α) (e : ActionError) (record : LogRecord) : Prop :=
  ∀ s, m s = (.error e, { s with log := s.log ++ [record] })

/-- A value `a` alone is returned, and leaves the session as it is. -/
theorem returns_pure (a : α) : Returns (pure a : Build α) a := fun s => ⟨s, rfl⟩

/-- After a step `m` that succeeds, its value `a` and its session `s'` are passed on to `f`. -/
theorem bind_apply {m : Build α} {f : α → Build β} {s s' : Session} {a : α}
    (h : m s = (.ok a, s')) : (m >>= f) s = f a s' := by
  show (match m s with | (r, t) => ExceptT.bindCont f r t) = _
  rw [h]
  rfl

/-- After a step `m` that fails with `e`, nothing of `f` is run. -/
theorem bind_apply_error {m : Build α} {f : α → Build β} {s s' : Session} {e : ActionError}
    (h : m s = (.error e, s')) : (m >>= f) s = (.error e, s') := by
  show (match m s with | (r, t) => ExceptT.bindCont f r t) = _
  rw [h]
  rfl

/-- A step `f` after another step `m` returns what it returns after the value of `m`. -/
theorem returns_bind {m : Build α} {f : α → Build β} {a : α} {b : β} (hm : Returns m a)
    (hf : Returns (f a) b) : Returns (m >>= f) b := by
  intro s
  obtain ⟨s', hs'⟩ := hm s
  rw [bind_apply hs']
  exact hf s'

/-- The first step `x` may depend on the session, if what follows, `f`, returns the same in any
    case. -/
theorem returns_bind_lift {x : StateM Session α} {f : α → Build β} {b : β}
    (hf : ∀ a, Returns (f a) b) : Returns ((liftM x : Build α) >>= f) b := by
  intro s
  have hlift : (liftM x : Build α) s = (.ok (x s).1, (x s).2) := rfl
  rw [bind_apply hlift]
  exact hf (x s).1 (x s).2

/-- A function `f` of what `m` returns is returned in turn. -/
theorem returns_map {m : Build α} {a : α} (f : α → β) (hm : Returns m a) :
    Returns (f <$> m) (f a) := by
  rw [map_eq_pure_bind]
  exact returns_bind hm (returns_pure (f a))

/-- What follows a refusal, `f`, is not run, so the refusal stays the same. -/
theorem refuses_bind {m : Build α} {f : α → Build β} {e : ActionError} {record : LogRecord}
    (h : Refuses m e record) : Refuses (m >>= f) e record := by
  intro s
  exact bind_apply_error (h s)

/-- A function `f` of the value does not change a refusal. -/
theorem refuses_map {m : Build α} {e : ActionError} {record : LogRecord} (f : α → β)
    (h : Refuses m e record) : Refuses (f <$> m) e record := by
  rw [map_eq_pure_bind]
  exact refuses_bind h

end Build

open Build (Returns Refuses)

/-! ### The state -/

/-- A value `source` that has a `state` is encoded to it, whether the state is too large or not. -/
theorem encodeState_returns {source : Source} {state : ActionState}
    (h : ActionState.ofSource source = .ok state) : Returns (encodeState source) state := by
  unfold encodeState
  rw [h]
  refine Build.returns_bind_lift (fun kb => ?_)
  -- the size decides about a warning, and nothing else
  by_cases hsize : Settings.exceeds state.size kb = true
  · show Returns (if Settings.exceeds state.size kb = true then _ else _) state
    rw [if_pos hsize]
    exact Build.returns_bind_lift (fun _ => Build.returns_pure state)
  · show Returns (if Settings.exceeds state.size kb = true then _ else _) state
    rw [if_neg hsize]
    exact Build.returns_pure state

/-- The warning about a state that cannot be encoded, with the text of the `cause`. -/
def encodeWarning (cause : ActionError) : LogRecord :=
  ⟨.warn, encodeFailed ++ ": " ++ cause.message⟩

/-- A value `source` that has no state is refused before the settings are looked at. -/
theorem encodeState_refuses {source : Source} {e : ActionError}
    (h : ActionState.ofSource source = .error e) :
    Refuses (encodeState source) (encodeError e) (encodeWarning e) := by
  intro s
  unfold encodeState
  rw [h]
  rfl

/-- An optional value is encoded, as the state of its `source`, if there is one. -/
theorem encodeState?_returns {source : Source} {state : ActionState}
    (h : ActionState.ofSource source = .ok state) :
    Returns (encodeState? (some source)) (some state) :=
  Build.returns_map some (encodeState_returns h)

/-- Without a value there is no state to encode, and nothing to fail at. -/
theorem encodeState?_none : Returns (encodeState? none) none := Build.returns_pure none

/-- An optional value is refused if there is a `source` without a state. -/
theorem encodeState?_refuses {source : Source} {e : ActionError}
    (h : ActionState.ofSource source = .error e) :
    Refuses (encodeState? (some source)) (encodeError e) (encodeWarning e) :=
  Build.refuses_map some (encodeState_refuses h)

/-! ### The builders -/

/-- The prepare result of a value `source` has its `state`, and what the modifiers `ms` make of
    it. -/
theorem PrepareResult.build_returns {source : Source} {state : ActionState}
    (h : ActionState.ofSource source = .ok state) (ms : List Modifier) :
    Returns (PrepareResult.build source ms) (applyModifiers { state } ms) :=
  Build.returns_bind (encodeState_returns h)
    (Build.returns_bind_lift (fun _ => Build.returns_pure _))

/-- The start result of an encoded `state`, or of none, has that and what the modifiers `ms` make of
    it. -/
theorem StartResult.build_returns {source : Option Source} {state : Option ActionState}
    (h : Returns (encodeState? source) state) (ms : List Modifier) :
    Returns (StartResult.build source ms) (applyModifiers { state } ms) :=
  Build.returns_bind h (Build.returns_bind_lift (fun _ => Build.returns_pure _))

/-- The status result of an encoded `state`, or of none, has that and the flag `completed`
    besides. -/
theorem StatusResult.build_returns {source : Option Source} {state : Option ActionState}
    (h : Returns (encodeState? source) state) (completed : Bool) (ms : List Modifier) :
    Returns (StatusResult.build completed source ms) (applyModifiers { completed, state } ms) :=
  Build.returns_bind h (Build.returns_bind_lift (fun _ => Build.returns_pure _))

/-- A value `source` that is accepted by a builder in some session has a state. -/
theorem PrepareResult.exists_state_of_build {source : Source} {ms : List Modifier} {s : Session}
    {r : PrepareResult} (h : (PrepareResult.build source ms s).1 = .ok r) :
    ∃ state, ActionState.ofSource source = .ok state := by
  cases hstate : ActionState.ofSource source with
  | ok state => exact ⟨state, rfl⟩
  | error e =>
    -- without a state, the builder would have refused the value in this session too
    have hrefuses : Refuses (PrepareResult.build source ms) (encodeError e) (encodeWarning e) :=
      Build.refuses_bind (encodeState_refuses hstate)
    rw [hrefuses s] at h
    cases h

end

/-! ### How builders fail -/

section

open Build (Returns Refuses)

/-- The error `e` of a refusal for a reason with this code and text.  The reason is the only
    cause. -/
structure Refusal (code : UInt16) (text : String) (e : ActionError) : Prop where
  code_eq : e.code = 1010
  displayText_eq : e.displayText = "Failed to encode action state"
  cause_eq : ∃ cause : ActionError, e.cause = some (.error cause) ∧ cause.code = code ∧
    cause.displayText = text ∧ cause.cause = none ∧ e.sources = [cause.text]

namespace Source

/-- Every builder returns a result of the value `source`, with any modifiers and in any session. -/
def Accepted (source : Source) : Prop :=
  ∀ (ms : List Modifier) (completed : Bool),
    (∃ r, Returns (PrepareResult.build source ms) r) ∧
    (∃ r, Returns (StartResult.build (some source) ms) r) ∧
    ∃ r, Returns (StatusResult.build completed (some source) ms) r

/-- Every builder refuses the value `source` with the same error, which names a reason with this
    code and text, and logs one warning.  Neither depends on the modifiers or the session. -/
def Refused (source : Source) (code : UInt16) (text : String) : Prop :=
  ∃ e, Refusal code text e ∧ ∀ (ms : List Modifier) (completed : Bool),
    let warning : LogRecord := ⟨.warn, "Failed to encode action state: " ++ text⟩
    Refuses (PrepareResult.build source ms) e warning ∧
      Refuses (StartResult.build (some source) ms) e warning ∧
      Refuses (StatusResult.build completed (some source) ms) e warning

variable {source : Source}

/-- A value `source` that has a `state` is `Accepted`, by one lemma for each builder. -/
theorem accepted_of_ok {state : ActionState} (h : ActionState.ofSource source = .ok state) :
    source.Accepted := by
  intro ms completed
  have hencode : Returns (encodeState? (some source)) (some state) := encodeState?_returns h
  refine ⟨?_, ?_, ?_⟩
  · exact ⟨_, PrepareResult.build_returns h ms⟩
  · exact ⟨_, StartResult.build_returns hencode ms⟩
  · exact ⟨_, StatusResult.build_returns hencode completed ms⟩

/-- A value `source` that has no state is `Refused`, for the reason that it has none. -/
theorem refused_of_error {kind : ErrorKind} {text : String}
    (h : ActionState.ofSource source = .error (.ofKind kind text)) :
    source.Refused kind.code text := by
  -- each builder encodes the state first, and goes no further
  have hencode := encodeState_refuses h
  have hencode? := encodeState?_refuses h
  refine ⟨encodeError (.ofKind kind text), ?_, ?_⟩
  · exact ⟨rfl, rfl, _, rfl, rfl, rfl, rfl, rfl⟩
  · intro ms completed
    refine ⟨?_, ?_, ?_⟩
    · exact Build.refuses_bind hencode
    · exact Build.refuses_bind hencode?
    · exact Build.refuses_bind hencode?

end Source

/-- **Failures of builders.**  A value `source` is `Refused` if it cannot be written, and then the
    reason is the writer's, or if its tree is neither an object nor null, and then the reason names
    the kind of the tree.  Any other value is `Accepted`.  Without a value no builder fails. -/
theorem accepted_or_refused :
    (∀ source : Source,
      match source.toJson with
      | .error e => source.Refused 1001 e.message
      | .ok (.bool _) => source.Refused 1002 "action state must be an object, got a bool"
      | .ok (.num _) => source.Refused 1002 "action state must be an object, got a number"
      | .ok (.str _) => source.Refused 1002 "action state must be an object, got a string"
      | .ok (.arr _) => source.Refused 1002 "action state must be an object, got an array"
      | .ok .null | .ok (.obj _) => source.Accepted) ∧
    ∀ (ms : List Modifier) (completed : Bool),
      Returns (StartResult.build none ms) (applyModifiers {} ms) ∧
      Returns (StartResult.buildStateless ms) (applyModifiers {} ms) ∧
      Returns (StatusResult.build completed none ms) (applyModifiers { completed } ms) ∧
      Returns (StatusResult.buildStateless completed ms) (applyModifiers { completed } ms) ∧
      Returns (StopResult.build ms) (applyModifiers {} ms) := by
  constructor
  · intro source
    cases h : source.toJson with
    | error e => exact Source.refused_of_error (ActionState.ofSource_of_error h)
    | ok j =>
      have hstate := ActionState.ofSource_of_ok h
      -- only null and an object have a state, so these two are accepted
      cases j with
      | null | obj => exact Source.accepted_of_ok hstate
      | bool | num | str | arr => exact Source.refused_of_error hstate
  · intro ms completed
    have hstart := StartResult.build_returns encodeState?_none ms
    have hstatus := StatusResult.build_returns encodeState?_none completed ms
    exact ⟨hstart, hstart, hstatus, hstatus, Build.returns_pure _⟩

end

end FaultAction
