import FaultAction.CallerState
import FaultAction.Proofs.Result.Build
import FaultAction.Proofs.State.Conversion

namespace FaultAction

/-!
# Builders — how they succeed

What a builder returns consists of two parts.  The state comes from the caller's value and the
attachments come from the modifiers, and neither part looks at what the other comes from:

* `Build.Logs`      — with loaded settings, `m` succeeds and adds these records to the log;
* `Build.Gives`     — `m` succeeds in every session, and with loaded settings it logs these records;
* `GivesAttachments`, `GivesState` — what the builders return without a value and with one;
* `builders_agree`  — the attachments depend on the modifiers alone, the state on the value alone,
  and each result but that of stopping is noted in the log once.
-/

namespace Build

variable {α β : Type} {settings : Settings}

/-- In every session with these `settings` loaded, `m` succeeds with `a`, adds the `records` to the
    log, and changes nothing else. -/
def Logs (settings : Settings) (m : Build α) (a : α) (records : List LogRecord) : Prop :=
  ∀ s : Session, s.settings = some settings → m s = (.ok a, { s with log := s.log ++ records })

/-- A value `a` alone is returned without a record. -/
theorem logs_pure (a : α) : Logs settings (pure a) a [] := by
  intro s _
  show (Except.ok a, s) = (.ok a, { s with log := s.log ++ [] })
  rw [List.append_nil]

/-- The records of a step `f` after another step `m` come after those of `m`. -/
theorem logs_bind {m : Build α} {f : α → Build β} {a : α} {b : β} {first second : List LogRecord}
    (hm : Logs settings m a first) (hf : Logs settings (f a) b second) :
    Logs settings (m >>= f) b (first ++ second) := by
  intro s hs
  rw [bind_apply (hm s hs), ← List.append_assoc]
  -- the first step has left the settings loaded
  exact hf { s with log := s.log ++ first } hs

/-- A function `f` of what `m` returns logs nothing of its own. -/
theorem logs_map {m : Build α} {a : α} {records : List LogRecord} (f : α → β)
    (hm : Logs settings m a records) : Logs settings (f <$> m) (f a) records := by
  have hbind : Logs settings (m >>= fun a => pure (f a)) (f a) (records ++ []) :=
    logs_bind hm (logs_pure (f a))
  rwa [List.append_nil, ← map_eq_pure_bind] at hbind

/-- A note of a `text` is one record, and returns nothing. -/
theorem logs_note (level : LogLevel) (text : String) :
    Logs settings (liftM (Session.note level text)) () [⟨level, text⟩] := fun _ _ => rfl

/-- Loaded settings are looked up by `Session.limit` without a record. -/
theorem logs_limit : Logs settings (liftM Session.limit) settings.maxStateSizeKb [] := by
  intro s hs
  have hlimit : Session.limit s = (settings.maxStateSizeKb, s) := by
    rw [Session.limit, hs]
  show (Except.ok (Session.limit s).1, (Session.limit s).2) = _
  rw [hlimit, List.append_nil]

/-- In every session `m` succeeds with `a`, and with loaded settings it logs the `records` and
    nothing else. -/
structure Gives (m : Build α) (a : α) (records : Settings → List LogRecord) : Prop where
  returns : Returns m a
  logs : ∀ settings, Logs settings m a (records settings)

end Build

open Build (Returns Logs Gives)

/-! ### Records of the log -/

/-- The warning about a `state` that is too large for the settings, if it is. -/
def oversizeWarning (state : ActionState) (settings : Settings) : List LogRecord :=
  if Settings.exceeds state.size settings.maxStateSizeKb then
    [⟨.warn, oversizeText state.size settings.maxStateSizeKb⟩]
  else []

/-- The record of a prepare result `r`, with the number of entries of its state. -/
def PrepareResult.record (r : PrepareResult) : LogRecord :=
  ⟨.debug, "Prepare result built, state entries: " ++ Decimal.ofNat r.state.length⟩

/-- The record of a start result `r`, with the number of entries of its state, if any, and whether
    it has an error. -/
def StartResult.record (r : StartResult) : LogRecord :=
  ⟨.debug, "Start result built, state entries: " ++ entriesText r.state ++
    ", error: " ++ boolText r.error.isSome⟩

/-- The record of a status result `r`, with its flag of completion and whether it has an error. -/
def StatusResult.record (r : StatusResult) : LogRecord :=
  ⟨.debug, "Status result built, completed: " ++ boolText r.completed ++
    ", error: " ++ boolText r.error.isSome⟩

/-! ### The state -/

/-- A value `source` that has a `state` is encoded to it, with a warning if it is too large. -/
theorem encodeState_logs {source : Source} {state : ActionState} {settings : Settings}
    (h : ActionState.ofSource source = .ok state) :
    Logs settings (encodeState source) state (oversizeWarning state settings) := by
  unfold encodeState
  rw [h, ← List.nil_append (oversizeWarning state settings)]
  refine Build.logs_bind Build.logs_limit ?_
  show Logs settings (if Settings.exceeds state.size settings.maxStateSizeKb = true then _ else _)
    state _
  rw [oversizeWarning]
  by_cases hsize : Settings.exceeds state.size settings.maxStateSizeKb = true
  · rw [if_pos hsize, if_pos hsize]
    exact Build.logs_bind (Build.logs_note _ _) (Build.logs_pure state)
  · rw [if_neg hsize, if_neg hsize]
    exact Build.logs_pure state

/-- An optional value, when there is a `source`, gives its state, with the warning about that. -/
theorem encodeState?_gives {source : Source} {state : ActionState}
    (h : ActionState.ofSource source = .ok state) :
    Gives (encodeState? (some source)) (some state) (oversizeWarning state) :=
  ⟨encodeState?_returns h, fun _ => Build.logs_map some (encodeState_logs h)⟩

/-- Without a value there is no state, and no need for a warning. -/
theorem encodeState?_none_gives : Gives (encodeState? none) none (fun _ => []) :=
  ⟨encodeState?_none, fun _ => Build.logs_pure none⟩

/-! ### The builders -/

/-- A prepare result `r` is logged after what encoding the state has logged. -/
theorem PrepareResult.build_gives {source : Source} {state : ActionState}
    (h : ActionState.ofSource source = .ok state) (ms : List Modifier) :
    let r : PrepareResult := { toAttachments := Attachments.applyAll {} ms, state }
    Gives (PrepareResult.build source ms) r
      (fun settings => oversizeWarning state settings ++ [r.record]) := by
  intro r
  have hr : applyModifiers ({ state } : PrepareResult) ms = r := applyModifiers_eq _ ms
  rw [← hr]
  exact ⟨PrepareResult.build_returns h ms, fun _ => Build.logs_bind (encodeState_logs h)
    (Build.logs_bind (Build.logs_note _ _) (Build.logs_pure _))⟩

/-- A start result `r` is logged after the `records` that encoding the state, if any, has logged. -/
theorem StartResult.build_gives {source : Option Source} {state : Option ActionState}
    {records : Settings → List LogRecord} (h : Gives (encodeState? source) state records)
    (ms : List Modifier) :
    let r : StartResult := { toAttachments := Attachments.applyAll {} ms, state }
    Gives (StartResult.build source ms) r (fun settings => records settings ++ [r.record]) := by
  intro r
  have hr : applyModifiers ({ state } : StartResult) ms = r := applyModifiers_eq _ ms
  rw [← hr]
  exact ⟨StartResult.build_returns h.returns ms, fun settings => Build.logs_bind (h.logs settings)
    (Build.logs_bind (Build.logs_note _ _) (Build.logs_pure _))⟩

/-- A status result `r` is logged after the `records` that encoding the state, if any, has
    logged. -/
theorem StatusResult.build_gives {source : Option Source} {state : Option ActionState}
    {records : Settings → List LogRecord} (h : Gives (encodeState? source) state records)
    (completed : Bool) (ms : List Modifier) :
    let r : StatusResult := { toAttachments := Attachments.applyAll {} ms, completed, state }
    Gives (StatusResult.build completed source ms) r
      (fun settings => records settings ++ [r.record]) := by
  intro r
  have hr : applyModifiers ({ completed, state } : StatusResult) ms = r := applyModifiers_eq _ ms
  rw [← hr]
  exact ⟨StatusResult.build_returns h.returns completed ms, fun settings =>
    Build.logs_bind (h.logs settings)
      (Build.logs_bind (Build.logs_note _ _) (Build.logs_pure _))⟩

/-- A stop result is not logged, whatever the modifiers `ms` are. -/
theorem StopResult.build_gives (ms : List Modifier) :
    Gives (StopResult.build ms) { toAttachments := Attachments.applyAll {} ms } (fun _ => []) := by
  have hr : applyModifiers ({} : StopResult) ms = { toAttachments := Attachments.applyAll {} ms } :=
    applyModifiers_eq _ ms
  rw [← hr]
  exact ⟨Build.returns_pure _, fun _ => Build.logs_pure _⟩

/-! ### The state in the written results -/

/-- The member of an object under `name`, or `none` if there is none or the tree is no object. -/
def Json.member? (name : String) : Json → Option Json
  | .obj ms => Members.get? name ms
  | _ => none

/-- An optional field is written under its `name` exactly if it has a value. -/
theorem Field.map_write_optional {α : Type} [Wire α] (name : String) (a : Option α) :
    ((Field.optional name).write a).map Json.sortKeys = a.map Wire.toValue := by
  cases a <;> rfl

/-- A start result `r` is written with its state, if it has one. -/
theorem StartResult.member?_state (r : StartResult) :
    (Wire.toValue r).member? "state" = r.state.map Wire.toValue := by
  obtain ⟨hstate, -⟩ := format.schema.holds_members (by decide) (format.toRow r)
  exact hstate.trans (Field.map_write_optional "state" r.state)

/-- A status result `r` is written with its state, if it has one. -/
theorem StatusResult.member?_state (r : StatusResult) :
    (Wire.toValue r).member? "state" = r.state.map Wire.toValue := by
  obtain ⟨-, hstate, -⟩ := format.schema.holds_members (by decide) (format.toRow r)
  exact hstate.trans (Field.map_write_optional "state" r.state)

/-! ### All builders together -/

/-- Without a value, the builders return the attachments `a` and no state. -/
structure GivesAttachments (ms : List Modifier) (a : Attachments) : Prop where
  stop : Gives (StopResult.build ms) { toAttachments := a } (fun _ => [])
  start : let r : StartResult := { toAttachments := a, state := none }
    Gives (StartResult.build none ms) r (fun _ => [r.record]) ∧
      Gives (StartResult.buildStateless ms) r (fun _ => [r.record])
  status : ∀ completed, let r : StatusResult := { toAttachments := a, completed, state := none }
    Gives (StatusResult.build completed none ms) r (fun _ => [r.record]) ∧
      Gives (StatusResult.buildStateless completed ms) r (fun _ => [r.record])

/-- With a value `source`, the builders return the attachments `a` and this `state`. -/
structure GivesState (source : Source) (state : ActionState) (ms : List Modifier)
    (a : Attachments) : Prop where
  prepare : let r : PrepareResult := { toAttachments := a, state }
    Gives (PrepareResult.build source ms) r
      (fun settings => oversizeWarning state settings ++ [r.record])
  start : let r : StartResult := { toAttachments := a, state := some state }
    Gives (StartResult.build (some source) ms) r
      (fun settings => oversizeWarning state settings ++ [r.record])
  status : ∀ completed,
    let r : StatusResult := { toAttachments := a, completed, state := some state }
    Gives (StatusResult.build completed (some source) ms) r
      (fun settings => oversizeWarning state settings ++ [r.record])

/-- **Builders agree.**  Modifiers `ms` decide the attachments, and all builders return the same.  A
    `source` that can be encoded decides the state, again the same for all builders that take one.
    A value that is written as null gives the empty state, and the written result shows it as an
    empty object; without a value the written result has no state at all. -/
theorem builders_agree :
    (∀ ms : List Modifier, ∃ a : Attachments, GivesAttachments ms a ∧
      ∀ (source : Source) (state : ActionState), ActionState.ofSource source = .ok state →
        GivesState source state ms a) ∧
    ∀ source : Source, source.toJson = .ok .null →
      ActionState.ofSource source = .ok .empty ∧
      ∀ (ms : List Modifier) (completed : Bool),
        (∃ r, Returns (StartResult.build (some source) ms) r ∧
          (Wire.toValue r).member? "state" = some (.obj [])) ∧
        (∃ r, Returns (StartResult.build none ms) r ∧
          (Wire.toValue r).member? "state" = none) ∧
        (∃ r, Returns (StatusResult.build completed (some source) ms) r ∧
          (Wire.toValue r).member? "state" = some (.obj [])) ∧
        ∃ r, Returns (StatusResult.build completed none ms) r ∧
          (Wire.toValue r).member? "state" = none := by
  constructor
  · intro ms
    refine ⟨Attachments.applyAll {} ms, ⟨?_, ?_, ?_⟩, ?_⟩
    · exact StopResult.build_gives ms
    · -- without a state, the builder is that for no value
      have hnone := StartResult.build_gives encodeState?_none_gives ms
      exact ⟨hnone, hnone⟩
    · intro completed
      have hnone := StatusResult.build_gives encodeState?_none_gives completed ms
      exact ⟨hnone, hnone⟩
    · intro source state h
      refine ⟨?_, ?_, ?_⟩
      · exact PrepareResult.build_gives h ms
      · exact StartResult.build_gives (encodeState?_gives h) ms
      · exact fun completed => StatusResult.build_gives (encodeState?_gives h) completed ms
  · intro source hnull
    have hstate : ActionState.ofSource source = .ok .empty := ActionState.ofSource_of_ok hnull
    have hgives := encodeState?_gives hstate
    refine ⟨hstate, fun ms completed => ⟨?_, ?_, ?_, ?_⟩⟩
    · exact ⟨_, (StartResult.build_gives hgives ms).returns, StartResult.member?_state _⟩
    · exact ⟨_, (StartResult.build_gives encodeState?_none_gives ms).returns,
        StartResult.member?_state _⟩
    · exact ⟨_, (StatusResult.build_gives hgives completed ms).returns,
        StatusResult.member?_state _⟩
    · exact ⟨_, (StatusResult.build_gives encodeState?_none_gives completed ms).returns,
        StatusResult.member?_state _⟩

/-- A session with these `settings` loaded, in which nothing has been logged yet. -/
def Session.loaded (settings : Settings) : Session :=
  { variableText := none, settings := some settings }

/-- With a limit of zero kilobytes the state of a `Counter` is too large, so its warning comes
    before the `record` of each result.  An error shows in the `record` of a start result, the flag
    `completed` in that of a status result.  A value that is written as null can be told from no
    value. -/
theorem builders_agree_counter :
    (PrepareResult.build (Counter.source ⟨5⟩) [.messages none]
        (.loaded { maxStateSizeKb := 0 })).2.log =
      [⟨.warn, "Action state of 5 bytes exceeds the configured threshold of 0 KB"⟩,
        ⟨.debug, "Prepare result built, state entries: 1"⟩] ∧
    (StartResult.build (some (Counter.source ⟨5⟩)) [.error (some { title := "No pod" })]
        (.loaded { maxStateSizeKb := 0 })).2.log =
      [⟨.warn, "Action state of 5 bytes exceeds the configured threshold of 0 KB"⟩,
        ⟨.debug, "Start result built, state entries: Some(1), error: true"⟩] ∧
    (StatusResult.build true none [.messages none] (.loaded {})).2.log =
      [⟨.debug, "Status result built, completed: true, error: false"⟩] ∧
    ∃ r r', Returns (StartResult.build (some .nothing) []) r ∧
      Returns (StartResult.build none []) r' ∧
      (Wire.toValue r).member? "state" ≠ (Wire.toValue r').member? "state" := by
  obtain ⟨hstates, hnull⟩ := builders_agree
  have hcounter : ActionState.ofSource (Counter.source ⟨5⟩) = .ok (.ofList [("X", .int 5)]) := rfl
  have hwarning : oversizeWarning (.ofList [("X", .int 5)]) { maxStateSizeKb := 0 } =
      [⟨.warn, "Action state of 5 bytes exceeds the configured threshold of 0 KB"⟩] := by decide
  -- the attachments of these modifiers can be read off the result of stopping
  obtain ⟨a, hnone, hstate⟩ := hstates [.messages none]
  have ha : a = {} := by
    obtain ⟨s, hs⟩ := hnone.stop.returns (.loaded {})
    cases hs
    rfl
  obtain ⟨b, hstop, hfailed⟩ := hstates [.error (some { title := "No pod" })]
  have hb : b = { error := some { title := "No pod" } } := by
    obtain ⟨s, hs⟩ := hstop.stop.returns (.loaded {})
    cases hs
    rfl
  subst ha hb
  refine ⟨?_, ?_, ?_, ?_⟩
  · rw [(hstate _ _ hcounter).prepare.logs { maxStateSizeKb := 0 } _ rfl, hwarning]
    rfl
  · rw [(hfailed _ _ hcounter).start.logs { maxStateSizeKb := 0 } _ rfl, hwarning]
    rfl
  · rw [(hnone.status true).1.logs {} _ rfl]
    rfl
  · obtain ⟨⟨r, hr, hempty⟩, ⟨r', hr', hnull⟩, -⟩ := (hnull .nothing rfl).2 [] false
    refine ⟨r, r', hr, hr', ?_⟩
    rw [hempty, hnull]
    exact Option.some_ne_none _

end FaultAction
