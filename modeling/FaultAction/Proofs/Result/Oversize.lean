import FaultAction.Proofs.Result.Success
import FaultAction.Proofs.Settings.Grammar
import FaultAction.Proofs.State.TextSize

namespace FaultAction

/-!
# Builders — warnings about large states

A state is encoded in any case, and a warning tells when it is larger than the limit of the session:

* `Session.limitKb`           — the limit of a session, whether its settings are loaded or not;
* `Settings.exceeds_iff`      — larger limits are cut off at the greatest word, but no size that is
  a word is above them;
* `encodeState_run`           — what encoding returns and logs in any session;
* `WarnsOversize`             — encoding leaves a warning about the size of the state;
* `oversizeWarning_exact`     — it does so exactly if the state is larger than the limit, as
  numbers;
* `estimate_lt_twice_text`    — and then the text of the state is larger than half the limit.
-/

namespace Settings

/-- What is logged about the variable of the settings, each record `r`, is that its text is
    malformed. -/
theorem eq_malformed_of_mem_log {variableText : Option String} {r : LogRecord}
    (hr : r ∈ (ofVariable variableText).2) :
    ∃ raw, r = Parameter.maxStateSizeKb.malformed raw := by
  cases variableText with
  | none => cases hr
  | some raw =>
    by_cases hlimit : ∃ kb, IsLimit raw.toList kb
    · obtain ⟨kb, hkb⟩ := hlimit
      rw [ofVariable_of_isLimit hkb] at hr
      cases hr
    · rw [ofVariable_of_malformed (not_exists.1 hlimit)] at hr
      exact ⟨raw, List.mem_singleton.1 hr⟩

/-- The limit of `kb` kilobytes is compared in bytes, and is at most the greatest word there. -/
theorem exceeds_eq_true_iff {size : Nat} {kb : UInt64} :
    exceeds size kb = true ↔ min (1024 * kb.toNat) (2 ^ 64 - 1) < size := by
  unfold exceeds
  rw [decide_eq_true_iff, Nat.mul_comm]
  rfl

/-- A `size` that is a word is compared with the limit as it is, without a bound. -/
theorem exceeds_iff {size : Nat} (h : size < 2 ^ 64) (kb : UInt64) :
    exceeds size kb = true ↔ 1024 * kb.toNat < size := by
  rw [exceeds_eq_true_iff]
  omega

/-- A greater limit `kb'` leaves no more sizes above it than `kb` does. -/
theorem exceeds_antitone {size : Nat} {kb kb' : UInt64} (hkb : kb ≤ kb')
    (h : exceeds size kb' = true) : exceeds size kb = true := by
  have hle : kb.toNat ≤ kb'.toNat := UInt64.le_iff_toNat_le.1 hkb
  rw [exceeds_eq_true_iff] at h ⊢
  omega

/-- A greater size `size'` is above no fewer limits than `size` is. -/
theorem exceeds_monotone {size size' : Nat} {kb : UInt64} (hsize : size ≤ size')
    (h : exceeds size kb = true) : exceeds size' kb = true := by
  rw [exceeds_eq_true_iff] at h ⊢
  omega

end Settings

namespace Session

/-- The limit in kilobytes that a session `s` has, or will have once its settings are loaded. -/
def limitKb (s : Session) : UInt64 := (Session.limit s).1

/-- The session `s` with its settings loaded, and with what that logs. -/
def load (s : Session) : Session := (Session.limit s).2

/-- Loading the settings of `s` logs nothing but that the text of the limit is malformed. -/
theorem load_eq (s : Session) :
    ∃ (settings : Settings) (loaded : List LogRecord),
      s.load = { s with settings := some settings, log := s.log ++ loaded } ∧
      settings.maxStateSizeKb = s.limitKb ∧
      ∀ r ∈ loaded, ∃ raw, r = Parameter.maxStateSizeKb.malformed raw := by
  obtain ⟨variableText, settings, log⟩ := s
  cases settings with
  | some settings =>
    exact ⟨settings, [], by simp [load, limit], rfl, fun _ hr => nomatch hr⟩
  | none =>
    exact ⟨_, (Settings.ofVariable variableText).2, rfl, rfl,
      fun r hr => Settings.eq_malformed_of_mem_log hr⟩

/-- Settings are loaded once, so that the limit of `s.load` is there without a further record. -/
theorem limit_load (s : Session) : Session.limit s.load = (s.limitKb, s.load) := by
  obtain ⟨settings, loaded, hload, hkb, -⟩ := s.load_eq
  rw [hload, limit, ← hkb]

end Session

open Build (Logs)

/-! ### Encoding a state -/

/-- Encoding a value begins with loading the settings, so it may as well start in `s.load`. -/
theorem encodeState_load {source : Source} {state : ActionState}
    (h : ActionState.ofSource source = .ok state) (s : Session) :
    encodeState source s = encodeState source s.load := by
  have hlimit : ∀ t : Session, (liftM Session.limit : Build UInt64) t = (.ok t.limitKb, t.load) :=
    fun _ => rfl
  have hload : (liftM Session.limit : Build UInt64) s.load = (.ok s.limitKb, s.load) := by
    show (Except.ok (Session.limit s.load).1, (Session.limit s.load).2) = _
    rw [s.limit_load]
  unfold encodeState
  rw [h]
  dsimp only
  rw [Build.bind_apply (hlimit s), Build.bind_apply hload]

/-- The record `r` is a warning about the size of a state. -/
def IsOversizeWarning (r : LogRecord) : Prop := ∃ size kb, r = ⟨.warn, oversizeText size kb⟩

/-- The record of a malformed setting, of the text `raw`, is another matter. -/
theorem not_isOversizeWarning_malformed (raw : String) :
    ¬IsOversizeWarning (Parameter.maxStateSizeKb.malformed raw) := by
  rintro ⟨size, kb, h⟩
  obtain ⟨-, htext⟩ := LogRecord.mk.inj h
  unfold oversizeText at htext
  -- the two texts differ in their first character
  have hfirst := congrArg (fun text : String => text.toList.head?) htext
  simp [String.toList_append] at hfirst

/-- In any session `s`, a `state` is returned as it is, and after what loading the settings logs
    there is a warning if the state is larger than the limit. -/
theorem encodeState_run {source : Source} {state : ActionState}
    (h : ActionState.ofSource source = .ok state) (s : Session) :
    ∃ loaded, (∀ r ∈ loaded, ¬IsOversizeWarning r) ∧
      (encodeState source s).1 = .ok state ∧
      (encodeState source s).2.log = s.log ++ loaded ++
        if Settings.exceeds state.size s.limitKb then
          [⟨.warn, oversizeText state.size s.limitKb⟩]
        else [] := by
  obtain ⟨settings, loaded, hload, hkb, hloaded⟩ := s.load_eq
  -- from the loaded session on, the limit is looked up without a record
  have hrun : encodeState source s.load = (.ok state, { s.load with
      log := s.load.log ++ oversizeWarning state settings }) :=
    encodeState_logs h s.load (by rw [hload])
  refine ⟨loaded, ?_, ?_⟩
  · intro r hr
    obtain ⟨raw, rfl⟩ := hloaded r hr
    exact not_isOversizeWarning_malformed raw
  · rw [encodeState_load h, hrun, oversizeWarning, hkb, hload]
    exact ⟨rfl, rfl⟩

/-! ### Warnings -/

/-- The records that encoding a value `source` adds to the log of the session `s`. -/
def encodeRecords (source : Source) (s : Session) : List LogRecord :=
  (encodeState source s).2.log.drop s.log.length

/-- Encoding the value `source` in the session `s` leaves a warning about the size of its state. -/
def WarnsOversize (source : Source) (s : Session) : Prop :=
  ∃ r ∈ encodeRecords source s, IsOversizeWarning r

/-- There is a warning exactly if the size of the `state` is above the limit of the session `s`. -/
theorem warnsOversize_iff {source : Source} {state : ActionState}
    (h : ActionState.ofSource source = .ok state) {s : Session} :
    WarnsOversize source s ↔ Settings.exceeds state.size s.limitKb = true := by
  obtain ⟨loaded, hloaded, -, hlog⟩ := encodeState_run h s
  have hrecords : encodeRecords source s = loaded ++
      if Settings.exceeds state.size s.limitKb then
        [⟨.warn, oversizeText state.size s.limitKb⟩]
      else [] := by
    rw [encodeRecords, hlog, List.append_assoc, List.drop_left]
  unfold WarnsOversize
  rw [hrecords]
  constructor
  · -- what loading has logged is no such warning, so it is the one about the size
    rintro ⟨r, hr, hwarning⟩
    rcases List.mem_append.1 hr with hr | hr
    · exact absurd hwarning (hloaded r hr)
    · by_contra hexceeds
      rw [if_neg hexceeds] at hr
      cases hr
  · intro hexceeds
    rw [if_pos hexceeds]
    exact ⟨_, by simp, state.size, s.limitKb, rfl⟩

/-- **The warning is exact.**  A value `source` whose `state` is a word in size is encoded to that
    state in any session.  What is logged is what loading the settings logs, which is no such
    warning, and then one warning with the size and the limit if the state is larger than the limit,
    as numbers.  A greater limit does not bring a warning about, nor does a larger state take it
    away. -/
theorem oversizeWarning_exact {source : Source} {state : ActionState}
    (h : ActionState.ofSource source = .ok state) (hword : state.size < 2 ^ 64) :
    (∀ s : Session,
      (encodeState source s).1 = .ok state ∧
      (∃ loaded, (∀ r ∈ loaded, ¬IsOversizeWarning r) ∧
        (encodeState source s).2.log = s.log ++ loaded ++
          if 1024 * s.limitKb.toNat < state.size then
            [⟨.warn, "Action state of " ++ Decimal.ofNat state.size ++
              " bytes exceeds the configured threshold of " ++ Decimal.ofNat s.limitKb.toNat ++
              " KB"⟩]
          else []) ∧
      (WarnsOversize source s ↔ 1024 * s.limitKb.toNat < state.size)) ∧
    (∀ s s' : Session, s.limitKb ≤ s'.limitKb → WarnsOversize source s' →
      WarnsOversize source s) ∧
    ∀ (source' : Source) (state' : ActionState), ActionState.ofSource source' = .ok state' →
      state.size ≤ state'.size → ∀ s s' : Session, s.limitKb = s'.limitKb →
        WarnsOversize source s → WarnsOversize source' s' := by
  refine ⟨?_, ?_, ?_⟩
  · intro s
    -- the size is a word, so the bound on the limit does not show
    have hexceeds := Settings.exceeds_iff hword s.limitKb
    obtain ⟨loaded, hloaded, hstate, hlog⟩ := encodeState_run h s
    simp only [hexceeds] at hlog
    refine ⟨hstate, ⟨loaded, hloaded, hlog⟩, ?_⟩
    rw [warnsOversize_iff h, hexceeds]
  · intro s s' hkb hwarns
    rw [warnsOversize_iff h] at hwarns ⊢
    exact Settings.exceeds_antitone hkb hwarns
  · intro source' state' h' hsize s s' hkb hwarns
    rw [warnsOversize_iff h] at hwarns
    rw [warnsOversize_iff h', ← hkb]
    exact Settings.exceeds_monotone hsize hwarns

/-- A `Counter` is larger than no kilobyte, but not larger than the limit of a session without
    settings. -/
theorem oversizeWarning_exact_counter :
    WarnsOversize (Counter.source ⟨5⟩) { variableText := some "0" } ∧
    ¬WarnsOversize (Counter.source ⟨5⟩) { variableText := none } := by
  have hstate : ActionState.ofSource (Counter.source ⟨5⟩) = .ok (.ofList [("X", .int 5)]) := rfl
  obtain ⟨hexact, -⟩ := oversizeWarning_exact hstate (by decide)
  constructor
  · exact (hexact { variableText := some "0" }).2.2.2 (by decide)
  · intro hwarns
    exact absurd ((hexact { variableText := none }).2.2.1 hwarns) (by decide)

/-- **The estimate does not overstate the text by a factor of two.**  The estimate of an encoded
    `state` is below twice the size of its text, whatever the order of the entries in it.  So if
    there is a warning about a state, whose estimate is a word, its text is larger than half the
    limit. -/
theorem estimate_lt_twice_text {source : Source} {state : ActionState}
    (h : ActionState.ofSource source = .ok state) {j : Json}
    (hj : Json.Reordered (Wire.write state) j) :
    state.size < 2 * j.text.utf8ByteSize ∧
    (state.size < 2 ^ 64 → ∀ s : Session, WarnsOversize source s →
      512 * s.limitKb.toNat < j.text.utf8ByteSize) := by
  -- encoding leaves no short 64-bit integers behind, which would take less text than they count
  have hcanonical : state.Canonical := ActionState.canonical_ofSource h
  have hsize := ActionState.size_lt_twice_text hcanonical hj
  refine ⟨hsize, ?_⟩
  intro hword s hwarns
  have hlimit : 1024 * s.limitKb.toNat < state.size := by
    rwa [warnsOversize_iff h, Settings.exceeds_iff hword] at hwarns
  omega

/-- Two entries stand in the text with the later name first, in a session that warns about any
    state. -/
theorem estimate_lt_twice_text_reordered :
    (ActionState.ofList [("a", .int 1), ("b", .int 2)]).size <
      2 * (Json.obj [("b", .int (.ofInt32 2)), ("a", .int (.ofInt32 1))]).text.utf8ByteSize ∧
    512 * (Session.limitKb { variableText := some "0" }).toNat <
      (Json.obj [("b", .int (.ofInt32 2)), ("a", .int (.ofInt32 1))]).text.utf8ByteSize := by
  have hstate :
      ActionState.ofSource
        (.record [("a", .integer (.ofInt32 1)), ("b", .integer (.ofInt32 2))]) =
      .ok (.ofList [("a", .int 1), ("b", .int 2)]) := rfl
  have hwarns := (warnsOversize_iff hstate (s := { variableText := some "0" })).2 (by decide)
  obtain ⟨hsize, hlarge⟩ := estimate_lt_twice_text hstate (.obj (List.Perm.swap _ _ []))
  exact ⟨hsize, hlarge (by decide) _ hwarns⟩

end FaultAction
