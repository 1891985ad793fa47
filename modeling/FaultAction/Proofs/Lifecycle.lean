import FaultAction.Proofs.Result.Build
import FaultAction.Proofs.State.Conversion
import Mathlib.Data.List.Forall2

namespace FaultAction

/-!
# The life of an action

An action is prepared once and then polled.  Every poll gets the JSON of the last result, changes
the state it finds there, and hands it to a builder again:

* `StepResult.reread`       — the JSON of a result, read as a result of its kind;
* `Poll.run`, `lifecycle`   — one poll, and a whole life;
* `StepResult.Settled`      — the invariant of a life: the result carries a canonical state, and
  its metrics can be written;
* `Poll.run_returns`        — a poll never fails, and leads from a settled result to a settled one;
* `runPolls_returns`        — so does any number of polls;
* `lifecycle_noDrift`       — what a whole life does to the state.
-/

/-! ### Results of steps -/

/-- The result of a step that hands on a state, which is every step but the last. -/
inductive StepResult where
  | prepare (r : PrepareResult)
  | start (r : StartResult)
  | status (r : StatusResult)

namespace StepResult

/-- The state that the result `r` hands on, or `none` if it has none. -/
def state? : StepResult → Option ActionState
  | .prepare r => some r.state
  | .start r => r.state
  | .status r => r.state

/-- What the result `r` carries besides its state. -/
def attachments : StepResult → Attachments
  | .prepare r => r.toAttachments
  | .start r => r.toAttachments
  | .status r => r.toAttachments

/-- The JSON of the result `r`, read as a result of its kind, as the next step gets it. -/
def reread : StepResult → Except ActionError StepResult
  | .prepare r => .prepare <$> Conversion.ofTree (Wire.toValue r)
  | .start r => .start <$> Conversion.ofTree (Wire.toValue r)
  | .status r => .status <$> Conversion.ofTree (Wire.toValue r)

end StepResult

/-! ### Polls -/

/-- The builder that a poll calls: `start`, or `status` with whether the action is `completed`. -/
inductive Call where
  | start
  | status (completed : Bool)

/-- The result of a call with a caller's value `source`, if there is one, and modifiers `ms`. -/
def Call.build (source : Option Source) (ms : List Modifier) : Call → Build StepResult
  | .start => .start <$> StartResult.build source ms
  | .status completed => .status <$> StatusResult.build completed source ms

/-- A poll: what it `inserts` into the state, the `call` that it makes, and the modifiers for
    that. -/
structure Poll where
  inserts : List (String × Datum)
  call : Call
  modifiers : List Modifier

namespace Poll

/-- The state with the values of the poll `p` inserted, the first one first. -/
def change (p : Poll) (state : ActionState) : ActionState :=
  p.inserts.foldl (fun s e => s.insert e.1 e.2) state

/-- Reads the JSON of the `last` result, changes the state found there and hands it to a builder. -/
def run (p : Poll) (last : StepResult) : Build StepResult :=
  match last.reread with
  | .error e => throw e
  | .ok r => p.call.build (r.state?.map fun state => (p.change state).toSource) p.modifiers

end Poll

/-- The results of polls in a row, from the `last` result on, which is the first of them. -/
def runPolls (last : StepResult) : List Poll → Build (List StepResult)
  | [] => return [last]
  | p :: ps => do
    let next ← p.run last
    let results ← runPolls next ps
    return last :: results

/-- The results of an action that is prepared from `source` with the modifiers `ms`, and then polled
    by `ps`. -/
def lifecycle (source : Source) (ms : List Modifier) (ps : List Poll) :
    Build (List StepResult) := do
  let r ← PrepareResult.build source ms
  runPolls (.prepare r) ps

/-- The states of a life without any JSON: each poll `p` changes the state, and what was inserted is
    put in normal form. -/
def statesFrom (state : ActionState) : List Poll → List ActionState
  | [] => [state]
  | p :: ps => state :: statesFrom (p.change state).normalize ps

/-! ### The invariant -/

namespace StepResult

/-- The result `r` hands on the canonical `state`, and its metrics have finite values. -/
structure Settled (r : StepResult) (state : ActionState) : Prop where
  state_eq : r.state? = some state
  canonical : state.Canonical
  finite : r.attachments.Finite

/-- **Reading again.**  The JSON of a settled result `r` is read as `r` itself: a state that is
    canonical is its own normal form. -/
theorem Settled.reread_eq {r : StepResult} {state : ActionState} (h : r.Settled state) :
    r.reread = .ok r := by
  obtain ⟨hstate, hcanonical, hfinite⟩ := h
  have hnormal : state.normalize = state := hcanonical.normalize_eq
  -- in each kind the state is the only field that the trip could have changed
  cases r with
  | prepare r =>
    have hr : r.state = state := Option.some.inj hstate
    have hread := Conversion.ofTree_eq_ok_iff.2 (PrepareResult.readsBack hfinite)
    rw [hr, hnormal, ← hr] at hread
    rw [reread, hread]
    rfl
  | start r =>
    have hr : r.state = some state := hstate
    have hread := Conversion.ofTree_eq_ok_iff.2 (StartResult.readsBack hfinite)
    rw [hr, Option.map_some, hnormal, ← hr] at hread
    rw [reread, hread]
    rfl
  | status r =>
    have hr : r.state = some state := hstate
    have hread := Conversion.ofTree_eq_ok_iff.2 (StatusResult.readsBack hfinite)
    rw [hr, Option.map_some, hnormal, ← hr] at hread
    rw [reread, hread]
    rfl

end StepResult

open Build (Returns)

/-! ### Steps -/

/-- A value `source` that has a `state` is prepared to a settled result. -/
theorem settled_prepare {source : Source} {state : ActionState} {ms : List Modifier}
    (h : ActionState.ofSource source = .ok state) (hcanonical : state.Canonical)
    (hms : ∀ m ∈ ms, m.Finite) :
    ∃ r, Returns (PrepareResult.build source ms) r ∧ (StepResult.prepare r).Settled state := by
  refine ⟨_, PrepareResult.build_returns h ms, ?_⟩
  rw [applyModifiers_eq]
  exact ⟨rfl, hcanonical, Attachments.finite_applyAll Attachments.finite_empty hms⟩

/-- A call `c` with a value `source` that has a `state` returns a settled result. -/
theorem Call.build_returns {source : Source} {state : ActionState} {ms : List Modifier}
    (c : Call) (h : ActionState.ofSource source = .ok state) (hcanonical : state.Canonical)
    (hms : ∀ m ∈ ms, m.Finite) :
    ∃ r, Returns (c.build (some source) ms) r ∧ r.Settled state := by
  have hfinite : (({} : Attachments).applyAll ms).Finite :=
    Attachments.finite_applyAll Attachments.finite_empty hms
  have hencode : Returns (encodeState? (some source)) (some state) := encodeState?_returns h
  -- both calls put the encoded state and the attachments of the modifiers together
  cases c with
  | start =>
    have hbuild := StartResult.build_returns hencode ms
    refine ⟨_, Build.returns_map StepResult.start hbuild, ?_⟩
    rw [applyModifiers_eq]
    exact ⟨rfl, hcanonical, hfinite⟩
  | status completed =>
    have hbuild := StatusResult.build_returns hencode completed ms
    refine ⟨_, Build.returns_map StepResult.status hbuild, ?_⟩
    rw [applyModifiers_eq]
    exact ⟨rfl, hcanonical, hfinite⟩

/-- **One poll.**  The poll `p` does not fail, and its state is the changed one in normal form. -/
theorem Poll.run_returns {p : Poll} {last : StepResult} {state : ActionState}
    (h : last.Settled state) (hms : ∀ m ∈ p.modifiers, m.Finite) :
    ∃ next, Returns (p.run last) next ∧ next.Settled (p.change state).normalize := by
  -- the JSON gives back the last result, so the poll hands on the changed state
  have hrun : p.run last = p.call.build (some (p.change state).toSource) p.modifiers := by
    rw [Poll.run, h.reread_eq]
    show p.call.build (last.state?.map _) p.modifiers = _
    rw [h.state_eq]
    rfl
  rw [hrun]
  exact p.call.build_returns (p.change state).ofSource_toSource
    (p.change state).canonical_normalize hms

/-! ### Runs -/

/-- **Any number of polls.**  None of `ps` fails, and the results have the states of a life without
    JSON.  The invariant `Settled` is carried from each result to the next. -/
theorem runPolls_returns {ps : List Poll} {last : StepResult} {state : ActionState}
    (h : last.Settled state) (hps : ∀ p ∈ ps, ∀ m ∈ p.modifiers, m.Finite) :
    ∃ results, Returns (runPolls last ps) results ∧
      List.Forall₂ StepResult.Settled results (statesFrom state ps) := by
  induction ps generalizing last state with
  | nil => exact ⟨[last], Build.returns_pure [last], .cons h .nil⟩
  | cons p ps ih =>
    obtain ⟨next, hnext, hsettled⟩ := Poll.run_returns h (hps p List.mem_cons_self)
    obtain ⟨results, hresults, hall⟩ :=
      ih hsettled (fun q hq => hps q (List.mem_cons_of_mem _ hq))
    -- the invariant of `last` is in front, that of the later results comes from the induction
    refine ⟨last :: results, ?_, .cons h hall⟩
    exact Build.returns_bind hnext (Build.returns_bind hresults (Build.returns_pure _))

/-! ### The states of a life -/

/-- There is one state more than there are polls in `ps`. -/
theorem length_statesFrom (state : ActionState) (ps : List Poll) :
    (statesFrom state ps).length = ps.length + 1 := by
  induction ps generalizing state with
  | nil => rfl
  | cons p ps ih =>
    show (statesFrom (p.change state).normalize ps).length + 1 = _
    rw [ih]
    rfl

/-- All states of `statesFrom` are canonical if the first one is. -/
theorem canonical_of_mem_statesFrom {state s : ActionState} {ps : List Poll}
    (h : state.Canonical) (hs : s ∈ statesFrom state ps) : s.Canonical := by
  induction ps generalizing state with
  | nil =>
    rw [List.mem_singleton.1 hs]
    exact h
  | cons p ps ih =>
    rcases List.mem_cons.1 hs with rfl | hs
    · exact h
    · exact ih (p.change state).canonical_normalize hs

/-- The poll `p` at position `i` leads from the state there to the next one. -/
theorem statesFrom_step {state : ActionState} {ps : List Poll} {i : Nat} {p : Poll}
    (hp : ps[i]? = some p) :
    ∃ s, (statesFrom state ps)[i]? = some s ∧
      (statesFrom state ps)[i + 1]? = some (p.change s).normalize := by
  induction ps generalizing state i with
  | nil => cases hp
  | cons q qs ih =>
    cases i with
    | zero =>
      have hq : q = p := Option.some.inj hp
      subst hq
      refine ⟨state, rfl, ?_⟩
      cases qs <;> rfl
    | succ i => exact ih hp

/-- **Idle polls.**  Polls that insert nothing, `n` of them from position `i` on, leave the state as
    it is.  A canonical state is its own normal form, so no poll of them changes it. -/
theorem statesFrom_idle {state : ActionState} {ps : List Poll} (h : state.Canonical) (i n : Nat)
    (hn : i + n ≤ ps.length) (hidle : ∀ p ∈ (ps.drop i).take n, p.inserts = []) :
    (statesFrom state ps)[i + n]? = (statesFrom state ps)[i]? := by
  induction n with
  | zero => rfl
  | succ n ih =>
    have hlt : i + n < ps.length := by omega
    have hget : ps[i + n]? = some ps[i + n] := List.getElem?_eq_getElem hlt
    have hmem : ps[i + n] ∈ (ps.drop i).take (n + 1) := by
      rw [List.mem_take_iff_getElem]
      refine ⟨n, ?_, ?_⟩
      · rw [List.length_drop]
        omega
      · rw [List.getElem_drop]
    have hrest : ∀ p ∈ (ps.drop i).take n, p.inserts = [] := by
      intro p hp
      apply hidle
      exact List.take_subset_take_left _ (Nat.le_succ n) hp
    obtain ⟨s, hs, hnext⟩ : ∃ s, (statesFrom state ps)[i + n]? = some s ∧
        (statesFrom state ps)[i + n + 1]? = some (ps[i + n].change s).normalize :=
      statesFrom_step hget
    have hcanonical : s.Canonical := canonical_of_mem_statesFrom h (List.mem_of_getElem? hs)
    have hchange : (ps[i + n]).change s = s := by
      rw [Poll.change, hidle _ hmem]
      rfl
    -- nothing is inserted, and a canonical state is not changed by its normal form
    rw [hchange, hcanonical.normalize_eq] at hnext
    show (statesFrom state ps)[i + n + 1]? = _
    rw [hnext, ← hs]
    exact ih (by omega) hrest

/-! ### A whole life -/

/-- **No drift over a life.**  If the `source` is accepted and all metrics are finite, no poll
    fails.  The results have the states of a life without JSON: all of them are canonical, and the
    JSON of every result is read as that very result.  A poll puts in normal form what it has
    inserted, which no decoder can tell, and polls that insert nothing leave the state as it is,
    however many they are. -/
theorem lifecycle_noDrift (source : Source) (ms : List Modifier) (ps : List Poll)
    (session : Session) (haccepts : ∃ r, (PrepareResult.build source ms session).1 = .ok r)
    (hms : ∀ m ∈ ms, m.Finite) (hps : ∀ p ∈ ps, ∀ m ∈ p.modifiers, m.Finite) :
    ∃ state results, ActionState.ofSource source = .ok state ∧
      (lifecycle source ms ps session).1 = .ok results ∧ results.length = ps.length + 1 ∧
      List.Forall₂ (fun r s => r.state? = some s ∧ s.Canonical ∧ r.reread = .ok r)
        results (statesFrom state ps) ∧
      (∀ i p, ps[i]? = some p → ∃ s s', (statesFrom state ps)[i]? = some s ∧
        (statesFrom state ps)[i + 1]? = some s' ∧ s' = (p.change s).normalize ∧
        ∀ (α : Type) [Wire α], (s'.decode : Except ActionError α) = (p.change s).decode) ∧
      ∀ i n, i + n ≤ ps.length → (∀ p ∈ (ps.drop i).take n, p.inserts = []) →
        (statesFrom state ps)[i + n]? = (statesFrom state ps)[i]? := by
  obtain ⟨r, hr⟩ := haccepts
  obtain ⟨state, hstate⟩ := PrepareResult.exists_state_of_build hr
  have hcanonical : state.Canonical := ActionState.canonical_ofSource hstate
  obtain ⟨first, hfirst, hsettled⟩ := settled_prepare hstate hcanonical hms
  -- the invariant holds of the first result, and every poll preserves it
  obtain ⟨results, hresults, hall⟩ := runPolls_returns hsettled hps
  obtain ⟨session', hlife⟩ : ∃ session', lifecycle source ms ps session = (.ok results, session') :=
    Build.returns_bind hfirst hresults session
  refine ⟨state, results, hstate, by rw [hlife], ?_, ?_, ?_, ?_⟩
  · rw [hall.length_eq, length_statesFrom]
  · exact hall.imp (fun r s h => ⟨h.state_eq, h.canonical, h.reread_eq⟩)
  · intro i p hp
    obtain ⟨s, hs, hnext⟩ := statesFrom_step hp
    exact ⟨s, _, hs, hnext, rfl, fun α _ => (p.change s).decode_normalize⟩
  · intro i n hn hidle
    exact statesFrom_idle hcanonical i n hn hidle

/-- A `Counter` that is prepared with a metric gets a 64-bit number at its start, and is asked twice
    for its status. -/
theorem lifecycle_noDrift_counter :
    ∃ state results, ActionState.ofSource (Counter.source ⟨5⟩) = .ok state ∧
      (lifecycle (Counter.source ⟨5⟩)
        [.metrics (some [.ofValue "restarts" (.ofInt 1)
          ⟨⟨1970, 1, 1, by decide⟩, 0, 0, by decide, by decide, by decide⟩])]
        [⟨[("n", .long 7)], .start, []⟩, ⟨[], .status false, []⟩, ⟨[], .status true, []⟩]
        ⟨none, none, []⟩).1 = .ok results ∧
      List.Forall₂ (fun r s => r.state? = some s ∧ s.Canonical ∧ r.reread = .ok r) results
        [state, (state.insert "n" (.long 7)).normalize, (state.insert "n" (.long 7)).normalize,
          (state.insert "n" (.long 7)).normalize] := by
  have hstart : ActionState.ofSource (Counter.source ⟨5⟩) =
      .ok (ActionState.ofMembers [("X", .int (.ofInt32 5))]) := rfl
  have hone : (Binary64.ofInt 1).IsFinite := Binary64.isFinite_ofInt (by decide)
  have hmetric : ∀ m ∈ [Modifier.metrics (some [.ofValue "restarts" (.ofInt 1)
      ⟨⟨1970, 1, 1, by decide⟩, 0, 0, by decide, by decide, by decide⟩])], m.Finite := by
    intro m hm
    rw [List.mem_singleton.1 hm]
    intro x hx
    rw [List.mem_singleton.1 hx]
    exact hone
  have hprepare := PrepareResult.build_returns hstart
    [.metrics (some [.ofValue "restarts" (.ofInt 1)
      ⟨⟨1970, 1, 1, by decide⟩, 0, 0, by decide, by decide, by decide⟩])] ⟨none, none, []⟩
  obtain ⟨session', hsession'⟩ := hprepare
  obtain ⟨state, results, hstate, hlife, -, hall, -, -⟩ :=
    lifecycle_noDrift (Counter.source ⟨5⟩)
      [.metrics (some [.ofValue "restarts" (.ofInt 1)
        ⟨⟨1970, 1, 1, by decide⟩, 0, 0, by decide, by decide, by decide⟩])]
      [⟨[("n", .long 7)], .start, []⟩, ⟨[], .status false, []⟩, ⟨[], .status true, []⟩]
      ⟨none, none, []⟩ ⟨_, congrArg Prod.fst hsession'⟩ hmetric (by simp)
  refine ⟨state, results, hstate, hlife, ?_⟩
  -- the number is put in 32 bits once, and then left alone
  have hnormal : (state.insert "n" (.long 7)).normalize.normalize =
      (state.insert "n" (.long 7)).normalize :=
    (state.insert "n" (.long 7)).canonical_normalize.normalize_eq
  have hstates : statesFrom state
      [⟨[("n", .long 7)], .start, []⟩, ⟨[], .status false, []⟩, ⟨[], .status true, []⟩] =
      [state, (state.insert "n" (.long 7)).normalize, (state.insert "n" (.long 7)).normalize,
        (state.insert "n" (.long 7)).normalize] := by
    show [state, (state.insert "n" (.long 7)).normalize,
      (state.insert "n" (.long 7)).normalize.normalize,
      (state.insert "n" (.long 7)).normalize.normalize.normalize] = _
    rw [hnormal, hnormal]
  rw [hstates] at hall
  exact hall

end FaultAction
