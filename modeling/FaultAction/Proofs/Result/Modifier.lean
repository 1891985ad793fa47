import FaultAction.Proofs.Record.ReadBack
import FaultAction.Result.Basic
import FaultAction.Proofs.Members.Lookup

namespace FaultAction

/-!
# Modifiers — what they leave alone, and which of them counts

Modifiers change the attachments of a result and nothing else:

* `LawfulAttachments`  — reading and replacing the attachments of a result fit together;
* `applyModifiers_eq`  — modifiers of a result are modifiers of its attachments;
* `finite_applyAll`    — with finite metrics in all modifiers, the attachments have finite metrics.

Modifiers of different kinds change different attachments, so their order matters only among those
of one kind:

* `Modifier.Kind`, `Modifier.payload?` — the kinds of modifiers, and what one of a kind sets;
* `Modifier.lastPayload?`     — what the last modifier of a kind in a list sets, if there is one;
* `Attachments.get_applyAll`  — an attachment is what the last modifier of its kind sets, or else
  what it was before;
* `LastWriteWins`             — this, and what follows from it, for a type of results;
* `modifiers_lastWriteWins`   — it holds of all four types of results.
-/

/-! ### What modifiers leave alone -/

/-- Attachments of a result of the type `ρ` can be replaced, and a replacement is what is read
    afterwards. -/
class LawfulAttachments (ρ : Type) [HasAttachments ρ] : Prop where
  attachments_withAttachments : ∀ (r : ρ) (a : Attachments),
    HasAttachments.attachments (HasAttachments.withAttachments r a) = a
  withAttachments_withAttachments : ∀ (r : ρ) (a b : Attachments),
    HasAttachments.withAttachments (HasAttachments.withAttachments r a) b =
      HasAttachments.withAttachments r b
  withAttachments_attachments : ∀ r : ρ,
    HasAttachments.withAttachments r (HasAttachments.attachments r) = r

instance : LawfulAttachments PrepareResult := ⟨fun _ _ => rfl, fun _ _ _ => rfl, fun _ => rfl⟩

instance : LawfulAttachments StartResult := ⟨fun _ _ => rfl, fun _ _ _ => rfl, fun _ => rfl⟩

instance : LawfulAttachments StatusResult := ⟨fun _ _ => rfl, fun _ _ _ => rfl, fun _ => rfl⟩

instance : LawfulAttachments StopResult := ⟨fun _ _ => rfl, fun _ _ _ => rfl, fun _ => rfl⟩

/-- The attachments `a` after the changes of `ms`, in order. -/
def Attachments.applyAll (a : Attachments) (ms : List Modifier) : Attachments :=
  ms.foldl Attachments.apply a

/-- Modifiers `ms` of a result `r` are modifiers of its attachments, and leave the rest alone. -/
theorem applyModifiers_eq {ρ : Type} [HasAttachments ρ] [LawfulAttachments ρ] (r : ρ)
    (ms : List Modifier) :
    applyModifiers r ms =
      HasAttachments.withAttachments r ((HasAttachments.attachments r).applyAll ms) := by
  induction ms generalizing r with
  | nil => exact (LawfulAttachments.withAttachments_attachments r).symm
  | cons m ms ih =>
    -- what the first modifier has replaced, the rest replaces again
    show applyModifiers (applyModifier r m) ms = _
    rw [ih, applyModifier, LawfulAttachments.attachments_withAttachments,
      LawfulAttachments.withAttachments_withAttachments]
    rfl

/-! ### Finite metrics -/

/-- Every metric that a modifier `metrics` sets has a finite value, which is no condition for other
    kinds. -/
def Modifier.Finite : Modifier → Prop
  | .metrics (some ms) => ∀ m ∈ ms, m.value.IsFinite
  | _ => True

namespace Attachments

/-- One change by `m` with finite metrics keeps the metrics of `a` finite. -/
theorem finite_apply {a : Attachments} {m : Modifier} (ha : a.Finite) (hm : m.Finite) :
    (a.apply m).Finite := by
  cases m with
  | artifacts value => exact ha
  | error value => exact ha
  | messages value => exact ha
  | metrics value =>
    intro ms hms
    cases value with
    | none => cases hms
    | some ms' =>
      cases hms
      exact hm

/-- Any number of changes with finite metrics keep the metrics of `a` finite. -/
theorem finite_applyAll {a : Attachments} {ms : List Modifier} (ha : a.Finite)
    (hms : ∀ m ∈ ms, m.Finite) : (a.applyAll ms).Finite := by
  induction ms generalizing a with
  | nil => exact ha
  | cons m ms ih =>
    have hm : m.Finite := hms m List.mem_cons_self
    exact ih (finite_apply ha hm) (fun n hn => hms n (List.mem_cons_of_mem _ hn))

/-- There is no metric before any modifier, so the attachments are `Finite`. -/
theorem finite_empty : ({} : Attachments).Finite := fun _ h => by cases h

end Attachments

section

/-! ### Kinds of modifiers -/

namespace Modifier

/-- The kinds of modifiers, one for each of the attachments. -/
inductive Kind where
  | artifacts
  | error
  | messages
  | metrics
  deriving DecidableEq

/-- What an attachment of a kind holds when it is there. -/
def Kind.Content : Kind → Type
  | artifacts => List Artifact
  | error => Problem
  | messages => List Message
  | metrics => List Metric

/-- The kind of a modifier, whatever it sets its attachment to. -/
def kind : Modifier → Kind
  | .artifacts _ => .artifacts
  | .error _ => .error
  | .messages _ => .messages
  | .metrics _ => .metrics

/-- What a modifier sets the attachment of the kind `k` to, be it content or none.  A modifier of
    another kind sets nothing. -/
def payload? : Modifier → (k : Kind) → Option (Option k.Content)
  | .artifacts value, .artifacts => some value
  | .error value, .error => some value
  | .messages value, .messages => some value
  | .metrics value, .metrics => some value
  | _, _ => none

/-- What the last modifier of the kind `k` sets, if there is one among `ms`. -/
def lastPayload? (k : Kind) (ms : List Modifier) : Option (Option k.Content) :=
  (ms.filterMap fun m => m.payload? k).getLast?

variable {k : Kind}

/-- The modifiers `m` of other kinds than `k` are those that set nothing there. -/
theorem payload?_eq_none_iff {m : Modifier} : m.payload? k = none ↔ m.kind ≠ k := by
  cases m <;> cases k <;> simp [payload?, kind]

/-- The last modifier of two lists is that of the second, `ms'`, or else that of the first, `ms`. -/
theorem lastPayload?_append (ms ms' : List Modifier) :
    lastPayload? k (ms ++ ms') = (lastPayload? k ms').or (lastPayload? k ms) :=
  latest?_append ms ms'

/-- The first modifier `m` counts only when no later one among `ms` is of its kind. -/
theorem lastPayload?_cons (m : Modifier) (ms : List Modifier) :
    lastPayload? k (m :: ms) = (lastPayload? k ms).or (m.payload? k) :=
  latest?_cons m ms

/-- Without modifiers of the kind `k` among `ms` there is no last one. -/
theorem lastPayload?_eq_none {ms : List Modifier} (h : ∀ m ∈ ms, m.kind ≠ k) :
    lastPayload? k ms = none :=
  latest?_eq_none_iff.2 (fun m hm => payload?_eq_none_iff.2 (h m hm))

/-- Modifiers may be left out, as by `keep`, if none of them is of the kind `k`. -/
theorem lastPayload?_filter {keep : Modifier → Bool} {ms : List Modifier}
    (h : ∀ m ∈ ms, m.kind = k → keep m = true) :
    lastPayload? k (ms.filter keep) = lastPayload? k ms := by
  apply latest?_filter
  intro m hm hkeep
  -- a modifier that is left out is of another kind, so it sets nothing
  refine payload?_eq_none_iff.2 (fun hkind => ?_)
  rw [h m hm hkind] at hkeep
  cases hkeep

end Modifier

open Modifier (lastPayload?)

/-! ### One attachment after changes -/

namespace Attachments

/-- The attachment among `a` that modifiers of a kind change. -/
def get (a : Attachments) : (k : Modifier.Kind) → Option k.Content
  | .artifacts => a.artifacts
  | .error => a.error
  | .messages => a.messages
  | .metrics => a.metrics

/-- There is nothing else to attachments, so `a` and `b` are equal if they agree on each kind. -/
theorem ext_get {a b : Attachments} (h : ∀ k, a.get k = b.get k) : a = b :=
  Attachments.ext (h .artifacts) (h .error) (h .messages) (h .metrics)

/-- After one change by `m`, an attachment is what `m` sets, or else what it was before. -/
theorem get_apply (a : Attachments) (m : Modifier) (k : Modifier.Kind) :
    (a.apply m).get k = (m.payload? k).getD (a.get k) := by
  cases m <;> cases k <;> rfl

/-- After changes in order, an attachment is what the last modifier of its kind `k` sets, or else
    what it was before. -/
theorem get_applyAll (a : Attachments) (ms : List Modifier) (k : Modifier.Kind) :
    (a.applyAll ms).get k = (lastPayload? k ms).getD (a.get k) := by
  induction ms generalizing a with
  | nil => rfl
  | cons m ms ih =>
    show ((a.apply m).applyAll ms).get k = _
    rw [ih, get_apply, Modifier.lastPayload?_cons]
    -- a later modifier of the kind hides the first one
    cases lastPayload? k ms with
    | some value => rfl
    | none => rw [Option.none_or, Option.getD_none]

/-- Modifiers `ms` and `ms'` that set the same in the end give the same attachments. -/
theorem applyAll_congr {a : Attachments} {ms ms' : List Modifier}
    (h : ∀ k, lastPayload? k ms = lastPayload? k ms') : a.applyAll ms = a.applyAll ms' := by
  apply ext_get
  intro k
  rw [get_applyAll, get_applyAll, h]

/-- What modifiers `ms` have set, they do not change when they are applied again. -/
theorem applyAll_applyAll (a : Attachments) (ms : List Modifier) :
    (a.applyAll ms).applyAll ms = a.applyAll ms := by
  apply ext_get
  intro k
  rw [get_applyAll, get_applyAll]
  -- what the last modifier of the kind sets is there already the second time
  cases lastPayload? k ms <;> rfl

end Attachments

/-! ### Results after changes -/

open HasAttachments (attachments)

/-- What modifiers do to the results of the type `ρ`, where `rest` is all that a result has besides
    its attachments. -/
structure LastWriteWins (ρ : Type) [HasAttachments ρ] {σ : Type} (rest : ρ → σ) : Prop where
  /-- An attachment is what the last modifier of its kind `k` sets, or else that of the result
      `r`. -/
  get_eq : ∀ (r : ρ) (ms : List Modifier) (k : Modifier.Kind),
    (attachments (applyModifiers r ms)).get k = (lastPayload? k ms).getD ((attachments r).get k)
  /-- The `rest` of the result is not touched. -/
  rest_eq : ∀ (r : ρ) (ms : List Modifier), rest (applyModifiers r ms) = rest r
  /-- Only the last modifier of each kind matters, so other `ms'` with the same do as well. -/
  eq_of_last : ∀ (r : ρ) (ms ms' : List Modifier),
    (∀ k, lastPayload? k ms = lastPayload? k ms') → applyModifiers r ms = applyModifiers r ms'
  /-- Modifiers `ms` may be reordered, if those of one kind stay in order. -/
  eq_of_perm : ∀ (r : ρ) (ms ms' : List Modifier), ms.Perm ms' →
    (∀ k, ms.filter (fun m => m.kind = k) = ms'.filter (fun m => m.kind = k)) →
      applyModifiers r ms = applyModifiers r ms'
  /-- After a modifier `m` that clears an attachment, it is absent until it is set again. -/
  get_clear : ∀ (r : ρ) (ms ms' : List Modifier) (m : Modifier) (k : Modifier.Kind),
    m.payload? k = some none → (∀ n ∈ ms', n.kind ≠ k) →
      (attachments (applyModifiers r (ms ++ m :: ms'))).get k = none
  /-- What has been set before `m` clears it might as well not have been. -/
  eq_clear : ∀ (r : ρ) (ms ms' : List Modifier) (m : Modifier) (k : Modifier.Kind),
    m.payload? k = some none →
      applyModifiers r (ms ++ m :: ms') =
        applyModifiers r (ms.filter (fun n => n.kind ≠ k) ++ m :: ms')
  /-- Applying the modifiers `ms` again changes nothing. -/
  again_eq : ∀ (r : ρ) (ms : List Modifier),
    applyModifiers (applyModifiers r ms) ms = applyModifiers r ms

section

variable {ρ : Type} [HasAttachments ρ] [LawfulAttachments ρ]

/-- The attachments of a result `r` after changes are its attachments, changed by the modifiers
    `ms`. -/
theorem attachments_applyModifiers (r : ρ) (ms : List Modifier) :
    attachments (applyModifiers r ms) = (attachments r).applyAll ms := by
  rw [applyModifiers_eq, LawfulAttachments.attachments_withAttachments]

/-- Changes `ms` and `ms'` that give the same attachments give the same result. -/
theorem applyModifiers_congr {r : ρ} {ms ms' : List Modifier}
    (h : ∀ k, lastPayload? k ms = lastPayload? k ms') :
    applyModifiers r ms = applyModifiers r ms' := by
  rw [applyModifiers_eq, applyModifiers_eq, Attachments.applyAll_congr h]

/-- Applied to a result `r` again, modifiers `ms` change nothing. -/
theorem applyModifiers_applyModifiers (r : ρ) (ms : List Modifier) :
    applyModifiers (applyModifiers r ms) ms = applyModifiers r ms := by
  rw [applyModifiers_eq (applyModifiers r ms), attachments_applyModifiers,
    Attachments.applyAll_applyAll, applyModifiers_eq,
    LawfulAttachments.withAttachments_withAttachments]

/-- The last write wins on every type `ρ` of results whose attachments can be replaced apart from
    the `rest`. -/
theorem LastWriteWins.of_lawful {σ : Type} {rest : ρ → σ}
    (hrest : ∀ (r : ρ) (a : Attachments), rest (HasAttachments.withAttachments r a) = rest r) :
    LastWriteWins ρ rest where
  get_eq r ms k := by rw [attachments_applyModifiers, Attachments.get_applyAll]
  rest_eq r ms := by rw [applyModifiers_eq, hrest]
  eq_of_last _ _ _ h := applyModifiers_congr h
  eq_of_perm r ms ms' _ hkinds := by
    apply applyModifiers_congr
    intro k
    -- only the modifiers of the kind count, and they are the same on both sides
    have hkeep : ∀ l : List Modifier, lastPayload? k (l.filter fun m => m.kind = k) =
        lastPayload? k l :=
      fun l => Modifier.lastPayload?_filter (fun m _ hm => decide_eq_true hm)
    rw [← hkeep ms, ← hkeep ms', hkinds]
  get_clear r ms ms' m k hm hms' := by
    rw [attachments_applyModifiers, Attachments.get_applyAll, Modifier.lastPayload?_append,
      Modifier.lastPayload?_cons, Modifier.lastPayload?_eq_none hms', hm]
    rfl
  eq_clear r ms ms' m k hm := by
    apply applyModifiers_congr
    intro l
    rw [Modifier.lastPayload?_append, Modifier.lastPayload?_append, Modifier.lastPayload?_cons]
    by_cases hl : l = k
    · -- the modifier itself is of this kind, so neither list before it counts
      subst hl
      rw [hm]
      cases lastPayload? l ms' <;> rfl
    · -- the modifiers that are left out are of another kind, so they set nothing here
      have hkeep : lastPayload? l (ms.filter fun n => n.kind ≠ k) = lastPayload? l ms :=
        Modifier.lastPayload?_filter (fun n _ hn => decide_eq_true (hn ▸ hl))
      rw [hkeep]
  again_eq := applyModifiers_applyModifiers

end

/-- **The last write wins.**  Modifiers of a result of any type set each attachment to what the last
    modifier of its kind says, and leave `state` and `completed`, the rest of a result, alone. -/
theorem modifiers_lastWriteWins :
    LastWriteWins PrepareResult (fun r => r.state) ∧
      LastWriteWins StartResult (fun r => r.state) ∧
      LastWriteWins StatusResult (fun r => (r.completed, r.state)) ∧
      LastWriteWins StopResult (fun _ => ()) := by
  refine ⟨?_, ?_, ?_, ?_⟩
  · exact .of_lawful (fun _ _ => rfl)
  · exact .of_lawful (fun _ _ => rfl)
  · exact .of_lawful (fun _ _ => rfl)
  · exact .of_lawful (fun _ _ => rfl)

end

end FaultAction
