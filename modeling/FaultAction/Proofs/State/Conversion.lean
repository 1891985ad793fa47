import FaultAction.CallerState
import FaultAction.Proofs.Source
import FaultAction.Proofs.Datum.Reading
import FaultAction.Proofs.State.NormalForm

namespace FaultAction

/-!
# The state of an action — against a plain conversion

A caller's value becomes a state by the reader that goes by the kind of a tree, and a plain
conversion takes the reader that tries the kinds in turn.

* `ActionState.readers_agree`    — both ways to make a state give the same one;
* `ActionState.decode_ofMembers` — what a state keeps of the tree it was made of;
* `ActionState.transparent`      — a state in between changes nothing but unsigned integers.
-/

namespace ActionState

variable {s : Source} {j : Json} {e : WriteError}

/-! ### The two readers -/

/-- The state of a value `s` that can be written is the state of its tree `j`. -/
theorem ofSource_of_ok (h : s.toJson = .ok j) : ofSource s = ofTree j := by
  rw [ofSource, Conversion.toTree_of_ok h]
  rfl

/-- A value `s` that cannot be written has no state, and the error is that of the writer. -/
theorem ofSource_of_error (h : s.toJson = .error e) :
    ofSource s = .error (ActionError.ofWriteError e) := by
  rw [ofSource, Conversion.toTree_of_error h]
  rfl

/-- The state of a caller's value `s` is `Canonical`, for it has been read from a tree. -/
theorem canonical_ofSource {state : ActionState} (h : ofSource s = .ok state) :
    state.Canonical := by
  cases hj : s.toJson with
  | error e =>
    rw [ofSource_of_error hj] at h
    cases h
  | ok j =>
    rw [ofSource_of_ok hj] at h
    cases j with
    | obj ms =>
      cases h
      exact canonical_ofMembers ms
    | null =>
      cases h
      exact fun _ he => nomatch he
    | bool | num | str | arr => cases h

/-- A plain conversion makes of a value that is written as an object the state of its members
    `ms`. -/
theorem convert_of_obj {ms : List (String × Json)} (h : s.toJson = .ok (.obj ms)) :
    (Conversion.convert s : Except ActionError ActionState) = .ok (ofMembers ms) := by
  rw [Conversion.convert_of_ok h, Conversion.ofTree, read_obj]
  rfl

/-- A plain conversion to a state refuses every value whose tree `j` is not an object. -/
theorem convert_of_not_obj (h : s.toJson = .ok j) (hj : ∀ ms, j ≠ .obj ms) :
    ∃ e, (Conversion.convert s : Except ActionError ActionState) = .error e := by
  rw [Conversion.convert_of_ok h]
  cases j with
  | obj ms => exact absurd rfl (hj ms)
  | null | bool | num | str | arr => exact ⟨_, rfl⟩

/-- **The two readers agree.**  For every tree `j` the first kind of value that can be read is the
    one that the kind of `j` determines.  So a caller's value `s` that is written as an object has
    the same state in both ways; both fail if it is written as anything else but null, or not at
    all; and of null one makes the empty state where the other fails. -/
theorem readers_agree :
    (∀ j : Json,
      Datum.Raw.trials.findSome? (· j) = some (Datum.Raw.ofJson j) ∧
        (Wire.read j : Except ReadError Datum) = .ok (Datum.ofJson j)) ∧
    ∀ s : Source,
      match s.toJson with
      | .ok (.obj ms) =>
        ∃ state, ofSource s = .ok state ∧ Conversion.convert s = .ok state ∧
          state.toDatum = Datum.ofJson (.obj ms)
      | .ok .null =>
        ofSource s = .ok empty ∧
          ∃ e, (Conversion.convert s : Except ActionError ActionState) = .error e
      | _ =>
        (∃ e, ofSource s = .error e) ∧
          ∃ e, (Conversion.convert s : Except ActionError ActionState) = .error e := by
  refine ⟨fun j => ⟨Datum.Raw.findSome?_trials j, congrArg Except.ok (Datum.read_eq j)⟩, ?_⟩
  intro s
  cases h : s.toJson with
  | error e => exact ⟨⟨_, ofSource_of_error h⟩, _, Conversion.convert_of_error h⟩
  | ok j =>
    cases j with
    | obj ms => exact ⟨ofMembers ms, ofSource_of_ok h, convert_of_obj h, toDatum_ofMembers ms⟩
    -- null is the one tree on which the two ways differ
    | null => exact ⟨ofSource_of_ok h, convert_of_not_obj h (fun _ => Json.noConfusion)⟩
    | bool | num | str | arr =>
      exact ⟨⟨_, ofSource_of_ok h⟩, convert_of_not_obj h (fun _ => Json.noConfusion)⟩

/-! ### A state in between -/

/-- The tree of the state of `ms` is the object they are taken from, widened, if its names are in
    order. -/
theorem toValue_ofMembers {ms : List (String × Json)} (hkeys : (Json.obj ms).WellKeyed) :
    Wire.toValue (ofMembers ms) = (Json.obj ms).widen := by
  rw [toValue_eq, toDatum_ofMembers]
  exact Datum.toJson_ofJson hkeys

/-- The error of a state that cannot be decoded, with code 1011 and the error `e` of the reader for
    its cause. -/
def decodeFailed (e : ActionError) : ActionError :=
  (ActionError.ofKind .stateDecodeFailed "Failed to decode action state").withCause (.error e)

/-- Decoding a `state` reads its tree, and wraps the error of a failure with `decodeFailed`. -/
theorem decode_eq {α : Type} [Wire α] (state : ActionState) :
    (state.decode : Except ActionError α) =
      (Conversion.ofTree (Wire.toValue state)).mapError decodeFailed := by
  rw [decode, Conversion.convert_of_ok state.toJson_toSource]
  rfl

/-- What a state keeps of the tree it was made of is the tree under `Json.widen`, and that is what
    is decoded. -/
theorem decode_ofMembers {α : Type} [Wire α] {ms : List (String × Json)}
    (hkeys : (Json.obj ms).WellKeyed) :
    ((ofMembers ms).decode : Except ActionError α) =
      (Conversion.ofTree (Json.obj ms).widen).mapError decodeFailed := by
  rw [decode_eq, toValue_ofMembers hkeys]

/-- The state of a value `s` without unsigned integers is decoded as `s` is converted, up to the
    error that wraps a failure. -/
theorem decode_of_signed {α : Type} [Wire α] {ms : List (String × Json)}
    (hs : s.toJson = .ok (.obj ms)) (h : (Json.obj ms).Signed) :
    ((ofMembers ms).decode : Except ActionError α) =
      (Conversion.convert s).mapError decodeFailed := by
  rw [decode_ofMembers (Source.wellKeyed_toJson s hs), Json.widen_eq_self_iff.2 h,
    Conversion.convert_of_ok hs]

/-- **A state is transparent up to unsigned integers.**  The value of a tree `j` is written as
    `j.widen`, so as `j` itself exactly if it is `Signed`.  A caller's value `s` that is written as
    an object without unsigned integers is therefore decoded from its state as it is converted
    without one: both give the same value, or both fail, and then the error of the conversion is the
    cause of the other. -/
theorem transparent :
    (∀ j : Json, j.WellKeyed →
      (Datum.ofJson j).toJson = j.widen ∧ ((Datum.ofJson j).toJson = j ↔ j.Signed)) ∧
    ∀ (s : Source) (ms : List (String × Json)), s.toJson = .ok (.obj ms) →
      (Json.obj ms).Signed → ∃ state, ofSource s = .ok state ∧
        ∀ (α : Type) [Wire α],
          (∃ a : α, state.decode = .ok a ∧ Conversion.convert s = .ok a) ∨
          ∃ e e' : ActionError, (Conversion.convert s : Except ActionError α) = .error e ∧
            (state.decode : Except ActionError α) = .error e' ∧ e'.code = 1011 ∧
            e'.displayText = "Failed to decode action state" ∧ e'.cause = some (.error e) := by
  constructor
  · intro j hkeys
    have hwiden : (Datum.ofJson j).toJson = j.widen := by
      show (Datum.Raw.ofJson j).toJson = _
      rw [Datum.Raw.toJson_ofJson, Json.sortKeys_of_wellKeyed hkeys]
    refine ⟨hwiden, ?_⟩
    rw [hwiden]
    exact Json.widen_eq_self_iff
  · intro s ms hs hsigned
    -- both ways read the same tree, so they differ at most in how they report a failure
    refine ⟨ofMembers ms, ofSource_of_ok hs, fun α _ => ?_⟩
    have hdecode : ((ofMembers ms).decode : Except ActionError α) =
        (Conversion.convert s).mapError decodeFailed := decode_of_signed hs hsigned
    cases hconvert : (Conversion.convert s : Except ActionError α) with
    | ok a =>
      rw [hconvert] at hdecode
      exact .inl ⟨a, hdecode, rfl⟩
    | error e =>
      rw [hconvert] at hdecode
      exact .inr ⟨e, decodeFailed e, rfl, hdecode, rfl, rfl, rfl⟩

/-- A counter comes out of its state as a `Counter`, and fails as a `Target` in both ways. -/
theorem transparent_counter :
    (Datum.ofJson (.int (.ofInt32 5))).toJson = .int (.ofInt32 5) ∧
    ∃ state, ofSource (Counter.source ⟨5⟩) = .ok state ∧
      (state.decode : Except ActionError Counter) = .ok ⟨5⟩ ∧
      ∃ e e' : ActionError,
        (Conversion.convert (Counter.source ⟨5⟩) : Except ActionError Target) = .error e ∧
          (state.decode : Except ActionError Target) = .error e' ∧ e'.code = 1011 ∧
          e'.cause = some (.error e) := by
  obtain ⟨htrees, hsources⟩ := transparent
  have hfive : (Json.int (.ofInt32 5)).Signed := by
    show (5 : Int32).toInt < 9223372036854775808
    decide
  refine ⟨(htrees (.int (.ofInt32 5)) trivial).2.2 hfive, ?_⟩
  obtain ⟨state, hstate, hdecode⟩ :=
    hsources (Counter.source ⟨5⟩) [("X", .int (.ofInt32 5))] rfl ⟨hfive, trivial⟩
  refine ⟨state, hstate, ?_, ?_⟩
  · rcases hdecode Counter with ⟨c, hc, hconvert⟩ | ⟨e, e', hconvert, -⟩
    · have hcounter : (Conversion.convert (Counter.source ⟨5⟩) : Except ActionError Counter) =
          .ok ⟨5⟩ := rfl
      rw [hconvert] at hcounter
      rw [hc, hcounter]
    · cases hconvert
  · rcases hdecode Target with ⟨t, -, hconvert⟩ | ⟨e, e', hconvert, hstate', hcode, -, hcause⟩
    · cases hconvert
    · exact ⟨e, e', hconvert, hstate', hcode, hcause⟩

end ActionState

end FaultAction
