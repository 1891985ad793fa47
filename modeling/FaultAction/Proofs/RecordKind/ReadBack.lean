import FaultAction.Proofs.Source
import FaultAction.Proofs.Record.ReadBack
import FaultAction.Proofs.Wire.Stable

namespace FaultAction

/-!
# Kinds of records — reading back what was written or read

The records that are read from JSON and written to it, taken together:

* `RecordKind`, `RecordKind.Value` — the nine kinds, and the records of a kind;
* `RecordKind.metrics`             — the metrics inside a record;
* `RecordKind.normalize`           — the record with its state in normal form;
* `roundTrip_iff_finite`           — a written record is read back exactly if its metrics are
  finite, and then as its normal form.

Whatever tree a record is read from, the record is settled: it is read back as itself.

* `Wire.Stable` of every record type — a metric has a finite value when it comes from JSON, and a
  state is canonical, so neither loses anything when it is written;
* `RecordKind.accepted_roundTrip`    — what is read from any tree is read again from its own.
-/

/-! ### Written records -/

/-- The kinds of records that are read from JSON and written to it: states, what results carry, and
    results. -/
inductive RecordKind where
  | state
  | artifact
  | problem
  | message
  | metric
  | prepare
  | start
  | status
  | stop

namespace RecordKind

/-- The records of a kind, each of a type of its own. -/
def Value : RecordKind → Type
  | state => ActionState
  | artifact => Artifact
  | problem => Problem
  | message => Message
  | metric => Metric
  | prepare => PrepareResult
  | start => StartResult
  | status => StatusResult
  | stop => StopResult

instance : (k : RecordKind) → Wire k.Value
  | state => inferInstanceAs (Wire ActionState)
  | artifact => inferInstanceAs (Wire Artifact)
  | problem => inferInstanceAs (Wire Problem)
  | message => inferInstanceAs (Wire Message)
  | metric => inferInstanceAs (Wire Metric)
  | prepare => inferInstanceAs (Wire PrepareResult)
  | start => inferInstanceAs (Wire StartResult)
  | status => inferInstanceAs (Wire StatusResult)
  | stop => inferInstanceAs (Wire StopResult)

/-- The metrics inside a record of the kind `k`, which is the one it is, or those that it
    carries. -/
def metrics : (k : RecordKind) → k.Value → List Metric
  | metric, (m : Metric) => [m]
  | prepare, (r : PrepareResult) => r.metrics.getD []
  | start, (r : StartResult) => r.metrics.getD []
  | status, (r : StatusResult) => r.metrics.getD []
  | stop, (r : StopResult) => r.metrics.getD []
  | state, _ | artifact, _ | problem, _ | message, _ => []

/-- The record with its state, if its kind has one, as `ActionState.normalize` leaves it, and all
    else as it is. -/
def normalize : (k : RecordKind) → k.Value → k.Value
  | state, (s : ActionState) => s.normalize
  | prepare, (r : PrepareResult) => { r with state := r.state.normalize }
  | start, (r : StartResult) => { r with state := r.state.map ActionState.normalize }
  | status, (r : StatusResult) => { r with state := r.state.map ActionState.normalize }
  | artifact, r | problem, r | message, r | metric, r | stop, r => r

end RecordKind

/-- Attachments `a` are `Finite` exactly if each metric in the list, if there is one, has a finite
    value. -/
theorem Attachments.finite_iff {a : Attachments} :
    a.Finite ↔ ∀ m ∈ a.metrics.getD [], m.value.IsFinite := by
  unfold Finite
  cases a.metrics with
  | none => simp
  | some ms => simp

namespace RecordKind

/-- A record `r` with finite metrics is read back as its normal form, whatever its kind `k`. -/
theorem readsBack_normalize (k : RecordKind) {r : k.Value}
    (h : ∀ m ∈ k.metrics r, m.value.IsFinite) : Wire.ReadsBack r (k.normalize r) := by
  cases k with
  | state => exact ActionState.readsBack r
  | artifact => exact Artifact.readsBack r
  | problem => exact Problem.readsBack r
  | message => exact Message.readsBack r
  | metric => exact Metric.readsBack (h r (List.mem_singleton_self r))
  | prepare => exact PrepareResult.readsBack (Attachments.finite_iff.2 h)
  | start => exact StartResult.readsBack (Attachments.finite_iff.2 h)
  | status => exact StatusResult.readsBack (Attachments.finite_iff.2 h)
  | stop => exact StopResult.readsBack (Attachments.finite_iff.2 h)

/-- A record `r` that is read back has finite metrics: null, which stands for any other number, is
    refused in the place of a value. -/
theorem isFinite_of_readsBack (k : RecordKind) {r r' : k.Value} (h : Wire.ReadsBack r r') :
    ∀ m ∈ k.metrics r, m.value.IsFinite := by
  cases k with
  | state | artifact | problem | message => exact fun _ hm => nomatch hm
  | metric =>
    intro m hm
    rw [List.mem_singleton.1 hm]
    exact Metric.isFinite_of_readsBack h
  | prepare =>
    -- the state is the first field, the attachments are the rest of the row
    obtain ⟨⟨_, _⟩, -, hrow⟩ := PrepareResult.format.exists_row_of_readsBack (by decide) h
    exact Attachments.finite_iff.1 (Attachments.finite_of_readsBack hrow)
  | start =>
    obtain ⟨⟨_, _⟩, -, hrow⟩ := StartResult.format.exists_row_of_readsBack (by decide) h
    exact Attachments.finite_iff.1 (Attachments.finite_of_readsBack hrow)
  | status =>
    obtain ⟨⟨_, _, _⟩, -, -, hrow⟩ := StatusResult.format.exists_row_of_readsBack (by decide) h
    exact Attachments.finite_iff.1 (Attachments.finite_of_readsBack hrow)
  | stop =>
    obtain ⟨_, hrow⟩ := StopResult.format.exists_row_of_readsBack (by decide) h
    exact Attachments.finite_iff.1 (Attachments.finite_of_readsBack hrow)

/-- A record `r` is read back as `r'` exactly if its metrics are finite and `r'` is its normal
    form. -/
theorem readsBack_iff (k : RecordKind) {r r' : k.Value} :
    Wire.ReadsBack r r' ↔ (∀ m ∈ k.metrics r, m.value.IsFinite) ∧ r' = k.normalize r := by
  constructor
  · intro h
    have hfinite := k.isFinite_of_readsBack h
    exact ⟨hfinite, h.unique (k.readsBack_normalize hfinite)⟩
  · rintro ⟨hfinite, rfl⟩
    exact k.readsBack_normalize hfinite

/-- **Written records.**  What is written of a record `r` is read back exactly if all its metrics
    have finite values.  Then it is read as `k.normalize r`, with its state in normal form: no field
    gets lost or appears, and an empty list, map or state is not taken for an absent one. -/
theorem roundTrip_iff_finite (k : RecordKind) (r : k.Value) :
    ((∃ r' : k.Value, Conversion.ofTree (Wire.toValue r) = .ok r') ↔
      ∀ m ∈ k.metrics r, m.value.IsFinite) ∧
    ∀ r' : k.Value, Conversion.ofTree (Wire.toValue r) = .ok r' ↔
      (∀ m ∈ k.metrics r, m.value.IsFinite) ∧ r' = k.normalize r := by
  have hiff : ∀ r' : k.Value, Conversion.ofTree (Wire.toValue r) = .ok r' ↔
      (∀ m ∈ k.metrics r, m.value.IsFinite) ∧ r' = k.normalize r := by
    intro r'
    rw [Conversion.ofTree_eq_ok_iff]
    exact k.readsBack_iff
  refine ⟨?_, hiff⟩
  constructor
  · rintro ⟨r', hr'⟩
    exact ((hiff r').1 hr').1
  · intro hfinite
    exact ⟨k.normalize r, (hiff _).2 ⟨hfinite, rfl⟩⟩

/-- A status with empty lists and an empty map has a state with a short `long` and a NaN, of which
    its normal form comes back; and a metric with a NaN for its value does not come back. -/
theorem roundTrip_iff_finite_status :
    Conversion.ofTree (Wire.toValue
        ({ state := some (.ofList [("n", .long 7), ("x", .double (.nan false))])
           artifacts := some []
           messages := some [{ message := "m", fields := some .empty }]
           metrics := some [] } : StatusResult)) =
      .ok ({ state := some (.ofList [("n", .int 7), ("x", .null)])
             artifacts := some []
             messages := some [{ message := "m", fields := some .empty }]
             metrics := some [] } : StatusResult) ∧
    ¬∃ m : Metric, Conversion.ofTree (Wire.toValue
        (Metric.ofValue "load" (.nan false)
          ⟨⟨1970, 1, 1, by decide⟩, 0, 0, by decide, by decide, by decide⟩)) = .ok m := by
  constructor
  · refine ((roundTrip_iff_finite .status _).2 _).2 (And.intro ?_ ?_)
    · intro m hm
      exact absurd hm List.not_mem_nil
    · rfl
  · intro h
    have hfinite := (roundTrip_iff_finite .metric _).1.1 h
    exact absurd (hfinite _ (List.mem_singleton_self _)) (by decide)

end RecordKind

/-! ### Records that were read -/
section

open Wire (Stable)

instance : Stable Timestamp := ⟨fun _ => Timestamp.readsBack _⟩

instance : Stable MessageLevel := ⟨fun _ => MessageLevel.readsBack _⟩

instance : Stable ProblemStatus := ⟨fun _ => ProblemStatus.readsBack _⟩

instance : Stable Artifact := ⟨fun _ => Artifact.readsBack _⟩

instance : Stable Problem := ⟨fun _ => Problem.readsBack _⟩

instance : Stable Message := ⟨fun _ => Message.readsBack _⟩

/-- The `empty` labels, which are the default, are read back as no labels. -/
theorem Metric.readsBack_empty : Wire.ReadsBack (Dictionary.empty : Dictionary String) .empty := rfl

instance : Stable Metric := by
  refine Metric.format.stable (by decide) (fun _ => rfl) ⟨?_, ?_, ?_, ?_, trivial⟩
  · exact Field.stable_optional
  · exact Field.stable_defaulted Metric.readsBack_empty
  · exact Field.stable_required
  · exact Field.stable_required

/-- A state that is read from any tree is `Canonical`, so it is its own normal form. -/
instance : Stable ActionState where
  readsBack_of_read := by
    intro j s h
    cases j with
    | obj ms =>
      rw [ActionState.read_obj] at h
      cases h
      have hback := (ActionState.ofMembers ms).readsBack
      rwa [(ActionState.canonical_ofMembers ms).normalize_eq] at hback
    | null | bool | num | str | arr => cases h

/-! ### Results -/

/-- The fields that every result has are `Stable`, since what they hold is. -/
theorem Attachments.stable_schema : Attachments.schema.Stable := by
  refine ⟨?_, ?_, ?_, ?_, trivial⟩
  · exact Field.stable_optional
  · exact Field.stable_optional
  · exact Field.stable_optional
  · exact Field.stable_optional

instance : Stable PrepareResult :=
  PrepareResult.format.stable (by decide) (fun _ => rfl)
    ⟨Field.stable_defaulted ActionState.empty.readsBack, Attachments.stable_schema⟩

instance : Stable StartResult :=
  StartResult.format.stable (by decide) (fun _ => rfl)
    ⟨Field.stable_optional, Attachments.stable_schema⟩

instance : Stable StatusResult :=
  StatusResult.format.stable (by decide) (fun _ => rfl)
    ⟨Field.stable_required, Field.stable_optional, Attachments.stable_schema⟩

instance : Stable StopResult :=
  StopResult.format.stable (by decide) (fun _ => rfl) Attachments.stable_schema

namespace RecordKind

/-! ### All kinds -/

/-- Every kind `k` of records is `Stable`, by the instance for its type. -/
instance (k : RecordKind) : Stable k.Value := by
  cases k with
  | state => exact inferInstanceAs (Stable ActionState)
  | artifact => exact inferInstanceAs (Stable Artifact)
  | problem => exact inferInstanceAs (Stable Problem)
  | message => exact inferInstanceAs (Stable Message)
  | metric => exact inferInstanceAs (Stable Metric)
  | prepare => exact inferInstanceAs (Stable PrepareResult)
  | start => exact inferInstanceAs (Stable StartResult)
  | status => exact inferInstanceAs (Stable StatusResult)
  | stop => exact inferInstanceAs (Stable StopResult)

/-- **Accepted trees.**  What a reader makes of any tree `j` that it takes, `r`, has finite metrics
    and its state in normal form.  So it can be written and read again, and is then the very same
    record, with the same tree. -/
theorem accepted_roundTrip (k : RecordKind) {j : Json} {r : k.Value}
    (h : Conversion.ofTree j = .ok r) :
    (∀ m ∈ k.metrics r, m.value.IsFinite) ∧ k.normalize r = r ∧
      Conversion.ofTree (Wire.toValue r) = .ok r ∧
      ∀ r' : k.Value, Conversion.ofTree (Wire.toValue r) = .ok r' →
        Wire.toValue r' = Wire.toValue r := by
  have hread : Wire.read j = .ok r := Conversion.ofTree_eq_ok_iff.1 h
  have hback : Wire.ReadsBack r r := Stable.readsBack_of_read hread
  -- being read back as itself already says that it is its own normal form
  obtain ⟨hfinite, hnormal⟩ := k.readsBack_iff.1 hback
  refine ⟨hfinite, hnormal.symm, Conversion.ofTree_eq_ok_iff.2 hback, ?_⟩
  intro r' hr'
  have hsame : r' = r := Wire.ReadsBack.unique (Conversion.ofTree_eq_ok_iff.1 hr') hback
  rw [hsame]

/-- A status by position, with an unsigned number in its state, a level as an object, a name that no
    field has, labels that are null, an integer for a value, and instants with white space, a leap
    second at an offset, and digits after the ninth. -/
def lenientStatus : Json :=
  .arr
    [.bool true,
      .obj [("n", .int ⟨9223372036854775808, by decide, by decide⟩)],
      .arr [.arr [.str "a", .str "QQ=="]],
      .null,
      .arr
        [.obj
          [("level", .obj [("warn", .null)]), ("message", .str "m"),
            ("timestamp", .str " 2024-3 - 1t23:59:60.1234567899 +01:00 "), ("zzz", .bool true)]],
      .arr
        [.obj
          [("metric", .null), ("timestamp", .str "2024-03-01 12:00:00utc"),
            ("value", .int (.ofInt32 7))]]]

/-- The status that `lenientStatus` is read as, with a double for the unsigned number and plain
    instants. -/
def settledStatus : StatusResult where
  completed := true
  state := some (.ofList [("n", .double (.ofInt 9223372036854775808))])
  artifacts := some [⟨"a", "QQ=="⟩]
  messages := some
    [{  message := "m"
        level := some .warn
        timestamp := some
          ⟨⟨2024, 3, 1, by decide⟩, 82799, 1123456789, by decide, by decide, by decide⟩ }]
  metrics := some
    [{  name := none
        labels := .empty
        timestamp := ⟨⟨2024, 3, 1, by decide⟩, 43200, 0, by decide, by decide, by decide⟩
        value := .ofInt 7 }]

/-- The tree `lenientStatus` is taken, and what it is read as is read again from its own tree. -/
theorem accepted_roundTrip_status :
    Conversion.ofTree lenientStatus = .ok settledStatus ∧
      Conversion.ofTree (Wire.toValue settledStatus) = .ok settledStatus := by
  have haccepts : Conversion.ofTree lenientStatus = .ok settledStatus := rfl
  obtain ⟨-, -, hagain, -⟩ := accepted_roundTrip .status haccepts
  exact ⟨haccepts, hagain⟩

end RecordKind

end

end FaultAction
