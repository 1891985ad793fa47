import FaultAction.Proofs.Timestamp.ReadBack
import FaultAction.Proofs.Wire.Records
import FaultAction.Record
import FaultAction.Proofs.State.NormalForm
import FaultAction.Result.Basic

namespace FaultAction

/-!
# Records and results — reading back what was written

Every record that a result may carry is read back as itself.  A metric has to have a finite value,
for a NaN or an infinity is written as null, and no double is read from that:

* `Metric.readsBack`, `Metric.isFinite_of_readsBack` — a metric with a finite value, and no other;
* `Attachments.Finite`     — every metric has a finite value;
* `Attachments.readsBack`  — such attachments are read back as they are;
* `Attachments.finite_of_readsBack` — and no others are read back;
* `PrepareResult.readsBack`, `StartResult.readsBack`, `StatusResult.readsBack`,
  `StopResult.readsBack` — a result is read back with its state, if any, in normal form, and
  nothing else changed.
-/

section

open Wire (ReadsBack NeverNull)

/-! ### Enumerations -/

instance : NeverNull MessageLevel := ⟨fun _ => Json.noConfusion⟩

instance : NeverNull ProblemStatus := ⟨fun _ => Json.noConfusion⟩

/-- The level `l` of a message is read back by its name. -/
theorem MessageLevel.readsBack (l : MessageLevel) : ReadsBack l l := by
  cases l <;> rfl

/-- The state `s` of a problem is read back by its name. -/
theorem ProblemStatus.readsBack (s : ProblemStatus) : ReadsBack s s := by
  cases s <;> rfl

/-! ### Records -/

instance : NeverNull Artifact := Artifact.format.neverNull

instance : NeverNull Problem := Problem.format.neverNull

instance : NeverNull Message := Message.format.neverNull

instance : NeverNull Metric := Metric.format.neverNull

/-- An artifact `a` is read back as itself, label and text. -/
theorem Artifact.readsBack (a : Artifact) : ReadsBack a a := by
  refine format.readsBack_self (by decide) rfl ⟨?_, ?_, trivial⟩
  · exact Field.readsBack_required (Wire.readsBack_string a.label)
  · exact Field.readsBack_required (Wire.readsBack_string a.data)

/-- A problem `p` is read back as itself, with those of its fields absent that were. -/
theorem Problem.readsBack (p : Problem) : ReadsBack p p := by
  refine format.readsBack_self (by decide) rfl ⟨?_, ?_, ?_, ?_, ?_, trivial⟩
  · exact Field.readsBack_required (Wire.readsBack_string p.title)
  · exact Field.readsBack_optional_self (fun s _ => Wire.readsBack_string s)
  · exact Field.readsBack_optional_self (fun s _ => Wire.readsBack_string s)
  · exact Field.readsBack_optional_self (fun s _ => s.readsBack)
  · exact Field.readsBack_optional_self (fun s _ => Wire.readsBack_string s)

/-- A message `m` is read back as itself.  Its fields come back in the order of their keys, in which
    it keeps them. -/
theorem Message.readsBack (m : Message) : ReadsBack m m := by
  have hfields : ∀ d : Dictionary String, ReadsBack d d :=
    fun d => Wire.readsBack_dictionary_self (fun e _ => Wire.readsBack_string e.2)
  refine format.readsBack_self (by decide) rfl ⟨?_, ?_, ?_, ?_, ?_, trivial⟩
  · exact Field.readsBack_required (Wire.readsBack_string m.message)
  · exact Field.readsBack_optional_self (fun l _ => l.readsBack)
  · exact Field.readsBack_optional_self (fun s _ => Wire.readsBack_string s)
  · exact Field.readsBack_optional_self (fun d _ => hfields d)
  · exact Field.readsBack_optional_self (fun t _ => t.readsBack)

/-- A metric `m` with a finite value is read back as itself, bit for bit. -/
theorem Metric.readsBack {m : Metric} (h : m.value.IsFinite) : ReadsBack m m := by
  refine format.readsBack_self (by decide) rfl ⟨?_, ?_, ?_, ?_, trivial⟩
  · exact Field.readsBack_optional_self (fun s _ => Wire.readsBack_string s)
  · exact Field.readsBack_defaulted
      (Wire.readsBack_dictionary_self (fun e _ => Wire.readsBack_string e.2))
  · exact Field.readsBack_required m.timestamp.readsBack
  · exact Field.readsBack_required (Wire.readsBack_double h)

/-- A metric `m` that is read back at all has a finite value, for null is not read as one. -/
theorem Metric.isFinite_of_readsBack {m m' : Metric} (h : ReadsBack m m') : m.value.IsFinite := by
  obtain ⟨⟨_, _, _, _, _⟩, -, -, -, hvalue, -⟩ := format.exists_row_of_readsBack (by decide) h
  exact Wire.isFinite_of_readsBack hvalue

end

/-! ### Attachments -/

namespace Attachments

/-- Every metric among the attachments `a` has a finite value. -/
def Finite (a : Attachments) : Prop := ∀ ms, a.metrics = some ms → ∀ m ∈ ms, m.value.IsFinite

/-- Attachments `a` with finite metrics are read back field by field, each as it is. -/
theorem readsBack {a : Attachments} (h : a.Finite) : schema.ReadsBack a.toRow a.toRow := by
  refine ⟨?_, ?_, ?_, ?_, trivial⟩
  · exact Field.readsBack_optional_self
      (fun _ _ => Wire.readsBack_list_self (fun a _ => a.readsBack))
  · exact Field.readsBack_optional_self (fun p _ => p.readsBack)
  · exact Field.readsBack_optional_self
      (fun _ _ => Wire.readsBack_list_self (fun m _ => m.readsBack))
  · exact Field.readsBack_optional_self
      (fun ms hms => Wire.readsBack_list_self (fun m hm => Metric.readsBack (h ms hms m hm)))

/-- Attachments `a` that are read back, as whatever `row`, have finite metrics. -/
theorem finite_of_readsBack {a : Attachments} {row : Row types}
    (h : schema.ReadsBack a.toRow row) : a.Finite := by
  obtain ⟨_, _, _, o, _⟩ := row
  obtain ⟨-, -, -, hmetrics, -⟩ := h
  intro ms hms m hm
  have hfield : (Field.optional "metrics").ReadsBack (some ms) o := hms ▸ hmetrics
  obtain ⟨ms', hms'⟩ := Field.exists_readsBack_of_optional hfield
  obtain ⟨m', hm'⟩ := Wire.exists_readsBack_of_mem hms' m hm
  exact Metric.isFinite_of_readsBack hm'

end Attachments

/-! ### Results -/

/-- A prepare result `r` is read back with its state in normal form. -/
theorem PrepareResult.readsBack {r : PrepareResult} (h : r.toAttachments.Finite) :
    Wire.ReadsBack r { r with state := r.state.normalize } := by
  have hrow : format.schema.ReadsBack (format.toRow r)
      (r.state.normalize, r.toAttachments.toRow) :=
    ⟨Field.readsBack_defaulted r.state.readsBack, Attachments.readsBack h⟩
  exact format.readsBack (by decide) hrow

/-- A start result `r` is read back with its state, if any, in normal form. -/
theorem StartResult.readsBack {r : StartResult} (h : r.toAttachments.Finite) :
    Wire.ReadsBack r { r with state := r.state.map ActionState.normalize } := by
  have hrow : format.schema.ReadsBack (format.toRow r)
      (r.state.map ActionState.normalize, r.toAttachments.toRow) :=
    ⟨Field.readsBack_optional (fun s _ => s.readsBack), Attachments.readsBack h⟩
  exact format.readsBack (by decide) hrow

/-- A status result `r` is read back with its state, if any, in normal form. -/
theorem StatusResult.readsBack {r : StatusResult} (h : r.toAttachments.Finite) :
    Wire.ReadsBack r { r with state := r.state.map ActionState.normalize } := by
  have hrow : format.schema.ReadsBack (format.toRow r)
      (r.completed, r.state.map ActionState.normalize, r.toAttachments.toRow) :=
    ⟨Field.readsBack_required (Wire.readsBack_bool r.completed),
      Field.readsBack_optional (fun s _ => s.readsBack), Attachments.readsBack h⟩
  exact format.readsBack (by decide) hrow

/-- A stop result `r` is read back as it is, for it has no state. -/
theorem StopResult.readsBack {r : StopResult} (h : r.toAttachments.Finite) :
    Wire.ReadsBack r r :=
  format.readsBack (by decide) (Attachments.readsBack h)

end FaultAction
