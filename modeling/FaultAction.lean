import FaultAction.Members
import FaultAction.Json
import FaultAction.Text.Basic
import FaultAction.Wire.Schema
import FaultAction.Datum.Basic
import FaultAction.Datum.Json
import FaultAction.Source
import FaultAction.ActionState
import FaultAction.Timestamp.Basic
import FaultAction.Timestamp.Rfc3339
import FaultAction.Result.Basic
import FaultAction.Result.Build
import FaultAction.CallerState
import FaultAction.Settings
import FaultAction.Proofs.Json.Basic
import FaultAction.Proofs.Number.Rounding
import FaultAction.Proofs.Datum.NormalForm
import FaultAction.Proofs.Datum.RoundTrip
import FaultAction.Proofs.Wire.ReadBack
import FaultAction.Proofs.Wire.Records
import FaultAction.Proofs.State.NormalForm
import FaultAction.Proofs.Datum.Reading
import FaultAction.Proofs.Source
import FaultAction.Proofs.State.Conversion
import FaultAction.Proofs.Text.Basic
import FaultAction.Proofs.Timestamp.Parts
import FaultAction.Proofs.Timestamp.ReadBack
import FaultAction.Proofs.Record.ReadBack
import FaultAction.Proofs.Result.Modifier
import FaultAction.Proofs.Lifecycle
import FaultAction.Proofs.RecordKind.ReadBack
import FaultAction.Proofs.CallerState
import FaultAction.Proofs.Result.Build
import FaultAction.Proofs.Result.Success
import FaultAction.Proofs.Text.Base64
import FaultAction.Proofs.Record.Artifact
import FaultAction.Proofs.Members.Lookup
import FaultAction.Proofs.State.FiniteMap
import FaultAction.Proofs.Wire.FirstField
import FaultAction.Proofs.Result.Readers
import FaultAction.Proofs.ActionError
import FaultAction.Proofs.State.Components
import FaultAction.Proofs.RecordKind.Trimmed
import FaultAction.Proofs.Settings.Grammar
import FaultAction.Proofs.Json.TextSize
import FaultAction.Proofs.State.TextSize
import FaultAction.Proofs.Result.Oversize
import FaultAction.Proofs.Datum.Path
import FaultAction.Proofs.Datum.Equality
import FaultAction.Proofs.State.Equality
import FaultAction.Proofs.Timestamp.Calendar
import FaultAction.Proofs.Record.Clocks
import FaultAction.Proofs.Record.Calls
