import FaultAction.Proofs.Members.Lookup
import FaultAction.Record

namespace FaultAction

/-!
# Messages and metrics — the last call for a target counts

A message or a metric is built by calls that each set something for one target: the level, the time,
the field of a key, the label of a key.  Calls for different targets may change places:

* `Builder`                 — calls, their targets, and what a single call does;
* `Builder.last?`           — what the last call for a target sets, if there is one;
* `LastCallWins`            — what calls in order do to a record;
* `LastCallWins.of_ext`     — this follows once a record is determined by what it has for targets;
* `Message.fields_callAll_eq_none_iff` — the map of fields is made by the first call for a field;
* `Json.HoldsTexts`         — a map is written under a name, its keys in order;
* `builders_lastCallWins`   — the last call counts for messages and metrics.
-/

/-! ### Builders -/

/-- Calls of the type `κ` that change records of the type `ρ`, each for one target: `γ` is what a
    record has for a target, and `σ` what it has besides. -/
structure Builder (ρ κ σ : Type) {τ : Type} (γ : τ → Type) where
  call : ρ → κ → ρ
  /-- The target of a call, which is the one thing that it sets. -/
  target : κ → τ
  /-- What a call sets for the target `t`, if that is the one it is for. -/
  set? : κ → (t : τ) → Option (γ t)
  /-- What a record has for the target `t`, if it has anything there. -/
  get? : ρ → (t : τ) → Option (γ t)
  /-- What a record has that no call is for. -/
  rest : ρ → σ
  set?_eq_none_iff : ∀ c t, set? c t = none ↔ target c ≠ t
  get?_call : ∀ r c t, get? (call r c) t = (set? c t).or (get? r t)
  rest_call : ∀ r c, rest (call r c) = rest r

section

variable {ρ κ τ σ : Type} {γ : τ → Type} {b : Builder ρ κ σ γ}

namespace Builder

/-- The record `r` after `calls`, made in order. -/
def callAll (b : Builder ρ κ σ γ) (r : ρ) (calls : List κ) : ρ := calls.foldl b.call r

/-- What the last call for the target `t` sets, if there is one among `calls`. -/
def last? (b : Builder ρ κ σ γ) (t : τ) (calls : List κ) : Option (γ t) :=
  latest? (b.set? · t) calls

/-- The first call `c` counts for `t` only when none of the later `calls` is for it. -/
theorem last?_cons (t : τ) (c : κ) (calls : List κ) :
    b.last? t (c :: calls) = (b.last? t calls).or (b.set? c t) :=
  latest?_cons c calls

/-- No call sets anything for the target `t` exactly if none among `calls` is for it. -/
theorem last?_eq_none_iff {t : τ} {calls : List κ} :
    b.last? t calls = none ↔ ∀ c ∈ calls, b.target c ≠ t := by
  rw [last?, latest?_eq_none_iff]
  exact forall₂_congr (fun c _ => b.set?_eq_none_iff c t)

/-- For the target `t`, a record has what the last call for it has set, or else what `r` had. -/
theorem get?_callAll (r : ρ) (calls : List κ) (t : τ) :
    b.get? (b.callAll r calls) t = (b.last? t calls).or (b.get? r t) :=
  get?_foldl (f := (b.set? · t)) (g := (b.get? · t)) (fun r c => b.get?_call r c t) r calls

/-- The `rest` of a record `r` is not touched by any calls. -/
theorem rest_callAll (r : ρ) (calls : List κ) : b.rest (b.callAll r calls) = b.rest r := by
  induction calls generalizing r with
  | nil => rfl
  | cons c calls ih => exact (ih (b.call r c)).trans (b.rest_call r c)

end Builder

/-- What the calls of a builder `b` do to records: the last call for each target counts. -/
structure LastCallWins [Wire ρ] (b : Builder ρ κ σ γ) : Prop where
  /-- For the target `t`, a record has what the last call for it has set, or else what `r` had. -/
  get?_eq : ∀ (r : ρ) (calls : List κ) (t : τ),
    b.get? (b.callAll r calls) t = (b.last? t calls).or (b.get? r t)
  /-- The `rest` of the record is not touched. -/
  rest_eq : ∀ (r : ρ) (calls : List κ), b.rest (b.callAll r calls) = b.rest r
  /-- Only the last call for each target matters to the record, so other `calls'` with the same do
      as well. -/
  eq_of_last : ∀ (r : ρ) (calls calls' : List κ),
    (∀ t, b.last? t calls = b.last? t calls') → b.callAll r calls = b.callAll r calls'
  /-- The last calls are also all that matters to the text, so `calls'` with the same give the same
      text. -/
  text_eq_of_last : ∀ (r : ρ) (calls calls' : List κ),
    (∀ t, b.last? t calls = b.last? t calls') →
      Wire.text (b.callAll r calls) = Wire.text (b.callAll r calls')
  /-- Calls `c` and `c'` for different targets may change places. -/
  call_comm : ∀ (r : ρ) (c c' : κ), b.target c ≠ b.target c' →
    b.call (b.call r c) c' = b.call (b.call r c') c
  /-- Of two calls for one target, the first call `c` might as well not have been. -/
  call_call : ∀ (r : ρ) (c c' : κ), b.target c = b.target c' →
    b.call (b.call r c) c' = b.call r c'

/-- For `LastCallWins` it is enough that records built by calls with the same last ones are equal,
    once they have the same for each target and the `rest` in common. -/
theorem LastCallWins.of_ext [Wire ρ]
    (hext : ∀ r calls calls', (∀ t, b.last? t calls = b.last? t calls') →
      b.rest (b.callAll r calls) = b.rest (b.callAll r calls') →
      (∀ t, b.get? (b.callAll r calls) t = b.get? (b.callAll r calls') t) →
        b.callAll r calls = b.callAll r calls') : LastCallWins b := by
  have heq : ∀ r calls calls', (∀ t, b.last? t calls = b.last? t calls') →
      b.callAll r calls = b.callAll r calls' := by
    intro r calls calls' hlast
    refine hext r calls calls' hlast ?_ (fun t => ?_)
    · rw [Builder.rest_callAll, Builder.rest_callAll]
    · rw [Builder.get?_callAll, Builder.get?_callAll, hlast]
  refine ⟨Builder.get?_callAll, Builder.rest_callAll, heq, ?_, ?_, ?_⟩
  · intro r calls calls' hlast
    rw [heq r calls calls' hlast]
  · intro r c c' hne
    refine heq r [c, c'] [c', c] (fun t => ?_)
    rw [Builder.last?_cons, Builder.last?_cons, Builder.last?_cons, Builder.last?_cons]
    -- at most one of the two is for the target
    by_cases hc : b.target c = t
    · have hc' : b.target c' ≠ t := fun hc' => hne (hc.trans hc'.symm)
      rw [(b.set?_eq_none_iff c' t).2 hc', Option.or_none, Option.or_none]
    · -- the first call is not for the target, so only the second one may be
      rw [(b.set?_eq_none_iff c t).2 hc, Option.or_none, Option.or_none]
  · intro r c c' htarget
    refine heq r [c, c'] [c'] (fun t => ?_)
    rw [Builder.last?_cons, Builder.last?_cons]
    cases hc' : b.set? c' t with
    | some v => rfl
    | none =>
      -- neither call is for the target, so both lists leave it alone
      have hc : b.target c ≠ t := htarget ▸ (b.set?_eq_none_iff c' t).1 hc'
      rw [(b.set?_eq_none_iff c t).2 hc, Option.or_none]

end

/-! ### Messages -/

namespace Message

/-- The calls that build a message: `withLevel`, `withField` and `withTimestamp`. -/
inductive Call where
  | level (level : MessageLevel)
  | field (key value : String)
  | timestamp (timestamp : Timestamp)

/-- What the calls set: the level, the field of a `key`, or the time. -/
inductive Target where
  | level
  | field (key : String)
  | timestamp

/-- What a message has for a target, when it has anything there. -/
def Target.Content : Target → Type
  | .level => MessageLevel
  | .field _ => String
  | .timestamp => Timestamp

/-- The target of a call, which for a field is that of its `key`. -/
def Call.target : Call → Target
  | .level _ => .level
  | .field key _ => .field key
  | .timestamp _ => .timestamp

/-- What a call sets for the target `t`, which is nothing unless it is for `t`. -/
def Call.set? : Call → (t : Target) → Option t.Content
  | .level l, .level => some l
  | .field key value, .field name => Members.valueUnder name (key, value)
  | .timestamp time, .timestamp => some time
  | _, _ => none

/-- What the message `m` has for the target `t`, if it has anything there. -/
def get? (m : Message) : (t : Target) → Option t.Content
  | .level => m.level
  | .field key => m.fields.bind (·.get? key)
  | .timestamp => m.timestamp

/-- The message `m` after one call. -/
def call (m : Message) : Call → Message
  | .level l => m.withLevel l
  | .field key value => m.withField key value
  | .timestamp time => m.withTimestamp time

variable {m : Message} {c : Call} {calls : List Call}

/-- A call `c` sets nothing exactly for the targets `t` that are not its own. -/
theorem Call.set?_eq_none_iff {t : Target} : c.set? t = none ↔ c.target ≠ t := by
  cases c <;> cases t <;> simp [set?, target, Members.valueUnder]

/-- The field `name` after that of `key` is set.  A message without fields has none under any
    key. -/
theorem get?_withField (m : Message) (key value name : String) :
    (m.withField key value).get? (.field name) =
      (Members.valueUnder name (key, value)).or (m.get? (.field name)) := by
  have hold : m.get? (.field name) = (m.fields.getD .empty).get? name := by
    rw [get?]
    cases m.fields <;> rfl
  rw [hold]
  exact Members.get?_insert_eq_or key value _ name

/-- **One call.**  For its own target the message has what the call `c` sets, for others what `m`
    had. -/
theorem get?_call (m : Message) (c : Call) (t : Target) :
    (m.call c).get? t = (c.set? t).or (m.get? t) := by
  cases c with
  | level l => cases t <;> rfl
  | timestamp time => cases t <;> rfl
  | field key value =>
    cases t with
    | field name => exact get?_withField m key value name
    | level => rfl
    | timestamp => rfl

/-- The calls on messages, as a `Builder` whose `rest` are the text and the name of a type. -/
def builder : Builder Message Call (String × Option String) Target.Content where
  call
  target := Call.target
  set? := Call.set?
  get?
  rest m := (m.message, m.typeName)
  set?_eq_none_iff _ _ := Call.set?_eq_none_iff
  get?_call
  rest_call m c := by cases c <;> rfl

/-- There are no fields after one call `c` exactly if there were none and `c` sets none. -/
theorem fields_call_eq_none_iff :
    (m.call c).fields = none ↔ m.fields = none ∧ ∀ key, c.target ≠ .field key := by
  cases c with
  | level l => exact (and_iff_left (fun _ h => nomatch h)).symm
  | timestamp time => exact (and_iff_left (fun _ h => nomatch h)).symm
  | field key value => exact iff_of_false (fun h => nomatch h) (fun h => h.2 key rfl)

/-- There are no fields after `calls` exactly if there were none and no call sets one. -/
theorem fields_callAll_eq_none_iff :
    (builder.callAll m calls).fields = none ↔
      m.fields = none ∧ ∀ c ∈ calls, ∀ key, c.target ≠ .field key := by
  induction calls generalizing m with
  | nil => exact (and_iff_left (fun _ h => nomatch h)).symm
  | cons c calls ih =>
    rw [List.forall_mem_cons, ← and_assoc, ← fields_call_eq_none_iff]
    exact ih

/-- Messages `m` and `m'` are equal if they have the same for each target, both have fields or none,
    and have the rest in common. -/
theorem ext_get? {m m' : Message} (hrest : (m.message, m.typeName) = (m'.message, m'.typeName))
    (hfields : m.fields = none ↔ m'.fields = none) (hget : ∀ t, m.get? t = m'.get? t) :
    m = m' := by
  obtain ⟨_, _, _, fields, _⟩ := m
  obtain ⟨_, _, _, fields', _⟩ := m'
  cases hrest
  cases hget .level
  cases hget .timestamp
  -- fields are the same under every key, and there are some on both sides or on neither
  have heq : fields = fields' := by
    cases fields with
    | none => exact (hfields.1 rfl).symm
    | some d =>
      cases fields' with
      | none => exact hfields.2 rfl
      | some d' => exact congrArg some (Dictionary.ext_get? (fun key => hget (.field key)))
  rw [heq]

/-- The last call on a message counts, for each of the targets of `Message.builder`. -/
theorem lastCallWins_builder : LastCallWins builder := by
  refine .of_ext (fun m calls calls' hlast hrest hget => ext_get? hrest ?_ hget)
  -- the same keys are set, so both set a field or neither does
  have hkeys : ∀ calls : List Call, (∀ c ∈ calls, ∀ key, c.target ≠ .field key) ↔
      ∀ key, builder.last? (.field key) calls = none := by
    intro calls
    simp only [Builder.last?_eq_none_iff]
    exact ⟨fun h key c hc => h c hc key, fun h c hc key => h key c hc⟩
  rw [fields_callAll_eq_none_iff, fields_callAll_eq_none_iff, hkeys, hkeys]
  exact and_congr_right' (forall_congr' (fun key => by rw [hlast]))

end Message

/-! ### Metrics -/

namespace Metric

/-- The calls on metrics as a `Builder`.  Each sets the label of a key, and all else is the
    `rest`. -/
def builder : Builder Metric (String × String) (Option String × Timestamp × Binary64)
    fun _ : String => String where
  call m w := m.withLabel w.1 w.2
  target w := w.1
  set? w key := Members.valueUnder key w
  get? m key := m.labels.get? key
  rest m := (m.name, m.timestamp, m.value)
  set?_eq_none_iff w key := by simp [Members.valueUnder]
  get?_call m w key := Members.get?_insert_eq_or w.1 w.2 m.labels.entries key
  rest_call _ _ := rfl

/-- Metrics `m` and `m'` are equal if they have the same labels and the rest in common. -/
theorem ext_get? {m m' : Metric}
    (hrest : (m.name, m.timestamp, m.value) = (m'.name, m'.timestamp, m'.value))
    (hget : ∀ key, m.labels.get? key = m'.labels.get? key) : m = m' := by
  obtain ⟨_, _, _, _⟩ := m
  obtain ⟨_, _, _, _⟩ := m'
  cases hrest
  cases Dictionary.ext_get? hget
  rfl

/-- Whether a metric `m` is equal to itself does not depend on its labels, but on its value
    alone. -/
theorem beq_self_eq {m m' : Metric}
    (h : (m.name, m.timestamp, m.value) = (m'.name, m'.timestamp, m'.value)) :
    (m == m) = (m' == m') := by
  obtain ⟨_, _, _, _⟩ := m
  obtain ⟨_, _, _, _⟩ := m'
  cases h
  simp [BEq.beq]

/-- The last call on a metric counts, for each label as a target of `Metric.builder`. -/
theorem lastCallWins_builder : LastCallWins builder :=
  .of_ext (fun _ _ _ _ hrest hget => ext_get? hrest hget)

end Metric

/-! ### Messages and metrics -/

/-- The tree `j` is an object that has a map of `texts` under `name`, with the keys in order, or has
    nothing there if there are none. -/
structure Json.HoldsTexts (j : Json) (name : String) (texts : Option (Dictionary String)) :
    Prop where
  member : ∃ ms : Members Json, j = .obj ms ∧
    Members.get? name ms = texts.map fun d => .obj (d.entries.mapValues .str)
  ascending : ∀ d ∈ texts, (d.entries.mapValues Json.str).Ascending

/-- The fields of a message `m` are written under `"fields"`, in the order of their keys. -/
theorem Message.holdsTexts_write (m : Message) : (Wire.write m).HoldsTexts "fields" m.fields := by
  obtain ⟨_, level, typeName, fields, timestamp⟩ := m
  refine ⟨⟨_, rfl, ?_⟩, fun d _ => Members.ascending_mapValues_iff.2 d.ascending⟩
  -- what comes before the fields may be left out, and so may the fields
  cases level <;> cases typeName <;> cases fields <;> cases timestamp <;> rfl

/-- The labels of a metric `m` are written under `"metric"`, in the order of their keys. -/
theorem Metric.holdsTexts_write (m : Metric) :
    (Wire.write m).HoldsTexts "metric" (some m.labels) := by
  obtain ⟨name, labels, _, _⟩ := m
  refine ⟨⟨_, rfl, ?_⟩, fun d _ => Members.ascending_mapValues_iff.2 d.ascending⟩
  cases name <;> rfl

/-- **The last call counts.**  A message or a metric `m` that is built by `calls` has for each
    target what the last call for it has set, or else what `m` had, and nothing else is touched; so
    the order of calls for different targets does not matter to the record or to its text, in which
    the keys are in order.  A message has no fields exactly if it had none and no call sets one; and
    metrics that are built by calls with the same last ones compare as equal exactly if `m` is equal
    to itself. -/
theorem builders_lastCallWins :
    (LastCallWins Message.builder ∧
      (∀ (m : Message) (calls : List Message.Call),
        (Message.builder.callAll m calls).fields = none ↔
          m.fields = none ∧ ∀ c ∈ calls, ∀ key, c.target ≠ .field key) ∧
      ∀ m : Message, (Wire.write m).HoldsTexts "fields" m.fields) ∧
    LastCallWins Metric.builder ∧
      (∀ (m : Metric) (calls calls' : List (String × String)),
        (∀ key, Metric.builder.last? key calls = Metric.builder.last? key calls') →
          (Metric.builder.callAll m calls == Metric.builder.callAll m calls') = (m == m)) ∧
      ∀ m : Metric, (Wire.write m).HoldsTexts "metric" (some m.labels) := by
  refine ⟨⟨Message.lastCallWins_builder, fun _ _ => Message.fields_callAll_eq_none_iff,
    Message.holdsTexts_write⟩, Metric.lastCallWins_builder, ?_, Metric.holdsTexts_write⟩
  intro m calls calls' hlast
  rw [Metric.lastCallWins_builder.eq_of_last m calls calls' hlast]
  exact Metric.beq_self_eq (Metric.lastCallWins_builder.rest_eq m calls')

/-- Of four calls on a message two are for the field `"b"`, and the three that remain may come in
    another order. -/
theorem builders_lastCallWins_fields :
    Wire.text (Message.builder.callAll { message := "m" }
        [.field "b" "1", .level .info, .field "a" "2", .field "b" "3"]) =
      Wire.text (Message.builder.callAll { message := "m" }
        [.field "b" "3", .field "a" "2", .level .info]) ∧
    Wire.text (Message.builder.callAll { message := "m" }
        [.field "b" "3", .field "a" "2", .level .info]) =
      "\x7b\"message\":\"m\",\"level\":\"info\",\"fields\":\x7b\"a\":\"2\",\"b\":\"3\"\x7d\x7d" := by
  obtain ⟨⟨hwins, -, -⟩, -⟩ := builders_lastCallWins
  refine ⟨hwins.text_eq_of_last _ _ _ (fun t => ?_), by decide⟩
  cases t with
  | level => rfl
  | timestamp => rfl
  | field key =>
    by_cases ha : "a" = key
    · subst ha
      rfl
    · by_cases hb : "b" = key
      · subst hb
        rfl
      · simp [Builder.last?, latest?_cons, Message.builder, Message.Call.set?, Members.valueUnder,
          ha, hb]

end FaultAction
