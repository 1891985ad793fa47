import FaultAction.Proofs.Record.ReadBack
import FaultAction.Proofs.Timestamp.ReadBack
import FaultAction.Proofs.Wire.Trimmed

namespace FaultAction

/-!
# Metrics and messages — timestamps of any clock

The timestamp of a record is an instant, whatever clock it was read from:

* `Schema.ofMembers_insert`      — a member may be replaced by one that is read alike;
* `Schema.fieldValue_of_collect` — what is read of a record are the values of its fields;
* `TimedRecord`                  — a type of records that have an instant under `timestamp`;
* `ClockIndependent`             — such records are read alike from the text of a clock and from
  that of UTC, and are written in UTC;
* `records_clockIndependent`     — metrics and messages are.
-/

/-! ### One member in place of another -/

/-- Writing a value `v` under a `name` that has it already changes nothing. -/
theorem Members.insert_of_get? {α : Type} {ms : Members α} {name : String} {v : α}
    (hasc : ms.Ascending) (h : get? name ms = some v) : ms.insert name v = ms := by
  refine ext_get? (ascending_insert hasc) hasc (fun other => ?_)
  rw [get?_insert]
  by_cases hname : name = other
  · rw [if_pos hname, ← hname, h]
  · rw [if_neg hname]

namespace Schema

variable {αs : List Type} {s : Schema αs} {name : String} {v v' : Json}

/-- The pass over the members `ms` has the same outcome with `v` and with `v'` under `name`, for
    either is checked alike. -/
theorem forM_insert (h : s.ReadsAlike name v v') (ms : Members Json) :
    (ms.insert name v).forM (fun m => s.checkMember m.1 m.2) =
      (ms.insert name v').forM fun m => s.checkMember m.1 m.2 := by
  have hcheck := checkMember_of_readsAlike h
  rw [List.forM_eq_forM]
  induction ms with
  | nil => simp only [Members.insert, List.forM_cons, hcheck]
  | cons m ms ih =>
    obtain ⟨k, w⟩ := m
    -- the member stands before `m`, in its place, or further back
    simp only [Members.insert]
    split
    · simp only [List.forM_cons, hcheck]
    · split
      · simp only [List.forM_cons, hcheck]
      · simp only [List.forM_cons, ih]

/-- The pass over the fields has the same outcome with `v` and with `v'` under `name`, for either is
    read alike. -/
theorem collect_insert (h : s.ReadsAlike name v v') (ms : Members Json) :
    s.collect (ms.insert name v) = s.collect (ms.insert name v') := by
  induction s with
  | nil => rfl
  | cons f fs ih =>
    have hf : fieldValue f (ms.insert name v) = fieldValue f (ms.insert name v') := by
      rw [fieldValue, fieldValue, Members.get?_insert, Members.get?_insert]
      by_cases hname : name = f.name
      · rw [if_pos hname, if_pos hname]
        exact h.1 hname.symm
      · rw [if_neg hname, if_neg hname]
    rw [collect, collect, hf, ih h.2]

/-- **Replacement.**  The member `v` under `name` may be replaced by a `v'` that is read alike. -/
theorem ofMembers_insert (h : s.ReadsAlike name v v') (ms : Members Json) :
    s.ofMembers (ms.insert name v) = s.ofMembers (ms.insert name v') := by
  rw [ofMembers, ofMembers, forM_insert h, collect_insert h]

/-- The first of the values in `row` is what is read of the first field `f`, and the others are
    those of the other fields. -/
theorem fieldValue_of_collect {α : Type} {f : Field α} {ms : Members Json} {row : Row (α :: αs)}
    (h : (cons f s).collect ms = .ok row) :
    ∃ a as, row = (a, as) ∧ fieldValue f ms = .ok a ∧ s.collect ms = .ok as := by
  obtain ⟨a, ha, hrest⟩ := bind_eq_ok_iff.1 h
  obtain ⟨as, has, hrow⟩ := bind_eq_ok_iff.1 hrest
  cases hrow
  exact ⟨a, as, rfl, ha, has⟩

/-- A field `f` whose member `v` is there has the value that is read from `v`. -/
theorem read_of_fieldValue {α : Type} {f : Field α} {ms : Members Json} {a : α}
    (hget : ms.get? f.name = some v) (h : fieldValue f ms = .ok a) : f.read v = .ok a := by
  rw [fieldValue, hget] at h
  exact h

end Schema

namespace RecordFormat

variable {ρ : Type}

/-- A record is read from an object with the member `v` as from one with a member `v'` that is read
    alike. -/
theorem read_insert (f : RecordFormat ρ) {name : String} {v v' : Json}
    (h : f.schema.ReadsAlike name v v') (ms : Members Json) :
    f.read (.obj (ms.insert name v)) = f.read (.obj (ms.insert name v')) := by
  rw [read, read, Schema.ofMembers_insert h]

/-- What is read from an object, `r`, is made of the values of the fields in a `row`. -/
theorem collect_of_read (f : RecordFormat ρ) {ms : Members Json} {r : ρ}
    (h : f.read (.obj ms) = .ok r) : ∃ row, f.schema.collect ms = .ok row ∧ f.ofRow row = r := by
  obtain ⟨row, hrow, hr⟩ := map_eq_ok_iff.1 h
  obtain ⟨_, -, hcollect⟩ := bind_eq_ok_iff.1 hrow
  exact ⟨row, hcollect, hr⟩

end RecordFormat

/-! ### Timestamps -/

/-- The object `d` with a `text` for its timestamp, in place of the one it has, if any. -/
def Dictionary.withTimestamp (d : Dictionary Json) (text : String) : Json :=
  .obj (d.insert "timestamp" (.str text)).entries

/-- The text of a clock that shows `t` is read as the instant `t`, on the wire. -/
theorem Timestamp.read_localText {t clock : Timestamp} {minutes : Int}
    (h : minutes.natAbs < 1440) (hclock : t.Shows minutes clock) :
    (Wire.read (.str (localText clock minutes)) : Except ReadError Timestamp) = .ok t := by
  show (parse (localText clock minutes)).mapError _ = _
  rw [parse_localText h hclock]
  rfl

/-- The text of UTC is read as the instant `t`, too. -/
theorem Timestamp.read_text (t : Timestamp) :
    (Wire.read (.str t.text) : Except ReadError Timestamp) = .ok t := t.readsBack

/-- Records of the type `ρ` have an instant, or none, under `timestamp`, and `time` gives it. -/
structure TimedRecord (ρ : Type) (f : RecordFormat ρ) (time : ρ → Option Timestamp) : Prop where
  /-- Texts `s` and `s'` of one instant `t` are read alike. -/
  readsAlike : ∀ {s s' : String} {t : Timestamp},
    (Wire.read (.str s) : Except ReadError Timestamp) = .ok t →
    (Wire.read (.str s') : Except ReadError Timestamp) = .ok t →
      f.schema.ReadsAlike "timestamp" (.str s) (.str s')
  /-- What is read from an object with the text of an instant `t` has the instant `t`. -/
  time_of_collect : ∀ {ms : Members Json} {s : String} {t : Timestamp} {row : Row f.types},
    (Wire.read (.str s) : Except ReadError Timestamp) = .ok t →
    ms.get? "timestamp" = some (.str s) → f.schema.collect ms = .ok row →
      time (f.ofRow row) = some t
  /-- The instant of `r` is written as the text of UTC. -/
  written : ∀ r : ρ, Members.get? "timestamp" (Json.sortMembers (f.schema.members (f.toRow r))) =
    (time r).map fun t => .str t.text

/-- The timestamp of a `Metric`, which it always has. -/
theorem timedRecord_metric : TimedRecord Metric Metric.format fun m => some m.timestamp where
  readsAlike hs hs' :=
    -- of the four fields only the third has this name
    ⟨fun h => absurd h (by decide), fun h => absurd h (by decide), fun _ => hs.trans hs'.symm,
      fun h => absurd h (by decide), trivial⟩
  time_of_collect := by
    intro ms s t row hs hget hrow
    obtain ⟨_, _, rfl, -, hrow⟩ := Schema.fieldValue_of_collect hrow
    obtain ⟨_, _, rfl, -, hrow⟩ := Schema.fieldValue_of_collect hrow
    obtain ⟨u, ⟨_, _⟩, rfl, htime, -⟩ := Schema.fieldValue_of_collect hrow
    have hread : (Wire.read (.str s) : Except ReadError Timestamp) = .ok u :=
      Schema.read_of_fieldValue hget htime
    rw [hs] at hread
    exact congrArg some (Except.ok.inj hread).symm
  written r := by
    obtain ⟨-, -, h, -⟩ := Metric.format.schema.holds_members (by decide) (Metric.format.toRow r)
    exact h

/-- The timestamp of a `Message`, which may be absent. -/
theorem timedRecord_message : TimedRecord Message Message.format Message.timestamp where
  readsAlike hs hs' :=
    ⟨fun h => absurd h (by decide), fun h => absurd h (by decide), fun h => absurd h (by decide),
      fun h => absurd h (by decide), fun _ => congrArg (some <$> ·) (hs.trans hs'.symm), trivial⟩
  time_of_collect := by
    intro ms s t row hs hget hrow
    obtain ⟨_, _, rfl, -, hrow⟩ := Schema.fieldValue_of_collect hrow
    obtain ⟨_, _, rfl, -, hrow⟩ := Schema.fieldValue_of_collect hrow
    obtain ⟨_, _, rfl, -, hrow⟩ := Schema.fieldValue_of_collect hrow
    obtain ⟨_, _, rfl, -, hrow⟩ := Schema.fieldValue_of_collect hrow
    obtain ⟨o, _, rfl, htime, -⟩ := Schema.fieldValue_of_collect hrow
    have hread : (Wire.read (.str s) : Except ReadError (Option Timestamp)) = .ok o :=
      Schema.read_of_fieldValue hget htime
    have hsome : (Wire.read (.str s) : Except ReadError (Option Timestamp)) = .ok (some t) :=
      congrArg (some <$> ·) hs
    rw [hsome] at hread
    exact (Except.ok.inj hread).symm
  written r := by
    obtain ⟨-, -, -, -, h, -⟩ :=
      Message.format.schema.holds_members (by decide) (Message.format.toRow r)
    refine h.trans ?_
    show (r.timestamp.map fun t => Json.str t.text).map Json.sortKeys = _
    rw [Option.map_map]
    rfl

/-! ### Any clock -/

/-- Records of the type `ρ` are read from the text of any `clock` as from the text of UTC, and are
    written with the latter. -/
structure ClockIndependent (ρ : Type) [Wire ρ] (time : ρ → Option Timestamp) (t clock : Timestamp)
    (minutes : Int) : Prop where
  /-- The same record is read from the object `d`, or both objects are refused with the same
      error. -/
  read_eq : ∀ d : Dictionary Json,
    (Wire.read (d.withTimestamp (clock.localText minutes)) : Except ReadError ρ) =
      Wire.read (d.withTimestamp t.text)
  /-- The record `r` that is read has the instant `t`, and is written with the text of UTC. -/
  written : ∀ (d : Dictionary Json) (r : ρ),
    Wire.read (d.withTimestamp (clock.localText minutes)) = .ok r →
      time r = some t ∧
        ∃ ms, Wire.toValue r = .obj ms ∧ Members.get? "timestamp" ms = some (.str t.text)
  /-- A written record `r` that has the instant `t` is read back from its object with the text of
      the `clock` in place of its own. -/
  readsBack : ∀ r : ρ, Wire.ReadsBack r r → time r = some t →
    ∃ d : Dictionary Json, Wire.toValue r = .obj d.entries ∧
      Wire.read (d.withTimestamp (clock.localText minutes)) = .ok r

/-- Records of any format `f` are independent of the `clock`, if their `timestamp` is an instant. -/
theorem ClockIndependent.of_timed {ρ : Type} {f : RecordFormat ρ} {time : ρ → Option Timestamp}
    (hf : TimedRecord ρ f time) {t clock : Timestamp} {minutes : Int}
    (h : minutes.natAbs < 1440) (hclock : t.Shows minutes clock) :
    @ClockIndependent ρ f.wire time t clock minutes := by
  have hlocal := Timestamp.read_localText h hclock
  have halike := hf.readsAlike hlocal t.read_text
  refine @ClockIndependent.mk ρ f.wire time t clock minutes ?_ ?_ ?_
  · intro d
    exact f.read_insert halike d.entries
  · intro d r hr
    obtain ⟨row, hrow, rfl⟩ := f.collect_of_read hr
    have hget : Members.get? "timestamp" (d.insert "timestamp"
        (.str (clock.localText minutes))).entries = some (.str (clock.localText minutes)) :=
      (Members.get?_insert _ _ _ _).trans (if_pos rfl)
    have htime : time (f.ofRow row) = some t := hf.time_of_collect hlocal hget hrow
    refine ⟨htime, _, rfl, (hf.written _).trans ?_⟩
    rw [htime]
    rfl
  · intro r hr htime
    have hasc : Members.Ascending (Json.sortMembers (f.schema.members (f.toRow r))) := by
      rw [Json.sortMembers_eq]
      exact Members.ascending_ofList _
    have hget : Members.get? "timestamp" (Json.sortMembers (f.schema.members (f.toRow r))) =
        some (.str t.text) := by
      rw [hf.written, htime]
      rfl
    refine ⟨⟨_, hasc⟩, rfl, (f.read_insert halike _).trans ?_⟩
    -- with the text of UTC, the object is what has been written
    rw [Members.insert_of_get? hasc hget]
    exact hr

/-- **Any clock.**  A clock that runs up to 23 hours and 59 minutes ahead of UTC, or behind it,
    shows the time `t` as long as that lies within the years.  A metric or a message with what the
    clock shows and its offset for a timestamp is read as the one with the text of UTC, and written
    as that. -/
theorem records_clockIndependent (t : Timestamp) {minutes : Int} (h : minutes.natAbs < 1440) :
    ((∃ clock, t.Shows minutes clock) ↔
        daysBeforeYear firstYear * 86400 ≤ t.seconds + 60 * minutes ∧
          t.seconds + 60 * minutes < daysBeforeYear (lastYear + 1) * 86400) ∧
      ∀ clock, t.Shows minutes clock →
        ClockIndependent Metric (fun m => some m.timestamp) t clock minutes ∧
          ClockIndependent Message Message.timestamp t clock minutes :=
  ⟨Timestamp.exists_shows_iff h, fun _ hclock =>
    ⟨.of_timed timedRecord_metric h hclock, .of_timed timedRecord_message h hclock⟩⟩

/-- The instant `t` is half a second into the leap second at the end of a year, on a `clock` that
    shows the next year already. -/
theorem records_clockIndependent_leap :
    let t : Timestamp :=
      ⟨⟨2016, 12, 31, by decide⟩, 86399, 1500000000, by decide, by decide, by decide⟩
    let clock : Timestamp :=
      ⟨⟨2017, 1, 1, by decide⟩, 19799, 1500000000, by decide, by decide, by decide⟩
    t.Shows 330 clock ∧ clock.localText 330 = "2017-01-01T05:29:60.500+05:30" ∧
      t.text = "2016-12-31T23:59:60.500Z" ∧
      ∀ m : Message, m.timestamp = some t → ∃ d : Dictionary Json,
        Wire.toValue m = .obj d.entries ∧
          Wire.read (d.withTimestamp "2017-01-01T05:29:60.500+05:30") = .ok m := by
  intro t clock
  have hclock : t.Shows 330 clock := by decide
  have htext : clock.localText 330 = "2017-01-01T05:29:60.500+05:30" := by decide
  obtain ⟨-, hmessage⟩ := (records_clockIndependent t (by decide)).2 clock hclock
  refine ⟨hclock, htext, by decide, fun m hm => ?_⟩
  rw [← htext]
  exact hmessage.readsBack m m.readsBack hm

end FaultAction
