import FaultAction.CallerState
import FaultAction.Proofs.State.Conversion
import FaultAction.Proofs.Wire.Records

namespace FaultAction

/-!
# States of callers — decoding what was encoded

A caller's record becomes a state and is decoded from it:

* `toJson_source`        — handed in as a caller's value, a record has the tree that it has on the
  wire;
* `readsBack`            — a record reads back itself, over the full range of each field;
* `Blackhole.read_widen_toValue` — what is left of a rule count that 64 signed bits cannot hold;
* `decode_ofSource`      — a record is decoded from its state, unless its state cannot hold it.
-/

/-! ### The trees of records -/

/-- Texts `ss` are written as strings, one by one, in the order of the list. -/
theorem Source.elemsToJson_texts (ss : List String) :
    Source.elemsToJson (ss.map .text) = .ok (ss.map Wire.toValue) := by
  induction ss with
  | nil => rfl
  | cons s ss ih =>
    simp only [List.map_cons, Source.elemsToJson, Source.toJson, ih]
    rfl

/-- A list of texts `ss` has the tree that the list has on the wire. -/
theorem Source.toJson_texts (ss : List String) :
    (Source.seq (ss.map .text)).toJson = .ok (Wire.toValue ss) := by
  rw [Source.toJson, Source.elemsToJson_texts, Wire.toValue_list]
  rfl

/-- An optional text `o` has the tree that the option has on the wire, null for `none`. -/
theorem CallerState.toJson_optionalText (o : Option String) :
    (CallerState.optionalText o).toJson = .ok (Wire.toValue o) := by
  cases o with
  | none => rfl
  | some s => rfl

/-- A counter `c` has the tree that it has on the wire. -/
theorem Counter.toJson_source (c : Counter) : c.source.toJson = .ok (Wire.toValue c) := rfl

/-- A stress test `s` has the tree that it has on the wire. -/
theorem Stress.toJson_source (s : Stress) : s.source.toJson = .ok (Wire.toValue s) := by
  have htargets := Source.toJson_texts s.targets
  simp only [Stress.source, Source.toJson, Source.fieldsToJson] at htargets ⊢
  rw [htargets]
  rfl

/-- A container `b` that is cut off has the tree that it has on the wire. -/
theorem Blackhole.toJson_source (b : Blackhole) : b.source.toJson = .ok (Wire.toValue b) := by
  have hranges := Source.toJson_texts b.ipRanges
  have hrestrict := CallerState.toJson_optionalText b.restrictTo
  simp only [Blackhole.source, Source.toJson, Source.fieldsToJson] at hranges ⊢
  rw [hranges, hrestrict]
  rfl

/-! ### Reading records back -/

/-- A list of texts `ss` reads back itself. -/
theorem CallerState.readsBack_texts (ss : List String) : Wire.ReadsBack ss ss :=
  Wire.readsBack_list_self (fun s _ => Wire.readsBack_string s)

/-- An optional text `o` reads back itself, for no text is written as null. -/
theorem CallerState.readsBack_optionalText (o : Option String) : Wire.ReadsBack o o := by
  cases o with
  | none => rfl
  | some s => exact Wire.readsBack_some (Wire.readsBack_string s)

/-- A counter `c` reads back itself, over all values of 32 bits. -/
theorem Counter.readsBack (c : Counter) : Wire.ReadsBack c c := by
  refine CallerState.counterFormat.readsBack_self (by decide) rfl ⟨?_, trivial⟩
  exact Field.readsBack_required (Wire.readsBack_int32 c.x)

/-- A stress test `s` reads back itself, by one lemma for each of its fields. -/
theorem Stress.readsBack (s : Stress) : Wire.ReadsBack s s := by
  refine CallerState.stressFormat.readsBack_self (by decide) rfl ⟨?_, ?_, ?_, ?_, trivial⟩
  · exact Field.readsBack_required (Wire.readsBack_string s.containerId)
  · exact Field.readsBack_required (Wire.readsBack_uint32 s.workers)
  · exact Field.readsBack_required (Wire.readsBack_int64 s.timeoutMs)
  · exact Field.readsBack_required (CallerState.readsBack_texts s.targets)

/-- A container `b` that is cut off reads back itself, whatever its rule count. -/
theorem Blackhole.readsBack (b : Blackhole) : Wire.ReadsBack b b := by
  refine CallerState.blackholeFormat.readsBack_self (by decide) rfl ⟨?_, ?_, ?_, ?_, ?_, trivial⟩
  · exact Field.readsBack_required (Wire.readsBack_string b.executionId)
  · exact Field.readsBack_required (Wire.readsBack_string b.containerId)
  · exact Field.readsBack_required (CallerState.readsBack_texts b.ipRanges)
  · exact Field.readsBack_nullable (CallerState.readsBack_optionalText b.restrictTo)
  · exact Field.readsBack_required (Wire.readsBack_uint64 b.ruleCount)

/-! ### Which records are signed -/

/-- A list of texts `ss` has no integers, so its tree is `Signed`. -/
theorem CallerState.signed_texts (ss : List String) : (Wire.toValue ss).Signed := by
  rw [Wire.toValue_list]
  refine Json.signedElems_iff.2 (fun x hx => ?_)
  obtain ⟨s, -, rfl⟩ := List.mem_map.1 hx
  trivial

/-- An optional text `o` has no integers, so its tree is `Signed`. -/
theorem CallerState.signed_optionalText (o : Option String) : (Wire.toValue o).Signed := by
  cases o with
  | none => trivial
  | some s => trivial

/-- Every counter `c` is `Signed`, for its only integer has 32 bits. -/
theorem Counter.signed_toValue (c : Counter) : (Wire.toValue c).Signed := by
  have hx := c.x.toInt_lt
  refine ⟨?_, trivial⟩
  show c.x.toInt < 9223372036854775808
  omega

/-- Every stress test `s` is `Signed`: its workers have 32 bits, and its timeout has a sign. -/
theorem Stress.signed_toValue (s : Stress) : (Wire.toValue s).Signed := by
  have hworkers := s.workers.toNat_lt
  have htimeout := s.timeoutMs.toInt_lt
  refine ⟨trivial, CallerState.signed_texts s.targets, ?_, ?_, trivial⟩
  · show s.timeoutMs.toInt < 9223372036854775808
    omega
  · show (s.workers.toNat : Int) < 9223372036854775808
    omega

/-- A container `b` that is cut off is `Signed` exactly if its rule count fits 64 signed bits. -/
theorem Blackhole.signed_toValue_iff (b : Blackhole) :
    (Wire.toValue b).Signed ↔ b.ruleCount.toNat < 9223372036854775808 := by
  have hcount : (Json.int (.ofUInt64 b.ruleCount)).Signed ↔
      b.ruleCount.toNat < 9223372036854775808 := by
    show (b.ruleCount.toNat : Int) < 9223372036854775808 ↔ _
    omega
  rw [← hcount]
  constructor
  · rintro ⟨-, -, -, -, h, -⟩
    exact h
  · intro h
    exact ⟨trivial, trivial, CallerState.signed_texts b.ipRanges,
      CallerState.signed_optionalText b.restrictTo, h, trivial⟩

/-! ### What is left of a rule count that is too large -/

/-- The tree of a container `b` that is cut off, member by member and in name order. -/
theorem Blackhole.toValue_eq (b : Blackhole) :
    Wire.toValue b = .obj
      [("containerId", .str b.containerId), ("executionId", .str b.executionId),
        ("ipRanges", Wire.toValue b.ipRanges), ("restrictTo", Wire.toValue b.restrictTo),
        ("ruleCount", .int (.ofUInt64 b.ruleCount))] := rfl

/-- In the widened tree of `b` a rule count that 64 signed bits cannot hold is a double; all else
    stays. -/
theorem Blackhole.widen_toValue (b : Blackhole) (h : 9223372036854775808 ≤ b.ruleCount.toNat) :
    (Wire.toValue b).widen = .obj
      ([("containerId", .str b.containerId), ("executionId", .str b.executionId),
        ("ipRanges", Wire.toValue b.ipRanges), ("restrictTo", Wire.toValue b.restrictTo)] ++
        [("ruleCount", .num (.float (.ofInt b.ruleCount.toNat)
          (Json.Integer.ofUInt64 b.ruleCount).isFinite_ofInt))]) := by
  have hranges : (Wire.toValue b.ipRanges).widen = Wire.toValue b.ipRanges :=
    Json.widen_eq_self_iff.2 (CallerState.signed_texts b.ipRanges)
  have hrestrict : (Wire.toValue b.restrictTo).widen = Wire.toValue b.restrictTo :=
    Json.widen_eq_self_iff.2 (CallerState.signed_optionalText b.restrictTo)
  have hcount : ¬(Json.Integer.ofUInt64 b.ruleCount).val < 9223372036854775808 := by
    show ¬(b.ruleCount.toNat : Int) < 9223372036854775808
    omega
  rw [Blackhole.toValue_eq]
  -- texts hold no integers, so only the count changes
  simp only [Json.widen, Json.widenMembers, Json.int, hranges, hrestrict, if_neg hcount]
  rfl

/-- No double is read as a rule count, so the widened tree of `b` cannot be read. -/
theorem Blackhole.read_widen_toValue (b : Blackhole)
    (h : 9223372036854775808 ≤ b.ruleCount.toNat) :
    (Wire.read (Wire.toValue b).widen : Except ReadError Blackhole) =
      .error (.invalidType (.float (.ofInt b.ruleCount.toNat)) "u64") := by
  have hranges : Wire.read (Wire.toValue b.ipRanges) = .ok b.ipRanges :=
    CallerState.readsBack_texts b.ipRanges
  have hrestrict : Wire.read (Wire.toValue b.restrictTo) = .ok b.restrictTo :=
    CallerState.readsBack_optionalText b.restrictTo
  -- the names ascend, so the count is the last member; the ones before it can be read
  have hbefore : ∀ m ∈
      [("containerId", Json.str b.containerId), ("executionId", Json.str b.executionId),
        ("ipRanges", Wire.toValue b.ipRanges), ("restrictTo", Wire.toValue b.restrictTo)],
      CallerState.blackholeFormat.schema.checkMember m.1 m.2 = .ok () := by
    intro m hm
    simp only [List.mem_cons, List.not_mem_nil, or_false] at hm
    rcases hm with rfl | rfl | rfl | rfl
    · rfl
    · rfl
    · exact map_eq_ok_iff.2 ⟨_, hranges, rfl⟩
    · exact map_eq_ok_iff.2 ⟨_, hrestrict, rfl⟩
  rw [Blackhole.widen_toValue b h]
  show CallerState.blackholeFormat.ofRow <$> CallerState.blackholeFormat.schema.ofMembers _ = _
  rw [Schema.ofMembers_eq_error _ hbefore rfl]
  rfl

/-! ### From the state -/

namespace CallerState

/-- A caller's value `s` with the tree of a record `a` has a state, from which the widened tree is
    decoded. -/
theorem exists_state {α : Type} [Wire α] {a : α} {s : Source} {ms : List (String × Json)}
    (hs : s.toJson = .ok (Wire.toValue a)) (hms : Wire.toValue a = .obj ms) :
    ∃ state, ActionState.ofSource s = .ok state ∧
      (state.decode : Except ActionError α) =
        (Conversion.ofTree (Wire.toValue a).widen).mapError ActionState.decodeFailed := by
  rw [hms] at hs ⊢
  exact ⟨ActionState.ofMembers ms, ActionState.ofSource_of_ok hs,
    ActionState.decode_ofMembers (Source.wellKeyed_toJson s hs)⟩

/-- A record `a` whose tree is `Signed` is decoded from its state as itself. -/
theorem exists_state_of_signed {α : Type} [Wire α] {a : α} {s : Source}
    {ms : List (String × Json)} (hs : s.toJson = .ok (Wire.toValue a))
    (hms : Wire.toValue a = .obj ms) (hsigned : (Wire.toValue a).Signed)
    (hread : Wire.ReadsBack a a) :
    ∃ state, ActionState.ofSource s = .ok state ∧ state.decode = .ok a := by
  obtain ⟨state, hstate, hdecode⟩ := exists_state hs hms
  refine ⟨state, hstate, ?_⟩
  have htree : Conversion.ofTree (Wire.toValue a) = .ok a := Conversion.ofTree_eq_ok_iff.2 hread
  -- widening leaves the tree alone, and it is read back
  rw [hdecode, Json.widen_eq_self_iff.2 hsigned, htree]
  rfl

/-- **States of callers.**  Every `Counter`, every `Stress` and every `Blackhole` has a state, and
    is decoded from it as itself, unless it has a rule count that 64 signed bits cannot hold.  The
    state holds the double nearest to such a count, and decoding refuses that. -/
theorem decode_ofSource :
    (∀ c : Counter, ∃ state, ActionState.ofSource c.source = .ok state ∧
      state.decode = .ok c) ∧
    (∀ s : Stress, ∃ state, ActionState.ofSource s.source = .ok state ∧
      state.decode = .ok s) ∧
    ∀ b : Blackhole, ∃ state, ActionState.ofSource b.source = .ok state ∧
      if b.ruleCount.toNat < 9223372036854775808 then state.decode = .ok b
      else ∃ e cause : ActionError, (state.decode : Except ActionError Blackhole) = .error e ∧
        e.code = 1011 ∧ e.displayText = "Failed to decode action state" ∧
        e.cause = some (.error cause) ∧ cause.code = 1001 ∧ cause.cause = none ∧
        cause.displayText =
          (ReadError.invalidType (.float (.ofInt b.ruleCount.toNat)) "u64").message := by
  refine ⟨?_, ?_, ?_⟩
  · intro c
    exact exists_state_of_signed c.toJson_source rfl c.signed_toValue c.readsBack
  · intro s
    exact exists_state_of_signed s.toJson_source rfl s.signed_toValue s.readsBack
  · intro b
    by_cases hcount : b.ruleCount.toNat < 9223372036854775808
    · simp only [if_pos hcount]
      have hsigned : (Wire.toValue b).Signed := b.signed_toValue_iff.2 hcount
      exact exists_state_of_signed b.toJson_source b.toValue_eq hsigned b.readsBack
    · -- the count has become a double, which the reader of an unsigned integer refuses
      simp only [if_neg hcount]
      obtain ⟨state, hstate, hdecode⟩ := exists_state b.toJson_source b.toValue_eq
      rw [Conversion.ofTree, b.read_widen_toValue (by omega)] at hdecode
      exact ⟨state, hstate, _, _, hdecode, rfl, rfl, rfl, rfl, rfl, rfl⟩

/-- A `Blackhole` with a rule count of `2 ^ 63`, the least that 64 signed bits cannot hold, does not
    come back. -/
theorem not_decode_ofSource_unsigned :
    ¬∃ state, ActionState.ofSource
          (Blackhole.source ⟨"0b1e", "docker://4f2a", [], none, 9223372036854775808⟩) =
        .ok state ∧
      state.decode =
        .ok (⟨"0b1e", "docker://4f2a", [], none, 9223372036854775808⟩ : Blackhole) := by
  rintro ⟨state, hstate, hdecode⟩
  cases hstate
  cases hdecode

end CallerState

end FaultAction
