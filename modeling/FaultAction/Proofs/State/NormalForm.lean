import FaultAction.ActionState
import FaultAction.Proofs.Datum.RoundTrip
import FaultAction.Proofs.Wire.ReadBack

namespace FaultAction

/-!
# The state of an action — its normal form

A state is the map of its entries, so what holds of dynamic values holds of states:

* `ActionState.toDatum`   — the state as a dynamic value;
* `ActionState.normalize` — the state with its values in normal form;
* `ActionState.Canonical` — all its values are canonical;
* `ofSource_toSource`     — a state that is handed in again is encoded to its normal form;
* `readsBack`             — and so is one that is written and read;
* `decode_normalize`      — decoding cannot tell a state from its normal form.
-/

/-- Reading by trial finds in a tree `j` the value that the kind of `j` determines. -/
theorem Datum.read_eq (j : Json) : Datum.read j = Datum.ofJson j := by
  refine Datum.ext ?_
  show (Datum.Raw.read? j).get _ = Datum.Raw.ofJson j
  simp only [Datum.Raw.read?_eq, Option.get_some]

/-- The entries `es` become entries of a caller's map one by one, each key as text. -/
theorem Datum.Raw.entriesToSource_eq (es : List (String × Datum.Raw)) :
    Datum.Raw.entriesToSource es = es.map fun e => (.text e.1, e.2.toSource) :=
  eq_map_of_cons rfl (fun _ _ => rfl) es

namespace ActionState

/-! ### States as dynamic values -/

/-- The state `s` as a dynamic value, which is the map of its entries. -/
def toDatum (s : ActionState) : Datum where
  raw := .map (s.entries.entries.mapValues Datum.raw)
  wellKeyed := by
    refine ⟨Members.ascending_mapValues_iff.2 s.entries.ascending,
      Datum.Raw.entriesWellKeyed_iff.2 (fun e he => ?_)⟩
    obtain ⟨e', _, rfl⟩ := List.mem_map.1 he
    exact e'.2.wellKeyed

/-- The state of the members `ms` of an object.  Of two members of one name the later counts. -/
def ofMembers (ms : List (String × Json)) : ActionState :=
  ofList (Members.mapValues Datum.ofJson ms)

/-- The state `s` with each of its values in normal form. -/
def normalize (s : ActionState) : ActionState := ⟨s.entries.map Datum.normalize⟩

/-- All values of the state `s` are `Canonical`, so that a trip over JSON changes none of them. -/
def Canonical (s : ActionState) : Prop := ∀ e ∈ s.entries.entries, e.2.Canonical

/-- As a dynamic value, the state of the members `ms` is the value of their object. -/
theorem toDatum_ofMembers (ms : List (String × Json)) :
    (ofMembers ms).toDatum = Datum.ofJson (.obj ms) := by
  refine Datum.ext (congrArg Datum.Raw.map ?_)
  show Members.mapValues Datum.raw (Members.ofList (Members.mapValues Datum.ofJson ms)) =
    Datum.Raw.entriesOfJson ms
  rw [Members.mapValues_ofList, Members.mapValues_mapValues, Datum.Raw.entriesOfJson_eq]
  rfl

/-- States `s` and `t` are equal if they are as dynamic values. -/
theorem toDatum_injective {s t : ActionState} (h : s.toDatum = t.toDatum) : s = t := by
  have hraw : s.entries.entries.mapValues Datum.raw = t.entries.entries.mapValues Datum.raw :=
    Datum.Raw.map.inj (congrArg Datum.raw h)
  -- entries with equal trees are equal, for a value is its tree
  have hinj : ∀ e e' : String × Datum, (e.1, e.2.raw) = (e'.1, e'.2.raw) → e = e' := by
    rintro ⟨k, a⟩ ⟨l, b⟩ he
    obtain ⟨hk, hd⟩ := Prod.mk.inj he
    exact Prod.ext hk (Datum.ext hd)
  exact ActionState.ext (Dictionary.ext ((List.map_inj_right hinj).1 hraw))

/-- As a dynamic value, the normal form of `s` is the normal form of `s.toDatum`. -/
theorem toDatum_normalize (s : ActionState) : s.normalize.toDatum = s.toDatum.normalize := by
  refine Datum.ext ?_
  show Datum.Raw.map _ = (Datum.Raw.map _).normalize
  rw [Datum.Raw.normalize, Datum.Raw.normalizeEntries_eq]
  simp only [normalize, Dictionary.map_entries, Members.mapValues_mapValues,
    Datum.normalize_raw]

/-- The normal form of a state `s` is `Canonical`. -/
theorem canonical_normalize (s : ActionState) : s.normalize.Canonical := by
  intro e he
  obtain ⟨e', _, rfl⟩ := List.mem_map.1 he
  exact e'.2.canonical_normalize

/-- A `Canonical` state `s` is its own normal form. -/
theorem Canonical.normalize_eq {s : ActionState} (h : s.Canonical) : s.normalize = s :=
  ActionState.ext (Dictionary.ext
    (Members.mapValues_eq_self_iff.2 (fun e he => (h e he).normalize_eq)))

/-- The state of any members `ms` is `Canonical`, for reading gives canonical values only. -/
theorem canonical_ofMembers (ms : List (String × Json)) : (ofMembers ms).Canonical := by
  intro e he
  obtain ⟨m, _, rfl⟩ := List.mem_map.1 (Members.mem_of_mem_ofList he)
  exact Datum.canonical_ofJson m.2

/-! ### The tree of a state -/

/-- As a `Value`, a state `s` is the tree of its dynamic value. -/
theorem toValue_eq (s : ActionState) : Wire.toValue s = s.toDatum.toJson := by
  have htree : Wire.toValue s.entries = .obj (s.entries.entries.mapValues Wire.toValue) :=
    Wire.toValue_dictionary s.entries
  show Wire.toValue s.entries = Json.obj (Datum.Raw.entriesToJson _)
  rw [htree, Datum.Raw.entriesToJson_eq, Members.mapValues_mapValues]
  exact congrArg Json.obj (Members.mapValues_congr (fun e _ => e.2.toValue_eq))

/-- Handed in as a caller's value, a state `s` has the same tree as on the wire. -/
theorem toJson_toSource (s : ActionState) : s.toSource.toJson = .ok (Wire.toValue s) := by
  have hsource : s.toSource = s.toDatum.toSource := by
    show Source.map _ = Source.map (Datum.Raw.entriesToSource _)
    rw [Datum.Raw.entriesToSource_eq, Members.mapValues, List.map_map]
    rfl
  rw [hsource, toValue_eq]
  exact Datum.Raw.toJson_toSource s.toDatum.wellKeyed

/-- A state `s` and its normal form have the same tree, so that no reader tells them apart. -/
theorem toValue_normalize (s : ActionState) : Wire.toValue s.normalize = Wire.toValue s := by
  rw [toValue_eq, toValue_eq, toDatum_normalize]
  exact Datum.Raw.toJson_normalize s.toDatum.raw

/-! ### Reading a state -/

/-- The reader of the wire makes of an object the state `ofMembers` of its members `ms`, and never
    fails. -/
theorem read_obj (ms : List (String × Json)) :
    (Wire.read (.obj ms) : Except ReadError ActionState) = .ok (ofMembers ms) := by
  have hread : Wire.readMembers Wire.read (Members.mapValues id ms) =
      .ok (Members.mapValues Datum.ofJson ms) :=
    Wire.readMembers_mapValues (fun m _ => congrArg Except.ok (Datum.read_eq m.2))
  rw [Members.mapValues_eq_self_iff.2 (fun _ _ => rfl)] at hread
  show ActionState.mk <$> (Dictionary.ofList <$> Wire.readMembers Wire.read ms) = _
  rw [hread]
  rfl

/-- What is read from the tree of `s`, whose members are `ms`, is the normal form of `s`. -/
theorem ofMembers_toValue {s : ActionState} {ms : List (String × Json)}
    (h : Wire.toValue s = .obj ms) : ofMembers ms = s.normalize := by
  -- as dynamic values, the two are the trip of a value over JSON and its normal form
  apply toDatum_injective
  rw [toDatum_ofMembers, ← h, toValue_eq, Datum.ofJson_toJson, toDatum_normalize]

/-- A state `s` is written as an object, with its entries as members. -/
theorem toValue_eq_obj (s : ActionState) : ∃ ms, Wire.toValue s = .obj ms :=
  ⟨_, Wire.toValue_dictionary s.entries⟩

instance : Wire.NeverNull ActionState where
  ne_null s := by
    obtain ⟨ms, hms⟩ := s.toValue_eq_obj
    rw [hms]
    exact Json.noConfusion

/-- **Reading back.**  A state `s` that is written comes back in its normal form. -/
theorem readsBack (s : ActionState) : Wire.ReadsBack s s.normalize := by
  obtain ⟨ms, hms⟩ := s.toValue_eq_obj
  show Wire.read (Wire.toValue s) = _
  rw [hms, read_obj, ofMembers_toValue hms]

/-- **Encoding again.**  A state `s` that is handed in as a caller's value is encoded to its normal
    form. -/
theorem ofSource_toSource (s : ActionState) : ofSource s.toSource = .ok s.normalize := by
  obtain ⟨ms, hms⟩ := s.toValue_eq_obj
  have htree : Conversion.toTree s.toSource = .ok (.obj ms) := by
    rw [Conversion.toTree, toJson_toSource, hms]
    rfl
  rw [ofSource, htree]
  show Except.ok (ofMembers ms) = _
  rw [ofMembers_toValue hms]

/-- Decoding, as any type `α`, cannot tell a state `s` from its normal form, neither in the value
    nor in the error. -/
theorem decode_normalize {α : Type} [Wire α] (s : ActionState) :
    (s.normalize.decode : Except ActionError α) = s.decode := by
  rw [decode, decode, Conversion.convert, Conversion.convert, Conversion.toTree,
    Conversion.toTree, toJson_toSource, toJson_toSource, toValue_normalize]

end ActionState

end FaultAction
