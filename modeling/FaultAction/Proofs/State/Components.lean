import FaultAction.Proofs.Members.Lookup
import FaultAction.Proofs.Source
import FaultAction.Proofs.State.Conversion
import FaultAction.Proofs.State.FiniteMap

namespace FaultAction

/-!
# The state of an action — the components of its source

A value that is written as an object has keys with values under them.  Both can be anything, and
two keys may become the same name.

* `Source.unwrapped`      — a value without the options and nameless records around it;
* `Source.components?`    — its keys and values, if it is written as an object;
* `toJson_of_components`  — the object that they become;
* `Source.IsSequence`     — a value that is written as an array;
* `Source.Writable`       — a component whose key and value can be written;
* `Source.lastComponent?` — the last value under a name;
* `get?_entriesToJson`    — and that is the value whose tree the object has there.

A state is made of such a value as a whole or not at all:

* `ActionState.Reflects`     — a state has the components of a value, and nothing else;
* `ActionState.RefusedFor`   — a value has no state because of a part that cannot be written;
* `ActionState.ofSource_exact` — a value with components has the state that reflects them, unless
  a part of it cannot be written.
-/

/-! ### Components of a caller's value -/

namespace Source

/-- The value without the options `present` and nameless records `wrapped` around it, which leave no
    trace in a tree. -/
def unwrapped : Source → Source
  | .present s => s.unwrapped
  | .wrapped s => s.unwrapped
  | s => s
termination_by structural s => s

/-- The keys and values of a value `s` that is written as an object, or `none` if it is not.  Names
    of fields, members and variants are keys that are texts. -/
def components? (s : Source) : Option (List (Source × Source)) :=
  match s.unwrapped with
  | .map es => some es
  | .record fs => some (fs.map fun f => (.text f.1, f.2))
  | .tree (.obj ms) => some (ms.map fun m => (.text m.1, .tree m.2))
  | .variantOf name s => some [(.text name, s)]
  | .variantSeq name xs => some [(.text name, .seq xs)]
  | .variantRecord name fs => some [(.text name, .record fs)]
  | _ => none

/-- The value `s` is written as an array, whatever its elements are written as. -/
def IsSequence (s : Source) : Prop :=
  match s.unwrapped with
  | .seq _ | .bytes _ | .tree (.arr _) => True
  | _ => False

/-- The key and the value of the component `e` can both be written. -/
def Writable (e : Source × Source) : Prop :=
  (∃ key, e.1.toKey = .ok key) ∧ ∃ j, e.2.toJson = .ok j

/-- The value of the component `e`, if its key becomes `name`. -/
def valueUnder (name : String) (e : Source × Source) : Option Source :=
  match e.1.toKey with
  | .ok key => Members.valueUnder name (key, e.2)
  | .error _ => none

/-- The value of the last component among `es` whose key becomes `name`. -/
def lastComponent? (name : String) (es : List (Source × Source)) : Option Source :=
  latest? (valueUnder name) es

variable {s : Source} {es : List (Source × Source)} {ms : Members Json} {name : String}

/-! ### The object of components -/

/-- What is around a value does not show in its tree, so `unwrapped` may be left out before
    writing. -/
theorem toJson_unwrapped : (s : Source) → s.unwrapped.toJson = s.toJson
  | .present s => toJson_unwrapped s
  | .wrapped s => toJson_unwrapped s
  | .tree _ | .bool _ | .integer _ | .wide _ | .single _ | .double _ | .text _ | .bytes _
  | .nothing | .variant _ | .variantOf _ _ | .seq _ | .variantSeq _ _ | .map _ | .record _
  | .variantRecord _ _ | .fail _ => rfl
termination_by structural s => s

/-- The fields `fs` of a record are written as entries whose keys are texts. -/
theorem fieldsToJson_eq (fs : List (String × Source)) :
    fieldsToJson fs = entriesToJson (fs.map fun f => (.text f.1, f.2)) := by
  induction fs with
  | nil => rfl
  | cons f fs ih =>
    rw [List.map_cons, fieldsToJson, entriesToJson, ih]
    rfl

/-- The members `ms` of a tree are written as entries whose keys are texts, which puts them in name
    order. -/
theorem entriesToJson_tree (ms : List (String × Json)) :
    entriesToJson (ms.map fun m => (.text m.1, .tree m.2)) = .ok (Json.sortMembers ms) := by
  induction ms with
  | nil => rfl
  | cons m ms ih =>
    rw [List.map_cons, entriesToJson, ih]
    rfl

/-- The only component of a value, with the text `name` for a key and `s` under it, is its only
    member. -/
theorem entriesToJson_single (name : String) (s : Source) :
    Json.obj <$> entriesToJson [(.text name, s)] =
      s.toJson >>= fun j => pure (.obj [(name, j)]) := by
  show Json.obj <$> (s.toJson >>= fun j => pure [(name, j)]) = _
  cases s.toJson <;> rfl

/-- A value `s` with the components `es` is written as the object of them. -/
theorem toJson_of_components (h : s.components? = some es) :
    s.toJson = Json.obj <$> entriesToJson es := by
  rw [← toJson_unwrapped]
  rw [components?] at h
  -- one case for each way to be written as an object
  split at h <;> cases h
  · next es heq =>
    rw [heq]
    exact bind_pure_comp _ _
  · next fs heq =>
    rw [heq, ← fieldsToJson_eq]
    exact bind_pure_comp _ _
  · next ms heq =>
    rw [heq, entriesToJson_tree]
    rfl
  · next name s heq =>
    rw [heq, entriesToJson_single]
    rfl
  · next name xs heq =>
    rw [heq, entriesToJson_single]
    show _ = (elemsToJson xs >>= _) >>= _
    cases h : elemsToJson xs <;> rw [toJson, h] <;> rfl
  · next name fs heq =>
    rw [heq, entriesToJson_single]
    cases h : fieldsToJson fs <;> rw [toJson, toJson, h] <;> rfl

/-- A value `s` that `IsSequence` and can be written is written as an array. -/
theorem toJson_of_isSequence {j : Json} (hs : s.IsSequence) (h : s.toJson = .ok j) :
    ∃ js, j = .arr js := by
  rw [← toJson_unwrapped] at h
  rw [IsSequence] at hs
  split at hs
  · -- elements that are written one by one, bytes, and the elements of a tree
    next xs heq =>
    rw [heq] at h
    obtain ⟨js, -, harr⟩ := bind_eq_ok_iff.1 h
    cases harr
    exact ⟨js, rfl⟩
  · next bs heq =>
    rw [heq] at h
    cases h
    exact ⟨_, rfl⟩
  · next xs heq =>
    rw [heq] at h
    cases h
    exact ⟨_, rfl⟩
  · exact hs.elim

/-! ### The members of the object -/

/-- A component `e` before others is written exactly if its key and value are, and the others too,
    and then its name is adopted by theirs. -/
theorem entriesToJson_cons_eq_ok_iff {e : Source × Source} :
    entriesToJson (e :: es) = .ok ms ↔
      ∃ key j ms', e.1.toKey = .ok key ∧ e.2.toJson = .ok j ∧ entriesToJson es = .ok ms' ∧
        Members.adopt key j ms' = ms := by
  constructor
  · intro h
    obtain ⟨key, hkey, hvalue⟩ := bind_eq_ok_iff.1 h
    obtain ⟨j, hj, hrest⟩ := bind_eq_ok_iff.1 hvalue
    obtain ⟨ms', hms, hadopt⟩ := bind_eq_ok_iff.1 hrest
    exact ⟨key, j, ms', hkey, hj, hms, Except.ok.inj hadopt⟩
  · rintro ⟨key, j, ms', hkey, hj, hms, rfl⟩
    rw [entriesToJson, hkey, hj, hms]
    rfl

/-- Components `es` become an object exactly if each of them is `Writable`. -/
theorem entriesToJson_eq_ok_iff : (∃ ms, entriesToJson es = .ok ms) ↔ ∀ e ∈ es, Writable e := by
  induction es with
  | nil => exact iff_of_true ⟨[], rfl⟩ (fun _ he => nomatch he)
  | cons e es ih =>
    rw [List.forall_mem_cons, ← ih]
    constructor
    · rintro ⟨ms, h⟩
      obtain ⟨key, j, ms', hkey, hj, hms, -⟩ := entriesToJson_cons_eq_ok_iff.1 h
      exact ⟨⟨⟨key, hkey⟩, j, hj⟩, ms', hms⟩
    · rintro ⟨⟨⟨key, hkey⟩, j, hj⟩, ms', hms⟩
      exact ⟨_, entriesToJson_cons_eq_ok_iff.2 ⟨key, j, ms', hkey, hj, hms, rfl⟩⟩

/-- There is no last component under `name` exactly if no key among `es` becomes it. -/
theorem lastComponent?_eq_none_iff :
    lastComponent? name es = none ↔ ∀ e ∈ es, e.1.toKey ≠ .ok name := by
  rw [lastComponent?, latest?_eq_none_iff]
  refine forall₂_congr (fun e _ => ?_)
  rw [valueUnder]
  cases h : e.1.toKey with
  | error => simp
  | ok key => by_cases hkey : key = name <;> simp [Members.valueUnder, hkey]

/-- If `a` and `a'` are related by `r`, and so are `b` and `b'`, then the first choices of the two
    pairs are. -/
theorem rel_or {α β : Type} {r : α → β → Prop} {a b : Option α} {a' b' : Option β}
    (h : Option.Rel r a a') (h' : Option.Rel r b b') : Option.Rel r (a.or b) (a'.or b') := by
  cases h with
  | some h => exact .some h
  | none => exact h'

/-- **The last component counts.**  Under each `name` the object `ms` has the tree of the last value
    whose key becomes `name`, and nothing if there is none. -/
theorem get?_entriesToJson (h : entriesToJson es = .ok ms) (name : String) :
    Option.Rel (fun v j => v.toJson = .ok j) (lastComponent? name es) (ms.get? name) := by
  induction es generalizing ms with
  | nil =>
    cases h
    exact .none
  | cons e es ih =>
    obtain ⟨key, j, ms, hkey, hj, hms, rfl⟩ := entriesToJson_cons_eq_ok_iff.1 h
    have hasc : ms.Ascending := (wellKeyed_entriesToJson es hms).1
    rw [Members.get?_adopt hasc, lastComponent?, latest?_cons]
    -- a later component under the name is found first on both sides
    apply rel_or (ih hms)
    rw [valueUnder, hkey]
    by_cases hname : key = name
    · simp only [Members.valueUnder, hname, if_true]
      exact .some hj
    · simp only [Members.valueUnder, hname, if_false]
      exact .none

end Source

/-! ### The state that reflects them -/

namespace ActionState

variable {s : Source} {es : List (Source × Source)} {ms : Members Json}

/-- A state has the names that the keys among `es` become, and under each name the last value there,
    as its tree is read. -/
structure Reflects (state : ActionState) (es : List (Source × Source)) : Prop where
  keys : ∀ name, name ∈ state.keys ↔ ∃ e ∈ es, e.1.toKey = .ok name
  last : ∀ name v, Source.lastComponent? name es = some v →
    ∃ j, v.toJson = .ok j ∧ state.get? name = some (Datum.ofJson j)

/-- The value `s` has no state, and the error, of code 1001, has nothing but the text of the
    `fault`. -/
def RefusedFor (s : Source) (fault : WriteError) : Prop :=
  ∃ e, ofSource s = .error e ∧ e.code = 1001 ∧ e.cause = none ∧ e.displayText = fault.message

/-- What is around a value `s` does not change its state, since it does not show in the tree. -/
theorem ofSource_unwrapped (s : Source) : ofSource s.unwrapped = ofSource s := by
  rw [ofSource, ofSource, Conversion.toTree, Conversion.toTree, Source.toJson_unwrapped]

/-- A value `s` with a part that cannot be written is refused for the first one, its `fault`. -/
theorem refusedFor_of_firstFault? {fault : WriteError} (h : s.firstFault? = some fault) :
    RefusedFor s fault := by
  rw [← Source.failure?_toJson, failure?_eq_some_iff] at h
  exact ⟨_, ofSource_of_error h, rfl, rfl, rfl⟩

/-- The state of the members `ms` has under each `name` what the member there is read as. -/
theorem get?_ofMembers (h : (Json.obj ms).WellKeyed) (name : String) :
    (ofMembers ms).get? name = (ms.get? name).map Datum.ofJson := by
  show Members.get? name (Members.ofList (Members.mapValues Datum.ofJson ms)) = _
  rw [Members.ofList_of_ascending (Members.ascending_mapValues_iff.2 h.1), Members.get?_mapValues]

/-- The state of the object of the components `es` reflects them. -/
theorem reflects_ofMembers (h : Source.entriesToJson es = .ok ms) : Reflects (ofMembers ms) es := by
  have hget := get?_ofMembers (Source.wellKeyed_entriesToJson es h)
  have hlast := Source.get?_entriesToJson h
  constructor
  · intro name
    -- both sides say that there is a last component under the name
    have hkey : (∃ e ∈ es, e.1.toKey = .ok name) ↔ Source.lastComponent? name es ≠ none := by
      simp [Source.lastComponent?_eq_none_iff]
    have hrel := hlast name
    rw [mem_keys_iff, hget, hkey]
    generalize Source.lastComponent? name es = last, ms.get? name = found at hrel ⊢
    cases hrel <;> simp
  · intro name v hv
    have hrel := hlast name
    rw [hv] at hrel
    rw [hget]
    generalize ms.get? name = found at hrel ⊢
    cases hrel with
    | some hj => exact ⟨_, hj, rfl⟩

/-- **A state reflects its source exactly.**  What is around `s` does not matter.  A value with a
    part that cannot be written, at any depth, is `RefusedFor` the first such part, whatever else
    there is to say about it.  Otherwise a value with components `es` has a state that `Reflects`
    them, and a sequence is refused for being none.  No component is at fault exactly if all of them
    are `Writable`. -/
theorem ofSource_exact :
    (∀ s : Source, ofSource s.unwrapped = ofSource s) ∧
    (∀ (s : Source) (fault : WriteError), s.firstFault? = some fault → RefusedFor s fault) ∧
    (∀ (s : Source) (es : List (Source × Source)), s.components? = some es →
      (s.firstFault? = none ↔ ∀ e ∈ es, Source.Writable e) ∧
        (s.firstFault? = none → ∃ state, ofSource s = .ok state ∧ Reflects state es)) ∧
    ∀ s : Source, s.IsSequence → s.firstFault? = none →
      ∃ e, ofSource s = .error e ∧ e.code = 1002 ∧
        e.displayText = "action state must be an object, got an array" := by
  refine ⟨ofSource_unwrapped, fun _ _ => refusedFor_of_firstFault?, ?_, ?_⟩
  · intro s es hes
    have hobj := Source.toJson_of_components hes
    -- there is a fault exactly if there is no object of the components
    have hwritable : s.firstFault? = none ↔ ∃ ms, Source.entriesToJson es = .ok ms := by
      rw [← Source.failure?_toJson, failure?_eq_none_iff, hobj]
      simp [map_eq_ok_iff]
    refine ⟨hwritable.trans Source.entriesToJson_eq_ok_iff, fun hfault => ?_⟩
    obtain ⟨ms, hms⟩ := hwritable.1 hfault
    rw [hms] at hobj
    exact ⟨ofMembers ms, ofSource_of_ok hobj, reflects_ofMembers hms⟩
  · intro s hseq hfault
    rw [← Source.failure?_toJson, failure?_eq_none_iff] at hfault
    obtain ⟨j, hj⟩ := hfault
    obtain ⟨js, rfl⟩ := Source.toJson_of_isSequence hseq hj
    exact ⟨_, ofSource_of_ok hj, rfl, rfl⟩

/-- Two keys may become one name, `"7"`, and then the later counts.  A fault inside a first
    component goes before that of a second key, and one inside a sequence before its not being an
    object. -/
theorem ofSource_exact_nested :
    (∃ state,
      ofSource (.present (.wrapped (.map [(.integer (.ofInt32 7), .text "a"),
        (.text "7", .present (.bool true))]))) = .ok state ∧
      state.get? "7" = some (Datum.ofJson (.bool true)) ∧
      ∀ name, name ∈ state.keys ↔ name = "7") ∧
    RefusedFor (.record [("a", .seq [.text "x", .map [(.nothing, .fail "b")]]), ("c", .fail "d")])
      .keyNotString ∧
    RefusedFor (.seq [.variantOf "a" (.wide 18446744073709551616)]) .numberOutOfRange ∧
    ∃ e, ofSource (.present (.seq [])) = .error e ∧ e.code = 1002 := by
  obtain ⟨-, hrefused, hcomponents, hsequence⟩ := ofSource_exact
  refine ⟨?_, hrefused _ _ rfl, hrefused _ _ rfl, ?_⟩
  · obtain ⟨-, hreflects⟩ := hcomponents (.present (.wrapped (.map
      [(.integer (.ofInt32 7), .text "a"), (.text "7", .present (.bool true))]))) _ rfl
    obtain ⟨state, hstate, hkeys, hlast⟩ := hreflects rfl
    refine ⟨state, hstate, ?_, fun name => ?_⟩
    · obtain ⟨j, hj, hget⟩ := hlast "7" (.present (.bool true)) rfl
      cases hj
      exact hget
    · have hseven : Decimal.ofInt (Json.Integer.ofInt32 7).val = "7" := rfl
      rw [hkeys]
      simp [Source.toKey, hseven, eq_comm]
  · obtain ⟨e, he, hcode, -⟩ := hsequence (.present (.seq [])) trivial rfl
    exact ⟨e, he, hcode⟩

end ActionState

end FaultAction
