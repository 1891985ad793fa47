import FaultAction.Proofs.Json.Basic
import FaultAction.Proofs.Outcome
import FaultAction.Source

namespace FaultAction

/-!
# Caller values — their trees, their conversion and their parts

A value that a caller hands in is written as a tree first, and the tree is then read:

* `wellKeyed_toJson` — a caller's value that can be written has its names in order;
* `ofTree_eq_ok_iff`                 — a tree is converted exactly if the reader takes it;
* `toTree_of_ok`, `toTree_of_error`  — the tree of a caller's value, if it can be written;
* `convert_of_ok`, `convert_of_error` — a conversion reads the tree that was written;
* `convert_tree`                     — and a tree in order is written as it is.

What a value is made of decides whether it can be written: a value with a part that cannot be
written is not written either.

* `Source.Part`, `Source.parts` — the scalars and keys of a value, in the order they are met;
* `Source.firstFault?`          — the fault of the first part that has one;
* `failure?_toJson`             — and that is the error of the value.
-/

/-! ### The order of names in a tree -/

namespace Source

/-- The one member of a variant is in order if the tree `j` of its value is. -/
theorem wellKeyed_variant {name : String} {j : Json} (h : j.WellKeyed) :
    (Json.obj [(name, j)]).WellKeyed :=
  ⟨List.pairwise_singleton _ _, h, trivial⟩

/-- Adopting a member of the tree `j` keeps the members `ms` in order. -/
theorem wellKeyed_adopt {name : String} {j : Json} {ms : Members Json} (hj : j.WellKeyed)
    (hms : (Json.obj ms).WellKeyed) : (Json.obj (Members.adopt name j ms)).WellKeyed := by
  obtain ⟨hasc, hvalues⟩ := hms
  rw [Json.wellKeyedMembers_iff] at hvalues
  refine ⟨Members.ascending_adopt hasc, Json.wellKeyedMembers_iff.2 (fun m hm => ?_)⟩
  rcases Members.mem_adopt hm with rfl | hm
  · exact hj
  · exact hvalues m hm

mutual

/-- A value that can be written has its names in order, in the tree `j` and at every depth of it. -/
theorem wellKeyed_toJson : (s : Source) → {j : Json} → s.toJson = .ok j → j.WellKeyed
  | .tree t, j, h => by
    cases h
    exact t.wellKeyed_sortKeys
  | .bool _, _, h | .integer _, _, h | .text _, _, h | .nothing, _, h | .variant _, _, h => by
    cases h
    trivial
  | .wide n, _, h => by
    rw [toJson] at h
    split at h
    · cases h; trivial
    · cases h
  | .single x, _, h => by
    -- a number or null, neither of which has names
    cases h
    rw [Json.double]
    split <;> trivial
  | .double x, _, h => by
    cases h
    rw [Json.double]
    split <;> trivial
  | .bytes bs, _, h => by
    cases h
    refine Json.wellKeyedElems_iff.2 (fun x hx => ?_)
    obtain ⟨b, -, rfl⟩ := List.mem_map.1 hx
    trivial
  | .present s, _, h => wellKeyed_toJson s h
  | .wrapped s, _, h => wellKeyed_toJson s h
  | .variantOf name s, _, h => by
    obtain ⟨j, hj, hobj⟩ := bind_eq_ok_iff.1 h
    cases hobj
    exact wellKeyed_variant (wellKeyed_toJson s hj)
  | .seq xs, _, h => by
    obtain ⟨js, hjs, harr⟩ := bind_eq_ok_iff.1 h
    cases harr
    exact wellKeyed_elemsToJson xs hjs
  | .variantSeq name xs, _, h => by
    obtain ⟨js, hjs, hobj⟩ := bind_eq_ok_iff.1 h
    cases hobj
    exact wellKeyed_variant (wellKeyed_elemsToJson xs hjs)
  | .map es, _, h => by
    obtain ⟨ms, hms, hobj⟩ := bind_eq_ok_iff.1 h
    cases hobj
    exact wellKeyed_entriesToJson es hms
  | .record fs, _, h => by
    obtain ⟨ms, hms, hobj⟩ := bind_eq_ok_iff.1 h
    cases hobj
    exact wellKeyed_fieldsToJson fs hms
  | .variantRecord name fs, _, h => by
    obtain ⟨ms, hms, hobj⟩ := bind_eq_ok_iff.1 h
    cases hobj
    exact wellKeyed_variant (wellKeyed_fieldsToJson fs hms)
  | .fail _, _, h => by cases h
termination_by structural s => s

/-- Elements that can be written have their names in order, in each of the trees `js`. -/
theorem wellKeyed_elemsToJson :
    (xs : List Source) → {js : List Json} → elemsToJson xs = .ok js → (Json.arr js).WellKeyed
  | [], _, h => by
    cases h
    trivial
  | x :: xs, _, h => by
    obtain ⟨j, hj, hrest⟩ := bind_eq_ok_iff.1 h
    obtain ⟨js, hjs, hcons⟩ := bind_eq_ok_iff.1 hrest
    cases hcons
    exact ⟨wellKeyed_toJson x hj, wellKeyed_elemsToJson xs hjs⟩
termination_by structural xs => xs

/-- Entries that can be written become members `ms` in order, each key being adopted by those after
    it. -/
theorem wellKeyed_entriesToJson :
    (es : List (Source × Source)) → {ms : Members Json} → entriesToJson es = .ok ms →
      (Json.obj ms).WellKeyed
  | [], _, h => by
    cases h
    exact ⟨List.Pairwise.nil, trivial⟩
  | (k, v) :: es, _, h => by
    obtain ⟨key, -, hvalue⟩ := bind_eq_ok_iff.1 h
    obtain ⟨j, hj, hrest⟩ := bind_eq_ok_iff.1 hvalue
    obtain ⟨ms, hms, hcons⟩ := bind_eq_ok_iff.1 hrest
    cases hcons
    exact wellKeyed_adopt (wellKeyed_toJson v hj) (wellKeyed_entriesToJson es hms)
termination_by structural es => es

/-- Fields that can be written become members `ms` in order, as entries do. -/
theorem wellKeyed_fieldsToJson :
    (fs : List (String × Source)) → {ms : Members Json} → fieldsToJson fs = .ok ms →
      (Json.obj ms).WellKeyed
  | [], _, h => by
    cases h
    exact ⟨List.Pairwise.nil, trivial⟩
  | (name, v) :: fs, _, h => by
    obtain ⟨j, hj, hrest⟩ := bind_eq_ok_iff.1 h
    obtain ⟨ms, hms, hcons⟩ := bind_eq_ok_iff.1 hrest
    cases hcons
    exact wellKeyed_adopt (wellKeyed_toJson v hj) (wellKeyed_fieldsToJson fs hms)
termination_by structural fs => fs

end

end Source

/-! ### Conversion in terms of trees -/

namespace Conversion

variable {α : Type} [Wire α] {s : Source} {j : Json} {e : WriteError}

/-- A tree `j` is converted to a value `a` exactly if the reader of the wire takes it for `a`. -/
theorem ofTree_eq_ok_iff {a : α} : ofTree j = .ok a ↔ Wire.read j = .ok a :=
  mapError_eq_ok_iff

/-- The tree of a value `s` that can be written is the tree `j` that it is written as. -/
theorem toTree_of_ok (h : s.toJson = .ok j) : toTree s = .ok j := by
  rw [toTree, h]
  rfl

/-- The error of a value `s` that cannot be written is that of its first fault `e`. -/
theorem toTree_of_error (h : s.toJson = .error e) :
    toTree s = .error (ActionError.ofWriteError e) := by
  rw [toTree, h]
  rfl

/-- A conversion of `s` reads the tree `j` that was written. -/
theorem convert_of_ok (h : s.toJson = .ok j) :
    (convert s : Except ActionError α) = ofTree j := by
  rw [convert, toTree_of_ok h]
  rfl

/-- A conversion of a value `s` that cannot be written fails for the same reason `e`. -/
theorem convert_of_error (h : s.toJson = .error e) :
    (convert s : Except ActionError α) = .error (ActionError.ofWriteError e) := by
  rw [convert, toTree_of_error h]
  rfl

/-- A tree `j` whose names are in order is converted as it is, for writing it sorts nothing. -/
theorem convert_tree (h : j.WellKeyed) : (convert (.tree j) : Except ActionError α) = ofTree j := by
  apply convert_of_ok
  rw [Source.toJson, Json.sortKeys_of_wellKeyed h]

end Conversion

/-! ### Parts -/

namespace Source

/-- A part of a value that is written for itself: a `key`, or a `value` without values in it. -/
inductive Part where
  /-- A value `s` that becomes the name of a member. -/
  | key (s : Source)
  /-- A value `s` without values in it, which is written at once. -/
  | value (s : Source)

/-- Why a part cannot be written, or `none` if it can. -/
def Part.fault? : Part → Option WriteError
  | .key s => failure? s.toKey
  | .value (.wide n) =>
    if -9223372036854775808 ≤ n ∧ n < 18446744073709551616 then none else some .numberOutOfRange
  | .value (.fail reason) => some (.refused reason)
  | .value _ => none

mutual

/-- The parts of a value, in the order they are met: depth first, from left to right.  What is
    around a value is no part of it. -/
def parts : Source → List Part
  | .present s => s.parts
  | .wrapped s => s.parts
  | .variantOf _ s => s.parts
  | .seq xs => elemParts xs
  | .variantSeq _ xs => elemParts xs
  | .map es => entryParts es
  | .record fs => fieldParts fs
  | .variantRecord _ fs => fieldParts fs
  | s => [.value s]
termination_by structural s => s

/-- The parts of the elements of a list, those of `x` before those of `xs`. -/
def elemParts : List Source → List Part
  | [] => []
  | x :: xs => x.parts ++ elemParts xs
termination_by structural xs => xs

/-- The parts of the entries of a map, a key `k` before its value `v`. -/
def entryParts : List (Source × Source) → List Part
  | [] => []
  | (k, v) :: es => .key k :: (v.parts ++ entryParts es)
termination_by structural es => es

/-- The parts of the fields of a record.  Their names are texts, which can always be written. -/
def fieldParts : List (String × Source) → List Part
  | [] => []
  | (_, v) :: fs => v.parts ++ fieldParts fs
termination_by structural fs => fs

end

/-- The fault of the first part of `s` that has one, or `none` if all of them can be written. -/
def firstFault? (s : Source) : Option WriteError := s.parts.findSome? Part.fault?

/-- An integer `n` of 128 bits has a fault of its own, if it fits in none of 64. -/
theorem failure?_toJson_wide (n : Int) :
    failure? (wide n).toJson = (Part.value (.wide n)).fault? := by
  rw [toJson, Json.Integer.ofInt?, Part.fault?]
  by_cases hn : -9223372036854775808 ≤ n ∧ n < 18446744073709551616 <;> simp [hn, failure?]

mutual

/-- **The first fault decides.**  A value has the error of the first of its `parts` that cannot be
    written, and can be written if there is none. -/
theorem failure?_toJson : (s : Source) → failure? s.toJson = s.firstFault?
  | .tree _ | .bool _ | .integer _ | .single _ | .double _ | .text _ | .bytes _ | .nothing
  | .variant _ | .fail _ => rfl
  | .wide n => by
    rw [failure?_toJson_wide]
    show _ = [Part.value (.wide n)].findSome? Part.fault?
    simp
  | .present s => failure?_toJson s
  | .wrapped s => failure?_toJson s
  -- what is put around the parts cannot fail
  | .variantOf _ s => (failure?_bind_of_none (fun _ => rfl)).trans (failure?_toJson s)
  | .seq xs => (failure?_bind_of_none (fun _ => rfl)).trans (failure?_elemsToJson xs)
  | .variantSeq _ xs => (failure?_bind_of_none (fun _ => rfl)).trans (failure?_elemsToJson xs)
  | .map es => (failure?_bind_of_none (fun _ => rfl)).trans (failure?_entriesToJson es)
  | .record fs => (failure?_bind_of_none (fun _ => rfl)).trans (failure?_fieldsToJson fs)
  | .variantRecord _ fs =>
    (failure?_bind_of_none (fun _ => rfl)).trans (failure?_fieldsToJson fs)
termination_by structural s => s

/-- Elements `xs` have the error of the first of their parts that cannot be written. -/
theorem failure?_elemsToJson :
    (xs : List Source) → failure? (elemsToJson xs) = (elemParts xs).findSome? Part.fault?
  | [] => rfl
  | x :: xs => by
    have hrest : ∀ j, failure? (elemsToJson xs >>= fun js => pure (j :: js)) =
        (elemParts xs).findSome? Part.fault? :=
      fun j => (failure?_bind_of_none (fun _ => rfl)).trans (failure?_elemsToJson xs)
    rw [elemsToJson, failure?_bind hrest, failure?_toJson x, elemParts, List.findSome?_append]
    rfl
termination_by structural xs => xs

/-- Entries `es` have the error of the first of their parts that cannot be written. -/
theorem failure?_entriesToJson :
    (es : List (Source × Source)) →
      failure? (entriesToJson es) = (entryParts es).findSome? Part.fault?
  | [] => rfl
  | (k, v) :: es => by
    have hrest : ∀ key j, failure? (entriesToJson es >>= fun ms => pure (Members.adopt key j ms)) =
        (entryParts es).findSome? Part.fault? :=
      fun _ _ => (failure?_bind_of_none (fun _ => rfl)).trans (failure?_entriesToJson es)
    have hvalue : ∀ key, failure? (v.toJson >>= fun j => entriesToJson es >>= fun ms =>
        pure (Members.adopt key j ms)) = (v.parts ++ entryParts es).findSome? Part.fault? := by
      intro key
      rw [failure?_bind (hrest key), failure?_toJson v, List.findSome?_append]
      rfl
    -- the key is met first, so that the value counts only if the key can be written
    rw [entriesToJson, failure?_bind hvalue, entryParts, List.findSome?_cons]
    cases h : failure? k.toKey <;> simp [Part.fault?, h]
termination_by structural es => es

/-- Fields `fs` have the error of the first of their parts that cannot be written, for their names
    always can. -/
theorem failure?_fieldsToJson :
    (fs : List (String × Source)) →
      failure? (fieldsToJson fs) = (fieldParts fs).findSome? Part.fault?
  | [] => rfl
  | (name, v) :: fs => by
    have hrest : ∀ j, failure? (fieldsToJson fs >>= fun ms => pure (Members.adopt name j ms)) =
        (fieldParts fs).findSome? Part.fault? :=
      fun _ => (failure?_bind_of_none (fun _ => rfl)).trans (failure?_fieldsToJson fs)
    rw [fieldsToJson, failure?_bind hrest, failure?_toJson v, fieldParts, List.findSome?_append]
    rfl
termination_by structural fs => fs

end

end Source

end FaultAction
