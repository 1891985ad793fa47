import FaultAction.ActionState
import FaultAction.Proofs.Members.Lookup
import Mathlib.Algebra.BigOperators.Group.Finset.Basic

namespace FaultAction.ActionState

open scoped BigOperators

/-!
# The state of an action — a finite map with an account of its size

A state is known by what it gives for each name, and so is what it reports about itself: the number
of its entries, the entries, and the estimate of its size.

* `insertAll`   — the state after writes in order;
* `get?_insertAll` — a name has the value last written under it, or else the one it had;
* `entrySize`, `size_eq_sum` — the estimate is a sum over names, and a name that has no value adds
  nothing to it;
* `size_insert` — one write exchanges the entry of one name;
* `IsMap`       — a state is a finite map, with all that it reports;
* `insertAll_isMap` — it is so after any writes, which matter by the last one of each name only.
-/

variable {s : ActionState}

/-- The state `s` after the `writes`, done in order. -/
def insertAll (s : ActionState) (writes : List (String × Datum)) : ActionState :=
  writes.foldl (fun s w => s.insert w.1 w.2) s

/-! ### Lookup -/

/-- Writing `d` under `key` changes what is under that name, and nothing else. -/
theorem get?_insert (s : ActionState) (key : String) (d : Datum) (name : String) :
    (s.insert key d).get? name = if key = name then some d else s.get? name :=
  Members.get?_insert key d s.entries.entries name

/-- After the `writes`, a `name` has the value last written under it, or else the one it had. -/
theorem get?_insertAll (s : ActionState) (writes : List (String × Datum)) (name : String) :
    (s.insertAll writes).get? name = (Members.last? name writes).or (s.get? name) :=
  get?_foldl (g := (·.get? name))
    (fun s w => Members.get?_insert_eq_or w.1 w.2 s.entries.entries name) s writes

/-- States `s` and `t` that give the same for every name are equal, for their entries are in name
    order. -/
theorem ext_get? {s t : ActionState} (h : ∀ name, s.get? name = t.get? name) : s = t :=
  ActionState.ext (Dictionary.ext_get? h)

/-- A state `s` has exactly the names for which it gives a value. -/
theorem mem_keys_iff {name : String} : name ∈ s.keys ↔ s.get? name ≠ none :=
  ((not_congr Members.get?_eq_none_iff_not_mem).trans not_not).symm

/-- Writing under `key` adds at most that name to the names of `s`. -/
theorem mem_keys_insert {key name : String} {d : Datum} :
    name ∈ (s.insert key d).keys ↔ name = key ∨ name ∈ s.keys := by
  rw [mem_keys_iff, mem_keys_iff, get?_insert]
  by_cases hname : key = name
  · simp [hname]
  · simp [hname, Ne.symm hname]

/-- After the `writes`, a state has the names it had and those written. -/
theorem mem_keys_insertAll {writes : List (String × Datum)} {name : String} :
    name ∈ (s.insertAll writes).keys ↔ name ∈ s.keys ++ Members.keys writes := by
  rw [List.mem_append, mem_keys_iff, mem_keys_iff, get?_insertAll, ne_eq, Option.or_eq_none_iff,
    Members.last?_eq_none_iff]
  tauto

/-- The state of a list of `entries` is what is made by writing them in order, from the empty state
    on. -/
theorem ofList_eq_insertAll (entries : List (String × Datum)) :
    ofList entries = empty.insertAll entries := by
  apply ext_get?
  intro name
  have hlast : (ofList entries).get? name = Members.last? name entries :=
    Members.get?_ofList name entries
  rw [get?_insertAll, hlast]
  exact Option.or_none.symm

/-! ### Size -/

/-- What the entry of `name` adds to the estimate of `s`, which is nothing if there is none. -/
def entrySize (s : ActionState) (name : String) : Nat :=
  (s.get? name).elim 0 fun d => name.utf8ByteSize + d.size

/-- The estimate of `s` is the sum of the `entrySize` of its names. -/
theorem size_eq_sum_keys (s : ActionState) :
    s.size = ∑ name ∈ s.keys.toFinset, s.entrySize name := by
  have hnodup : s.keys.Nodup := Members.nodup_keys s.entries.ascending
  have hentries : (s.entries.entries.map fun e => e.1.utf8ByteSize + e.2.size) =
      s.keys.map s.entrySize := by
    rw [keys, Members.keys, List.map_map]
    refine List.map_congr_left (fun e he => ?_)
    have hget : s.get? e.1 = some e.2 := (Members.mem_iff_get? s.entries.ascending).1 he
    simp [entrySize, hget]
  rw [List.sum_toFinset _ hnodup, ← hentries, List.sum_eq_foldr, List.foldr_map]
  rfl

/-- The sum may as well be taken over any `domain` with more names, for they add nothing. -/
theorem size_eq_sum {domain : Finset String} (h : ∀ name ∈ s.keys, name ∈ domain) :
    s.size = ∑ name ∈ domain, s.entrySize name := by
  rw [size_eq_sum_keys]
  refine Finset.sum_subset (fun name hname => h name (List.mem_toFinset.1 hname)) ?_
  intro name _ hname
  have hnone : s.get? name = none := by
    rw [List.mem_toFinset, mem_keys_iff, not_not] at hname
    exact hname
  simp [entrySize, hnone]

/-- **One write.**  The estimate gains the new entry under `key` and loses the one it replaces. -/
theorem size_insert (s : ActionState) (key : String) (d : Datum) :
    (s.insert key d).size + s.entrySize key = s.size + (key.utf8ByteSize + d.size) := by
  -- both sums may be taken over the names of the state and the one written
  obtain ⟨domain, hkey, hkeys⟩ : ∃ domain : Finset String,
      key ∈ domain ∧ ∀ name ∈ s.keys, name ∈ domain :=
    ⟨(key :: s.keys).toFinset, by simp, fun name hname => by simp [hname]⟩
  have hkeys' : ∀ name ∈ (s.insert key d).keys, name ∈ domain := by
    intro name hname
    rcases mem_keys_insert.1 hname with rfl | hname
    · exact hkey
    · exact hkeys name hname
  have hnew : (s.insert key d).entrySize key = key.utf8ByteSize + d.size := by
    simp [entrySize, get?_insert]
  have hrest : ∑ name ∈ domain.erase key, (s.insert key d).entrySize name =
      ∑ name ∈ domain.erase key, s.entrySize name := by
    refine Finset.sum_congr rfl (fun name hname => ?_)
    have hne : key ≠ name := (Finset.ne_of_mem_erase hname).symm
    simp [entrySize, get?_insert, hne]
  -- take out the summand of `key`, which alone differs
  have hold := Finset.add_sum_erase domain s.entrySize hkey
  have hsum := Finset.add_sum_erase domain (s.insert key d).entrySize hkey
  rw [size_eq_sum hkeys, size_eq_sum hkeys']
  omega

/-! ### The map -/

/-- The state `t` is a finite map, which has the names of `domain` and gives `content`, and this is
    also what it reports: each name once, with its value, the number of names, and the sum of the
    estimates. -/
structure IsMap (t : ActionState) (domain : Finset String) (content : String → Option Datum) :
    Prop where
  get? : ∀ name, t.get? name = content name
  mem_domain : ∀ name, name ∈ domain ↔ content name ≠ none
  length : t.length = domain.card
  isEmpty : t.isEmpty = true ↔ t.length = 0
  nodup_keys : t.keys.Nodup
  mem_entries : ∀ name d, (name, d) ∈ t.entries.entries ↔ content name = some d
  size : t.size = ∑ name ∈ domain, (name.utf8ByteSize + (content name).elim 0 Datum.size)

/-- A state `t` is the map that it gives, on the names that it has. -/
theorem isMap_of_get? {t : ActionState} {domain : Finset String} {content : String → Option Datum}
    (hget : ∀ name, t.get? name = content name) (hdomain : ∀ name, name ∈ t.keys ↔ name ∈ domain) :
    t.IsMap domain content := by
  have hnodup : t.keys.Nodup := Members.nodup_keys t.entries.ascending
  have hkeys : t.keys.toFinset = domain := Finset.ext (fun name => by simp [hdomain])
  refine ⟨hget, ?_, ?_, ?_, hnodup, ?_, ?_⟩
  · intro name
    rw [← hdomain, mem_keys_iff, hget]
  · rw [← hkeys, List.toFinset_card_of_nodup hnodup]
    exact (List.length_map _).symm
  · exact List.isEmpty_iff_length_eq_zero
  · intro name d
    rw [← hget]
    exact Members.mem_iff_get? t.entries.ascending
  · -- each name of the domain has a value, so its summand is that of its entry
    rw [size_eq_sum_keys, hkeys]
    refine Finset.sum_congr rfl (fun name hname => ?_)
    rw [← hdomain, mem_keys_iff] at hname
    obtain ⟨d, hd⟩ := Option.ne_none_iff_exists'.1 hname
    simp [entrySize, ← hget, hd]

/-- **A finite map.**  After any `writes`, a state is the finite map that gives for each name what
    was last written under it, or else what the state had, and this is what it reports.  One write
    exchanges the entry of one name in the estimate; a state made of a list has been written entry
    by entry; and writes with the same last value for each name lead to the same state. -/
theorem insertAll_isMap :
    (∀ (s : ActionState) (writes : List (String × Datum)),
      (s.insertAll writes).IsMap (s.keys ++ Members.keys writes).toFinset
        fun name => (Members.last? name writes).or (s.get? name)) ∧
    (∀ (s : ActionState) (key : String) (d : Datum),
      (s.insert key d).size + s.entrySize key = s.size + (key.utf8ByteSize + d.size)) ∧
    (∀ entries : List (String × Datum), ofList entries = empty.insertAll entries) ∧
    ∀ (s : ActionState) (writes writes' : List (String × Datum)),
      (∀ name, Members.last? name writes = Members.last? name writes') →
        (s.insertAll writes).entries = (s.insertAll writes').entries ∧
        Wire.toValue (s.insertAll writes) = Wire.toValue (s.insertAll writes') ∧
        (s.insertAll writes).size = (s.insertAll writes').size := by
  refine ⟨?_, size_insert, ofList_eq_insertAll, ?_⟩
  · intro s writes
    refine isMap_of_get? (get?_insertAll s writes) (fun name => ?_)
    rw [mem_keys_insertAll, List.mem_toFinset]
  · intro s writes writes' hlast
    -- a state is known by what it gives for each name
    have heq : s.insertAll writes = s.insertAll writes' := by
      apply ext_get?
      intro name
      rw [get?_insertAll, get?_insertAll, hlast]
    rw [heq]
    exact ⟨rfl, rfl, rfl⟩

/-- Of three writes two are under the name `"a"`, and the two that remain may come in the other
    order. -/
theorem insertAll_isMap_twice :
    Wire.toValue (empty.insertAll [("a", .int 1), ("b", .int 2), ("a", .null)]) =
      Wire.toValue (empty.insertAll [("b", .int 2), ("a", .null)]) ∧
    (empty.insertAll [("a", .int 1), ("b", .int 2), ("a", .null)]).size = 7 := by
  obtain ⟨-, -, -, hsame⟩ := insertAll_isMap
  have hlast : ∀ name, Members.last? name [("a", Datum.int 1), ("b", .int 2), ("a", .null)] =
      Members.last? name [("b", .int 2), ("a", .null)] := by
    intro name
    simp only [Members.last?, latest?_cons, Members.valueUnder]
    by_cases ha : "a" = name <;> simp [ha, latest?]
  obtain ⟨-, hvalue, hsize⟩ := hsame empty _ _ hlast
  exact ⟨hvalue, hsize.trans (by decide)⟩

end FaultAction.ActionState
