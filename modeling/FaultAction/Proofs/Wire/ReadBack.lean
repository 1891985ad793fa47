import FaultAction.Proofs.Json.Basic
import FaultAction.Proofs.Number.Rounding
import FaultAction.Proofs.Outcome
import FaultAction.Wire.Basic

namespace FaultAction.Wire

/-!
# Values on the wire — reading back what was written

What a value is written as is read again, part by part:

* `ReadsBack a b`  — reading the written tree of `a` gives `b`.  For most types `b` is `a`; the
  state of an action comes back in its normal form;
* `NeverNull α`    — no value of a type is written as null, so that an option of it can tell
  presence from absence;
* `readsBack_list`, `readsBack_dictionary`, `readsBack_some` — containers read back what their
  parts read back;
* `exists_read_of_mem`, `exists_tree_of_mem` — a list is read exactly from trees that can be read.
-/

variable {α : Type}

/-! ### Reading lists of trees -/

section

variable {β : Type} {read : Json → Except ReadError α} {tree : β → Json} {value : β → α}

/-- Elements that can all be read, each as its `value`, are read in order. -/
theorem readElems_map {bs : List β} (h : ∀ b ∈ bs, read (tree b) = .ok (value b)) :
    readElems read (bs.map tree) = .ok (bs.map value) := by
  induction bs with
  | nil => rfl
  | cons b bs ih =>
    have hb : read (tree b) = .ok (value b) := h b (by simp)
    have hbs := ih (fun c hc => h c (by simp [hc]))
    simp only [List.map_cons, readElems, hb, hbs]
    rfl

/-- Members whose values can all be read, each as its `value`, are read in order. -/
theorem readMembers_mapValues {ms : Members β}
    (h : ∀ m ∈ ms, read (tree m.2) = .ok (value m.2)) :
    readMembers read (ms.mapValues tree) = .ok (ms.mapValues value) := by
  induction ms with
  | nil => rfl
  | cons m ms ih =>
    have hm : read (tree m.2) = .ok (value m.2) := h m (by simp)
    have hms := ih (fun n hn => h n (by simp [hn]))
    simp only [Members.mapValues_cons, readMembers, hm, hms]
    rfl

end

section

variable {read : Json → Except ReadError α}

/-- If a list `as` is read from trees `xs`, every one of them can be read. -/
theorem exists_read_of_mem {xs : List Json} {as : List α} (h : readElems read xs = .ok as) :
    ∀ x ∈ xs, ∃ a, read x = .ok a := by
  induction xs generalizing as with
  | nil => exact fun _ hx => nomatch hx
  | cons x xs ih =>
    obtain ⟨a, ha, hrest⟩ := bind_eq_ok_iff.1 h
    obtain ⟨as', has, -⟩ := bind_eq_ok_iff.1 hrest
    intro y hy
    rcases List.mem_cons.1 hy with rfl | hy
    · exact ⟨a, ha⟩
    · exact ih has y hy

/-- If a list `as` is read from trees `xs`, every element is read from one of them. -/
theorem exists_tree_of_mem {xs : List Json} {as : List α} (h : readElems read xs = .ok as) :
    ∀ a ∈ as, ∃ x, read x = .ok a := by
  induction xs generalizing as with
  | nil =>
    cases h
    exact fun _ ha => nomatch ha
  | cons x xs ih =>
    obtain ⟨b, hb, hrest⟩ := bind_eq_ok_iff.1 h
    obtain ⟨bs, hbs, hcons⟩ := bind_eq_ok_iff.1 hrest
    cases hcons
    intro a ha
    rcases List.mem_cons.1 ha with rfl | ha
    · exact ⟨x, hb⟩
    · exact ih hbs a ha

/-- If a map `es` is read from members `ms`, every value is read from one of them. -/
theorem exists_tree_of_mem_members {ms : List (String × Json)} {es : Members α}
    (h : readMembers read ms = .ok es) : ∀ e ∈ es, ∃ x, read x = .ok e.2 := by
  induction ms generalizing es with
  | nil =>
    cases h
    exact fun _ he => nomatch he
  | cons m ms ih =>
    obtain ⟨a, ha, hrest⟩ := bind_eq_ok_iff.1 h
    obtain ⟨as, has, hcons⟩ := bind_eq_ok_iff.1 hrest
    cases hcons
    intro e he
    rcases List.mem_cons.1 he with rfl | he
    · exact ⟨m.2, ha⟩
    · exact ih has e he

end

/-! ### The written trees of containers -/

section

variable [Wire α]

/-- As a `Value`, a list `as` is the array of its elements, each as a value. -/
theorem toValue_list (as : List α) : toValue as = .arr (as.map toValue) := by
  show Json.arr (Json.sortElems (as.map write)) = _
  rw [Json.sortElems_eq, List.map_map]
  rfl

/-- As a `Value`, a finite map `d` is the object of its entries, each as a value. -/
theorem toValue_dictionary (d : Dictionary α) :
    toValue d = .obj (Members.mapValues toValue d.entries) := by
  show Json.obj (Json.sortMembers (Members.mapValues write d.entries)) = _
  rw [Json.sortMembers_eq, Members.mapValues_mapValues]
  exact congrArg Json.obj
    (Members.ofList_of_ascending (Members.ascending_mapValues_iff.2 d.ascending))

/-! ### Reading back -/

/-- Reading the written tree of `a` gives `b`, which need not be `a`. -/
def ReadsBack (a b : α) : Prop := read (toValue a) = .ok b

/-- No value of the type `α` is written as null, so that null can stand for an absent one. -/
class NeverNull (α : Type) [Wire α] : Prop where
  ne_null : ∀ a : α, toValue a ≠ .null

instance : NeverNull (List α) where
  ne_null as := by rw [toValue_list]; exact Json.noConfusion

instance : NeverNull (Dictionary α) where
  ne_null d := by rw [toValue_dictionary]; exact Json.noConfusion

/-- A list `as` reads back what its elements read back, which is given by `f`. -/
theorem readsBack_list {f : α → α} {as : List α} (h : ∀ a ∈ as, ReadsBack a (f a)) :
    ReadsBack as (as.map f) := by
  show read (toValue as) = _
  rw [toValue_list]
  exact readElems_map h

/-- A list `as` whose elements read back as themselves does so too. -/
theorem readsBack_list_self {as : List α} (h : ∀ a ∈ as, ReadsBack a a) : ReadsBack as as := by
  have hlist : ReadsBack as (as.map id) := readsBack_list h
  rwa [List.map_id] at hlist

/-- A finite map `d` reads back what its values read back, which is given by `f`. -/
theorem readsBack_dictionary {f : α → α} {d : Dictionary α}
    (h : ∀ e ∈ d.entries, ReadsBack e.2 (f e.2)) : ReadsBack d (d.map f) := by
  have hread : readMembers read (d.entries.mapValues toValue) = .ok (d.entries.mapValues f) :=
    readMembers_mapValues h
  have hasc : (d.entries.mapValues f).Ascending := Members.ascending_mapValues_iff.2 d.ascending
  show read (toValue d) = _
  rw [toValue_dictionary]
  -- the keys stay, so the entries come back in the order in which they were
  show Dictionary.ofList <$> readMembers read _ = _
  rw [hread]
  exact congrArg Except.ok (Dictionary.ext (Members.ofList_of_ascending hasc))

/-- A finite map `d` whose values read back as themselves does so too. -/
theorem readsBack_dictionary_self {d : Dictionary α} (h : ∀ e ∈ d.entries, ReadsBack e.2 e.2) :
    ReadsBack d d := by
  have hmap : d.map id = d :=
    Dictionary.ext (Members.mapValues_eq_self_iff.2 (fun _ _ => rfl))
  have hdict : ReadsBack d (d.map id) := readsBack_dictionary h
  rwa [hmap] at hdict

/-- Null alone is read as absence, and any other tree `j` as a value that is there. -/
theorem read_option {j : Json} (h : j ≠ .null) :
    (read j : Except ReadError (Option α)) = some <$> read j := by
  cases j with
  | null => exact absurd rfl h
  | bool b => rfl
  | num n => rfl
  | str s => rfl
  | arr xs => rfl
  | obj ms => rfl

/-- What is read as a value `a` that is there is read as `a` alone, too. -/
theorem read_of_read_some {j : Json} {a : α}
    (h : (read j : Except ReadError (Option α)) = .ok (some a)) : read j = .ok a := by
  by_cases hnull : j = .null
  · rw [hnull] at h
    cases h
  · rw [read_option hnull] at h
    obtain ⟨b, hb, hsome⟩ := map_eq_ok_iff.1 h
    cases hsome
    exact hb

/-- A present option reads back what its value `a` reads back. -/
theorem readsBack_some [NeverNull α] {a b : α} (h : ReadsBack a b) :
    ReadsBack (some a) (some b) := by
  have hread : (read (toValue a) : Except ReadError (Option α)) = some <$> read (toValue a) :=
    read_option (NeverNull.ne_null a)
  have hok : (read (toValue a) : Except ReadError α) = .ok b := h
  show read (toValue a) = .ok (some b)
  rw [hread, hok]
  rfl

/-- What is read back of a present option, `o`, is read back of its value `a`. -/
theorem exists_readsBack_of_some [NeverNull α] {a : α} {o : Option α}
    (h : ReadsBack (some a) o) : ∃ b, ReadsBack a b := by
  have hread : (read (toValue a) : Except ReadError (Option α)) = .ok o := h
  rw [read_option (NeverNull.ne_null a)] at hread
  obtain ⟨b, hb, -⟩ := map_eq_ok_iff.1 hread
  exact ⟨b, hb⟩

/-- If a list `as` is read back, each of its elements is. -/
theorem exists_readsBack_of_mem {as bs : List α} (h : ReadsBack as bs) :
    ∀ a ∈ as, ∃ b, ReadsBack a b := by
  intro a ha
  have hread : (read (toValue as) : Except ReadError (List α)) = .ok bs := h
  rw [toValue_list] at hread
  exact exists_read_of_mem hread (toValue a) (List.mem_map_of_mem ha)

/-- What a value `a` is read back as is unique, for reading is a function. -/
theorem ReadsBack.unique {a b c : α} (hb : ReadsBack a b) (hc : ReadsBack a c) : b = c :=
  Except.ok.inj (hb.symm.trans hc)

end

/-! ### Plain types -/

instance : NeverNull String := ⟨fun _ => Json.noConfusion⟩

instance : NeverNull Bool := ⟨fun _ => Json.noConfusion⟩

/-- A string `s` reads back itself. -/
theorem readsBack_string (s : String) : ReadsBack s s := rfl

/-- A boolean `b` reads back itself. -/
theorem readsBack_bool (b : Bool) : ReadsBack b b := rfl

/-- A finite double `x` reads back itself, bit for bit. -/
theorem readsBack_double {x : Binary64} (h : x.IsFinite) : ReadsBack x x := by
  show read (Json.double x).sortKeys = _
  rw [Json.double, dif_pos h]
  rfl

/-- A double `x` that is read back is finite, for any other is written as null. -/
theorem isFinite_of_readsBack {x y : Binary64} (h : ReadsBack x y) : x.IsFinite := by
  by_cases hx : x.IsFinite
  · exact hx
  · have hread : (read (Json.double x).sortKeys : Except ReadError Binary64) = .ok y := h
    rw [Json.double, dif_neg hx] at hread
    cases hread

/-- A double `x` that is read from any tree is finite: there is no other JSON number, and an integer
    has a finite double nearest to it. -/
theorem isFinite_of_read {j : Json} {x : Binary64} (h : read j = .ok x) : x.IsFinite := by
  cases j with
  | num n =>
    cases n with
    | int n =>
      cases h
      exact n.isFinite_ofInt
    | float y hy =>
      cases h
      exact hy
  | null | bool | str | arr | obj => cases h

/-! ### Integers -/

/-- An integer `n` is read as `a` if it is in the range that `convert` accepts. -/
theorem readInteger_of_eq_some {expected : String} {convert : Int → Option α} {n : Json.Integer}
    {a : α} (h : convert n.val = some a) : readInteger expected convert (.int n) = .ok a := by
  rw [Json.int, readInteger, h]

/-- A 32-bit integer `n` reads back itself, since it is in the range. -/
theorem readsBack_int32 (n : Int32) : ReadsBack n n := by
  apply readInteger_of_eq_some
  have hle := n.le_toInt
  have hlt := n.toInt_lt
  show (if -2147483648 ≤ n.toInt ∧ n.toInt < 2147483648 then some (Int32.ofInt n.toInt)
    else none) = some n
  rw [if_pos ⟨hle, hlt⟩, Int32.ofInt_toInt]

/-- A 64-bit integer `n` reads back itself, since it is in the range. -/
theorem readsBack_int64 (n : Int64) : ReadsBack n n := by
  apply readInteger_of_eq_some
  have hle := n.le_toInt
  have hlt := n.toInt_lt
  show (if -9223372036854775808 ≤ n.toInt ∧ n.toInt < 9223372036854775808 then
    some (Int64.ofInt n.toInt) else none) = some n
  rw [if_pos ⟨hle, hlt⟩, Int64.ofInt_toInt]

/-- An unsigned 32-bit integer `n` reads back itself, since it is in the range. -/
theorem readsBack_uint32 (n : UInt32) : ReadsBack n n := by
  apply readInteger_of_eq_some
  have hlt := n.toNat_lt
  show (if (0 : Int) ≤ n.toNat ∧ (n.toNat : Int) < 4294967296 then
    some (UInt32.ofNat (n.toNat : Int).toNat) else none) = some n
  rw [if_pos (by omega), Int.toNat_natCast, UInt32.ofNat_toNat]

/-- An unsigned 64-bit integer `n` reads back itself, since it is in the range. -/
theorem readsBack_uint64 (n : UInt64) : ReadsBack n n := by
  apply readInteger_of_eq_some
  have hlt := n.toNat_lt
  show (if (0 : Int) ≤ n.toNat ∧ (n.toNat : Int) < 18446744073709551616 then
    some (UInt64.ofNat (n.toNat : Int).toNat) else none) = some n
  rw [if_pos (by omega), Int.toNat_natCast, UInt64.ofNat_toNat]

end FaultAction.Wire
