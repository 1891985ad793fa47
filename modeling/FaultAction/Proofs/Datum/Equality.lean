import FaultAction.Proofs.Datum.Path
import FaultAction.Proofs.Datum.RoundTrip
import FaultAction.Proofs.Datum.NormalForm
import FaultAction.Proofs.Json.Basic
import Mathlib.Data.List.Perm.Basic

namespace FaultAction

/-!
# Dynamic values — equality

Values are equal with their doubles compared as numbers, and their maps compared without regard to
order:

* `Members.keys_eq_of_subset`, `Members.forall_found_iff` — lists in name order of one length, of
  which every entry of one is found in the other;
* `sameByLookup_eq_same` — the equality by lookup and the one that compares entry by entry agree;
* `Datum.Raw.plain`        — the value with every zero positive;
* `same_iff`               — values are equal exactly if these are, and no NaN is inside;
* `symm_of_same`, `trans_of_same`, `same_self_iff` — so equality is symmetric and transitive, and
  reflexive where there is no NaN;
* `size_eq_of_same`, `same_toJson_of_same`, `same_normalize_of_same` — equal values have the same
  estimate, equal trees and equal normal forms.
-/

/-! ### Maps of one size -/

namespace Members

variable {α β : Type}

/-- Two lists `ms` and `ns` in name order, of one length, have the same names if `ns` has every name
    of `ms`: names occur once, so there is no room for more. -/
theorem keys_eq_of_subset {ms : Members α} {ns : Members β} (hms : ms.Ascending)
    (hns : ns.Ascending) (hlength : ms.length = ns.length)
    (hsubset : ∀ name ∈ keys ms, name ∈ keys ns) : keys ms = keys ns := by
  have hlengths : (keys ns).length ≤ (keys ms).length := by
    rw [keys, keys, List.length_map, List.length_map, hlength]
  have hperm : (keys ms).Perm (keys ns) :=
    (List.subperm_of_subset (nodup_keys hms) hsubset).perm_of_length_le hlengths
  have : Std.Antisymm fun a b : String => a < b :=
    ⟨fun _ _ hab hba => absurd hba (String.lt_asymm hab)⟩
  have : Std.Irrefl fun a b : String => a < b := ⟨String.lt_irrefl⟩
  exact (List.pairwise_map.2 hms).eq_of_mem_iff (List.pairwise_map.2 hns) (fun _ => hperm.mem_iff)

/-- **One direction suffices.**  Of two lists in name order that are of one length, every entry of
    `ms` is found in `ns` with a value related by `r` exactly if the entries at each position have
    one name and related values. -/
theorem forall_found_iff {r : α → β → Prop} {ms : Members α} {ns : Members β}
    (hms : ms.Ascending) (hns : ns.Ascending) :
    (ms.length = ns.length ∧ ∀ m ∈ ms, ∃ v, get? m.1 ns = some v ∧ r m.2 v) ↔
      List.Forall₂ (fun m n => m.1 = n.1 ∧ r m.2 n.2) ms ns := by
  constructor
  · rintro ⟨hlength, hfound⟩
    have hkeys : keys ms = keys ns := by
      refine keys_eq_of_subset hms hns hlength (fun name hname => ?_)
      obtain ⟨m, hm, rfl⟩ := List.mem_map.1 hname
      obtain ⟨v, hv, -⟩ := hfound m hm
      exact List.mem_map.2 ⟨_, mem_of_get? hv, rfl⟩
    have hnames : List.Forall₂ (fun m n => m.1 = n.1) ms ns := by
      rw [keys, keys, ← List.forall₂_eq_eq_eq, List.forall₂_map_left_iff,
        List.forall₂_map_right_iff] at hkeys
      exact hkeys
    refine List.forall₂_iff_zip.2 ⟨hlength, fun {m n} hzip => ?_⟩
    have hname : m.1 = n.1 := (List.forall₂_iff_zip.1 hnames).2 hzip
    obtain ⟨hm, hn⟩ := List.of_mem_zip hzip
    obtain ⟨v, hv, hr⟩ := hfound m hm
    -- the value found under the name is the one at this position
    have hvalue : n.2 = v := eq_of_get? hns hv n hn hname.symm
    exact ⟨hname, hvalue ▸ hr⟩
  · -- an entry at a position is found under its name, since the names of `ns` ascend
    intro h
    refine ⟨h.length_eq, fun m hm => ?_⟩
    clear hms
    induction h with
    | nil => cases hm
    | @cons m' n ms ns hmn _ ih =>
      rcases List.mem_cons.1 hm with rfl | hm
      · exact ⟨n.2, (mem_iff_get? hns).1 (by rw [hmn.1]; exact List.mem_cons_self), hmn.2⟩
      · obtain ⟨v, hv, hr⟩ := ih (List.pairwise_cons.1 hns).2 hm
        exact ⟨v, (mem_iff_get? hns).1 (List.mem_cons_of_mem n (mem_of_get? hv)), hr⟩

end Members

namespace Datum.Raw

/-! ### Equality by lookup -/

/-- Entries `es` are `foundIn` a map exactly if each key leads there to a value that is the same by
    lookup. -/
theorem foundIn_iff {es : List (String × Datum.Raw)} {fs : Members Datum.Raw} :
    foundIn es fs = true ↔
      ∀ e ∈ es, ∃ d, Members.get? e.1 fs = some d ∧ e.2.sameByLookup d = true := by
  refine iff_forall_of_cons (p := fun es => foundIn es fs = true) rfl (fun e es => ?_)
  rw [foundIn, Bool.and_eq_true, Option.any_eq_true]

/-- By lookup, lists `xs` and `ys` are equal exactly if they are of one length and the elements at
    each position are equal by lookup. -/
theorem sameElemsByLookup_iff {xs ys : List Datum.Raw} :
    sameElemsByLookup xs ys = true ↔ List.Forall₂ (fun d e => d.sameByLookup e = true) xs ys :=
  iff_forall₂_of_cons rfl (fun _ _ => rfl) (fun _ _ => rfl) (fun _ _ _ _ => rfl)

/-- Entry by entry, lists are equal exactly if they are of one length and the elements at each
    position are `same`, with their maps compared in key order. -/
theorem sameElems_iff {xs ys : List Datum.Raw} :
    sameElems xs ys = true ↔ List.Forall₂ (fun d e => d.same e = true) xs ys :=
  iff_forall₂_of_cons rfl (fun _ _ => rfl) (fun _ _ => rfl) (fun _ _ _ _ => rfl)

/-- Entry by entry, maps are equal exactly if the entries at each position have one key and values
    that are `same`. -/
theorem sameEntries_iff {es fs : List (String × Datum.Raw)} :
    sameEntries es fs = true ↔
      List.Forall₂ (fun e f => (decide (e.1 = f.1) && e.2.same f.2) = true) es fs :=
  iff_forall₂_of_cons rfl (fun _ _ => rfl) (fun _ _ => rfl) (fun _ _ _ _ => rfl)

/-- **Equality of maps.**  Looking up each key of `a` in `b`, and comparing the two entry by entry,
    gives the same answer, since both have their keys in order. -/
theorem sameByLookup_eq_same {a b : Datum.Raw} (ha : a.WellKeyed) (hb : b.WellKeyed) :
    a.sameByLookup b = a.same b := by
  induction a generalizing b with
  | null | int | long | double | bool | str => cases b <;> rfl
  | map es ih =>
    cases b with
    | map fs =>
      obtain ⟨hasc, hes⟩ := ha
      obtain ⟨hasc', hfs⟩ := hb
      -- the values that are looked up are smaller, so the two ways agree on them
      have hfound : (∀ e ∈ es, ∃ d, Members.get? e.1 fs = some d ∧ e.2.sameByLookup d = true) ↔
          ∀ e ∈ es, ∃ d, Members.get? e.1 fs = some d ∧ e.2.same d = true := by
        refine forall₂_congr (fun e he => exists_congr (fun d => and_congr_right (fun hd => ?_)))
        have hkeys : d.WellKeyed := entriesWellKeyed_iff.1 hfs _ (Members.mem_of_get? hd)
        rw [ih e he (entriesWellKeyed_iff.1 hes e he) hkeys]
      rw [Bool.eq_iff_iff, sameByLookup, same, Bool.and_eq_true, decide_eq_true_iff, foundIn_iff,
        hfound, Members.forall_found_iff (r := fun d e => d.same e = true) hasc hasc',
        sameEntries_iff]
      simp only [Bool.and_eq_true, decide_eq_true_iff]
    | null | int | long | double | bool | str | list => rfl
  | list xs ih =>
    cases b with
    | list ys =>
      rw [Bool.eq_iff_iff, sameByLookup, same, sameElemsByLookup_iff, sameElems_iff]
      refine forall₂_congr_of_mem (fun x hx y hy => ?_)
      rw [ih x hx (elemsWellKeyed_iff.1 ha x hx) (elemsWellKeyed_iff.1 hb y hy)]
    | null | int | long | double | bool | str | map => rfl

/-! ### Equality up to the sign of zero -/

mutual

/-- The value with the zero of every `double` positive, at whatever depth.  It is to equality what a
    normal form is: equal values become one. -/
def plain : Datum.Raw → Datum.Raw
  | .double x => .double x.plain
  | .map es => .map (plainEntries es)
  | .list xs => .list (plainElems xs)
  | d => d
termination_by structural d => d

/-- The values of the entries under `plain`, each with its own key. -/
def plainEntries : List (String × Datum.Raw) → List (String × Datum.Raw)
  | [] => []
  | (k, d) :: es => (k, d.plain) :: plainEntries es
termination_by structural es => es

/-- The elements under `plain`, each at its own position. -/
def plainElems : List Datum.Raw → List Datum.Raw
  | [] => []
  | d :: xs => d.plain :: plainElems xs
termination_by structural xs => xs

end

/-- Written as a map over the values, `plainEntries` changes each of them for itself. -/
theorem plainEntries_eq (es : List (String × Datum.Raw)) :
    plainEntries es = Members.mapValues plain es :=
  eq_map_of_cons rfl (fun _ _ => rfl) es

/-- Written as a map, `plainElems` changes each element of `xs` for itself. -/
theorem plainElems_eq (xs : List Datum.Raw) : plainElems xs = xs.map plain :=
  eq_map_of_cons rfl (fun _ _ => rfl) xs

/-- The value is a `double` that is a NaN, the one value that does not equal itself. -/
def IsNaN : Datum.Raw → Prop
  | .double x => x.isNaN = true
  | _ => False

/-- Nowhere in `d` is there a NaN, whatever path is followed. -/
def NaNFree (d : Datum.Raw) : Prop := Everywhere (fun e => ¬e.IsNaN) d

/-- **Equality.**  Values `a` and `b` are equal exactly if they are up to the signs of zeros, which
    is that `plain` makes them one, and nowhere in `a` is a NaN. -/
theorem same_iff {a b : Datum.Raw} (ha : a.WellKeyed) :
    a.same b = true ↔ a.plain = b.plain ∧ a.NaNFree := by
  unfold NaNFree
  induction a generalizing b with
  | null | int | long | bool | str =>
    rw [everywhere_iff_of_child? (fun _ => rfl)]
    cases b <;> simp [same, plain, IsNaN]
  | double x =>
    rw [everywhere_iff_of_child? (fun _ => rfl)]
    cases b <;> simp [same, plain, IsNaN, Binary64.sameNumber_iff]
  | map es ih =>
    obtain ⟨hasc, hes⟩ := ha
    -- by the induction, entries are equal if their values are up to signs, and have no NaN
    have hentries : ∀ fs, sameEntries es fs = true ↔
        Members.mapValues plain es = Members.mapValues plain fs ∧
          ∀ e ∈ es, Everywhere (fun e => ¬e.IsNaN) e.2 := by
      intro fs
      rw [sameEntries_iff]
      exact forall₂_iff_mapValues_eq (fun e he d => ih e he (entriesWellKeyed_iff.1 hes e he))
    rw [everywhere_map_iff hasc]
    cases b <;> simp [same, plain, IsNaN, plainEntries_eq, hentries]
  | list xs ih =>
    -- and so are elements
    have helems : ∀ ys, sameElems xs ys = true ↔
        xs.map plain = ys.map plain ∧ ∀ x ∈ xs, Everywhere (fun e => ¬e.IsNaN) x := by
      intro ys
      rw [sameElems_iff]
      exact forall₂_iff_map_eq (fun x hx y => ih x hx (elemsWellKeyed_iff.1 ha x hx))
    rw [everywhere_list_iff]
    cases b <;> simp [same, plain, IsNaN, plainElems_eq, helems]

/-! ### What the signs of zeros do not change -/

/-- One step `s` down in `d.plain` is the value that was there, with its zeros positive. -/
theorem child?_plain (d : Datum.Raw) (s : Step) : d.plain.child? s = (d.child? s).map plain := by
  cases d with
  | null | int | long | double | bool | str => rfl
  | map es =>
    rw [plain, plainEntries_eq]
    exact child?_map_mapValues plain es s
  | list xs =>
    rw [plain, plainElems_eq]
    exact child?_list_map plain xs s

/-- Making zeros positive neither makes a NaN of `d` nor takes one away. -/
theorem isNaN_plain {d : Datum.Raw} : d.plain.IsNaN ↔ d.IsNaN := by
  cases d with
  | double x =>
    show x.plain.isNaN = true ↔ x.isNaN = true
    rw [Binary64.isNaN_plain]
  | null | int | long | bool | str | map | list => exact Iff.rfl

/-- Making zeros positive neither puts a NaN into `d` nor takes one out. -/
theorem nanFree_plain {d : Datum.Raw} : d.plain.NaNFree ↔ d.NaNFree := by
  constructor
  · intro h path e he
    have hplain : d.plain.at? path = some e.plain := by
      rw [at?_of_child? child?_plain, he]
      rfl
    exact fun hnan => h path _ hplain (isNaN_plain.2 hnan)
  · -- what is at the end of a path was there before, up to the signs of its zeros
    intro h path e he
    rw [at?_of_child? child?_plain] at he
    obtain ⟨c, hc, rfl⟩ := Option.map_eq_some_iff.1 he
    exact fun hnan => h path c hc (isNaN_plain.1 hnan)

/-- The estimate of `d` does not depend on the signs of its zeros, for every double counts the
    same. -/
theorem size_plain (d : Datum.Raw) : d.plain.size = d.size := by
  induction d with
  | null | int | long | double | bool | str => rfl
  | map es ih =>
    rw [plain, size, size, plainEntries_eq, entriesSize_eq_sum, entriesSize_eq_sum,
      Members.mapValues, List.map_map]
    exact congrArg List.sum (List.map_congr_left (fun e he => congrArg _ (ih e he)))
  | list xs ih =>
    rw [plain, size, size, plainElems_eq, elemsSize_eq_sum, elemsSize_eq_sum, List.map_map]
    exact congrArg List.sum (List.map_congr_left ih)

/-- Signs of zeros may be dropped before `d` is written, or after that from its tree. -/
theorem toJson_plain (d : Datum.Raw) : d.plain.toJson = d.toJson.plain := by
  induction d with
  | null | int | long | bool | str => rfl
  | double x =>
    by_cases h : x.IsFinite
    · have h' : x.plain.IsFinite := Binary64.isFinite_plain.2 h
      rw [plain, toJson, toJson, Json.double, Json.double, dif_pos h, dif_pos h', Json.plain]
    · -- of a NaN or an infinity null is written, with its sign dropped or not
      have h' : ¬x.plain.IsFinite := fun h' => h (Binary64.isFinite_plain.1 h')
      rw [plain, toJson, toJson, Json.double, Json.double, dif_neg h, dif_neg h']
      rfl
  | map es ih =>
    have hvalues : Members.mapValues (fun d => d.plain.toJson) es =
        Members.mapValues (fun d => d.toJson.plain) es := Members.mapValues_congr ih
    rw [plain, plainEntries_eq, toJson, toJson, entriesToJson_eq, entriesToJson_eq, Json.plain,
      Json.plainMembers_eq, Members.mapValues_mapValues, Members.mapValues_mapValues, hvalues]
  | list xs ih =>
    rw [plain, plainElems_eq, toJson, toJson, elemsToJson_eq, elemsToJson_eq, Json.plain,
      Json.plainElems_eq, List.map_map, List.map_map]
    exact congrArg Json.arr (List.map_congr_left ih)

/-- Signs of zeros may be dropped before `d` is put in normal form, or after. -/
theorem normalize_plain (d : Datum.Raw) : d.plain.normalize = d.normalize.plain := by
  induction d with
  | null | int | bool | str => rfl
  | long n => by_cases h : IsShort n <;> simp [plain, normalize, h]
  | double x => by_cases h : x.IsFinite <;> simp [plain, normalize, Binary64.isFinite_plain, h]
  | map es ih =>
    have hvalues : Members.mapValues (fun d => d.plain.normalize) es =
        Members.mapValues (fun d => d.normalize.plain) es := Members.mapValues_congr ih
    rw [plain, normalize, normalize, plain, plainEntries_eq, plainEntries_eq, normalizeEntries_eq,
      normalizeEntries_eq, Members.mapValues_mapValues, Members.mapValues_mapValues, hvalues]
  | list xs ih =>
    rw [plain, normalize, normalize, plain, plainElems_eq, plainElems_eq, normalizeElems_eq,
      normalizeElems_eq, List.map_map, List.map_map]
    exact congrArg Raw.list (List.map_congr_left ih)

/-! ### The laws of equality -/

/-- The kinds of values, one for each constructor, without what the value holds. -/
inductive Kind where
  | null
  | int
  | long
  | double
  | bool
  | str
  | map
  | list
  deriving DecidableEq

/-- The kind of a value, which is its constructor. -/
def kind : Datum.Raw → Kind
  | .null => .null
  | .int _ => .int
  | .long _ => .long
  | .double _ => .double
  | .bool _ => .bool
  | .str _ => .str
  | .map _ => .map
  | .list _ => .list

/-- The kind of `d` does not depend on the signs of its zeros. -/
theorem kind_plain (d : Datum.Raw) : d.plain.kind = d.kind := by cases d <;> rfl

/-- The normal form of `d` has no NaN inside, since it has no double that is not finite. -/
theorem nanFree_normalize {d : Datum.Raw} (h : d.WellKeyed) : d.normalize.NaNFree := by
  have hfinite := (canonical_iff_everywhere (wellKeyed_normalize h)).1 d.canonical_normalize
  intro path e he hnan
  cases e with
  | double x =>
    have hx : x.IsFinite := not_not.1 (hfinite path _ he).2
    have hnot : x.isNaN = false := Binary64.isNaN_of_isFinite hx
    rw [IsNaN, hnot] at hnan
    cases hnan
  | null | int | long | bool | str | map | list => exact hnan

variable {a b c : Datum.Raw}

/-- **Symmetry.**  If `a` equals `b` then `b` equals `a`, for the right side of `same_iff` is
    symmetric. -/
theorem symm_of_same (ha : a.WellKeyed) (hb : b.WellKeyed) (h : a.same b = true) :
    b.same a = true := by
  obtain ⟨hplain, hnan⟩ := (same_iff ha).1 h
  have hnan' : b.NaNFree := by rwa [← nanFree_plain, ← hplain, nanFree_plain]
  exact (same_iff hb).2 ⟨hplain.symm, hnan'⟩

/-- **Transitivity.**  If `a` equals `b` and `b` equals `c`, then `a` equals `c`. -/
theorem trans_of_same (ha : a.WellKeyed) (hb : b.WellKeyed) (h : a.same b = true)
    (h' : b.same c = true) : a.same c = true := by
  obtain ⟨hplain, hnan⟩ := (same_iff ha).1 h
  exact (same_iff ha).2 ⟨hplain.trans ((same_iff hb).1 h').1, hnan⟩

/-- **Reflexivity.**  A value `a` equals itself exactly if no path leads to a NaN. -/
theorem same_self_iff (ha : a.WellKeyed) :
    a.same a = true ↔ ∀ path x, a.at? path = some (.double x) → x.isNaN = false := by
  rw [same_iff ha, and_iff_right rfl]
  constructor
  · intro h path x hx
    exact Bool.eq_false_iff.2 (h path _ hx)
  · intro h path e he hnan
    cases e with
    | double x => exact Bool.false_ne_true ((h path x he).symm.trans hnan)
    | null | int | long | bool | str | map | list => exact hnan

/-- Equal values have the same paths, and the values at the end of each `path` are of one `kind`. -/
theorem kind_at?_eq_of_same (ha : a.WellKeyed) (h : a.same b = true) (path : List Step) :
    (a.at? path).map kind = (b.at? path).map kind := by
  have hkind : kind ∘ plain = kind := funext kind_plain
  have hplain : (a.at? path).map plain = (b.at? path).map plain := by
    rw [← at?_of_child? child?_plain, ((same_iff ha).1 h).1, at?_of_child? child?_plain]
  rw [← hkind, ← Option.map_map, ← Option.map_map, hplain]

/-- Equal values `a` and `b` have the same estimate, so that neither is oversized without the
    other. -/
theorem size_eq_of_same (ha : a.WellKeyed) (h : a.same b = true) : a.size = b.size := by
  rw [← size_plain a, ((same_iff ha).1 h).1, size_plain]

/-- Equal values `a` and `b` are written as equal trees, equality of trees being up to the signs of
    zeros too. -/
theorem same_toJson_of_same (ha : a.WellKeyed) (h : a.same b = true) :
    a.toJson.same b.toJson = true := by
  rw [Json.same_iff, ← toJson_plain, ((same_iff ha).1 h).1, toJson_plain]

/-- Equal values `a` and `b` have equal normal forms, so that they stay equal when both make the
    trip over JSON. -/
theorem same_normalize_of_same (ha : a.WellKeyed) (h : a.same b = true) :
    a.normalize.same b.normalize = true := by
  refine (same_iff (wellKeyed_normalize ha)).2 ⟨?_, nanFree_normalize ha⟩
  rw [← normalize_plain, ((same_iff ha).1 h).1, normalize_plain]

end Datum.Raw

end FaultAction
