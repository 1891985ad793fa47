import FaultAction.Proofs.Json.TextSize
import FaultAction.Proofs.State.Conversion
import FaultAction.Proofs.Text.Basic

namespace FaultAction

/-!
# The state of an action — its estimate and its text

The estimate of a value may be larger than its text: an integer of one digit counts four bytes, and
a double of three characters eight.  What such a value lacks is made up by the commas, brackets
and names around it:

* `Datum.Raw.Covered`             — a value is short of half its estimate by one byte at most;
* `Datum.Raw.covered_of_canonical` — all canonical values are;
* `Datum.Raw.entriesSize_add_two_le`, `Datum.Raw.elemsSize_add_two_le` — maps and lists of such
  values are short of nothing;
* `ActionState.size_lt_twice_text` — so the estimate of an encoded state is below twice the size of
  its text.
-/

namespace Datum.Raw

/-- With one more byte, the text of `d` is at least half as large as the estimate of `d`. -/
def Covered (d : Datum.Raw) : Prop := d.size ≤ 2 * (d.toJson.textSize + 1)

/-! ### Numbers -/

/-- The text of an integer `n` takes a byte for each digit of its absolute value. -/
theorem length_digits_le_textSize (n : Json.Integer) :
    (Decimal.digits n.val.natAbs).length ≤ (Json.int n).textSize :=
  (Decimal.length_digits_le_signed n.val).trans (Json.length_chars_le_textSize (.int n))

/-- A 32-bit integer `n` is `Covered`, for four bytes are made up by its one digit and the byte
    more. -/
theorem covered_int (n : Int32) : Covered (.int n) := by
  have hdigit : 0 < (Decimal.digits (Json.Integer.ofInt32 n).val.natAbs).length :=
    Nat.length_toDigits_pos
  have htext := length_digits_le_textSize (.ofInt32 n)
  simp only [Covered, size, toJson]
  omega

/-- A 64-bit integer `n` that does not fit 32 bits is `Covered`, for it has three digits and
    more. -/
theorem covered_long {n : Int64} (h : ¬IsShort n) : Covered (.long n) := by
  have hdigits : 2 < (Decimal.digits (Json.Integer.ofInt64 n).val.natAbs).length := by
    -- two digits do not reach beyond 99
    rw [← Nat.not_le, Nat.length_toDigits_le_iff (by decide) (by decide)]
    have hval : (Json.Integer.ofInt64 n).val = n.toInt := rfl
    unfold IsShort at h
    omega
  have htext := length_digits_le_textSize (.ofInt64 n)
  simp only [Covered, size, toJson]
  omega

/-- A finite double `x` is `Covered`, for its text takes three characters. -/
theorem covered_double {x : Binary64} (h : x.IsFinite) : Covered (.double x) := by
  have htree : (Datum.Raw.double x).toJson = .num (.float x h) := by
    simp [toJson, Json.double, h]
  have hthree : 3 ≤ (Json.Number.float x h).chars.length :=
    Layout.jsonNumber.three_le_length_finite x
  have htext := Json.length_chars_le_textSize (.float x h)
  rw [Covered, size, htree]
  omega

/-! ### Maps and lists -/

/-- The colon and the quotes of each name, and the comma, make up for what each of the values in
    `es` lacks. -/
theorem entriesSize_le {es : List (String × Datum.Raw)} (h : ∀ e ∈ es, e.2.Covered) :
    entriesSize es ≤ 2 * ((entriesToJson es).map Json.memberSize).sum := by
  -- a name counts its bytes in the estimate, and two quotes and a colon more in the text
  induction es with
  | nil => simp [entriesSize]
  | cons e es ih =>
    obtain ⟨k, d⟩ := e
    have hd : d.Covered := h (k, d) (by simp)
    have hes := ih (fun e he => h e (by simp [he]))
    have hk := Json.utf8ByteSize_add_two_le k
    unfold Covered at hd
    simp only [entriesSize, entriesToJson, List.map_cons, List.sum_cons, Json.memberSize]
    omega

/-- The comma of each element of `xs` makes up for what the element lacks. -/
theorem elemsSize_le {xs : List Datum.Raw} (h : ∀ x ∈ xs, x.Covered) :
    elemsSize xs ≤ 2 * (((elemsToJson xs).map Json.textSize).sum + (elemsToJson xs).length) := by
  induction xs with
  | nil => simp [elemsSize]
  | cons x xs ih =>
    have hx : x.Covered := h x (by simp)
    have hxs := ih (fun y hy => h y (by simp [hy]))
    -- the element lacks two bytes of the estimate at most, which is what a comma is worth
    unfold Covered at hx
    simp only [elemsSize, elemsToJson, List.map_cons, List.sum_cons, List.length_cons]
    omega

/-- The braces of a map of the entries `es` are left over, so the map itself lacks nothing. -/
theorem entriesSize_add_two_le {es : List (String × Datum.Raw)} (h : ∀ e ∈ es, e.2.Covered) :
    entriesSize es + 2 ≤ 2 * (Json.obj (entriesToJson es)).textSize := by
  have hes := entriesSize_le h
  rw [Json.textSize_obj]
  omega

/-- Of the brackets of a list one makes up for the comma that the last element of `xs` has not. -/
theorem elemsSize_add_two_le {xs : List Datum.Raw} (h : ∀ x ∈ xs, x.Covered) :
    elemsSize xs + 2 ≤ 2 * (Json.arr (elemsToJson xs)).textSize := by
  have hxs := elemsSize_le h
  rw [Json.textSize_arr]
  omega

/-! ### All values -/

/-- **Values.**  A `Canonical` value is short of half its estimate by one byte at most. -/
theorem covered_of_canonical {d : Datum.Raw} (h : d.Canonical) : d.Covered := by
  induction d with
  | null => simp [Covered, size]; omega
  | int n => exact covered_int n
  | long n => exact covered_long h
  | double x => exact covered_double h
  | bool b => simp [Covered, size]; omega
  -- a string lacks nothing: it has two quotes more than its bytes
  | str s =>
    have htext : (Datum.Raw.str s).toJson.textSize = Json.stringSize s := by
      rw [Json.textSize_eq]
      rfl
    have hs := Json.utf8ByteSize_add_two_le s
    rw [Covered, size, htext]
    omega
  | map es ih =>
    have hes := entriesSize_add_two_le (fun e he => ih e he (entriesCanonical_iff.1 h e he))
    simp only [Covered, size, toJson]
    omega
  | list xs ih =>
    have hxs := elemsSize_add_two_le (fun x hx => ih x hx (elemsCanonical_iff.1 h x hx))
    simp only [Covered, size, toJson]
    omega

end Datum.Raw

/-! ### States -/

namespace ActionState

variable {s : ActionState}

/-- The estimate of a state `s` is that of the map of its entries. -/
theorem size_eq_entriesSize (s : ActionState) :
    s.size = Datum.Raw.entriesSize (s.entries.entries.mapValues Datum.raw) := by
  unfold size
  induction s.entries.entries with
  | nil => rfl
  | cons e es ih =>
    rw [List.foldr_cons, ih]
    rfl

/-- A state `s` is written as the map of its entries, in the order in which it keeps them. -/
theorem write_eq (s : ActionState) :
    Wire.write s = .obj (Datum.Raw.entriesToJson (s.entries.entries.mapValues Datum.raw)) := by
  rw [Datum.Raw.entriesToJson_eq, Members.mapValues_mapValues]
  rfl

/-- **States.**  The estimate of a `Canonical` state is below twice the size of its text, whatever
    the order of the members in the text, `j`. -/
theorem size_lt_twice_text (h : s.Canonical) {j : Json} (hj : Json.Reordered (Wire.write s) j) :
    s.size < 2 * j.text.utf8ByteSize := by
  have hcovered : ∀ e ∈ s.entries.entries.mapValues Datum.raw, e.2.Covered := by
    intro e he
    obtain ⟨e', he', rfl⟩ := List.mem_map.1 he
    exact Datum.Raw.covered_of_canonical (h e' he')
  have hsize := Datum.Raw.entriesSize_add_two_le hcovered
  rw [← size_eq_entriesSize, ← write_eq, hj.textSize_eq, Json.textSize] at hsize
  omega

end ActionState

end FaultAction
