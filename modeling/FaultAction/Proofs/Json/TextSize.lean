import FaultAction.Number.Text
import FaultAction.Json
import FaultAction.Proofs.Json.Basic
import Mathlib.Algebra.BigOperators.Group.List.Basic
import Mathlib.Algebra.GroupWithZero.Nat
import Mathlib.Data.String.Basic

namespace FaultAction

/-!
# JSON texts — their size

The size of the text of a tree is the number of its bytes in UTF-8:

* `Layout.three_le_length_finite` — whatever the layout, a number takes at least three characters:
  positional notation has a digit on both sides of the point, and the other one has an `e` between a
  digit and an exponent;
* `textSize_arr`, `textSize_obj` — brackets and commas, besides what is in them;
* `utf8ByteSize_add_two_le`      — a string is no shorter for its escapes, and has two quotes;
* `Reordered`                    — the same tree with the members of its objects in another order;
* `Reordered.textSize_eq`        — which does not change the size.
-/

/-! ### Floating point texts -/

/-- The decimal `c * 10 ^ k` has a digit, even if all of its digits are zeros. -/
theorem Scientific.digits_ofGrid_ne_nil (c : Nat) (k : Int) : (ofGrid c k).digits ≠ [] := by
  simp only [ofGrid]
  split
  · simp
  · next hkept => exact hkept

/-- The shortest decimal of any `x` has a digit. -/
theorem Binary64.digits_shortest_ne_nil (p : Precision) (tie : Tie) (x : Binary64) :
    (x.shortest p tie).digits ≠ [] := by
  unfold shortest
  split
  · simp
  · exact Scientific.digits_ofGrid_ne_nil _ _

namespace Layout

variable {d : Scientific}

/-- The decimal `d` without an exponent has a digit, a point, and a digit, in each of the three
    places where the point can be. -/
theorem three_le_length_positional (h : d.digits ≠ []) : 3 ≤ (positional d).length := by
  have hpos : 0 < d.digits.length := List.length_pos_iff.2 h
  unfold positional
  split
  · simp
    omega
  · simp only
    split
    · simp
      omega
    · simp
      omega

/-- The decimal `d` with an exponent has a digit, an `e`, and a digit of the exponent. -/
theorem three_le_length_exponential (l : Layout) (h : d.digits ≠ []) :
    3 ≤ (l.exponential d).length := by
  have hpos : 0 < d.digits.length := List.length_pos_iff.2 h
  have hexponent : 0 < (Decimal.digits d.exponent.natAbs).length := Nat.length_toDigits_pos
  simp only [exponential, List.length_append, List.length_take, List.length_singleton]
  omega

/-- A finite number takes at least three characters in any layout `l`. -/
theorem three_le_length_finite (l : Layout) (x : Binary64) : 3 ≤ (l.finite x).length := by
  have hdigits := x.digits_shortest_ne_nil l.precision l.tie
  have hplace : 3 ≤ (l.place (x.shortest l.precision l.tie)).length := by
    unfold place
    split
    · exact three_le_length_positional hdigits
    · exact three_le_length_exponential l hdigits
  unfold finite
  rw [List.length_append]
  omega

end Layout

/-! ### Sizes -/

namespace Json

open String (utf8Len)

/-- The bytes of the text of the tree `j`. -/
def textSize (j : Json) : Nat := j.text.utf8ByteSize

/-- The bytes of the string `s` in a tree, with its quotes and escapes. -/
def stringSize (s : String) : Nat := utf8Len (stringChars s)

/-- The bytes of the member `m`: its name, a colon, and its tree. -/
def memberSize (m : String × Json) : Nat := stringSize m.1 + 1 + m.2.textSize

/-- The size of the text of `j` is that of its characters, one by one. -/
theorem textSize_eq (j : Json) : j.textSize = utf8Len j.chars := String.utf8ByteSize_ofList j.chars

/-! ### Characters -/

/-- An ASCII character `c`, such as a bracket, takes one byte. -/
theorem utf8Len_cons_ascii {c : Char} (h : c.val ≤ 127) (cs : List Char) :
    utf8Len (c :: cs) = utf8Len cs + 1 := by
  rw [String.utf8Len_cons, Char.utf8Size_eq_one_iff.2 h]

/-- Every character of `cs` takes at least a byte. -/
theorem length_le_utf8Len (cs : List Char) : cs.length ≤ utf8Len cs := by
  induction cs with
  | nil => simp
  | cons c cs ih =>
    have hpos := c.utf8Size_pos
    simp only [List.length_cons, String.utf8Len_cons]
    omega

/-- The number `n` takes at least a byte for each of its characters. -/
theorem length_chars_le_textSize (n : Number) : n.chars.length ≤ (Json.num n).textSize := by
  rw [textSize_eq]
  exact length_le_utf8Len n.chars

/-- The character `c` takes no fewer bytes for being escaped. -/
theorem utf8Size_le_escaped (c : Char) : c.utf8Size ≤ utf8Len (escaped c) := by
  unfold escaped
  -- the two-letter escapes stand for one byte each
  iterate 7 (split; next h => subst h; decide)
  split
  · -- six letters, which is more than any character takes
    have hsix : (['\\', 'u'] ++ Text.hexPadded 4 c.toNat).length = 6 := by simp [Text.hexPadded]
    have hlength := length_le_utf8Len (['\\', 'u'] ++ Text.hexPadded 4 c.toNat)
    have hfour := c.utf8Size_le_four
    omega
  · simp

/-- A string `s` takes at least its own bytes in a tree, and two more for the quotes. -/
theorem utf8ByteSize_add_two_le (s : String) : s.utf8ByteSize + 2 ≤ stringSize s := by
  have hescaped : ∀ cs : List Char, utf8Len cs ≤ utf8Len (cs.flatMap escaped) := by
    intro cs
    induction cs with
    | nil => simp
    | cons c cs ih =>
      have hc := utf8Size_le_escaped c
      simp only [List.flatMap_cons, String.utf8Len_cons, String.utf8Len_append]
      omega
  have hs := hescaped s.toList
  rw [String.utf8Len_toList] at hs
  simp (disch := decide) only [stringSize, stringChars, String.utf8Len_append,
    utf8Len_cons_ascii, String.utf8Len_nil]
  omega

/-! ### Arrays and objects -/

/-- Further elements `xs` take their own texts and a comma each. -/
theorem utf8Len_charsAfterComma (xs : List Json) :
    utf8Len (charsAfterComma xs) = (xs.map textSize).sum + xs.length := by
  induction xs with
  | nil => rfl
  | cons x xs ih =>
    simp (disch := decide) only [charsAfterComma, utf8Len_cons_ascii, String.utf8Len_append,
      String.utf8Len_nil, ih, textSize_eq, List.map_cons, List.sum_cons, List.length_cons]
    omega

/-- Further members `ms` take their own texts and a comma each. -/
theorem utf8Len_memberCharsAfterComma (ms : List (String × Json)) :
    utf8Len (memberCharsAfterComma ms) = (ms.map memberSize).sum + ms.length := by
  induction ms with
  | nil => rfl
  | cons m ms ih =>
    obtain ⟨k, v⟩ := m
    simp (disch := decide) only [memberCharsAfterComma, utf8Len_cons_ascii,
      String.utf8Len_append, String.utf8Len_nil, ih, memberSize, stringSize, textSize_eq,
      List.map_cons, List.sum_cons, List.length_cons]
    omega

/-- An array takes two brackets, its elements `xs`, and a comma between any two. -/
theorem textSize_arr (xs : List Json) :
    (Json.arr xs).textSize = 2 + (xs.map textSize).sum + (xs.length - 1) := by
  rw [textSize_eq]
  cases xs with
  | nil => rfl
  | cons x xs =>
    simp (disch := decide) only [chars, utf8Len_cons_ascii, String.utf8Len_append,
      String.utf8Len_nil, utf8Len_charsAfterComma, textSize_eq x, List.map_cons, List.sum_cons,
      List.length_cons]
    omega

/-- An object takes two braces, its members `ms`, and a comma between any two. -/
theorem textSize_obj (ms : List (String × Json)) :
    (Json.obj ms).textSize = 2 + (ms.map memberSize).sum + (ms.length - 1) := by
  rw [textSize_eq]
  cases ms with
  | nil => rfl
  | cons m ms =>
    obtain ⟨k, v⟩ := m
    simp (disch := decide) only [chars, utf8Len_cons_ascii, String.utf8Len_append,
      String.utf8Len_nil, utf8Len_memberCharsAfterComma, memberSize, stringSize, textSize_eq v,
      List.map_cons, List.sum_cons, List.length_cons]
    omega

/-! ### Order of members -/

/-- The same tree with the members of its objects, at any depth, in another order. -/
inductive Reordered : Json → Json → Prop
  | refl (j : Json) : Reordered j j
  | trans {i j k : Json} : Reordered i j → Reordered j k → Reordered i k
  | obj {ms ns : List (String × Json)} : ms.Perm ns → Reordered (.obj ms) (.obj ns)
  | member {x y : Json} (before : List (String × Json)) (name : String)
      (after : List (String × Json)) : Reordered x y →
      Reordered (.obj (before ++ (name, x) :: after)) (.obj (before ++ (name, y) :: after))
  | elem {x y : Json} (before after : List Json) : Reordered x y →
      Reordered (.arr (before ++ x :: after)) (.arr (before ++ y :: after))

/-- **Order does not matter.**  Trees that are `Reordered` have texts of one size. -/
theorem Reordered.textSize_eq {i j : Json} (h : Reordered i j) : i.textSize = j.textSize := by
  -- an object counts its members by a sum, whatever their order
  induction h with
  | refl j => rfl
  | trans _ _ ih ih' => exact ih.trans ih'
  | obj hperm => rw [textSize_obj, textSize_obj, (hperm.map memberSize).sum_eq, hperm.length_eq]
  | member before name after _ ih => simp [textSize_obj, memberSize, ih]
  | elem before after _ ih => simp [textSize_arr, ih]

end Json

end FaultAction
