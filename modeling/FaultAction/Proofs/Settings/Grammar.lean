import FaultAction.Number.Text
import FaultAction.Settings
import FaultAction.Proofs.Text.Basic
import Mathlib.Data.List.Induction
import Mathlib.Data.Nat.Digits.Defs

namespace FaultAction

/-!
# Settings — the texts of a limit

The variable of the settings holds the limit as a text, and so its grammar is that of natural
numbers, said without the way in which the readers compute:

* `Decimal.Denotes`         — ASCII digits stand for the sum of their values by powers of ten;
* `Decimal.IsUnsigned`      — such digits after an optional plus sign;
* `unsigned?_eq_some_iff`   — the reader takes exactly these texts, up to its bound;
* `isUnsigned_digits`       — the digits that are written for a number are among them;
* `IsLimit`                 — the texts that are limits: digits below `2 ^ 64`, perhaps after a plus
  sign, with white space around them;
* `ofVariable_of_isLimit`   — such a text is the limit, without a word in the log;
* `ofVariable_of_malformed` — any other text is ignored, with a warning that quotes it;
* `ofVariable_grammar`      — hence a text is taken without a warning exactly if it is a limit.
-/

/-! ### Natural numbers -/

namespace Decimal

/-- The value of the ASCII digit `c`, by its code point. -/
def digitValue (c : Char) : Nat := c.toNat - 48

/-- The characters `ds` are one or more ASCII digits, the last one of which counts ones, and stand
    for the number `n`. -/
structure Denotes (ds : List Char) (n : Nat) : Prop where
  ne_nil : ds ≠ []
  isDigit : ∀ c ∈ ds, c.isDigit = true
  ofDigits : Nat.ofDigits 10 (ds.reverse.map digitValue) = n

/-- The text `cs` consists of digits that stand for `n`, after an optional plus sign. -/
def IsUnsigned (cs : List Char) (n : Nat) : Prop :=
  ∃ sign ds, cs = sign ++ ds ∧ (sign = [] ∨ sign = ['+']) ∧ Denotes ds n

/-! ### Digits -/

/-- The number `value ds`, which the reader computes from the left, is the sum of the digits by
    powers of ten, with the last digit counting ones. -/
theorem value_eq_ofDigits (ds : List Char) :
    value ds = Nat.ofDigits 10 (ds.reverse.map digitValue) := by
  induction ds using List.reverseRecOn with
  | nil => rfl
  | append_singleton ds c ih =>
    have hlast : value (ds ++ [c]) = 10 * value ds + digitValue c := Nat.ofDigitChars_append 0
    rw [hlast, ih, List.reverse_append, List.reverse_singleton, List.singleton_append,
      List.map_cons, Nat.ofDigits_cons]
    exact Nat.add_comm _ _

/-- A text is read by `numeral?` exactly if it consists of digits, and then as the number `n` that
    they stand for. -/
theorem numeral?_eq_some_iff {cs : List Char} {n : Nat} : numeral? cs = some n ↔ Denotes cs n := by
  have hnumeral : isNumeral cs = true ↔ cs ≠ [] ∧ ∀ c ∈ cs, c.isDigit = true := by
    simp [isNumeral]
  unfold numeral?
  constructor
  · intro h
    split at h
    · next hcs =>
      obtain ⟨hne, hdigits⟩ := hnumeral.1 hcs
      refine ⟨hne, hdigits, ?_⟩
      rw [← value_eq_ofDigits]
      exact Option.some.inj h
    · cases h
  · rintro ⟨hne, hdigits, hvalue⟩
    rw [if_pos (hnumeral.2 ⟨hne, hdigits⟩), value_eq_ofDigits, hvalue]

/-- The digits that are written for the number `n` stand for it. -/
theorem denotes_digits (n : Nat) : Denotes (digits n) n where
  ne_nil := Nat.toDigits_ne_nil
  isDigit _ hc := Nat.isDigit_of_mem_toDigits (by decide) (by decide) hc
  ofDigits := (value_eq_ofDigits _).symm.trans Nat.ofDigitChars_ten_toDigits

/-! ### Signs -/

/-- A plus sign is no digit, so digits `ds` do not begin with one. -/
theorem Denotes.ne_plus_cons {ds cs : List Char} {n : Nat} (h : Denotes ds n) : ds ≠ '+' :: cs := by
  rintro rfl
  have hplus : Char.isDigit '+' = true := h.isDigit '+' (by simp)
  exact absurd hplus (by decide)

/-- The written digits of the number `n` need no sign. -/
theorem isUnsigned_digits (n : Nat) : IsUnsigned (digits n) n :=
  ⟨[], digits n, rfl, .inl rfl, denotes_digits n⟩

/-- The text without the plus sign that it may begin with, as `unsigned?` reads it. -/
def afterPlus : List Char → List Char
  | '+' :: ds => ds
  | ds => ds

/-- The text `cs` is an unsigned number exactly if digits are left after an optional plus sign is
    taken off. -/
theorem isUnsigned_iff {cs : List Char} {n : Nat} : IsUnsigned cs n ↔ Denotes (afterPlus cs) n := by
  unfold afterPlus
  constructor
  · rintro ⟨sign, ds, rfl, rfl | rfl, hds⟩
    · -- without a sign, the digits do not begin with one
      split
      · next cs hcs => exact absurd hcs hds.ne_plus_cons
      · exact hds
    · exact hds
  · intro h
    split at h
    · next ds => exact ⟨['+'], ds, rfl, .inr rfl, h⟩
    · exact ⟨[], cs, rfl, .inl rfl, h⟩

/-- Neither the sign nor any digit of an unsigned number `cs` is white space, so none of it is
    trimmed. -/
theorem IsUnsigned.isBlank_eq_false {cs : List Char} {n : Nat} (h : IsUnsigned cs n) :
    ∀ c ∈ cs, Text.isBlank c = false := by
  obtain ⟨sign, ds, rfl, hsign, hds⟩ := h
  intro c hc
  rcases List.mem_append.1 hc with hc | hc
  · rcases hsign with rfl | rfl
    · cases hc
    · rw [List.mem_singleton.1 hc]
      decide
  · exact Text.isBlank_of_isDigit (hds.isDigit c hc)

/-- There is at least a digit in an unsigned number `cs`, so it is not empty. -/
theorem IsUnsigned.ne_nil {cs : List Char} {n : Nat} (h : IsUnsigned cs n) : cs ≠ [] := by
  obtain ⟨sign, ds, rfl, -, hds⟩ := h
  exact List.append_ne_nil_of_right_ne_nil sign hds.ne_nil

/-- **Natural numbers.**  The reader takes the digits of a number below its `bound`, after an
    optional plus sign, and nothing else. -/
theorem unsigned?_eq_some_iff {bound n : Nat} {cs : List Char} :
    unsigned? bound cs = some n ↔ IsUnsigned cs n ∧ n < bound := by
  -- the reader is `afterPlus`, then `numeral?`, then the bound
  have hread : unsigned? bound cs =
      (numeral? (afterPlus cs)).bind fun n => if n < bound then some n else none := rfl
  rw [hread, isUnsigned_iff, ← numeral?_eq_some_iff, Option.bind_eq_some_iff]
  constructor
  · rintro ⟨m, hm, hbound⟩
    split at hbound
    · next hlt =>
      cases hbound
      exact ⟨hm, hlt⟩
    · cases hbound
  · rintro ⟨hn, hlt⟩
    exact ⟨n, hn, if_pos hlt⟩

end Decimal

/-! ### Limits -/

namespace Settings

/-- The `text` is the number `kb` below `2 ^ 64`, perhaps after a plus sign, with white space around
    it. -/
def IsLimit (text : List Char) (kb : Nat) : Prop :=
  ∃ left core right, text = left ++ core ++ right ∧ (∀ c ∈ left ++ right, Text.isBlank c = true) ∧
    Decimal.IsUnsigned core kb ∧ kb < 2 ^ 64

/-- The warning about the text `raw` that is no limit, with the name of the variable written out. -/
theorem malformed_eq (raw : String) :
    Parameter.maxStateSizeKb.malformed raw =
      ⟨.warn, "ignoring malformed value " ++ Text.quoted raw ++
        " for ACTIONKIT_MAX_ACTION_STATE_SIZE_KB"⟩ := by
  have hname : " for " ++ Parameter.maxStateSizeKb.name =
      " for ACTIONKIT_MAX_ACTION_STATE_SIZE_KB" := by decide
  rw [Parameter.malformed, String.append_assoc, hname]

/-- A text is the limit `kb` exactly if the reader takes what `Text.trim` leaves of it. -/
theorem isLimit_iff {text : List Char} {kb : Nat} :
    IsLimit text kb ↔ Decimal.unsigned? UInt64.size (Text.trim text) = some kb := by
  rw [Decimal.unsigned?_eq_some_iff]
  constructor
  · -- trimming leaves the core, which has no white space at its ends
    rintro ⟨left, core, right, rfl, hblank, hcore, hlt⟩
    rw [Text.trim_surrounded hblank hcore.ne_nil hcore.isBlank_eq_false]
    exact ⟨hcore, hlt⟩
  · rintro ⟨hcore, hlt⟩
    obtain ⟨left, right, hblank, htext⟩ := Text.exists_trim text
    exact ⟨left, Text.trim text, right, htext.symm, hblank, hcore, hlt⟩

/-- A limit is taken from its text `raw`, and nothing is logged. -/
theorem ofVariable_of_isLimit {raw : String} {kb : Nat} (h : IsLimit raw.toList kb) :
    ofVariable (some raw) = ({ maxStateSizeKb := UInt64.ofNat kb }, []) := by
  simp only [ofVariable, Parameter.value, isLimit_iff.1 h]

/-- A limit `kb` fits a word of 64 bits, so nothing of it is cut off. -/
theorem IsLimit.toNat_ofNat {text : List Char} {kb : Nat} (h : IsLimit text kb) :
    (UInt64.ofNat kb).toNat = kb := by
  obtain ⟨-, -, -, -, -, -, hlt⟩ := h
  exact UInt64.toNat_ofNat_of_lt' hlt

/-- A text `raw` that is no limit leaves the limit at its default of 256, with a warning. -/
theorem ofVariable_of_malformed {raw : String} (h : ∀ kb, ¬IsLimit raw.toList kb) :
    ofVariable (some raw) =
      ({ maxStateSizeKb := 256 }, [Parameter.maxStateSizeKb.malformed raw]) := by
  have hnone : Decimal.unsigned? UInt64.size (Text.trim raw.toList) = none :=
    Option.eq_none_iff_forall_ne_some.2 (fun kb hkb => h kb (isLimit_iff.2 hkb))
  simp only [ofVariable, Parameter.value, hnone]

/-- If nothing is logged about the text `raw`, there is a limit in it. -/
theorem exists_isLimit {raw : String} (h : (ofVariable (some raw)).2 = []) :
    ∃ kb, IsLimit raw.toList kb := by
  by_contra hnone
  rw [ofVariable_of_malformed (not_exists.1 hnone)] at h
  cases h

/-- **The grammar of the limit.**  A text gives a limit without a warning exactly if it is one:
    digits that stand for a number below `2 ^ 64`, perhaps after a plus sign, with white space
    around them.  Any other text counts as no limit, which is 256, with one warning that quotes it;
    and so does a variable that is not set, without a warning.  In particular every number below
    `2 ^ 64` can be set by its `digits`. -/
theorem ofVariable_grammar :
    (∀ (raw : String) (kb : Nat),
      ((ofVariable (some raw)).1.maxStateSizeKb.toNat = kb ∧ (ofVariable (some raw)).2 = []) ↔
        IsLimit raw.toList kb) ∧
    (∀ raw : String, (∀ kb, ¬IsLimit raw.toList kb) →
      ofVariable (some raw) =
        ({ maxStateSizeKb := 256 },
          [⟨.warn, "ignoring malformed value " ++ Text.quoted raw ++
            " for ACTIONKIT_MAX_ACTION_STATE_SIZE_KB"⟩])) ∧
    ofVariable none = ({ maxStateSizeKb := 256 }, []) ∧
    ∀ (kb : Nat) (left right : List Char), kb < 2 ^ 64 →
      (∀ c ∈ left ++ right, Text.isBlank c = true) →
      ofVariable (some (String.ofList (left ++ Decimal.digits kb ++ right))) =
        ({ maxStateSizeKb := UInt64.ofNat kb }, []) := by
  refine ⟨?_, ?_, rfl, ?_⟩
  · intro raw kb
    constructor
    · rintro ⟨hkb, hlog⟩
      -- a text that gives a limit without a warning has one in it, and it can have no other
      obtain ⟨kb', hlimit⟩ := exists_isLimit hlog
      rw [ofVariable_of_isLimit hlimit, hlimit.toNat_ofNat] at hkb
      rwa [← hkb]
    · intro hlimit
      rw [ofVariable_of_isLimit hlimit]
      exact ⟨hlimit.toNat_ofNat, rfl⟩
  · intro raw hnone
    rw [← malformed_eq]
    exact ofVariable_of_malformed hnone
  · intro kb left right hlt hblank
    apply ofVariable_of_isLimit
    refine ⟨left, Decimal.digits kb, right, ?_, hblank, Decimal.isUnsigned_digits kb, hlt⟩
    simp

/-- The greatest limit in a line of its own is taken, and a zero with a minus sign is not. -/
theorem ofVariable_grammar_bounds :
    ofVariable (some (String.ofList ([' '] ++ Decimal.digits 18446744073709551615 ++ ['\n']))) =
      ({ maxStateSizeKb := 18446744073709551615 }, []) ∧
    ofVariable (some "-0") =
      ({ maxStateSizeKb := 256 },
        [⟨.warn, "ignoring malformed value \"-0\" for ACTIONKIT_MAX_ACTION_STATE_SIZE_KB"⟩]) := by
  obtain ⟨hiff, hmalformed, -, hdigits⟩ := ofVariable_grammar
  constructor
  · exact hdigits 18446744073709551615 [' '] ['\n'] (by decide) (List.all_eq_true.1 (by decide))
  · -- the text leaves a warning, so it is no limit
    have hnone : ∀ kb, ¬IsLimit "-0".toList kb := by
      intro kb hlimit
      have hlog : (ofVariable (some "-0")).2 = [] := ((hiff "-0" kb).2 hlimit).2
      exact absurd hlog (by decide)
    rw [hmalformed "-0" hnone]
    decide

end Settings

end FaultAction
