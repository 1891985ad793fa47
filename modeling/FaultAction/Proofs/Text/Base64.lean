import FaultAction.Proofs.Outcome
import FaultAction.Text.Base64

namespace FaultAction.Base64

/-!
# Base64 — the texts that are decoded

Bytes and texts meet in the values of the symbols.  Bytes are regrouped into values of six bits, and
a text is the symbols of values with padding behind them:

* `sextets`                 — bytes as values of six bits;
* `padding`                 — what fills symbols up to a multiple of four;
* `Canonical`               — the values that bytes are regrouped into;
* `encode_eq`               — bytes are encoded as the symbols of their sextets, with padding;
* `decode_eq_ok_iff_values` — what is decoded are the symbols of canonical values, with padding;
* `decode_eq_ok_iff`        — a text is decoded exactly to the bytes that it encodes.
-/

/-! ### Symbols -/

/-- The six bits `v` have a symbol that stands for them: all 64 of them are tried. -/
theorem value?_symbol {v : Nat} (h : v < 64) : value? (symbol v) = some v := by
  have hall : ∀ v, v < 64 → value? (symbol v) = some v := by decide
  exact hall v h

/-- A byte `b` that stands for a value `v` is the symbol of these six bits: all 256 bytes are
    tried. -/
theorem symbol_of_value? {b : UInt8} {v : Nat} (h : value? b = some v) : v < 64 ∧ symbol v = b := by
  have hall : ∀ n, n < 256 → (value? (UInt8.ofNat n)).all
      (fun v => v < 64 && symbol v == UInt8.ofNat n) = true := by decide +kernel
  have hb := hall b.toNat b.toNat_lt
  rw [UInt8.ofNat_toNat, h] at hb
  simpa using hb

/-- No symbol is the padding byte, because `pad` stands for no value. -/
theorem symbol_ne_pad {v : Nat} (h : v < 64) : symbol v ≠ pad := by
  intro hpad
  have hvalue : value? pad = some v := hpad ▸ value?_symbol h
  cases hvalue

/-- The symbols of the six-bit values `vs` stand for them, so `values` undoes `symbol` on a whole
    list. -/
theorem values_map_symbol {vs : List Nat} (h : ∀ v ∈ vs, v < 64) (offset : Nat) :
    values offset (vs.map symbol) = .ok vs := by
  induction vs generalizing offset with
  | nil => rfl
  | cons v vs ih =>
    obtain ⟨hv, hvs⟩ := List.forall_mem_cons.1 h
    rw [List.map_cons, values, value?_symbol hv]
    show (values (offset + 1) (vs.map symbol) >>= fun vs => .ok (v :: vs)) = _
    rw [ih hvs]
    rfl

/-- Bytes that stand for the values `vs` are the symbols of these, which then have six bits each. -/
theorem eq_map_symbol_of_values {offset : Nat} {bs : List UInt8} {vs : List Nat}
    (h : values offset bs = .ok vs) : (∀ v ∈ vs, v < 64) ∧ bs = vs.map symbol := by
  induction bs generalizing offset vs with
  | nil =>
    cases h
    exact ⟨(fun _ hv => nomatch hv), rfl⟩
  | cons b bs ih =>
    rw [values] at h
    -- a byte that is no symbol has no value, so there are no values at all
    cases hb : value? b with
    | none =>
      rw [hb] at h
      cases h
    | some v =>
      rw [hb] at h
      obtain ⟨rest, hrest, hcons⟩ := bind_eq_ok_iff.1 h
      cases hcons
      obtain ⟨hlt, heq⟩ := ih hrest
      obtain ⟨hv, hsymbol⟩ := symbol_of_value? hb
      exact ⟨List.forall_mem_cons.2 ⟨hv, hlt⟩, by rw [List.map_cons, hsymbol, heq]⟩

/-! ### Bytes as values of six bits -/

/-- The bytes as values of six bits, with zeros for the bits that the last value has too many. -/
def sextets : List UInt8 → List Nat
  | [] => []
  | [a] =>
    let n := a.toNat * 16
    [n / 64, n % 64]
  | [a, b] =>
    let n := (a.toNat * 256 + b.toNat) * 4
    [n / 4096, n / 64 % 64, n % 64]
  | a :: b :: c :: bytes =>
    let n := (a.toNat * 256 + b.toNat) * 256 + c.toNat
    n / 262144 :: n / 4096 % 64 :: n / 64 % 64 :: n % 64 :: sextets bytes

/-- What fills `count` symbols up to a multiple of four. -/
def padding (count : Nat) : List UInt8 := List.replicate ((4 - count % 4) % 4) pad

/-- The values `vs` are such as bytes are regrouped into: six bits each, one symbol at least for the
    rest of a byte, and zero in the bits that belong to no byte. -/
structure Canonical (vs : List Nat) : Prop where
  lt : ∀ v ∈ vs, v < 64
  count : vs.length % 4 ≠ 1
  unused : ∀ v, vs.getLast? = some v → v % unusedValues vs.length = 0

/-- Four more symbols need the same padding, since `count` is taken by its remainder. -/
theorem padding_add_four (count : Nat) : padding (count + 4) = padding count := by
  rw [padding, Nat.add_mod_right, padding]

/-- The bytes `bs` are encoded as the symbols of their `sextets`, with the `padding` of so many
    symbols. -/
theorem encode_eq (bs : List UInt8) :
    encode bs = (sextets bs).map symbol ++ padding (sextets bs).length := by
  induction bs using encode.induct with
  | case1 => rfl
  | case2 a => rfl
  | case3 a b => rfl
  | case4 a b c bytes ih =>
    rw [encode, sextets, ih]
    simp only [List.map_cons, List.length_cons, padding_add_four, List.cons_append]

/-- There are four `sextets` for every three bytes that have begun, less one for every byte that is
    missing. -/
theorem length_sextets (bs : List UInt8) :
    (sextets bs).length + (3 - bs.length % 3) % 3 = 4 * ((bs.length + 2) / 3) := by
  induction bs using encode.induct with
  | case1 => rfl
  | case2 a => simp [sextets]
  | case3 a b => simp [sextets]
  | case4 a b c bytes ih =>
    simp only [sextets, List.length_cons]
    omega

/-- Every byte that is missing from the last three of `bs` has its padding. -/
theorem padding_length_sextets (bs : List UInt8) :
    padding (sextets bs).length = List.replicate ((3 - bs.length % 3) % 3) pad := by
  have hlength := length_sextets bs
  have hcount : (4 - (sextets bs).length % 4) % 4 = (3 - bs.length % 3) % 3 := by
    -- at most two bytes are missing, so a remainder of four symbols tells how many
    have hmissing : (3 - bs.length % 3) % 3 < 3 := Nat.mod_lt _ (by decide)
    generalize (3 - bs.length % 3) % 3 = missing at hlength hmissing ⊢
    omega
  rw [padding, hcount]

/-- The text of `bs` has four symbols for every three bytes, and for what is left of them. -/
theorem length_encode (bs : List UInt8) : (encode bs).length = 4 * ((bs.length + 2) / 3) := by
  rw [encode_eq, List.length_append, List.length_map, padding_length_sextets,
    List.length_replicate, length_sextets]

/-- Each of the `sextets` has six bits, as it is a quotient or a remainder by 64. -/
theorem lt_of_mem_sextets (bs : List UInt8) : ∀ v ∈ sextets bs, v < 64 := by
  induction bs using encode.induct with
  | case1 => exact fun _ hv => nomatch hv
  | case2 a =>
    have ha := a.toNat_lt
    simp only [sextets, List.forall_mem_cons]
    exact ⟨by omega, by omega, fun _ hv => nomatch hv⟩
  | case3 a b =>
    have ha := a.toNat_lt
    have hb := b.toNat_lt
    simp only [sextets, List.forall_mem_cons]
    exact ⟨by omega, by omega, by omega, fun _ hv => nomatch hv⟩
  | case4 a b c bytes ih =>
    have ha := a.toNat_lt
    have hb := b.toNat_lt
    have hc := c.toNat_lt
    simp only [sextets, List.forall_mem_cons]
    exact ⟨by omega, by omega, by omega, by omega, ih⟩

/-- Four values in front of `vs` change nothing about the last one and its unused bits. -/
theorem canonical_cons_iff {a b c d : Nat} {vs : List Nat} :
    Canonical (a :: b :: c :: d :: vs) ↔
      (a < 64 ∧ b < 64 ∧ c < 64 ∧ d < 64) ∧ Canonical vs := by
  have hunused : unusedValues (vs.length + 4) = unusedValues vs.length := by
    rw [unusedValues, Nat.add_mod_right, unusedValues]
  constructor
  · intro h
    obtain ⟨ha, hb, hc, hd, hvs⟩ :
        a < 64 ∧ b < 64 ∧ c < 64 ∧ d < 64 ∧ ∀ v ∈ vs, v < 64 := by
      simpa only [List.forall_mem_cons] using h.lt
    have hcount : (vs.length + 4) % 4 ≠ 1 := h.count
    refine ⟨⟨ha, hb, hc, hd⟩, hvs, by omega, fun v hv => ?_⟩
    -- the last value is that of `vs`, unless `vs` is empty
    have hlast : (a :: b :: c :: d :: vs).getLast? = some v := by
      simp [List.getLast?_cons, hv]
    rw [← hunused]
    exact h.unused v hlast
  · rintro ⟨⟨ha, hb, hc, hd⟩, h⟩
    have hcount := h.count
    refine ⟨?_, ?_, fun v hv => ?_⟩
    · simp only [List.forall_mem_cons]
      exact ⟨ha, hb, hc, hd, h.lt⟩
    · show (vs.length + 4) % 4 ≠ 1
      omega
    · show v % unusedValues (vs.length + 4) = 0
      rw [hunused]
      cases hlast : vs.getLast? with
      | none =>
        -- without further values every bit of the last one is used
        rw [List.getLast?_eq_none_iff.1 hlast]
        exact Nat.mod_one v
      | some w =>
        have hw : w = v := by
          simpa [List.getLast?_cons, hlast] using hv
        exact hw ▸ h.unused w hlast

/-- The values that the bytes `bs` are regrouped into are `Canonical`. -/
theorem canonical_sextets (bs : List UInt8) : Canonical (sextets bs) := by
  induction bs using encode.induct with
  | case1 => exact ⟨(fun _ hv => nomatch hv), by decide, (fun _ hv => nomatch hv)⟩
  | case2 a =>
    refine ⟨lt_of_mem_sextets [a], by simp [sextets], fun v hv => ?_⟩
    -- the last value is four bits from the left, so its low four bits are zero
    cases hv
    show a.toNat * 16 % 64 % 16 = 0
    omega
  | case3 a b =>
    refine ⟨lt_of_mem_sextets [a, b], by simp [sextets], fun v hv => ?_⟩
    cases hv
    show (a.toNat * 256 + b.toNat) * 4 % 64 % 4 = 0
    omega
  | case4 a b c bytes ih =>
    have hlt := lt_of_mem_sextets (a :: b :: c :: bytes)
    rw [sextets] at hlt ⊢
    simp only [List.forall_mem_cons] at hlt
    obtain ⟨hw, hx, hy, hz, -⟩ := hlt
    exact canonical_cons_iff.2 ⟨⟨hw, hx, hy, hz⟩, ih⟩

/-! ### Regrouping there and back -/

/-- Regrouped into `sextets` and back by `bytesOf`, the bytes are as before. -/
theorem bytesOf_sextets (bs : List UInt8) : bytesOf (sextets bs) = bs := by
  induction bs using encode.induct with
  | case1 => rfl
  | case2 a =>
    have ha : (a.toNat * 16 / 64 * 64 + a.toNat * 16 % 64) / 16 = a.toNat := by omega
    rw [sextets, bytesOf, ha, UInt8.ofNat_toNat]
  | case3 a b =>
    have hb := b.toNat_lt
    simp only [sextets, bytesOf]
    -- the bytes are cut out of one number, four times as great as the two bytes joined
    generalize hn : (a.toNat * 256 + b.toNat) * 4 = n
    have hjoin : (n / 4096 * 64 + n / 64 % 64) * 64 + n % 64 = n := by omega
    have h₁ : n / 1024 = a.toNat := by omega
    have h₂ : n / 4 % 256 = b.toNat := by omega
    rw [hjoin, h₁, h₂, UInt8.ofNat_toNat, UInt8.ofNat_toNat]
  | case4 a b c bytes ih =>
    have hb := b.toNat_lt
    have hc := c.toNat_lt
    simp only [sextets, bytesOf, ih]
    -- the four values joined are the number that the three bytes are cut from
    generalize hn : (a.toNat * 256 + b.toNat) * 256 + c.toNat = n
    have hjoin :
        ((n / 262144 * 64 + n / 4096 % 64) * 64 + n / 64 % 64) * 64 + n % 64 = n := by omega
    have h₁ : n / 65536 = a.toNat := by omega
    have h₂ : n / 256 % 256 = b.toNat := by omega
    have h₃ : n % 256 = c.toNat := by omega
    rw [hjoin, h₁, h₂, h₃, UInt8.ofNat_toNat, UInt8.ofNat_toNat, UInt8.ofNat_toNat]

/-- Canonical values are as before when they are regrouped by `bytesOf` and back: no bits get lost,
    as the unused ones are zero. -/
theorem sextets_bytesOf {vs : List Nat} (h : Canonical vs) : sextets (bytesOf vs) = vs := by
  induction vs using bytesOf.induct with
  | case1 a b c d vs ih =>
    obtain ⟨⟨ha, hb, hc, hd⟩, hvs⟩ := canonical_cons_iff.1 h
    simp only [bytesOf, sextets, ih hvs]
    -- the bytes are cut from one number, and joining them gives it again
    generalize hn : ((a * 64 + b) * 64 + c) * 64 + d = n
    have h₁ : (UInt8.ofNat (n / 65536)).toNat = n / 65536 :=
      UInt8.toNat_ofNat_of_lt (show n / 65536 < 256 by omega)
    have h₂ : (UInt8.ofNat (n / 256 % 256)).toNat = n / 256 % 256 :=
      UInt8.toNat_ofNat_of_lt (show n / 256 % 256 < 256 by omega)
    have h₃ : (UInt8.ofNat (n % 256)).toNat = n % 256 :=
      UInt8.toNat_ofNat_of_lt (show n % 256 < 256 by omega)
    have hjoin : (n / 65536 * 256 + n / 256 % 256) * 256 + n % 256 = n := by omega
    have ha' : n / 262144 = a := by omega
    have hb' : n / 4096 % 64 = b := by omega
    have hc' : n / 64 % 64 = c := by omega
    have hd' : n % 64 = d := by omega
    rw [h₁, h₂, h₃, hjoin, ha', hb', hc', hd']
  | case2 a b c =>
    have hlt := h.lt
    simp only [List.forall_mem_cons] at hlt
    obtain ⟨ha, hb, hc, -⟩ := hlt
    -- two bytes have no place for the last two bits, which is why these must be zero
    have hunused : c % 4 = 0 := h.unused c rfl
    simp only [bytesOf, sextets]
    generalize hn : (a * 64 + b) * 64 + c = n
    have h₁ : (UInt8.ofNat (n / 1024)).toNat = n / 1024 :=
      UInt8.toNat_ofNat_of_lt (show n / 1024 < 256 by omega)
    have h₂ : (UInt8.ofNat (n / 4 % 256)).toNat = n / 4 % 256 :=
      UInt8.toNat_ofNat_of_lt (show n / 4 % 256 < 256 by omega)
    have hjoin : (n / 1024 * 256 + n / 4 % 256) * 4 = n := by omega
    have ha' : n / 4096 = a := by omega
    have hb' : n / 64 % 64 = b := by omega
    have hc' : n % 64 = c := by omega
    rw [h₁, h₂, hjoin, ha', hb', hc']
  | case3 a b =>
    have hlt := h.lt
    simp only [List.forall_mem_cons] at hlt
    obtain ⟨ha, hb, -⟩ := hlt
    have hunused : b % 16 = 0 := h.unused b rfl
    have h₁ : (UInt8.ofNat ((a * 64 + b) / 16)).toNat = (a * 64 + b) / 16 :=
      UInt8.toNat_ofNat_of_lt (show (a * 64 + b) / 16 < 256 by omega)
    have hjoin : (a * 64 + b) / 16 * 16 = a * 64 + b := by omega
    have ha' : (a * 64 + b) / 64 = a := by omega
    have hb' : (a * 64 + b) % 64 = b := by omega
    simp only [bytesOf, sextets, h₁, hjoin, ha', hb']
  | case4 vs h4 h3 h2 =>
    -- no bytes come of fewer than two values, and one value alone is not canonical
    rcases vs with _ | ⟨a, _ | ⟨b, _ | ⟨c, _ | ⟨d, vs⟩⟩⟩⟩
    · rfl
    · exact absurd rfl h.count
    · exact (h2 a b rfl).elim
    · exact (h3 a b c rfl).elim
    · exact (h4 a b c d vs rfl).elim

/-! ### Texts -/

/-- The `padding` consists of padding bytes and nothing else, so all of it is dropped from there
    on. -/
theorem dropWhile_padding (count : Nat) : (padding count).dropWhile (· ≠ pad) = padding count := by
  rw [padding]
  cases (4 - count % 4) % 4 <;> rfl

/-- The symbols of a text are what stands before its padding, since no symbol is `pad`. -/
theorem split_text {vs : List Nat} (h : ∀ v ∈ vs, v < 64) :
    (vs.map symbol ++ padding vs.length).takeWhile (· ≠ pad) = vs.map symbol ∧
      (vs.map symbol ++ padding vs.length).dropWhile (· ≠ pad) = padding vs.length := by
  have hsymbols : ∀ b ∈ vs.map symbol, decide (b ≠ pad) = true := by
    intro b hb
    obtain ⟨v, hv, rfl⟩ := List.mem_map.1 hb
    exact decide_eq_true (symbol_ne_pad (h v hv))
  have hdrop : (vs.map symbol ++ padding vs.length).dropWhile (· ≠ pad) = padding vs.length := by
    rw [List.dropWhile_append_of_pos hsymbols, dropWhile_padding]
  refine ⟨?_, hdrop⟩
  -- both parts together are the text, so the first is what is left of it
  have hwhole := List.takeWhile_append_dropWhile (p := (· ≠ pad))
    (l := vs.map symbol ++ padding vs.length)
  rw [hdrop] at hwhole
  exact List.append_cancel_right hwhole

/-- The symbols of canonical values are decoded if they have their padding: none of the checks of
    `decodeParts` fails. -/
theorem decodeParts_of_canonical {vs : List Nat} (h : Canonical vs) :
    decodeParts (vs.map symbol) (padding vs.length) = .ok (bytesOf vs) := by
  have hcount := h.count
  have hpad : (padding vs.length).any (· ≠ pad) = false := by simp [padding]
  have hlength : (padding vs.length).length = (4 - vs.length % 4) % 4 := List.length_replicate
  have hnil : padding vs.length ≠ [] → vs.length % 4 ≠ 0 := by
    intro hne h0
    rw [padding, h0] at hne
    exact hne rfl
  rw [decodeParts, values_map_symbol h.lt]
  show (if _ then _ else _) = _
  rw [List.length_map, hlength, hpad]
  -- neither is a byte misplaced nor the length wrong, which leaves the unused bits
  rw [if_neg, if_neg]
  · rw [List.getLast?_map]
    cases hlast : vs.getLast? with
    | none =>
      rw [List.getLast?_eq_none_iff.1 hlast]
      rfl
    | some v =>
      show (if v % unusedValues vs.length = 0 then _ else _) = _
      rw [if_pos (h.unused v hlast)]
  · omega
  · rintro (⟨hne, hbad⟩ | hbad)
    · have := hnil hne
      omega
    · cases hbad

/-- Symbols and padding that `decodeParts` takes are those of canonical values `vs`, one fact for
    each of its checks. -/
theorem exists_canonical_of_decodeParts {symbols rest bs : List UInt8}
    (h : decodeParts symbols rest = .ok bs) :
    ∃ vs, Canonical vs ∧ symbols = vs.map symbol ∧ rest = padding vs.length ∧ bytesOf vs = bs := by
  obtain ⟨vs, hvs, h⟩ := bind_eq_ok_iff.1 h
  obtain ⟨hlt, rfl⟩ := eq_map_symbol_of_values hvs
  simp only [List.length_map, List.getLast?_map] at h
  split at h
  · cases h
  · next hplaced =>
    split at h
    · cases h
    · next hmultiple =>
      obtain ⟨hplaced, hall⟩ := not_or.1 hplaced
      have hbounds : rest.length = 0 ∨
          2 ≤ vs.length % 4 ∧ vs.length % 4 + rest.length ≤ 4 := by
        by_cases hnil : rest = []
        · exact .inl (List.length_eq_zero_iff.2 hnil)
        · have hbad : ¬(vs.length % 4 < 2 ∨ 4 < vs.length % 4 + rest.length) :=
            fun hbad => hplaced ⟨hnil, hbad⟩
          omega
      have hcount : vs.length % 4 ≠ 1 := by omega
      -- the padding is as long as it has to be, and has no other byte
      have hlength : rest.length = (4 - vs.length % 4) % 4 := by omega
      have hrest : rest = padding vs.length := by
        refine List.eq_replicate_iff.2 ⟨hlength, fun b hb => ?_⟩
        by_cases hne : b = pad
        · exact hne
        · exact absurd (List.any_eq_true.2 ⟨b, hb, decide_eq_true hne⟩) hall
      cases hlast : vs.getLast? with
      | none =>
        rw [hlast] at h
        cases h
        have hnil : vs = [] := List.getLast?_eq_none_iff.1 hlast
        subst hnil
        exact ⟨[], ⟨hlt, hcount, fun v hv => nomatch hv⟩, rfl, hrest, rfl⟩
      | some v =>
        rw [hlast] at h
        simp only [Option.map_some] at h
        split at h
        · next hunused =>
          cases h
          refine ⟨vs, ⟨hlt, hcount, fun w hw => ?_⟩, rfl, hrest, rfl⟩
          rw [hlast] at hw
          cases hw
          exact hunused
        · cases h

/-- A text is decoded to `bs` exactly if it is the symbols of canonical values with their padding,
    and these values are regrouped into `bs`. -/
theorem decode_eq_ok_iff_values {text bs : List UInt8} :
    decode text = .ok bs ↔
      ∃ vs, Canonical vs ∧ text = vs.map symbol ++ padding vs.length ∧ bytesOf vs = bs := by
  constructor
  · intro h
    unfold decode at h
    split at h
    · -- one symbol too many is refused in any case
      split at h
      · split at h <;> cases h
      · cases h
    · obtain ⟨vs, hvs, hsymbols, hrest, hbytes⟩ := exists_canonical_of_decodeParts h
      refine ⟨vs, hvs, ?_, hbytes⟩
      rw [← hsymbols, ← hrest, List.takeWhile_append_dropWhile]
  · rintro ⟨vs, hvs, rfl, rfl⟩
    have hcount := hvs.count
    have hlength : (vs.map symbol ++ padding vs.length).length =
        vs.length + (4 - vs.length % 4) % 4 := by simp [padding]
    obtain ⟨htake, hdrop⟩ := split_text hvs.lt
    unfold decode
    -- the text has a multiple of four symbols, so the first check passes
    rw [if_neg (by omega), htake, hdrop]
    exact decodeParts_of_canonical hvs

/-- **Base64.**  A `text` is decoded exactly to the bytes that it encodes, and every other text is
    refused. -/
theorem decode_eq_ok_iff {text bs : List UInt8} : decode text = .ok bs ↔ text = encode bs := by
  rw [decode_eq_ok_iff_values]
  constructor
  · rintro ⟨vs, hvs, rfl, rfl⟩
    rw [encode_eq, sextets_bytesOf hvs]
  · rintro rfl
    exact ⟨sextets bs, canonical_sextets bs, encode_eq bs, bytesOf_sextets bs⟩

end FaultAction.Base64
