import FaultAction.Proofs.Outcome
import FaultAction.Proofs.Text.Base64
import FaultAction.Record

namespace FaultAction

/-!
# Artifacts — the content of a text

An artifact has its content as a base64 text.  Base64 texts are ASCII, so characters and bytes of a
text are the same thing:

* `Base64.alphabet`          — the characters of the symbols, in the order of their values;
* `Artifact.bytes_data`      — the bytes of the text of an artifact of some content;
* `Artifact.content_eq_ok_iff` — an artifact has a content exactly if its text is made of it;
* `Artifact.content_exact`   — and any other text is refused with the label of the artifact.
-/

namespace Base64

/-! ### Characters -/

/-- The standard alphabet, in the order of the values of its characters, so that `symbol v` is at
    place `v`. -/
def alphabet : List Char :=
  "ABCDEFGHIJKLMNOPQRSTUVWXYZabcdefghijklmnopqrstuvwxyz0123456789+/".toList

/-- The symbol of a value `v` is the character at its place in the `alphabet`. -/
theorem alphabet_symbol {v : Nat} (h : v < 64) :
    alphabet[v]? = some (Char.ofNat (symbol v).toNat) := by
  have hall : ∀ v, v < 64 → alphabet[v]? = some (Char.ofNat (symbol v).toNat) := by decide
  exact hall v h

/-- A base64 text, as `encode` gives it, consists of ASCII bytes, since all symbols and the padding
    are. -/
theorem lt_of_mem_encode {bs : List UInt8} {b : UInt8} (h : b ∈ encode bs) : b.toNat < 128 := by
  rw [encode_eq] at h
  rcases List.mem_append.1 h with h | h
  · obtain ⟨v, hv, rfl⟩ := List.mem_map.1 h
    have hall : ∀ v, v < 64 → (symbol v).toNat < 128 := by decide
    exact hall v (lt_of_mem_sextets bs v hv)
  · rw [List.eq_of_mem_replicate h]
    decide

end Base64

namespace Artifact

/-! ### The text as bytes -/

/-- The characters of ASCII bytes `bs` are encoded as these very bytes. -/
theorem flatMap_charsOfBytes {bs : List UInt8} (h : ∀ b ∈ bs, b.toNat < 128) :
    (charsOfBytes bs).flatMap String.utf8EncodeChar = bs := by
  have hall : ∀ n, n < 128 → String.utf8EncodeChar (Char.ofNat n) = [UInt8.ofNat n] := by decide
  induction bs with
  | nil => rfl
  | cons b bs ih =>
    obtain ⟨hb, hbs⟩ := List.forall_mem_cons.1 h
    have hrest : (charsOfBytes bs).flatMap String.utf8EncodeChar = bs := ih hbs
    show (Char.ofNat b.toNat :: charsOfBytes bs).flatMap String.utf8EncodeChar = _
    rw [List.flatMap_cons, hall b.toNat hb, UInt8.ofNat_toNat, hrest]
    rfl

/-- The bytes of the text of ASCII bytes `bs` are `bs` again. -/
theorem bytes_ofList {bs : List UInt8} (h : ∀ b ∈ bs, b.toNat < 128) :
    (String.ofList (charsOfBytes bs)).toUTF8.data.toList = bs := by
  show ((charsOfBytes bs).flatMap String.utf8EncodeChar).toByteArray.data.toList = bs
  rw [List.data_toByteArray, flatMap_charsOfBytes h]

/-- The bytes of the text of an artifact with the content `bytes` are those of its base64 text. -/
theorem bytes_data (label : String) (bytes : List UInt8) :
    (ofBytes label bytes).data.toUTF8.data.toList = Base64.encode bytes :=
  bytes_ofList (fun _ hb => Base64.lt_of_mem_encode hb)

/-- Texts `s` and `t` with the same bytes are equal, for UTF-8 tells all texts apart. -/
theorem eq_of_bytes {s t : String} (h : s.toUTF8.data.toList = t.toUTF8.data.toList) : s = t :=
  String.toByteArray_inj.1 (ByteArray.ext (Array.toList_inj.1 h))

/-- The characters of the text of some content `bytes` are characters of the `alphabet`, and up to
    two `=` in the place of those that the last bytes do not need. -/
theorem toList_data (label : String) (bytes : List UInt8) :
    ∃ symbols : List Char, (∀ c ∈ symbols, c ∈ Base64.alphabet) ∧
      (ofBytes label bytes).data.toList =
        symbols ++ List.replicate ((3 - bytes.length % 3) % 3) '=' := by
  refine ⟨charsOfBytes ((Base64.sextets bytes).map Base64.symbol), ?_, ?_⟩
  · intro c hc
    obtain ⟨b, hb, rfl⟩ := List.mem_map.1 hc
    obtain ⟨v, hv, rfl⟩ := List.mem_map.1 hb
    exact List.mem_of_getElem? (Base64.alphabet_symbol (Base64.lt_of_mem_sextets bytes v hv))
  · show (String.ofList (charsOfBytes (Base64.encode bytes))).toList = _
    rw [String.toList_ofList, Base64.encode_eq, Base64.padding_length_sextets]
    simp only [charsOfBytes, List.map_append, List.map_replicate]
    rfl

/-! ### The content -/

/-- An artifact `a` has the content `bytes` exactly if its text is that of an artifact of this
    content. -/
theorem content_eq_ok_iff {a : Artifact} {bytes : List UInt8} (label : String) :
    a.content = .ok bytes ↔ a.data = (ofBytes label bytes).data := by
  rw [content, mapError_eq_ok_iff, Base64.decode_eq_ok_iff, ← bytes_data label]
  exact ⟨eq_of_bytes, fun h => by rw [h]⟩

/-- An artifact `a` without content is refused as an illegal argument, with its label and a
    reason. -/
theorem exists_reason_of_content {a : Artifact} (h : ∀ bytes, a.content ≠ .ok bytes) :
    ∃ reason : Base64.DecodeError, a.content = .error (.ofKind .illegalArgument
      ("artifact " ++ a.label ++ " is not valid base64: " ++ reason.message)) := by
  cases hdecode : Base64.decode a.data.toUTF8.data.toList with
  | ok bytes =>
    have hcontent : a.content = .ok bytes := mapError_eq_ok_iff.2 hdecode
    exact absurd hcontent (h bytes)
  | error reason =>
    refine ⟨reason, ?_⟩
    rw [content, hdecode]
    rfl

/-- **Artifacts are an exact codec.**  Any `bytes` are the content of the artifact that is made of
    them, whose text has four characters for every three bytes that have begun, all from the
    `alphabet` but for the padding at the end.  No other text has these bytes for its content: every
    text that is not made of bytes is refused, as an illegal argument and with the label of the
    artifact. -/
theorem content_exact :
    (∀ (label : String) (bytes : List UInt8),
      (ofBytes label bytes).content = .ok bytes ∧
      (ofBytes label bytes).data.utf8ByteSize = 4 * ((bytes.length + 2) / 3) ∧
      ∃ symbols : List Char, (∀ c ∈ symbols, c ∈ Base64.alphabet) ∧
        (ofBytes label bytes).data.toList =
          symbols ++ List.replicate ((3 - bytes.length % 3) % 3) '=') ∧
    ∀ a : Artifact,
      (∀ (label : String) (bytes : List UInt8),
        a.content = .ok bytes ↔ a.data = (ofBytes label bytes).data) ∧
      (∀ (b : Artifact) (bytes : List UInt8),
        a.content = .ok bytes → b.content = .ok bytes → a.data = b.data) ∧
      ((∀ (label : String) (bytes : List UInt8), a.data ≠ (ofBytes label bytes).data) →
        ∃ (e : ActionError) (reason : Base64.DecodeError), a.content = .error e ∧
          e.code = 1002 ∧ e.cause = none ∧
          e.displayText =
            "artifact " ++ a.label ++ " is not valid base64: " ++ reason.message) := by
  constructor
  · intro label bytes
    refine ⟨(content_eq_ok_iff label).2 rfl, ?_, toList_data label bytes⟩
    -- characters are counted as bytes, which is what they are
    have hsize : (ofBytes label bytes).data.utf8ByteSize =
        (ofBytes label bytes).data.toUTF8.data.toList.length := Array.length_toList.symm
    rw [hsize, bytes_data, Base64.length_encode]
  · intro a
    refine ⟨fun label bytes => content_eq_ok_iff label, ?_, ?_⟩
    · intro b bytes ha hb
      rw [(content_eq_ok_iff "").1 ha, (content_eq_ok_iff "").1 hb]
    · intro h
      obtain ⟨reason, hreason⟩ := exists_reason_of_content
        (fun bytes hok => h "" bytes ((content_eq_ok_iff "").1 hok))
      exact ⟨_, reason, hreason, rfl, rfl, rfl⟩

/-- Three bytes are found again, two artifacts of one content have equal texts, and the text
    `"QR=="`, whose last symbol has a bit too many, is refused with the label of its artifact. -/
theorem content_exact_abc :
    (ofBytes "log" [65, 66, 67]).content = .ok [65, 66, 67] ∧
    (⟨"a", "QUJD"⟩ : Artifact).data = (⟨"b", "QUJD"⟩ : Artifact).data ∧
    ∃ (e : ActionError) (reason : Base64.DecodeError),
      (⟨"log", "QR=="⟩ : Artifact).content = .error e ∧ e.code = 1002 ∧ e.cause = none ∧
        e.displayText = "artifact log is not valid base64: " ++ reason.message := by
  obtain ⟨hbytes, htexts⟩ := content_exact
  refine ⟨(hbytes "log" [65, 66, 67]).1, ?_, ?_⟩
  · exact (htexts ⟨"a", "QUJD"⟩).2.1 ⟨"b", "QUJD"⟩ [65, 66, 67] rfl rfl
  · obtain ⟨haccepts, -, hrefuses⟩ := htexts ⟨"log", "QR=="⟩
    apply hrefuses
    intro label bytes hdata
    have hok : (⟨"log", "QR=="⟩ : Artifact).content = .ok bytes := (haccepts label bytes).2 hdata
    cases hok

end Artifact

end FaultAction
