import Mathlib.Data.List.Basic
import WorkflowCanvas.Url.Percent

/-!
# Reading percent encoding back

A text that is encoded with the percent sign among the reserved characters is read back as the bytes
of the text in UTF-8 (`percentDecode_percentEncode`).  Since different texts have different bytes,
no two of them are encoded alike.
-/

namespace WorkflowCanvas.Url

/-! ## Single bytes -/

lemma digit?_hexDigit : ∀ n < 16, Text.digit? 16 (hexDigit n) = some n := by
  decide

lemma hexDigit_ne_slash : ∀ n < 16, hexDigit n ≠ '/' := by
  decide

/-- A byte behind a percent sign is read as this byte. -/
lemma percentDecode_escapeByte (byte : UInt8) (rest : List Char) :
    percentDecode (escapeByte byte ++ rest) = byte :: percentDecode rest := by
  have hbyte := byte.toNat_lt
  have hhigh := digit?_hexDigit (byte.toNat / 16) (by omega)
  have hlow := digit?_hexDigit (byte.toNat % 16) (by omega)
  have hsum : byte.toNat / 16 * 16 + byte.toNat % 16 = byte.toNat := by omega
  simp only [escapeByte, List.cons_append, List.nil_append]
  rw [percentDecode.eq_def]
  simp only [if_true, hhigh, hlow, hsum, UInt8.ofNat_toNat]

lemma percentDecode_bytes (bytes : List UInt8) (rest : List Char) :
    percentDecode (bytes.flatMap escapeByte ++ rest) = bytes ++ percentDecode rest := by
  induction bytes with
  | nil => rfl
  | cons byte bytes ih =>
    rw [List.flatMap_cons, List.append_assoc, percentDecode_escapeByte, ih, List.cons_append]

/-- Any other character is read as its own bytes. -/
lemma percentDecode_cons_of_ne {c : Char} (hne : c ≠ '%') (rest : List Char) :
    percentDecode (c :: rest) = String.utf8EncodeChar c ++ percentDecode rest := by
  rw [percentDecode.eq_def]
  simp only [if_neg hne]

/-! ## Texts -/

variable {reserved : Reserved}

lemma percentDecode_escape (hpercent : reserved '%' = true) (c : Char) (rest : List Char) :
    percentDecode (escape reserved c ++ rest) =
      String.utf8EncodeChar c ++ percentDecode rest := by
  unfold escape
  split
  · rename_i hplain
    refine percentDecode_cons_of_ne ?_ rest
    rintro rfl
    simp [isPlain, hpercent] at hplain
  · exact percentDecode_bytes _ rest

/-- An encoded text is read back as its bytes. -/
theorem percentDecode_percentEncode (hpercent : reserved '%' = true) (text : List Char) :
    percentDecode (percentEncode reserved text) = text.flatMap String.utf8EncodeChar := by
  induction text with
  | nil => simp [percentEncode, percentDecode]
  | cons c text ih =>
    rw [percentEncode, List.flatMap_cons, percentDecode_escape hpercent, ← percentEncode, ih,
      List.flatMap_cons]

/-- A text with these bytes. -/
lemma toByteArray_flatMap_utf8EncodeChar (text : List Char) :
    (text.flatMap String.utf8EncodeChar).toByteArray = (String.ofList text).toUTF8 := by
  have h := String.utf8Encode_toList (b := String.ofList text)
  rw [String.toList_ofList] at h
  exact h

/-- Different texts have different bytes. -/
lemma flatMap_utf8EncodeChar_injective {text text' : List Char}
    (h : text.flatMap String.utf8EncodeChar = text'.flatMap String.utf8EncodeChar) :
    text = text' := by
  have hbytes := congrArg List.toByteArray h
  rw [toByteArray_flatMap_utf8EncodeChar, toByteArray_flatMap_utf8EncodeChar] at hbytes
  exact String.ofList_injective (String.toByteArray_inj.mp hbytes)

/-- Different texts are encoded differently. -/
lemma percentEncode_injective (hpercent : reserved '%' = true) {text text' : List Char}
    (h : percentEncode reserved text = percentEncode reserved text') : text = text' := by
  have hbytes := congrArg percentDecode h
  rw [percentDecode_percentEncode hpercent, percentDecode_percentEncode hpercent] at hbytes
  exact flatMap_utf8EncodeChar_injective hbytes

/-- What an encoded text is made of: characters of the text that are not reserved, percent signs and
hexadecimal digits. -/
lemma mem_percentEncode {text : List Char} {d : Char} (h : d ∈ percentEncode reserved text) :
    (d ∈ text ∧ isPlain reserved d = true) ∨ d = '%' ∨ ∃ n < 16, hexDigit n = d := by
  obtain ⟨c, hc, hd⟩ := List.mem_flatMap.mp h
  unfold escape at hd
  split at hd
  · rename_i hplain
    obtain rfl := List.mem_singleton.mp hd
    exact .inl ⟨hc, hplain⟩
  · obtain ⟨byte, -, hbyte⟩ := List.mem_flatMap.mp hd
    have hlt := byte.toNat_lt
    simp only [escapeByte, List.mem_cons, List.not_mem_nil, or_false] at hbyte
    obtain hsign | hhigh | hlow := hbyte
    · exact .inr (.inl hsign)
    · exact .inr (.inr ⟨byte.toNat / 16, by omega, hhigh.symm⟩)
    · exact .inr (.inr ⟨byte.toNat % 16, by omega, hlow.symm⟩)

/-- A reserved character that is written in no escape does not stand in an encoded text. -/
lemma not_mem_percentEncode {d : Char} (hreserved : reserved d = true) (hsign : d ≠ '%')
    (hdigit : ∀ n < 16, hexDigit n ≠ d) (text : List Char) : d ∉ percentEncode reserved text := by
  intro hmem
  obtain ⟨-, hplain⟩ | heq | ⟨n, hn, heq⟩ := mem_percentEncode hmem
  · simp [isPlain, hreserved] at hplain
  · exact hsign heq
  · exact hdigit n hn heq

/-- A reserved slash does not stand in an encoded text. -/
lemma slash_not_mem_percentEncode (hslash : reserved '/' = true) (text : List Char) :
    '/' ∉ percentEncode reserved text :=
  not_mem_percentEncode hslash (by decide) hexDigit_ne_slash text

/-- Nor does one that the text did not hold. -/
lemma slash_not_mem_percentEncode_of_not_mem {text : List Char} (h : '/' ∉ text) :
    '/' ∉ percentEncode reserved text := by
  intro hmem
  obtain ⟨hslash, -⟩ | heq | ⟨n, hn, heq⟩ := mem_percentEncode hmem
  · exact h hslash
  · exact absurd heq (by decide)
  · exact hexDigit_ne_slash n hn heq

end WorkflowCanvas.Url
