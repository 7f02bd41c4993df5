import Craftd.Containers.StringSlice
import Craftd.Protocol.Text

/-!
# Valid strings

A translation of `SV_StringIsValid`, compared with `SV_StringSanitize`.

Both loops accept the characters of `SVCharset`, and differ at the marker `§`.
The validator refuses one among the last two characters; the sanitiser drops a
marker that stands second to last, with the character behind it, and copies the
others.  So a valid string comes through unchanged, but a string that ends in a
marker keeps it, and where the end was dropped a marker further in may have
become one of the last two.  `TailPlain` and `CutsMarker` are these two
conditions on the end of a text.
-/

namespace Craftd.Protocol

open Craftd.Containers

/-- `i < ie - 2` in `size_t`: for a length below 2 the difference wraps around, and every
index is below it. -/
def belowLastTwo (i ie : ℕ) : Bool := ie < 2 || i + 2 < ie

/-- `SV_StringIsValid`. -/
def svStringIsValid (string : SVString) : Bool :=
  let ie := string.length
  (List.range ie).all fun i =>
    let ch := charAt string i
    inCharset ch || (isColorMarker ch && belowLastTwo i ie)

/-! ## The end of a text -/

section Ends

variable {Character : Type*} {marker : Character} {text : List Character}

/-- There are fewer than two characters, or neither of the last two is a marker. -/
def TailPlain (marker : Character) (text : List Character) : Prop :=
  text.length < 2 ∨ marker ∉ text.drop (text.length - 2)

/-- The second to last character is a marker. -/
def CutsMarker (marker : Character) (text : List Character) : Prop :=
  2 ≤ text.length ∧ text[text.length - 2]? = some marker

theorem tailPlain_iff :
    TailPlain marker text ↔
      ∀ i (hi : i < text.length), text[i] = marker → text.length < 2 ∨ i + 2 < text.length := by
  constructor
  · rintro (hshort | hplain) i hi heq
    · exact .inl hshort
    · by_contra hlast
      apply hplain
      rw [← heq, List.mem_drop_iff_getElem]
      refine ⟨i - (text.length - 2), by omega, ?_⟩
      congr 1
      omega
  · intro hall
    by_cases hshort : text.length < 2
    · exact .inl hshort
    · refine .inr fun hmem => ?_
      obtain ⟨k, hk, heq⟩ := List.mem_drop_iff_getElem.mp hmem
      rcases hall _ _ heq with hlt | hlt
      · exact hshort hlt
      · omega

theorem TailPlain.not_cutsMarker (hplain : TailPlain marker text) : ¬ CutsMarker marker text := by
  rintro ⟨hlong, hmarker⟩
  obtain ⟨hi, heq⟩ := List.getElem?_eq_some_iff.mp hmarker
  rcases tailPlain_iff.mp hplain _ hi heq with hshort | hinside
  · omega
  · omega

theorem tailPlain_map {Other : Type*} {f : Character → Other} {other : Other}
    (hf : ∀ ch, f ch = other ↔ ch = marker) :
    TailPlain other (text.map f) ↔ TailPlain marker text := by
  simp only [tailPlain_iff, List.length_map, List.getElem_map, hf]

private theorem cutsMarker_map {Other : Type*} {f : Character → Other} {other : Other}
    (hf : ∀ ch, f ch = other ↔ ch = marker) :
    CutsMarker other (text.map f) ↔ CutsMarker marker text := by
  simp only [CutsMarker, List.length_map, List.getElem?_map, Option.map_eq_some_iff, hf,
    exists_eq_right]

variable [DecidableEq Character]

instance : Decidable (TailPlain marker text) :=
  inferInstanceAs (Decidable (_ ∨ _))

instance : Decidable (CutsMarker marker text) :=
  inferInstanceAs (Decidable (_ ∧ _))

/-- What is left of a text when it is cut at a marker that stands second to last. -/
def cutEnd (marker : Character) (text : List Character) : List Character :=
  if CutsMarker marker text then text.take (text.length - 2) else text

private theorem cutEnd_cons {ch : Character} (hlong : 2 ≤ text.length) :
    cutEnd marker (ch :: text) = ch :: cutEnd marker text := by
  have hlength : (ch :: text).length - 2 = text.length - 2 + 1 := by
    rw [List.length_cons]
    omega
  have hcuts : CutsMarker marker (ch :: text) ↔ CutsMarker marker text := by
    rw [CutsMarker, CutsMarker, hlength, List.getElem?_cons_succ, List.length_cons]
    exact and_congr_left fun _ => iff_of_true (by omega) hlong
  simp only [cutEnd, hcuts, hlength, List.take_succ_cons]
  split_ifs
  · rfl
  · rfl

theorem cutEnd_append_marker (last : Character) :
    cutEnd marker (text ++ [marker, last]) = text := by
  have hlength : (text ++ [marker, last]).length - 2 = text.length := by simp
  have hcuts : CutsMarker marker (text ++ [marker, last]) := by
    rw [CutsMarker, hlength]
    simp
  rw [cutEnd, if_pos hcuts, hlength, List.take_left]

theorem TailPlain.cutEnd_eq (hplain : TailPlain marker text) : cutEnd marker text = text :=
  if_neg hplain.not_cutsMarker

theorem cutEnd_map {Other : Type*} [DecidableEq Other] {f : Character → Other} {other : Other}
    (hf : ∀ ch, f ch = other ↔ ch = marker) :
    cutEnd other (text.map f) = (cutEnd marker text).map f := by
  simp only [cutEnd, cutsMarker_map hf, List.length_map]
  split_ifs
  · rw [List.map_take]
  · rfl

end Ends

/-! ## Validating and sanitising characters -/

variable {chars : List (List Byte)} {text : List Char}

/-- A string is valid if and only if sanitising keeps each of its characters and its end
is plain. -/
theorem svStringIsValid_iff (h : ∀ ch ∈ chars, IsChar ch) {string : SVString}
    (hcontent : string.content = chars.flatten) :
    svStringIsValid string = true ↔
      (∀ ch ∈ chars, IsKept ch) ∧ TailPlain colorMarker chars := by
  have hmarker : colorMarker ∉ svCharsetChars := by decide +kernel
  have hround : ∀ i (hi : i < chars.length),
      (inCharset (charAt string i) ||
        (isColorMarker (charAt string i) && belowLastTwo i chars.length)) = true ↔
      IsKept chars[i] ∧ (chars[i] = colorMarker → chars.length < 2 ∨ i + 2 < chars.length) := by
    intro i hi
    have hchar : IsChar chars[i] := h _ (List.getElem_mem hi)
    rw [charAt_flatten h hcontent hi, Bool.or_eq_true, Bool.and_eq_true, inCharset_iff hchar,
      isColorMarker_iff hchar, belowLastTwo, Bool.or_eq_true, decide_eq_true_iff,
      decide_eq_true_iff, IsKept, keptChars, List.mem_cons]
    constructor
    · rintro (hmem | ⟨heq, hbelow⟩)
      · exact ⟨.inr hmem, fun heq => absurd (heq ▸ hmem) hmarker⟩
      · exact ⟨.inl heq, fun _ => hbelow⟩
    · rintro ⟨heq | hmem, hbelow⟩
      · exact .inr ⟨heq, hbelow heq⟩
      · exact .inl hmem
  unfold svStringIsValid
  simp only [List.all_eq_true, List.mem_range, length_of_flatten h hcontent, tailPlain_iff]
  constructor
  · intro hall
    refine ⟨?_, fun i hi => ((hround i hi).mp (hall i hi)).2⟩
    intro ch hmem
    obtain ⟨i, hi, rfl⟩ := List.getElem_of_mem hmem
    exact ((hround i hi).mp (hall i hi)).1
  · rintro ⟨hkept, hplain⟩ i hi
    exact (hround i hi).mpr ⟨hkept _ (List.getElem_mem hi), hplain i hi⟩

/-- A character, or the question mark that stands for one that is not kept. -/
def keptOr (ch : List Byte) : List Byte := if IsKept ch then ch else [0x3F]

private theorem keptOr_eq_colorMarker (ch : List Byte) :
    keptOr ch = colorMarker ↔ ch = colorMarker := by
  have hkept : IsKept colorMarker := .head _
  unfold keptOr
  split_ifs with hch
  · rfl
  · refine iff_of_false (by decide) ?_
    rintro rfl
    exact hch hkept

/-- **Sanitising** cuts the end and replaces the characters that are not kept. -/
theorem sanitizeChars_eq (chars : List (List Byte)) :
    sanitizeChars chars = (cutEnd colorMarker chars).map keptOr := by
  induction chars with
  | nil => rfl
  | cons ch rest ih =>
      rw [sanitizeChars]
      rcases rest with _ | ⟨second, _ | ⟨third, more⟩⟩
      · simp [sanitizeChars, cutEnd, CutsMarker, keptOr]
      · by_cases hmarker : ch = colorMarker
        · simp [hmarker, cutEnd, CutsMarker]
        · simp [hmarker, cutEnd, CutsMarker, keptOr, sanitizeChars]
      · have hlong : 2 ≤ (second :: third :: more).length := by simp
        have hlast : ¬ ((second :: third :: more).length = 1 ∧ ch = colorMarker) := by simp
        rw [if_neg hlast, ih, cutEnd_cons hlong, List.map_cons]
        rfl

theorem utf8Bytes_eq_colorMarker (c : Char) : utf8Bytes c = colorMarker ↔ c = '§' := by
  have hmarker : utf8Bytes '§' = colorMarker := by decide
  rw [← hmarker]
  exact utf8Bytes_injective.eq_iff

/-! ## Well-formed texts -/

theorem exists_sanitized (hnul : Char.ofNat 0 ∉ text) :
    ∃ string sanitized, createStringFromBuffer (utf8Text text) = some string ∧
      svStringSanitize string = some sanitized ∧
      (svStringIsValid sanitized = true ↔ TailPlain '§' (cutEnd '§' text)) := by
  have hchars := isChar_of_mem_utf8Chars hnul
  obtain ⟨string, hcreate, hcontent, -⟩ := createStringFromBuffer_flatten hchars
  obtain ⟨sanitized, hsanitize, hresult, -⟩ := svStringSanitize_flatten hchars hcontent
  refine ⟨string, sanitized, hcreate, hsanitize, ?_⟩
  have hkept : ∀ ch ∈ sanitizeChars (utf8Chars text), IsKept ch :=
    fun ch hmem => isKept_of_mem_sanitizeChars hmem
  rw [svStringIsValid_iff (fun ch hmem => (hkept ch hmem).isChar) hresult, and_iff_right hkept,
    sanitizeChars_eq, tailPlain_map keptOr_eq_colorMarker, utf8Chars,
    cutEnd_map utf8Bytes_eq_colorMarker, tailPlain_map utf8Bytes_eq_colorMarker]

/-- **Where sanitising makes a string valid**: the end that is left after cutting has to be
plain. -/
theorem sanitized_valid_iff (hnul : Char.ofNat 0 ∉ text) {string : SVString}
    (hcreate : createStringFromBuffer (utf8Text text) = some string) :
    ∃ sanitized, svStringSanitize string = some sanitized ∧
      (svStringIsValid sanitized = true ↔ TailPlain '§' (cutEnd '§' text)) := by
  obtain ⟨other, sanitized, hcreate', hsanitize, hvalid⟩ := exists_sanitized hnul
  obtain rfl := Option.some.inj (hcreate.symm.trans hcreate')
  exact ⟨sanitized, hsanitize, hvalid⟩

/-- A text that ends in a marker, and one that is cut and then ends in a marker. -/
theorem sanitized_invalid :
    (∃ string sanitized, createStringFromBuffer (utf8Text ['a', 'b', '§']) = some string ∧
      svStringSanitize string = some sanitized ∧ svStringIsValid sanitized = false) ∧
    ∃ string sanitized, createStringFromBuffer (utf8Text ['a', '§', 'b', '§', 'c']) = some string ∧
      svStringSanitize string = some sanitized ∧ svStringIsValid sanitized = false := by
  constructor
  · have hnul : Char.ofNat 0 ∉ ['a', 'b', '§'] := by decide
    obtain ⟨string, sanitized, hcreate, hsanitize, hvalid⟩ := exists_sanitized hnul
    refine ⟨string, sanitized, hcreate, hsanitize, ?_⟩
    exact Bool.eq_false_iff.mpr fun htrue => absurd (hvalid.mp htrue) (by decide)
  · have hnul : Char.ofNat 0 ∉ ['a', '§', 'b', '§', 'c'] := by decide
    obtain ⟨string, sanitized, hcreate, hsanitize, hvalid⟩ := exists_sanitized hnul
    refine ⟨string, sanitized, hcreate, hsanitize, ?_⟩
    exact Bool.eq_false_iff.mpr fun htrue => absurd (hvalid.mp htrue) (by decide)

theorem sanitized_valid_iff_colored :
    ∃ string, createStringFromBuffer (utf8Text ['§', '2', 'ß', '§', '3']) = some string ∧
      ∃ sanitized, svStringSanitize string = some sanitized ∧ svStringIsValid sanitized = true := by
  have hnul : Char.ofNat 0 ∉ ['§', '2', 'ß', '§', '3'] := by decide
  obtain ⟨string, hcreate, -⟩ := createStringFromBuffer_flatten (isChar_of_mem_utf8Chars hnul)
  obtain ⟨sanitized, hsanitize, hvalid⟩ := sanitized_valid_iff hnul hcreate
  exact ⟨string, hcreate, sanitized, hsanitize, hvalid.mpr (by decide)⟩

/-- **Sanitising leaves valid strings alone.** -/
theorem valid_sanitized (hnul : Char.ofNat 0 ∉ text) {string : SVString}
    (hcreate : createStringFromBuffer (utf8Text text) = some string)
    (hvalid : svStringIsValid string = true) :
    ∃ sanitized, svStringSanitize string = some sanitized ∧
      sanitized.content = string.content ∧ sanitized.length = string.length := by
  have hchars := isChar_of_mem_utf8Chars hnul
  have hcontent : string.content = (utf8Chars text).flatten :=
    content_of_createStringFromBuffer hcreate
  obtain ⟨hkept, hplain⟩ := (svStringIsValid_iff hchars hcontent).mp hvalid
  obtain ⟨sanitized, hsanitize, hresult, hlength⟩ := svStringSanitize_flatten hchars hcontent
  -- nothing is cut, and each character is kept
  have hsame : sanitizeChars (utf8Chars text) = utf8Chars text := by
    rw [sanitizeChars_eq, hplain.cutEnd_eq]
    calc (utf8Chars text).map keptOr
        = (utf8Chars text).map id := List.map_congr_left fun ch hmem => if_pos (hkept ch hmem)
      _ = utf8Chars text := List.map_id _
  rw [hsame] at hresult hlength
  exact ⟨sanitized, hsanitize, hresult.trans hcontent.symm,
    hlength.trans (length_of_flatten hchars hcontent).symm⟩

theorem valid_sanitized_colored :
    ∃ string, createStringFromBuffer (utf8Text ['§', '2', 'a']) = some string ∧
      svStringIsValid string = true ∧ ∃ sanitized, svStringSanitize string = some sanitized ∧
        sanitized.content = string.content ∧ sanitized.length = string.length := by
  have hnul : Char.ofNat 0 ∉ ['§', '2', 'a'] := by decide
  have hchars := isChar_of_mem_utf8Chars hnul
  obtain ⟨string, hcreate, hcontent, -⟩ := createStringFromBuffer_flatten hchars
  have hvalid : svStringIsValid string = true := by
    rw [svStringIsValid_iff hchars hcontent]
    decide +kernel
  exact ⟨string, hcreate, hvalid, valid_sanitized hnul hcreate hvalid⟩

end Craftd.Protocol
