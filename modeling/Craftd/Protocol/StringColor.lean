import Craftd.Protocol.StringValidity

/-!
# Coloured text

A translation of `CD_InsertString`, `SV_StringColorRange` and `SV_StringColor`.

A range is coloured from its end: the reset goes in at character `b` before the
colour goes in at character `a`, so that the second insertion still finds its
place.  On the wire the reset behind a whole coloured text is what stands at the
end, its marker second to last, and the sanitiser cuts exactly that.
-/

namespace Craftd.Protocol

open Craftd.Containers

/-- `binsert`; beyond the end, the gap is filled up. -/
def binsert (b1 : List Byte) (pos : ℕ) (b2 : List Byte) (fill : Byte) : List Byte :=
  if b1.length < pos then b1 ++ List.replicate (pos - b1.length) fill ++ b2
  else b1.take pos ++ b2 ++ b1.drop pos

/-- `CD_InsertString`. -/
def insertString (self insert : CDString) (position : ℕ) : Option CDString :=
  createStringFromBuffer
    (binsert self.content (utf8Offset self.content position) insert.content 0)

/-- `SVStringColor`. -/
inductive SVStringColor
  | black
  | darkBlue
  | darkGreen
  | darkCyan
  | darkRed
  | purple
  | gold
  | gray
  | darkGray
  | blue
  | lightGreen
  | cyan
  | red
  | pink
  | yellow
  | white
  deriving DecidableEq, Repr

/-- The value of a colour. -/
def SVStringColor.value : SVStringColor → ℕ
  | .black => 0
  | .darkBlue => 1
  | .darkGreen => 2
  | .darkCyan => 3
  | .darkRed => 4
  | .purple => 5
  | .gold => 6
  | .gray => 7
  | .darkGray => 8
  | .blue => 9
  | .lightGreen => 10
  | .cyan => 11
  | .red => 12
  | .pink => 13
  | .yellow => 14
  | .white => 15

/-- A number in the format `%x`. -/
def formatHex (value : ℕ) : List Byte :=
  (Nat.toDigits 16 value).flatMap utf8Bytes

/-- `SV_COLOR_WHITE`, `"§f"`. -/
def svColorWhite : List Byte := colorMarker ++ [0x66]

/-- `SV_StringColorRange`; `none` also where one of its assertions fails. -/
def svStringColorRange (self : SVString) (color : SVStringColor) (a b : ℕ) : Option SVString := do
  let start ← createStringFromBuffer (colorMarker ++ formatHex color.value)
  let reset ← createStringFromBuffer svColorWhite
  if a < b ∧ b ≤ self.length then
    let self ← insertString self reset b
    insertString self start a
  else none

/-- `SV_StringColor`. -/
def svStringColor (self : SVString) (color : SVStringColor) : Option SVString :=
  if 0 < self.length then svStringColorRange self color 0 self.length else some self

/-- The hex digit of a colour. -/
def SVStringColor.digit (color : SVStringColor) : Char := Nat.digitChar color.value

theorem start_eq (color : SVStringColor) :
    colorMarker ++ formatHex color.value = utf8Text ['§', color.digit] := by
  cases color <;> decide

private theorem svColorWhite_eq : svColorWhite = utf8Text ['§', 'f'] := by decide

theorem isKept_of_mem_codes (code : ℕ) (hcode : code ∈ svCharsetCodes) :
    IsKept (utf8Bytes (Char.ofNat code)) :=
  List.mem_cons_of_mem colorMarker (List.mem_map_of_mem hcode)

private theorem isKept_digit (color : SVStringColor) : IsKept (utf8Bytes color.digit) := by
  cases color <;> decide +kernel

/-! ## Inserting characters -/

variable {text : List Char}

/-- A text with characters inserted at a position. -/
def insertAt (text : List Char) (position : ℕ) (inserted : List Char) : List Char :=
  text.take position ++ inserted ++ text.drop position

theorem nul_notMem_insertAt (hnul : Char.ofNat 0 ∉ text) {inserted : List Char}
    (hinserted : Char.ofNat 0 ∉ inserted) (position : ℕ) :
    Char.ofNat 0 ∉ insertAt text position inserted := by
  simp only [insertAt, List.mem_append, not_or]
  exact ⟨⟨fun hmem => hnul (List.mem_of_mem_take hmem), hinserted⟩,
    fun hmem => hnul (List.mem_of_mem_drop hmem)⟩

private theorem insertAt_insertAt {a b : ℕ} (hab : a ≤ b) (hb : b ≤ text.length)
    (start reset : List Char) :
    insertAt (insertAt text b reset) a start =
      text.take a ++ start ++ (text.drop a).take (b - a) ++ reset ++ text.drop b := by
  have hlength : a ≤ (text.take b).length := by
    rw [List.length_take]
    omega
  have hlonger : a ≤ (text.take b ++ reset).length := by
    rw [List.length_append]
    omega
  have hbefore : (insertAt text b reset).take a = text.take a := by
    rw [insertAt, List.take_append_of_le_length hlonger, List.take_append_of_le_length hlength,
      List.take_take, Nat.min_eq_left hab]
  have hbehind : (insertAt text b reset).drop a =
      (text.drop a).take (b - a) ++ reset ++ text.drop b := by
    rw [insertAt, List.drop_append_of_le_length hlonger, List.drop_append_of_le_length hlength,
      List.drop_take]
  rw [insertAt, hbefore, hbehind]
  simp only [List.append_assoc]

theorem insertString_text (hnul : Char.ofNat 0 ∉ text) {self insert : CDString}
    {inserted : List Char} (hinserted : Char.ofNat 0 ∉ inserted)
    (hself : self.content = utf8Text text) (hinsert : insert.content = utf8Text inserted)
    {position : ℕ} (hposition : position ≤ text.length) :
    ∃ result, insertString self insert position = some result ∧
      result.content = utf8Text (insertAt text position inserted) := by
  have hchars := isChar_of_mem_utf8Chars hnul
  obtain ⟨result, hcreate, hcontent, -⟩ := createStringFromBuffer_flatten
    (isChar_of_mem_utf8Chars (nul_notMem_insertAt hnul hinserted position))
  refine ⟨result, ?_, hcontent⟩
  have hoffset : utf8Offset self.content position = (utf8Text (text.take position)).length := by
    have hlength : position ≤ (utf8Chars text).length := by rwa [utf8Chars, List.length_map]
    rw [hself, utf8Text, utf8Offset_flatten hchars hlength, utf8Chars, ← List.map_take]
    rfl
  have hsplit : self.content = utf8Text (text.take position) ++ utf8Text (text.drop position) := by
    rw [hself, ← utf8Text_append, List.take_append_drop]
  have hinside : ¬ self.content.length < (utf8Text (text.take position)).length := by
    rw [hsplit, List.length_append]
    omega
  have hbytes : binsert self.content (utf8Offset self.content position) insert.content 0 =
      (utf8Chars (insertAt text position inserted)).flatten := by
    rw [hoffset, binsert, if_neg hinside, hsplit, List.take_left, List.drop_left, hinsert,
      ← utf8Text_append, ← utf8Text_append]
    rfl
  rw [insertString, hbytes, hcreate]

/-! ## Colouring -/

theorem length_of_text (hnul : Char.ofNat 0 ∉ text) {string : CDString}
    (hcontent : string.content = utf8Text text) : string.length = text.length := by
  rw [length_of_flatten (isChar_of_mem_utf8Chars hnul) hcontent, utf8Chars, List.length_map]

theorem svStringColorRange_text (hnul : Char.ofNat 0 ∉ text) {string : SVString}
    (hcontent : string.content = utf8Text text) (color : SVStringColor) {a b : ℕ} (hab : a < b)
    (hb : b ≤ text.length) :
    ∃ colored, svStringColorRange string color a b = some colored ∧
      colored.content = utf8Text (text.take a ++ ['§', color.digit] ++
        (text.drop a).take (b - a) ++ ['§', 'f'] ++ text.drop b) := by
  have hstartNul : Char.ofNat 0 ∉ ['§', color.digit] := by cases color <;> decide
  have hresetNul : Char.ofNat 0 ∉ ['§', 'f'] := by decide
  obtain ⟨start, hstart, hstartContent, -⟩ :=
    createStringFromBuffer_flatten (isChar_of_mem_utf8Chars hstartNul)
  obtain ⟨reset, hreset, hresetContent, -⟩ :=
    createStringFromBuffer_flatten (isChar_of_mem_utf8Chars hresetNul)
  -- the reset goes in behind the range, where it does not move the start
  obtain ⟨closed, hclosed, hclosedContent⟩ :=
    insertString_text hnul hresetNul hcontent hresetContent hb
  have ha : a ≤ (insertAt text b ['§', 'f']).length := by
    rw [insertAt, List.length_append, List.length_append, List.length_take]
    omega
  obtain ⟨colored, hcolored, hcoloredContent⟩ := insertString_text
    (nul_notMem_insertAt hnul hresetNul b) hstartNul hclosedContent hstartContent ha
  refine ⟨colored, ?_, ?_⟩
  · have hlength := length_of_text hnul hcontent
    rw [svStringColorRange, start_eq, svColorWhite_eq, utf8Text, utf8Text, hstart, hreset]
    simp only [Option.bind_eq_bind, Option.bind_some, hlength, hab, hb, and_self, if_true, hclosed,
      hcolored]
  · rw [hcoloredContent, insertAt_insertAt hab.le hb]

theorem nul_notMem_of_isKept (hkept : ∀ c ∈ text, IsKept (utf8Bytes c)) : Char.ofNat 0 ∉ text := by
  intro hmem
  have hnul : ¬ IsKept (utf8Bytes (Char.ofNat 0)) := by decide +kernel
  exact hnul (hkept _ hmem)

/-- Sanitising only cuts a text of kept characters. -/
theorem svStringSanitize_kept (hkept : ∀ c ∈ text, IsKept (utf8Bytes c)) {string : SVString}
    (hcontent : string.content = utf8Text text) :
    ∃ sanitized, svStringSanitize string = some sanitized ∧
      sanitized.content = utf8Text (cutEnd '§' text) := by
  have hchars := isChar_of_mem_utf8Chars (nul_notMem_of_isKept hkept)
  obtain ⟨sanitized, hsanitize, hresult, -⟩ := svStringSanitize_flatten hchars hcontent
  refine ⟨sanitized, hsanitize, ?_⟩
  have hleft : ∀ c ∈ cutEnd '§' text, IsKept (utf8Bytes c) := by
    intro c hmem
    rw [cutEnd] at hmem
    split_ifs at hmem
    · exact hkept c (List.mem_of_mem_take hmem)
    · exact hkept c hmem
  rw [hresult, sanitizeChars_eq, utf8Chars, cutEnd_map utf8Bytes_eq_colorMarker, List.map_map]
  apply congrArg List.flatten
  apply List.map_congr_left
  intro c hmem
  exact if_pos (hleft c hmem)

/-- **Coloured text.**  A whole text is sent behind the marker and the digit of its colour, and
the reset behind it is cut off; a range gets the colour in front of it and the reset
behind it. -/
theorem colored_text (hkept : ∀ c ∈ text, IsKept (utf8Bytes c)) (hne : text ≠ [])
    {string : SVString} (hcreate : createStringFromBuffer (utf8Text text) = some string)
    (color : SVStringColor) :
    (∃ colored sanitized, svStringColor string color = some colored ∧
      svStringSanitize colored = some sanitized ∧
      sanitized.content = utf8Text ('§' :: color.digit :: text)) ∧
    ∀ a b, a < b → b ≤ text.length → ∃ colored,
      svStringColorRange string color a b = some colored ∧
      colored.content = utf8Text (text.take a ++ ['§', color.digit] ++
        (text.drop a).take (b - a) ++ ['§', 'f'] ++ text.drop b) := by
  have hnul := nul_notMem_of_isKept hkept
  have hcontent : string.content = utf8Text text := content_of_createStringFromBuffer hcreate
  refine ⟨?_, fun a b hab hb => svStringColorRange_text hnul hcontent color hab hb⟩
  have hpos : 0 < text.length := List.length_pos_of_ne_nil hne
  obtain ⟨colored, hcolored, hcoloredContent⟩ :=
    svStringColorRange_text hnul hcontent color hpos (Nat.le_refl _)
  have hwhole : text.take 0 ++ ['§', color.digit] ++ (text.drop 0).take (text.length - 0) ++
      ['§', 'f'] ++ text.drop text.length = ('§' :: color.digit :: text) ++ ['§', 'f'] := by
    simp
  rw [hwhole] at hcoloredContent
  have hkeptAll : ∀ c ∈ ('§' :: color.digit :: text) ++ ['§', 'f'], IsKept (utf8Bytes c) := by
    have hmarker : IsKept (utf8Bytes '§') ∧ IsKept (utf8Bytes 'f') := by decide +kernel
    intro c hmem
    simp only [List.mem_append, List.mem_cons, List.not_mem_nil, or_false] at hmem
    rcases hmem with (rfl | rfl | hmem) | rfl | rfl
    · exact hmarker.1
    · exact isKept_digit color
    · exact hkept c hmem
    · exact hmarker.1
    · exact hmarker.2
  obtain ⟨sanitized, hsanitize, hresult⟩ := svStringSanitize_kept hkeptAll hcoloredContent
  refine ⟨colored, sanitized, ?_, hsanitize, ?_⟩
  · rw [svStringColor, length_of_text hnul hcontent, if_pos hpos, hcolored]
  · rw [hresult, cutEnd_append_marker]

theorem colored_text_mixed :
    ∃ string, createStringFromBuffer (utf8Text ['ñ', '§', '2', '§']) = some string ∧
      (∃ colored sanitized, svStringColor string .gold = some colored ∧
        svStringSanitize colored = some sanitized ∧
        sanitized.content = utf8Text ['§', '6', 'ñ', '§', '2', '§']) ∧
      ∃ colored, svStringColorRange string .pink 1 3 = some colored ∧
        colored.content = utf8Text ['ñ', '§', 'd', '§', '2', '§', 'f', '§'] := by
  have hmarker : IsKept (utf8Bytes '§') := .head _
  have hkept : ∀ c ∈ ['ñ', '§', '2', '§'], IsKept (utf8Bytes c) := by
    simp only [List.forall_mem_cons, List.not_mem_nil, false_implies, implies_true, and_true]
    exact ⟨isKept_of_mem_codes 0xF1 (by decide), hmarker,
      isKept_of_mem_codes 0x32 (by decide), hmarker⟩
  obtain ⟨string, hcreate, -⟩ :=
    createStringFromBuffer_flatten (isChar_of_mem_utf8Chars (nul_notMem_of_isKept hkept))
  refine ⟨string, hcreate, (colored_text hkept (by decide) hcreate .gold).1, ?_⟩
  exact (colored_text hkept (by decide) hcreate .pink).2 1 3 (by decide) (by decide)

end Craftd.Protocol
