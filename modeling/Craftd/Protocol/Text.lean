import Craftd.Protocol.Types
import Mathlib.Tactic.IntervalCases

/-!
# Text

A translation of `SV_StringSanitize` with its character set, and of the two
transcodings of `Buffer.c`: from UTF-8 to the 16-bit units of a `String16`
(`ucs2OfChar`) and back (`utf8OfUnit`).

`IsKept` holds of the characters that `SV_StringSanitize` leaves as they are.
`svStringSanitize_flatten` says what sanitising does to a text cut into
characters, and `exists_kept_of_svStringSanitize` that its result is always a
text of kept characters.
-/

namespace Craftd.Protocol

open Craftd.Containers

/-! ## The character set -/

/-- The characters of `SVCharset`, by code point. -/
def svCharsetCodes : List Nat :=
  [0x20, 0x23, 0x24, 0x25, 0x26, 0x22, 0x28, 0x29, 0x2A, 0x2B, 0x2C, 0x2D, 0x2E, 0x2F,
    0x3A, 0x3B, 0x3C, 0x3D, 0x3E, 0x21, 0x3F, 0x40, 0x5B, 0x5C, 0x5D, 0x5E, 0x5F, 0x27,
    0x7B, 0x7C, 0x7D, 0x7E, 0x2302, 0xAA, 0xBA, 0xBF, 0xAE, 0xAC, 0xBD, 0xBC, 0xA1, 0xAB,
    0xBB, 0xA3, 0xD7, 0x192,
    0x30, 0x31, 0x32, 0x33, 0x34, 0x35, 0x36, 0x37, 0x38, 0x39,
    0x41, 0x42, 0x43, 0x44, 0x45, 0x46, 0x47, 0x48, 0x49, 0x4A, 0x4B, 0x4C, 0x4D, 0x4E, 0x4F,
    0x50, 0x51, 0x52, 0x53, 0x54, 0x55, 0x56, 0x57, 0x58, 0x59, 0x5A,
    0x61, 0x62, 0x63, 0x64, 0x65, 0x66, 0x67, 0x68, 0x69, 0x6A, 0x6B, 0x6C, 0x6D, 0x6E, 0x6F,
    0x70, 0x71, 0x72, 0x73, 0x74, 0x75, 0x76, 0x77, 0x78, 0x79, 0x7A,
    0xC7, 0xFC, 0xE9, 0xE2, 0xE4, 0xE0, 0xE5, 0xE7, 0xEA, 0xEB, 0xE8, 0xEF, 0xEE, 0xEC, 0xC4,
    0xC5, 0xC9, 0xE6, 0xC6, 0xF4, 0xF6, 0xF2, 0xFB, 0xF9, 0xFF, 0xD6, 0xDC, 0xF8, 0xD8, 0xE1,
    0xED, 0xF3, 0xFA, 0xF1, 0xD1]

/-- The characters of `SVCharset`, each as the source file's UTF-8 has it. -/
def svCharsetChars : List (List Byte) :=
  svCharsetCodes.map fun code => (String.utf8EncodeChar (Char.ofNat code)).map UInt8.toBitVec

/-- `SVCharset`. -/
def svCharset : List Byte := svCharsetChars.flatten

/-- `SVCharsetOffset`. -/
def svCharsetOffset : List Nat :=
  [0, 1, 2, 3, 4, 5, 6, 7, 8, 9, 10, 11, 12, 13, 14, 15, 16, 17, 18, 19, 20,
    21, 22, 23, 24, 25, 26, 27, 28, 29, 30, 31, 32, 35, 37, 39, 41, 43, 45, 47,
    49, 51, 53, 55, 57, 59, 61, 62, 63, 64, 65, 66, 67, 68, 69, 70, 71, 72, 73,
    74, 75, 76, 77, 78, 79, 80, 81, 82, 83, 84, 85, 86, 87, 88, 89, 90, 91, 92,
    93, 94, 95, 96, 97, 98, 99, 100, 101, 102, 103, 104, 105, 106, 107, 108,
    109, 110, 111, 112, 113, 114, 115, 116, 117, 118, 119, 120, 121, 122, 123,
    125, 127, 129, 131, 133, 135, 137, 139, 141, 143, 145, 147, 149, 151, 153,
    155, 157, 159, 161, 163, 165, 167, 169, 171, 173, 175, 177, 179, 181, 183,
    185, 187, 189, 191]

/-- The marker in front of a colour, `"§"`. -/
def colorMarker : List Byte := [0xC2, 0xA7]

/-- Whether `strncmp(a, b, n)` is 0, with a NUL behind either content. -/
def strncmpEqual : Nat → List Byte → List Byte → Bool
  | 0, _, _ => true
  | n + 1, a, b =>
      a.headD 0 == b.headD 0 && (a.headD 0 == 0 || strncmpEqual n a.tail b.tail)

/-- Whether one of the characters of `SVCharset` equals `ch`. -/
def inCharset (ch : List Byte) : Bool :=
  svCharsetOffset.any fun offset => strncmpEqual ch.length ch (svCharset.drop offset)

/-- Whether `ch` is the colour marker. -/
def isColorMarker (ch : List Byte) : Bool := strncmpEqual 2 ch colorMarker

/-- The loop of `SV_StringSanitize` from index `i` on, `ie` being the length.  The
source compares `i` with `ie - 2`, which no index equals when that wraps. -/
def sanitizeLoop (string : SVString) (ie : Nat) : Nat → Nat → List Byte
  | 0, _ => []
  | steps + 1, i =>
      let ch := charAt string i
      if i + 2 = ie ∧ isColorMarker ch then []
      else
        (if inCharset ch || isColorMarker ch then ch else [0x3F]) ++
          sanitizeLoop string ie steps (i + 1)

/-- `SV_StringSanitize`. -/
def svStringSanitize (string : SVString) : Option SVString :=
  createStringFromBuffer (sanitizeLoop string string.length string.length 0)

/-! ## Transcoding -/

/-- The unit `SV_BufferAddString16` sends for a character. -/
def ucs2OfChar (input : List Byte) : BitVec 16 :=
  let byte (n : Nat) : BitVec 16 := (input.getD n 0).setWidth 16
  if byte 0 &&& 0x80 = 0x00 then byte 0
  else if byte 0 &&& 0xE0 = 0xE0 then
    if byte 1 = 0 ∨ byte 2 = 0 then 0xfffd
    else ((byte 0 &&& 0x0F) <<< 12) ||| ((byte 1 &&& 0x3F) <<< 6) ||| (byte 2 &&& 0x3F)
  else if byte 0 &&& 0xC0 = 0xC0 then
    if byte 1 = 0 then 0xfffd
    else ((byte 0 &&& 0x1F) <<< 6) ||| (byte 1 &&& 0x3F)
  else 0xfffd

/-- What `SV_BufferRemoveString16` appends for a unit. -/
def utf8OfUnit (ch : BitVec 16) : List Byte :=
  if ch = 0xfffd then [0x3F]
  else if ch < 0x80 then [ch.setWidth 8]
  else if ch < 0x800 then
    [((ch >>> 6) ||| 0xC0).setWidth 8, ((ch &&& 0x3F) ||| 0x80).setWidth 8]
  else if ch < 0xFFFF then
    [((ch >>> 12) ||| 0xE0).setWidth 8, (((ch >>> 6) &&& 0x3F) ||| 0x80).setWidth 8,
      ((ch &&& 0x3F) ||| 0x80).setWidth 8]
  else []

/-! ## Kept characters -/

/-- The characters that `SV_StringSanitize` leaves as they are. -/
def keptChars : List (List Byte) := colorMarker :: svCharsetChars

/-- `ch` is one of the characters that sanitising leaves as they are. -/
def IsKept (ch : List Byte) : Prop := ch ∈ keptChars

instance (ch : List Byte) : Decidable (IsKept ch) := by
  unfold IsKept
  infer_instance

theorem IsKept.isChar {ch : List Byte} (h : IsKept ch) : IsChar ch := by
  have hall : ∀ ch ∈ keptChars, IsChar ch := by decide +kernel
  exact hall ch h

theorem IsKept.transcode {ch : List Byte} (h : IsKept ch) : utf8OfUnit (ucs2OfChar ch) = ch := by
  have hall : ∀ ch ∈ keptChars, utf8OfUnit (ucs2OfChar ch) = ch := by decide +kernel
  exact hall ch h

/-- Two contents whose first `n` bytes compare equal and hold no NUL are equal there. -/
theorem strncmpEqual_eq {n : Nat} {a b : List Byte} (h : strncmpEqual n a b = true)
    (ha : a.length = n) (hb : n ≤ b.length) (hnul : 0 ∉ b.take n) : a = b.take n := by
  induction n generalizing a b with
  | zero => simpa using ha
  | succ n ih =>
      cases a with
      | nil => cases ha
      | cons data a =>
          cases b with
          | nil => cases hb
          | cons data' b =>
              simp only [strncmpEqual, List.headD_cons, List.tail_cons, Bool.and_eq_true,
                Bool.or_eq_true, beq_iff_eq] at h
              obtain ⟨rfl, hrest⟩ := h
              rw [List.take_succ_cons, List.mem_cons, not_or] at hnul
              rw [List.take_succ_cons, ih (hrest.resolve_left (Ne.symm hnul.1)) (Nat.succ.inj ha)
                (Nat.le_of_succ_le_succ hb) hnul.2]

theorem eq_of_strncmpEqual {ch other rest : List Byte} (hch : IsChar ch) (hother : IsChar other)
    (hnul : 0 ∉ other) (h : strncmpEqual ch.length ch (other ++ rest) = true) :
    ch = other := by
  obtain ⟨data, tail, rfl, -, hlength⟩ := hch.exists_cons
  obtain ⟨data', tail', rfl, -, hlength'⟩ := hother.exists_cons
  have hhead : data = data' := by
    simp only [List.length_cons, strncmpEqual, Bool.and_eq_true, beq_iff_eq] at h
    exact h.1
  subst hhead
  -- the first byte says how long both are
  have hsame : (data :: tail).length = (data :: tail').length := by
    simp only [List.length_cons]
    omega
  have htake : (data :: tail' ++ rest).take (data :: tail).length = data :: tail' := by
    rw [hsame]
    exact List.take_left
  have hle : (data :: tail).length ≤ (data :: tail' ++ rest).length := by
    rw [hsame, List.length_append]
    exact Nat.le_add_right _ _
  have heq := strncmpEqual_eq h rfl hle (by rwa [htake])
  rwa [htake] at heq

private theorem strncmpEqual_append (ch rest : List Byte) :
    strncmpEqual ch.length ch (ch ++ rest) = true := by
  induction ch with
  | nil => rfl
  | cons data ch ih => simp [strncmpEqual, ih]

/-- Where the characters of a text start, given their lengths and the first one's start. -/
def offsetsFrom (start : Nat) : List Nat → List Nat
  | [] => []
  | length :: rest => start :: offsetsFrom (start + length) rest

theorem mem_offsetsFrom {start offset : Nat} {chars : List (List Byte)} :
    offset ∈ offsetsFrom start (chars.map List.length) ↔
      ∃ before ch after, chars = before ++ ch :: after ∧
        offset = start + before.flatten.length := by
  induction chars generalizing start with
  | nil => simp [offsetsFrom]
  | cons other rest ih =>
      rw [List.map_cons, offsetsFrom, List.mem_cons, ih]
      constructor
      · rintro (rfl | ⟨before, ch, after, rfl, rfl⟩)
        · exact ⟨[], other, rest, rfl, by simp⟩
        · exact ⟨other :: before, ch, after, rfl, by simp [Nat.add_assoc]⟩
      · rintro ⟨before, ch, after, heq, rfl⟩
        cases before with
        | nil => exact .inl (by simp)
        | cons first before =>
            obtain ⟨rfl, rfl⟩ := List.cons.inj heq
            exact .inr ⟨before, ch, after, rfl, by simp [Nat.add_assoc]⟩

private theorem svCharsetOffset_eq :
    svCharsetOffset = offsetsFrom 0 (svCharsetChars.map List.length) := by
  have hlengths : svCharsetChars.map List.length = List.replicate 32 1 ++ [3] ++
      List.replicate 13 2 ++ List.replicate 62 1 ++ List.replicate 35 2 := by decide +kernel
  rw [hlengths]
  decide +kernel

theorem inCharset_iff {ch : List Byte} (hch : IsChar ch) :
    inCharset ch = true ↔ ch ∈ svCharsetChars := by
  have hall : ∀ ch ∈ svCharsetChars, IsChar ch ∧ 0 ∉ ch := by decide +kernel
  have hdrop : ∀ before other after, svCharsetChars = before ++ other :: after →
      svCharset.drop before.flatten.length = other ++ after.flatten := by
    intro before other after heq
    rw [svCharset, heq, List.flatten_append, List.drop_left, List.flatten_cons]
  unfold inCharset
  rw [List.any_eq_true, svCharsetOffset_eq]
  constructor
  · rintro ⟨offset, hoffset, hequal⟩
    obtain ⟨before, other, after, heq, rfl⟩ := mem_offsetsFrom.mp hoffset
    have hmem : other ∈ svCharsetChars := by simp [heq]
    rw [Nat.zero_add, hdrop before other after heq] at hequal
    rwa [eq_of_strncmpEqual hch (hall other hmem).1 (hall other hmem).2 hequal]
  · intro hmem
    obtain ⟨before, after, heq⟩ := List.append_of_mem hmem
    refine ⟨_, mem_offsetsFrom.mpr ⟨before, ch, after, heq, rfl⟩, ?_⟩
    rw [Nat.zero_add, hdrop before ch after heq]
    exact strncmpEqual_append ch _

private theorem eq_of_isColorMarker {ch : List Byte} (hch : IsChar ch)
    (h : isColorMarker ch = true) :
    ch = colorMarker := by
  have hmarker : IsChar colorMarker ∧ 0 ∉ colorMarker := by decide
  have hlength : ch.length = 2 := by
    obtain ⟨data, tail, rfl, -, hnext⟩ := hch.exists_cons
    have hhead : data = 0xC2 := by
      simp only [isColorMarker, strncmpEqual, Bool.and_eq_true, beq_iff_eq] at h
      exact h.1
    subst hhead
    exact hnext.symm
  have hequal : strncmpEqual ch.length ch (colorMarker ++ []) = true := by
    rw [hlength]
    exact h
  exact eq_of_strncmpEqual hch hmarker.1 hmarker.2 hequal

theorem isColorMarker_iff {ch : List Byte} (hch : IsChar ch) :
    isColorMarker ch = true ↔ ch = colorMarker := by
  refine ⟨eq_of_isColorMarker hch, ?_⟩
  rintro rfl
  rfl

/-- The characters that pass the test of the sanitising loop are the kept ones. -/
theorem accepted_iff_isKept {ch : List Byte} (hch : IsChar ch) :
    (inCharset ch || isColorMarker ch) = true ↔ IsKept ch := by
  rw [Bool.or_eq_true, inCharset_iff hch, isColorMarker_iff hch, IsKept, keptChars,
    List.mem_cons, or_comm]

theorem isKept_questionMark : IsKept [0x3F] := by decide +kernel

/-! ## Sanitising -/

/-- Sanitising on a text cut into characters: other characters become question marks,
and a colour marker that stands second to last is dropped with the last character. -/
def sanitizeChars : List (List Byte) → List (List Byte)
  | [] => []
  | ch :: rest =>
      if rest.length = 1 ∧ ch = colorMarker then []
      else (if IsKept ch then ch else [0x3F]) :: sanitizeChars rest

variable {chars : List (List Byte)}

theorem isKept_of_mem_sanitizeChars {ch : List Byte} (h : ch ∈ sanitizeChars chars) :
    IsKept ch := by
  induction chars with
  | nil => cases h
  | cons other rest ih =>
      rw [sanitizeChars] at h
      split at h
      · cases h
      · rcases List.mem_cons.mp h with rfl | hmem
        · split
          · assumption
          · exact isKept_questionMark
        · exact ih hmem

theorem length_sanitizeChars_le (chars : List (List Byte)) :
    (sanitizeChars chars).length ≤ chars.length := by
  induction chars with
  | nil => exact Nat.le_refl _
  | cons ch rest ih =>
      rw [sanitizeChars]
      split
      · exact Nat.zero_le _
      · exact Nat.succ_le_succ ih

/-- The loop computes `sanitizeChars` on a content cut into characters. -/
theorem sanitizeLoop_flatten (h : ∀ ch ∈ chars, IsChar ch) {string : SVString}
    (hcontent : string.content = chars.flatten) {steps i : Nat}
    (hsteps : i + steps = chars.length) :
    sanitizeLoop string chars.length steps i = (sanitizeChars (chars.drop i)).flatten := by
  induction steps generalizing i with
  | zero => rw [List.drop_of_length_le (by omega)]; rfl
  | succ steps ih =>
      have hi : i < chars.length := by omega
      have hchar : IsChar chars[i] := h _ (List.getElem_mem hi)
      have hlast : i + 2 = chars.length ↔ (chars.drop (i + 1)).length = 1 := by
        rw [List.length_drop]
        omega
      rw [sanitizeLoop, charAt_flatten h hcontent hi, ih (by omega),
        List.drop_eq_getElem_cons hi, sanitizeChars]
      simp only [hlast, isColorMarker_iff hchar, accepted_iff_isKept hchar]
      split
      · rfl
      · rw [List.flatten_cons]

theorem svStringSanitize_eq (h : ∀ ch ∈ chars, IsChar ch) {string : SVString}
    (hcontent : string.content = chars.flatten) :
    svStringSanitize string = createStringFromBuffer (sanitizeChars chars).flatten := by
  have hlength : string.length = chars.length := by
    have hcount := string.hlength
    rw [hcontent, utf8Strnlen_flatten h] at hcount
    exact (Option.some.inj hcount).symm
  rw [svStringSanitize, hlength, sanitizeLoop_flatten h hcontent (Nat.zero_add _), List.drop_zero]

/-- **Sanitising a text.**  On a content cut into characters, `SV_StringSanitize` returns
the text of `sanitizeChars`. -/
theorem svStringSanitize_flatten (h : ∀ ch ∈ chars, IsChar ch) {string : SVString}
    (hcontent : string.content = chars.flatten) :
    ∃ sanitized, svStringSanitize string = some sanitized ∧
      sanitized.content = (sanitizeChars chars).flatten ∧
      sanitized.length = (sanitizeChars chars).length := by
  rw [svStringSanitize_eq h hcontent]
  exact createStringFromBuffer_flatten fun ch hmem => (isKept_of_mem_sanitizeChars hmem).isChar

/-- From any string, the loop appends kept characters only. -/
theorem exists_kept_of_sanitizeLoop (string : SVString) {steps i : Nat}
    (hsteps : i + steps = string.length) :
    ∃ chars : List (List Byte), (∀ ch ∈ chars, IsKept ch) ∧
      sanitizeLoop string string.length steps i = chars.flatten := by
  induction steps generalizing i with
  | zero => exact ⟨[], by simp, rfl⟩
  | succ steps ih =>
      have hchar : IsChar (charAt string i) := isChar_charAt (by omega)
      obtain ⟨chars, hkept, hloop⟩ := ih (i := i + 1) (by omega)
      rw [sanitizeLoop]
      by_cases hcut : i + 2 = string.length ∧ isColorMarker (charAt string i) = true
      · exact ⟨[], by simp, if_pos hcut⟩
      · refine ⟨(if IsKept (charAt string i) then charAt string i else [0x3F]) :: chars, ?_, ?_⟩
        · rintro ch (_ | ⟨_, hmem⟩)
          · split
            · assumption
            · exact isKept_questionMark
          · exact hkept ch hmem
        · rw [List.flatten_cons, ← hloop]
          simp only [accepted_iff_isKept hchar, if_neg hcut]

/-- A string that sanitising leaves unchanged is a text of kept characters, none of them
dropped. -/
theorem exists_kept_of_svStringSanitize {string : SVString}
    (h : svStringSanitize string = some string) :
    ∃ chars : List (List Byte), (∀ ch ∈ chars, IsKept ch) ∧ string.content = chars.flatten ∧
      sanitizeChars chars = chars := by
  obtain ⟨chars, hkept, hloop⟩ :=
    exists_kept_of_sanitizeLoop string (Nat.zero_add string.length)
  have hcontent : string.content = chars.flatten := by
    rw [svStringSanitize, hloop] at h
    exact content_of_createStringFromBuffer h
  refine ⟨chars, hkept, hcontent, ?_⟩
  have hchars : ∀ ch ∈ chars, IsChar ch := fun ch hmem => (hkept ch hmem).isChar
  rw [svStringSanitize_eq hchars hcontent] at h
  have hsame := content_of_createStringFromBuffer h
  exact flatten_injective (fun ch hmem => (isKept_of_mem_sanitizeChars hmem).isChar) hchars
    (hsame.symm.trans hcontent)

/-! ## Transcoding units -/

theorem exists_ofNat_of_lt {value : BitVec 16} {bound : Nat} (h : value.toNat < bound) :
    ∃ n < bound, value = BitVec.ofNat 16 n :=
  ⟨value.toNat, h, by simp⟩

theorem asciiByte {ch : BitVec 16} (h : ch.toNat < 128) :
    utf8NextCharLength (ch.setWidth 8) = 1 ∧ (ch.setWidth 8 = 0 → ch = 0) ∧
      ch &&& 0x80 = 0x00 ∧ (ch.setWidth 8).setWidth 16 = ch := by
  obtain ⟨n, hn, rfl⟩ := exists_ofNat_of_lt h
  revert n
  decide

theorem leadByte2 {high : BitVec 16} (h : high.toNat < 32) :
    utf8NextCharLength ((high ||| 0xC0).setWidth 8) = 2 ∧ (high ||| 0xC0).setWidth 8 ≠ 0#8 ∧
      ((high ||| 0xC0).setWidth 8).setWidth 16 = high ||| 0xC0 ∧
      (high ||| 0xC0) &&& 0x80 ≠ 0x00 ∧ (high ||| 0xC0) &&& 0xE0 ≠ 0xE0 ∧
      (high ||| 0xC0) &&& 0xC0 = 0xC0 ∧ (high ||| 0xC0) &&& 0x1F = high := by
  obtain ⟨n, hn, rfl⟩ := exists_ofNat_of_lt h
  revert n
  decide

theorem leadByte3 {high : BitVec 16} (h : high.toNat < 16) :
    utf8NextCharLength ((high ||| 0xE0).setWidth 8) = 3 ∧ (high ||| 0xE0).setWidth 8 ≠ 0#8 ∧
      ((high ||| 0xE0).setWidth 8).setWidth 16 = high ||| 0xE0 ∧
      (high ||| 0xE0) &&& 0x80 ≠ 0x00 ∧ (high ||| 0xE0) &&& 0xE0 = 0xE0 ∧
      (high ||| 0xE0) &&& 0x0F = high := by
  obtain ⟨n, hn, rfl⟩ := exists_ofNat_of_lt h
  revert n
  decide

theorem tailByte {low : BitVec 16} (h : low.toNat < 64) :
    ((low ||| 0x80).setWidth 8).setWidth 16 = low ||| 0x80 ∧ low ||| 0x80 ≠ 0 ∧
      (low ||| 0x80) &&& 0x3F = low := by
  obtain ⟨n, hn, rfl⟩ := exists_ofNat_of_lt h
  revert n
  decide

theorem shiftRight_lt {value : BitVec 16} (bound n : Nat) (h : value.toNat < bound * 2 ^ n) :
    (value >>> n).toNat < bound := by
  rw [BitVec.toNat_ushiftRight, Nat.shiftRight_eq_div_pow]
  exact Nat.div_lt_of_lt_mul (by rwa [Nat.mul_comm])

theorem low6_lt (value : BitVec 16) : (value &&& 0x3F).toNat < 64 := by
  have hle : (value &&& 0x3F).toNat ≤ 0x3F := by
    rw [BitVec.toNat_and]
    exact Nat.and_le_right
  omega

private theorem or_low6 (ch : BitVec 16) : ((ch >>> 6) <<< 6) ||| (ch &&& 0x3F) = ch := by
  apply BitVec.eq_of_getLsbD_eq
  intro i hi
  interval_cases i <;> simp

private theorem or_middle6_low6 (ch : BitVec 16) :
    ((ch >>> 12) <<< 12) ||| (((ch >>> 6) &&& 0x3F) <<< 6) ||| (ch &&& 0x3F) = ch := by
  apply BitVec.eq_of_getLsbD_eq
  intro i hi
  interval_cases i <;> simp

theorem eq_last_of_not_lt {ch : BitVec 16} (h : ¬ ch < 0xFFFF) : ch = 0xFFFF := by
  apply BitVec.eq_of_toNat_eq
  have hle : ¬ ch.toNat < 0xFFFF := h
  have hlt : ch.toNat < 0x10000 := ch.isLt
  show ch.toNat = 0xFFFF
  omega

/-- Every unit but 0 and 0xFFFF comes out as one character. -/
theorem isChar_utf8OfUnit {ch : BitVec 16} (hzero : ch ≠ 0) (hlast : ch ≠ 0xFFFF) :
    IsChar (utf8OfUnit ch) := by
  unfold utf8OfUnit
  split_ifs with hmark hone htwo hthree
  · decide
  · have hbyte := asciiByte hone
    exact ⟨fun h => hzero (hbyte.2.1 h), hbyte.1⟩
  · have hbyte := leadByte2 (shiftRight_lt 32 6 htwo)
    exact ⟨hbyte.2.1, hbyte.1⟩
  · have hbyte := leadByte3 (shiftRight_lt 16 12 ch.isLt)
    exact ⟨hbyte.2.1, hbyte.1⟩
  · exact absurd (eq_last_of_not_lt hthree) hlast

theorem ucs2OfChar_utf8OfUnit {ch : BitVec 16} (hmark : ch ≠ 0xfffd) (hlast : ch ≠ 0xFFFF) :
    ucs2OfChar (utf8OfUnit ch) = ch := by
  unfold utf8OfUnit
  rw [if_neg hmark]
  split_ifs with hone htwo hthree
  · have hbyte := asciiByte hone
    simp only [ucs2OfChar, List.getD_cons_zero, hbyte.2.2.2, hbyte.2.2.1, if_true]
  · have hhigh := leadByte2 (shiftRight_lt 32 6 htwo)
    have hlow := tailByte (low6_lt ch)
    simp only [ucs2OfChar, List.getD_cons_zero, List.getD_cons_succ, hhigh.2.2.1,
      if_neg hhigh.2.2.2.1, if_neg hhigh.2.2.2.2.1, if_pos hhigh.2.2.2.2.2.1, hlow.1,
      if_neg hlow.2.1, hhigh.2.2.2.2.2.2, hlow.2.2, or_low6]
  · have hhigh := leadByte3 (shiftRight_lt 16 12 ch.isLt)
    have hmiddle := tailByte (low6_lt (ch >>> 6))
    have hlow := tailByte (low6_lt ch)
    simp only [ucs2OfChar, List.getD_cons_zero, List.getD_cons_succ, hhigh.2.2.1,
      if_neg hhigh.2.2.2.1, if_pos hhigh.2.2.2.2.1, hmiddle.1, hlow.1, hmiddle.2.1, hlow.2.1,
      or_self, if_false, hhigh.2.2.2.2.2, hmiddle.2.2, hlow.2.2, or_middle6_low6]
  · exact absurd (eq_last_of_not_lt hthree) hlast

end Craftd.Protocol
