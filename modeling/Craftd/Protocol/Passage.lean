import Craftd.Protocol.Wire
import Craftd.Protocol.Framing

/-!
# Which fields survive a decoder and an encoder?

A field that the decoder read is sent again by the encoder.  `Passage.Plain` says, as a
condition on the bytes, when it is sent as it came: a text survives when sanitising and
the two transcodings leave its units alone, a float unless it is a signalling NaN, a
coordinate that the decoder keeps in a byte when it fits, and every other field survives.
-/

namespace Craftd.Protocol

open Craftd.Containers ByteReader

/-! ## Texts -/

/-- A text of characters that sanitising keeps. -/
def Kept (string : SVString) : Prop :=
  ∃ chars : List (List Byte), (∀ ch ∈ chars, IsKept ch) ∧ string.content = chars.flatten

/-- Units that come back as they are: none is lost or replaced in transcoding, and the second
to last does not mark a colour, at which sanitising would cut the text. -/
def PlainUnits (units : List (BitVec 16)) : Prop :=
  0xFFFD ∉ units ∧ 0xFFFF ∉ units ∧ ∀ before last, units ≠ before ++ [0xA7, last]

/-- The units of the text at the front of `bytes`. -/
def textUnits (bytes : List Byte) : List (BitVec 16) :=
  wordList 2 16 (number 2 bytes) (bytes.drop 2)

/-- Among kept characters sanitising only looks for a colour marker that stands second to
last. -/
theorem sanitizeChars_eq_self_iff {chars : List (List Byte)} (hkept : ∀ ch ∈ chars, IsKept ch) :
    sanitizeChars chars = chars ↔ ∀ before last, chars ≠ before ++ [colorMarker, last] := by
  induction chars with
  | nil =>
      refine iff_of_true rfl fun before last heq => ?_
      cases before <;> cases heq
  | cons ch rest ih =>
      have hrest := ih fun other hmem => hkept other (.tail _ hmem)
      rw [sanitizeChars]
      by_cases hcut : rest.length = 1 ∧ ch = colorMarker
      · rw [if_pos hcut]
        obtain ⟨last, rfl⟩ := List.length_eq_one_iff.mp hcut.1
        refine iff_of_false (fun hempty => by cases hempty) fun hnone => hnone [] last ?_
        rw [hcut.2]
        rfl
      · rw [if_neg hcut, if_pos (hkept ch (.head _)), List.cons.injEq, and_iff_right rfl, hrest]
        constructor
        · intro hnone before last heq
          cases before with
          | nil =>
              cases heq
              exact hcut ⟨rfl, rfl⟩
          | cons first before =>
              cases heq
              exact hnone before last rfl
        · rintro hnone before last rfl
          exact hnone (ch :: before) last rfl

private theorem ucs2OfChar_ne_replacement {ch : List Byte} (h : IsKept ch) :
    ucs2OfChar ch ≠ 0xFFFD := by
  have hall : ∀ ch ∈ keptChars, ucs2OfChar ch ≠ 0xFFFD := by decide +kernel
  exact hall ch h

theorem chars_of_units {units : List (BitVec 16)} {chars : List (List Byte)}
    (hkept : ∀ ch ∈ chars, IsKept ch) (hcontent : units.flatMap utf8OfUnit = chars.flatten) :
    chars = (units.filter (· ≠ 0xFFFF)).map utf8OfUnit := by
  have hlast : utf8OfUnit 0xFFFF = [] := by decide
  have hflat : units.flatMap utf8OfUnit =
      ((units.filter (· ≠ 0xFFFF)).map utf8OfUnit).flatten := by
    clear hcontent
    induction units with
    | nil => rfl
    | cons unit units ih =>
        rw [List.flatMap_cons, ih]
        by_cases hunit : unit = 0xFFFF
        · subst hunit
          rw [hlast, List.nil_append, List.filter_cons_of_neg (by decide)]
        · rw [List.filter_cons_of_pos (by simpa using hunit), List.map_cons, List.flatten_cons]
  have hnul : 0 ∉ chars.flatten := by
    have hall : ∀ ch ∈ keptChars, 0 ∉ ch := by decide +kernel
    rw [List.mem_flatten]
    rintro ⟨ch, hmem, hzero⟩
    exact hall ch (hkept ch hmem) hzero
  refine flatten_injective (fun ch hmem => (hkept ch hmem).isChar) ?_ (hcontent.symm.trans hflat)
  intro ch hmem
  obtain ⟨unit, hunit, rfl⟩ := List.mem_map.mp hmem
  rw [List.mem_filter, decide_eq_true_iff] at hunit
  refine isChar_utf8OfUnit ?_ hunit.2
  rintro rfl
  refine hnul ?_
  rw [← hcontent]
  exact List.mem_flatMap.mpr ⟨0, hunit.1, by decide⟩

/-- **Which texts survive.**  The units that are sent for a text that was received. -/
theorem units_survive_iff {units : List (BitVec 16)} {chars : List (List Byte)}
    (hkept : ∀ ch ∈ chars, IsKept ch) (hcontent : units.flatMap utf8OfUnit = chars.flatten) :
    (sanitizeChars chars).length ≤ units.length ∧
      ((sanitizeChars chars).map ucs2OfChar = units ↔ PlainUnits units) := by
  have hchars := chars_of_units hkept hcontent
  have hfilter : (units.filter (· ≠ 0xFFFF)).length ≤ units.length := List.length_filter_le _ _
  have hcount : chars.length = (units.filter (· ≠ 0xFFFF)).length := by
    rw [hchars, List.length_map]
  have hsanitize := length_sanitizeChars_le chars
  have hself := sanitizeChars_eq_self_iff hkept
  -- without 0xFFFF the characters are those of the units, one for one
  have hwhole : 0xFFFF ∉ units → chars = units.map utf8OfUnit := by
    intro hlast
    have hall : units.filter (· ≠ 0xFFFF) = units := by
      rw [List.filter_eq_self]
      intro unit hmem
      rw [decide_eq_true_iff]
      rintro rfl
      exact hlast hmem
    rwa [hall] at hchars
  refine ⟨by omega, ?_, ?_⟩
  · intro hsame
    have hlength : (sanitizeChars chars).length = units.length := by
      rw [← hsame, List.length_map]
    have hlast : 0xFFFF ∉ units := by
      intro hmem
      have hall : units.filter (· ≠ 0xFFFF) = units :=
        List.length_filter_eq_length_iff.mp (by omega) |> List.filter_eq_self.mpr
      rw [← hall, List.mem_filter, decide_eq_true_iff] at hmem
      exact hmem.2 rfl
    refine ⟨?_, hlast, ?_⟩
    · intro hmem
      rw [← hsame] at hmem
      obtain ⟨ch, hch, hunit⟩ := List.mem_map.mp hmem
      exact ucs2OfChar_ne_replacement (isKept_of_mem_sanitizeChars hch) hunit
    · rintro before last rfl
      have hcut : chars = before.map utf8OfUnit ++ [colorMarker, utf8OfUnit last] := by
        rw [hwhole hlast, List.map_append]
        rfl
      have hshort : ∀ (before : List (List Byte)) (last : List Byte),
          (sanitizeChars (before ++ [colorMarker, last])).length ≤ before.length := by
        intro before last
        induction before with
        | nil => exact Nat.le_refl _
        | cons ch before ih =>
            rw [List.cons_append, sanitizeChars]
            split_ifs
            · exact Nat.zero_le _
            all_goals exact Nat.succ_le_succ ih
      have hle := hshort (before.map utf8OfUnit) (utf8OfUnit last)
      rw [← hcut, hlength, List.length_map, List.length_append] at hle
      simp at hle
  · rintro ⟨hmark, hlast, hcolor⟩
    have hunits : ∀ unit ∈ units, ucs2OfChar (utf8OfUnit unit) = unit := by
      intro unit hmem
      exact ucs2OfChar_utf8OfUnit (fun h => hmark (h ▸ hmem)) fun h => hlast (h ▸ hmem)
    have hback : (units.map utf8OfUnit).map ucs2OfChar = units := by
      rw [List.map_map]
      conv_rhs => rw [← List.map_id units]
      exact List.map_congr_left hunits
    have hnone : ∀ before last, chars ≠ before ++ [colorMarker, last] := by
      rintro before last hcut
      have hcodes := congrArg (List.map ucs2OfChar) hcut
      rw [hwhole hlast, hback, List.map_append] at hcodes
      exact hcolor _ _ hcodes
    rw [hself.mpr hnone, hwhole hlast, hback]

theorem textUnits_append (units : List (BitVec 16)) (hcount : units.length < 0x8000)
    (rest : List Byte) :
    number 2 (BigEndian.toBytes 2 units.length ++ wordBytes 2 units ++ rest) = units.length ∧
      textUnits (BigEndian.toBytes 2 units.length ++ wordBytes 2 units ++ rest) = units := by
  have hlength := BigEndian.length_toBytes 2 units.length
  have hnumber : number 2 (BigEndian.toBytes 2 units.length ++ wordBytes 2 units ++ rest) =
      units.length := by
    rw [List.append_assoc, number_append hlength, BigEndian.ofBytes_toBytes]
    exact Nat.mod_eq_of_lt (by omega)
  refine ⟨hnumber, ?_⟩
  unfold textUnits
  rw [hnumber, List.append_assoc, List.drop_left' hlength]
  exact wordList_append (rfl : 16 = 8 * 2) units rest

/-- What is sent for a text that was received is no longer, and the same when the units are
plain. -/
theorem bufferAddString16_kept {string : SVString} {wire : List Byte} (hkept : Kept string)
    (hwire : String16Wire string wire) :
    ∃ out, bufferAddString16 string = .ok out ∧ out.length ≤ wire.length ∧
      (out = wire ↔ PlainUnits (textUnits wire)) := by
  obtain ⟨chars, hchars, hcontent⟩ := hkept
  obtain ⟨units, hcount, hunits, rfl⟩ := hwire
  obtain ⟨hle, hsurvive⟩ := units_survive_iff hchars (hunits.symm.trans hcontent)
  have htext := (textUnits_append units hcount []).2
  rw [List.append_nil] at htext
  refine ⟨_, bufferAddString16_flatten (fun ch hmem => (hchars ch hmem).isChar) hcontent, ?_, ?_⟩
  · simp only [List.length_append, BigEndian.length_toBytes, length_wordBytes, List.length_map]
    omega
  · rw [htext, ← hsurvive]
    constructor
    · intro hsame
      have hwords := (List.append_inj hsame (by simp only [BigEndian.length_toBytes])).2
      exact wordBytes_injective (rfl : 16 = 8 * 2) (by decide) hwords
    · intro hsame
      have hlength := congrArg List.length hsame
      rw [List.length_map] at hlength
      rw [hsame, hlength]

/-! ## Fields -/

/-- How a field gets from the decoder to the encoder: as it is, or through an `SVByte`. -/
inductive Passage
  | whole (letter : Letter)
  | byteOfShort
  | byteOfInteger

/-- The letter of a field, which both formats have. -/
abbrev Passage.letter : Passage → Letter
  | .whole letter => letter
  | .byteOfShort => .s
  | .byteOfInteger => .i

/-- The format of a packet's fields. -/
abbrev letters (passages : List Passage) : List Letter := passages.map Passage.letter

/-- What the encoder gets for a field that the decoder read. -/
def Passage.pass : (passage : Passage) → passage.letter.Field → passage.letter.Field
  | .whole _, field => field
  | .byteOfShort, field => (field.setWidth 8).signExtend 16
  | .byteOfInteger, field => (field.setWidth 8).signExtend 32

/-- What the encoder gets for the fields of a packet. -/
def passFields : (passages : List Passage) → Fields (letters passages) → Fields (letters passages)
  | [], _ => ()
  | passage :: rest, (field, fields) => (passage.pass field, passFields rest fields)

/-- The number is that of an `SVByte`, sign extended. -/
def FitsByte (w value : Nat) : Prop :=
  ((BitVec.ofNat w value).setWidth 8).signExtend w = BitVec.ofNat w value

/-- The field at the front of `bytes` comes out as it went in. -/
def Passage.Plain (passage : Passage) (bytes : List Byte) : Prop :=
  match passage with
  | .whole .U => PlainUnits (textUnits bytes)
  | .whole .f => ¬ Signalling (BitVec.ofNat 32 (number 4 bytes))
  | .whole _ => True
  | .byteOfShort => FitsByte 16 (number 2 bytes)
  | .byteOfInteger => FitsByte 32 (number 4 bytes)

/-- How many bytes the field at the front of `bytes` takes. -/
def Passage.size (passage : Passage) (bytes : List Byte) : Nat :=
  if passage.letter = .U then 2 + 2 * number 2 bytes else passage.letter.width

/-- The fields at the front of `bytes` come out as they went in. -/
def PlainFields : List Passage → List Byte → Prop
  | [], _ => True
  | passage :: rest, bytes =>
      passage.Plain bytes ∧ PlainFields rest (bytes.drop (passage.size bytes))

/-- The texts among the arguments of a format. -/
def texts : (format : List Letter) → Fields format → List SVString
  | [], _ => []
  | .U :: rest, (text, fields) => text :: texts rest fields
  | _ :: rest, (_, fields) => texts rest fields

theorem ofNat_number_short (value : SVShort) (rest : List Byte) :
    BitVec.ofNat 16 (number 2 (bufferAddShort value ++ rest)) = value := by
  rw [bufferAddShort, number_append (BigEndian.length_toBytes 2 value.toNat)]
  exact BigEndian.ofNat_ofBytes (rfl : 16 = 8 * 2) value

theorem ofNat_number_integer (value : SVInteger) (rest : List Byte) :
    BitVec.ofNat 32 (number 4 (bufferAddInteger value ++ rest)) = value := by
  rw [bufferAddInteger, number_append (BigEndian.length_toBytes 4 value.toNat)]
  exact BigEndian.ofNat_ofBytes (rfl : 32 = 8 * 4) value

theorem bufferAddShort_inj {value value' : SVShort} :
    bufferAddShort value = bufferAddShort value' ↔ value = value' := by
  constructor
  · intro hsame
    rw [← ofNat_number_short value [], hsame, ofNat_number_short]
  · exact congrArg bufferAddShort

theorem bufferAddInteger_inj {value value' : SVInteger} :
    bufferAddInteger value = bufferAddInteger value' ↔ value = value' := by
  constructor
  · intro hsame
    rw [← ofNat_number_integer value [], hsame, ofNat_number_integer]
  · exact congrArg bufferAddInteger

@[simp] theorem length_bufferAddShort (value : SVShort) : (bufferAddShort value).length = 2 :=
  BigEndian.length_toBytes 2 _

@[simp] theorem length_bufferAddInteger (value : SVInteger) :
    (bufferAddInteger value).length = 4 :=
  BigEndian.length_toBytes 4 _

@[simp] theorem length_bufferAddLong (value : SVLong) : (bufferAddLong value).length = 8 :=
  BigEndian.length_toBytes 8 _

/-- What is sent for a field is no longer than what was received, and the same when the field is
plain. -/
theorem bufferAddField_passed {passage : Passage} {field : passage.letter.Field}
    {wire : List Byte} (hletter : passage.letter.scalar = true ∨ passage.letter = .U)
    (hwire : passage.letter.Wire field wire)
    (hkept : ∀ text ∈ texts [passage.letter] (field, ()), Kept text) (rest : List Byte) :
    (∃ out, bufferAddField passage.letter (passage.pass field) = .ok out ∧
      out.length ≤ wire.length ∧ (out = wire ↔ passage.Plain (wire ++ rest))) ∧
      passage.size (wire ++ rest) = wire.length := by
  cases passage with
  | byteOfShort =>
      -- a short comes back exactly if it fits the byte that it passes through
      obtain rfl : wire = bufferAddShort field := hwire
      refine ⟨⟨_, rfl, by simp, ?_⟩, by simp [Passage.size, Letter.width]⟩
      unfold Passage.Plain FitsByte
      dsimp only
      rw [ofNat_number_short]
      exact bufferAddShort_inj
  | byteOfInteger =>
      obtain rfl : wire = bufferAddInteger field := hwire
      refine ⟨⟨_, rfl, by simp, ?_⟩, by simp [Passage.size, Letter.width]⟩
      unfold Passage.Plain FitsByte
      dsimp only
      rw [ofNat_number_integer]
      exact bufferAddInteger_inj
  | whole letter =>
      cases letter
      case U =>
        -- a text comes back if its units are plain
        have htext : Kept field := hkept field (.head _)
        obtain ⟨out, hout, hle, hsame⟩ := bufferAddString16_kept htext hwire
        obtain ⟨units, hcount, -, rfl⟩ := hwire
        have hunits := textUnits_append units hcount []
        have hunits' := textUnits_append units hcount rest
        rw [List.append_nil] at hunits
        refine ⟨⟨out, hout, hle, ?_⟩, ?_⟩
        · rw [hsame, hunits.2]
          show _ ↔ PlainUnits (textUnits _)
          rw [hunits'.2]
        · show 2 + 2 * number 2 _ = _
          rw [hunits'.1, List.length_append, BigEndian.length_toBytes, length_wordBytes]
      case f =>
        -- a float comes back unless `va_arg` makes a signalling NaN quiet
        obtain rfl : wire = bufferAddInteger field := hwire
        refine ⟨⟨_, rfl, by simp, ?_⟩, by simp [Passage.size, Letter.width]⟩
        unfold Passage.Plain
        dsimp only
        rw [ofNat_number_integer, ← vaFloat_eq_self_iff]
        exact bufferAddInteger_inj
      case S => exact absurd hletter (by decide)
      case M => exact absurd hletter (by decide)
      all_goals
        -- the other fields are not changed on the way
        cases hwire
        refine ⟨⟨_, rfl, Nat.le_refl _, iff_of_true rfl trivial⟩, ?_⟩
        simp [Passage.size, Letter.width]

/-- Two parts that are no longer than two others spell the same together only when each does. -/
theorem append_eq_append_iff_of_le {first first' second second' : List Byte}
    (hfirst : first.length ≤ first'.length) (hsecond : second.length ≤ second'.length) :
    first ++ second = first' ++ second' ↔ first = first' ∧ second = second' := by
  constructor
  · intro hsame
    have hlength := congrArg List.length hsame
    rw [List.length_append, List.length_append] at hlength
    exact List.append_inj hsame (by omega)
  · rintro ⟨rfl, rfl⟩
    rfl

theorem texts_cons {letter : Letter} {rest : List Letter} {field : letter.Field}
    {fields : Fields rest} {text : SVString} :
    text ∈ texts (letter :: rest) (field, fields) ↔
      text ∈ texts [letter] (field, ()) ∨ text ∈ texts rest fields := by
  cases letter <;> simp [texts]

/-- **Which fields survive.**  What is sent for the fields of a packet is no longer than what was
received, and the same when all of them are plain. -/
theorem bufferAddFormat_passed {passages : List Passage} {fields : Fields (letters passages)}
    {wire : List Byte}
    (hletters : ∀ passage ∈ passages, passage.letter.scalar = true ∨ passage.letter = .U)
    (hwire : FormatWire (letters passages) fields wire)
    (hkept : ∀ text ∈ texts (letters passages) fields, Kept text) (more : List Byte) :
    ∃ out, bufferAddFormat (letters passages) (passFields passages fields) = .ok out ∧
      out.length ≤ wire.length ∧ (out = wire ↔ PlainFields passages (wire ++ more)) := by
  induction passages generalizing wire with
  | nil =>
      obtain rfl : wire = [] := hwire
      exact ⟨[], rfl, Nat.le_refl _, iff_of_true rfl trivial⟩
  | cons passage rest ih =>
      obtain ⟨field, fields⟩ := fields
      obtain ⟨first, second, rfl, hfirst, hsecond⟩ := hwire
      have hkept' : ∀ text, text ∈ texts [passage.letter] (field, ()) ∨
          text ∈ texts (letters rest) fields → Kept text :=
        fun text hmem => hkept text (texts_cons.mpr hmem)
      obtain ⟨⟨out, hout, hle, hsame⟩, hsize⟩ := bufferAddField_passed (hletters _ (.head _)) hfirst
        (fun text hmem => hkept' text (.inl hmem)) (second ++ more)
      obtain ⟨outs, houts, hles, hsames⟩ := ih (fun other hmem => hletters other (.tail _ hmem))
        hsecond fun text hmem => hkept' text (.inr hmem)
      refine ⟨out ++ outs, ?_, ?_, ?_⟩
      · show (do return (← bufferAddField _ (passage.pass field)) ++
          (← bufferAddFormat _ (passFields rest fields)) : Added) = _
        rw [hout, houts]
        rfl
      · rw [List.length_append, List.length_append]
        omega
      · rw [append_eq_append_iff_of_le hle hles, hsame, hsames, PlainFields, List.append_assoc,
          hsize, List.drop_left]

end Craftd.Protocol
