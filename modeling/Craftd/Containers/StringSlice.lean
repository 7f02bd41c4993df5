import Craftd.Containers.String

/-!
# Slices of a string

A translation of `CD_CreateStringFromOffset` and `CD_CharAt`, and what they
return on well-formed UTF-8.

A well-formed string without NUL is the encoding of a text, a list of
characters other than NUL.  Each character's encoding is one `IsChar`
(`isChar_utf8Bytes`), so the length counts the characters and the offset walk
stops where a character starts; a slice is then the encoding of a stretch of
the text.
-/

namespace Craftd.Containers

/-- `strlen`, with a NUL behind the content. -/
def strlen (data : List Byte) : ℕ := (data.takeWhile (· ≠ 0)).length

/-- `CD_CreateStringFromOffset`: the inner `none` is the NULL it returns, the outer one a
length that is never found.  A slice that reaches beyond the content is filled up with
the NULs behind it. -/
def createStringFromOffset (string : CDString) (offset limit : ℕ) : Option (Option CDString) :=
  if string.length ≤ offset then some none
  else
    let data := string.content.drop (utf8Offset string.content offset)
    let limit := if limit = 0 then strlen data else utf8Offset data limit
    (createStringFromBuffer ((data ++ List.replicate limit 0).take limit)).map some

/-- `CD_CharAt`. -/
def createCharAt (string : CDString) (index : ℕ) : Option (Option CDString) :=
  createStringFromOffset string index 1

/-- What `CD_CharAt` returns below the length has the content that the loops over the
characters of a string compare. -/
theorem createCharAt_eq {string : CDString} {index : ℕ} (hindex : index < string.length) :
    createCharAt string index = (createStringFromBuffer (charAt string index)).map some := by
  rw [createCharAt, createStringFromOffset, if_neg (Nat.not_le.mpr hindex)]
  rfl

/-! ## Well-formed strings -/

/-- The UTF-8 bytes of a character. -/
def utf8Bytes (c : Char) : List Byte := (String.utf8EncodeChar c).map UInt8.toBitVec

/-- The UTF-8 bytes of a text, character by character. -/
def utf8Chars (text : List Char) : List (List Byte) := text.map utf8Bytes

/-- The UTF-8 bytes of a text. -/
def utf8Text (text : List Char) : List Byte := (utf8Chars text).flatten

private theorem leadByte1 {value : ℕ} (h : value < 0x80) (hne : value ≠ 0) :
    (UInt8.ofNat value).toBitVec ≠ 0 ∧ utf8NextCharLength (UInt8.ofNat value).toBitVec = 1 := by
  revert value
  decide

theorem leadByte2 {value : ℕ} (h : value < 0x20) :
    (UInt8.ofNat (value + 0xc0)).toBitVec ≠ 0 ∧
      utf8NextCharLength (UInt8.ofNat (value + 0xc0)).toBitVec = 2 := by
  revert value
  decide

theorem leadByte3 {value : ℕ} (h : value < 0x10) :
    (UInt8.ofNat (value + 0xe0)).toBitVec ≠ 0 ∧
      utf8NextCharLength (UInt8.ofNat (value + 0xe0)).toBitVec = 3 := by
  revert value
  decide

private theorem leadByte4 {value : ℕ} (h : value < 0x08) :
    (UInt8.ofNat (value + 0xf0)).toBitVec ≠ 0 ∧
      utf8NextCharLength (UInt8.ofNat (value + 0xf0)).toBitVec = 4 := by
  revert value
  decide

private theorem tailByte_ne_zero {value : ℕ} (h : value < 0x40) :
    (UInt8.ofNat (value + 0x80)).toBitVec ≠ 0 := by
  revert value
  decide

theorem isChar_utf8Bytes {c : Char} (hnul : c ≠ Char.ofNat 0) :
    IsChar (utf8Bytes c) ∧ 0 ∉ utf8Bytes c := by
  have hne : c.val.toNat ≠ 0 := by
    intro hzero
    apply hnul
    exact Char.ext (UInt32.toNat.inj hzero)
  have htail : ∀ value : ℕ, (0 : Byte) ≠ (UInt8.ofNat (value % 0x40 + 0x80)).toBitVec := by
    intro value
    exact (tailByte_ne_zero (Nat.mod_lt _ (by decide))).symm
  unfold utf8Bytes String.utf8EncodeChar
  dsimp only
  split_ifs with hone htwo hthree
  · have hlead := leadByte1 (Nat.lt_succ_of_le hone) hne
    exact ⟨hlead, by simpa using hlead.1.symm⟩
  · have hlead := leadByte2 (Nat.mod_lt (c.val.toNat / 64) (by decide))
    refine ⟨hlead, ?_⟩
    simp only [List.map_cons, List.map_nil, List.mem_cons, List.not_mem_nil, or_false, not_or]
    exact ⟨hlead.1.symm, htail _⟩
  · have hlead := leadByte3 (Nat.mod_lt (c.val.toNat / 4096) (by decide))
    refine ⟨hlead, ?_⟩
    simp only [List.map_cons, List.map_nil, List.mem_cons, List.not_mem_nil, or_false, not_or]
    exact ⟨hlead.1.symm, htail _, htail _⟩
  · have hlead := leadByte4 (Nat.mod_lt (c.val.toNat / 262144) (by decide))
    refine ⟨hlead, ?_⟩
    simp only [List.map_cons, List.map_nil, List.mem_cons, List.not_mem_nil, or_false, not_or]
    exact ⟨hlead.1.symm, htail _, htail _, htail _⟩

theorem utf8Bytes_injective : Function.Injective utf8Bytes := by
  intro c d heq
  have hbytes : String.utf8EncodeChar c = String.utf8EncodeChar d := by
    apply List.map_injective_iff.mpr _ heq
    intro a b hab
    exact UInt8.toBitVec_inj.mp hab
  have hc := ByteArray.utf8DecodeChar?_utf8EncodeChar_append (b := ByteArray.empty) (c := c)
  have hd := ByteArray.utf8DecodeChar?_utf8EncodeChar_append (b := ByteArray.empty) (c := d)
  rw [hbytes, hd] at hc
  exact (Option.some.inj hc).symm

variable {text : List Char}

theorem isChar_of_mem_utf8Chars (hnul : Char.ofNat 0 ∉ text) :
    ∀ ch ∈ utf8Chars text, IsChar ch := by
  intro ch hmem
  obtain ⟨c, hc, rfl⟩ := List.mem_map.mp hmem
  exact (isChar_utf8Bytes fun hzero => hnul (hzero ▸ hc)).1

theorem nul_notMem_utf8Text (hnul : Char.ofNat 0 ∉ text) : 0 ∉ utf8Text text := by
  intro hmem
  obtain ⟨ch, hch, hbyte⟩ := List.mem_flatten.mp hmem
  obtain ⟨c, hc, rfl⟩ := List.mem_map.mp hch
  exact (isChar_utf8Bytes fun hzero => hnul (hzero ▸ hc)).2 hbyte

theorem utf8Text_append (text others : List Char) :
    utf8Text (text ++ others) = utf8Text text ++ utf8Text others := by
  rw [utf8Text, utf8Chars, List.map_append, List.flatten_append]
  rfl

private theorem utf8Chars_slice (offset limit : ℕ) :
    ((utf8Chars text).drop offset).take limit = utf8Chars ((text.drop offset).take limit) := by
  rw [utf8Chars, utf8Chars, List.map_take, List.map_drop]

/-! ## Slices -/

variable {chars : List (List Byte)} {string : CDString} {offset limit : ℕ}

/-- The length of a string counts the characters its content is cut into. -/
theorem length_of_flatten (h : ∀ ch ∈ chars, IsChar ch)
    (hcontent : string.content = chars.flatten) : string.length = chars.length := by
  have hcount := string.hlength
  rw [hcontent, utf8Strnlen_flatten h] at hcount
  exact (Option.some.inj hcount).symm

theorem strlen_eq {data : List Byte} (hnul : 0 ∉ data) : strlen data = data.length := by
  have hall : ∀ byte ∈ data, decide (byte ≠ 0) = true := by
    intro byte hmem
    exact decide_eq_true fun hzero => hnul (hzero ▸ hmem)
  rw [strlen, ← List.append_nil data, List.takeWhile_append_of_pos hall]
  simp

theorem createStringFromOffset_flatten (h : ∀ ch ∈ chars, IsChar ch)
    (hcontent : string.content = chars.flatten) (hlimit : 0 < limit)
    (hle : offset + limit ≤ chars.length) :
    ∃ slice, createStringFromOffset string offset limit = some (some slice) ∧
      slice.content = ((chars.drop offset).take limit).flatten := by
  have hrest : ∀ ch ∈ chars.drop offset, IsChar ch :=
    fun ch hmem => h ch (List.mem_of_mem_drop hmem)
  have hcount : limit ≤ (chars.drop offset).length := by
    rw [List.length_drop]
    omega
  have hchars : ∀ ch ∈ (chars.drop offset).take limit, IsChar ch :=
    fun ch hmem => hrest ch (List.mem_of_mem_take hmem)
  obtain ⟨slice, hcreate, hslice, -⟩ := createStringFromBuffer_flatten hchars
  refine ⟨slice, ?_, hslice⟩
  have hdata : string.content.drop (utf8Offset string.content offset) =
      ((chars.drop offset).take limit).flatten ++ ((chars.drop offset).drop limit).flatten := by
    rw [hcontent, utf8Offset_flatten h (by omega), drop_length_take_flatten, ← List.flatten_append,
      List.take_append_drop]
  have hlength : utf8Offset (((chars.drop offset).take limit).flatten ++
      ((chars.drop offset).drop limit).flatten) limit =
        ((chars.drop offset).take limit).flatten.length := by
    rw [← List.flatten_append, List.take_append_drop, utf8Offset_flatten hrest hcount]
  rw [createStringFromOffset, if_neg (by rw [length_of_flatten h hcontent]; omega)]
  simp only [hdata, if_neg (Nat.pos_iff_ne_zero.mp hlimit), hlength]
  rw [List.append_assoc, List.take_left, hcreate, Option.map_some]

theorem createStringFromOffset_rest (h : ∀ ch ∈ chars, IsChar ch) (hnul : 0 ∉ chars.flatten)
    (hcontent : string.content = chars.flatten) (hoffset : offset < chars.length) :
    ∃ rest, createStringFromOffset string offset 0 = some (some rest) ∧
      rest.content = (chars.drop offset).flatten := by
  have hchars : ∀ ch ∈ chars.drop offset, IsChar ch :=
    fun ch hmem => h ch (List.mem_of_mem_drop hmem)
  obtain ⟨rest, hcreate, hrest, -⟩ := createStringFromBuffer_flatten hchars
  refine ⟨rest, ?_, hrest⟩
  have hdata : string.content.drop (utf8Offset string.content offset) =
      (chars.drop offset).flatten := by
    rw [hcontent, utf8Offset_flatten h hoffset.le, drop_length_take_flatten]
  have hnulRest : 0 ∉ (chars.drop offset).flatten := by
    intro hmem
    apply hnul
    rw [← List.take_append_drop offset chars, List.flatten_append]
    exact List.mem_append_right _ hmem
  rw [createStringFromOffset, if_neg (by rw [length_of_flatten h hcontent]; omega)]
  simp only [hdata, if_true, strlen_eq hnulRest]
  rw [List.take_left, hcreate, Option.map_some]

/-- **UTF-8 slicing.**  The string of a well-formed text has as many characters as the text;
`CD_CreateStringFromOffset` returns the asked characters, everything from the offset on for
the limit 0, and NULL from the length on; and the characters `CD_CharAt` returns make up
the string. -/
theorem string_slices (hnul : Char.ofNat 0 ∉ text) :
    ∃ string, createStringFromBuffer (utf8Text text) = some string ∧
      string.length = text.length ∧
      (∀ offset limit, 0 < limit → offset + limit ≤ text.length →
        ∃ slice, createStringFromOffset string offset limit = some (some slice) ∧
          slice.content = utf8Text ((text.drop offset).take limit)) ∧
      (∀ offset < text.length, ∃ rest, createStringFromOffset string offset 0 = some (some rest) ∧
        rest.content = utf8Text (text.drop offset)) ∧
      (∀ offset limit, text.length ≤ offset →
        createStringFromOffset string offset limit = some none) ∧
      ∃ chars : List CDString, chars.length = text.length ∧
        (∀ index (hindex : index < chars.length),
          createCharAt string index = some (some (chars.get ⟨index, hindex⟩))) ∧
        (chars.map CDString.content).flatten = string.content := by
  have hchars := isChar_of_mem_utf8Chars hnul
  obtain ⟨string, hcreate, hcontent, hlength⟩ := createStringFromBuffer_flatten hchars
  have hcount : (utf8Chars text).length = text.length := List.length_map _
  refine ⟨string, hcreate, hlength.trans hcount, ?_, ?_, ?_, ?_⟩
  · intro offset limit hlimit hle
    rw [← hcount] at hle
    obtain ⟨slice, hslice, hresult⟩ := createStringFromOffset_flatten hchars hcontent hlimit hle
    exact ⟨slice, hslice, by rw [hresult, utf8Chars_slice, utf8Text]⟩
  · intro offset hoffset
    rw [← hcount] at hoffset
    obtain ⟨rest, hrest, hresult⟩ :=
      createStringFromOffset_rest hchars (nul_notMem_utf8Text hnul) hcontent hoffset
    exact ⟨rest, hrest, by rw [hresult, utf8Chars, utf8Text, utf8Chars, List.map_drop]⟩
  · intro offset limit hoffset
    rw [createStringFromOffset, if_pos (by omega)]
  · -- each character is the slice of length one at its index
    have hslices : ∀ index : Fin text.length, ∃ ch : CDString,
        createCharAt string index = some (some ch) ∧ ch.content = utf8Bytes (text.get index) := by
      intro index
      have hle : index + 1 ≤ (utf8Chars text).length := by omega
      obtain ⟨ch, hch, hresult⟩ :=
        createStringFromOffset_flatten hchars hcontent Nat.one_pos hle
      refine ⟨ch, hch, ?_⟩
      rw [hresult, List.take_one_drop_eq_of_lt_length hle, List.flatten_singleton]
      simp [utf8Chars]
    choose charOf hcharOf hbytes using hslices
    refine ⟨List.ofFn charOf, List.length_ofFn, ?_, ?_⟩
    · intro index hindex
      rw [List.length_ofFn] at hindex
      rw [hcharOf ⟨index, hindex⟩]
      simp
    · rw [hcontent]
      apply congrArg List.flatten
      apply List.ext_getElem
      · simp [utf8Chars]
      · intro index hindex hindex'
        simp [utf8Chars, hbytes]

theorem string_slices_mixed :
    ∃ string, createStringFromBuffer (utf8Text ['Æ', 'a', '⌂']) = some string ∧
      string.length = 3 ∧
      (∀ offset limit, 0 < limit → offset + limit ≤ 3 →
        ∃ slice, createStringFromOffset string offset limit = some (some slice) ∧
          slice.content = utf8Text ((['Æ', 'a', '⌂'].drop offset).take limit)) := by
  have hnul : Char.ofNat 0 ∉ ['Æ', 'a', '⌂'] := by decide
  obtain ⟨string, hcreate, hlength, hslices, -⟩ := string_slices hnul
  exact ⟨string, hcreate, hlength, hslices⟩

end Craftd.Containers
