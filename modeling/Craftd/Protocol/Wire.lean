import Craftd.Protocol.Buffer

/-!
# The letters on the wire

`Letter.Wire` says which bytes spell a field of a letter, and `FormatWire` which
bytes spell the arguments of a format string.  The readers of `Buffer.lean` agree
with it in both directions: a run that asked for no byte in vain took bytes that
spell the value it returned (`tracks_bufferRemoveFormat`), and bytes that spell a
value are read as this value (`reads_bufferRemoveFormat`).  What the writers append
for a field that the codec keeps spells that field (`exists_bufferAddFormat`).
-/

namespace Craftd.Protocol

open Craftd.Containers ByteReader

/-! ## What the letters mean -/

/-- The bytes of a `U` field: a count of units, and the units. -/
def String16Wire (string : SVString) (wire : List Byte) : Prop :=
  ∃ units : List (BitVec 16), units.length < 0x8000 ∧
    string.content = units.flatMap utf8OfUnit ∧
    wire = BigEndian.toBytes 2 units.length ++ wordBytes 2 units

/-- The bytes of an `S` field: a count of bytes, and the bytes. -/
def StringWire (string : SVString) (wire : List Byte) : Prop :=
  ∃ data : List Byte, data.length < 0x8000 ∧ string.content = data ++ [0] ∧
    wire = BigEndian.toBytes 2 data.length ++ data

/-- The bytes of the union of a metadata item. -/
def DataWire : SVData → List Byte → Prop
  | .b value, wire => wire = bufferAddByte value
  | .s value, wire => wire = bufferAddShort value
  | .i value, wire => wire = bufferAddInteger value
  | .f value, wire => wire = bufferAddInteger value
  | .S value, wire => StringWire value wire
  | .sbs first second third, wire =>
      wire = bufferAddShort first ++ bufferAddByte second ++ bufferAddShort third
  | .iii first second third, wire =>
      wire = bufferAddInteger first ++ bufferAddInteger second ++ bufferAddInteger third

/-- The bytes of an `M` field: items behind header bytes, whose upper bits are their
types, and a terminator unless the buffer ends first. -/
def MetadataWire : SVMetadata → List Byte → Prop
  | [], wire => wire = [] ∨ wire = [127]
  | item :: rest, wire =>
      ∃ header : SVByte, header ≠ 127 ∧ header.sshiftRight 5 = item.type ∧
        ∃ payload after, wire = header :: (payload ++ after) ∧ DataWire item payload ∧
          MetadataWire rest after

/-- The bytes of a field. -/
def Letter.Wire : (letter : Letter) → letter.Field → List Byte → Prop
  | .b, data, wire => wire = bufferAddByte data
  | .s, data, wire => wire = bufferAddShort data
  | .i, data, wire => wire = bufferAddInteger data
  | .l, data, wire => wire = bufferAddLong data
  | .f, data, wire => wire = bufferAddInteger data
  | .d, data, wire => wire = bufferAddLong data
  | .B, data, wire => wire = bufferAddByte data
  | .S, data, wire => StringWire data wire
  | .U, data, wire => String16Wire data wire
  | .M, data, wire => MetadataWire data wire

/-- The bytes of the arguments of a format string. -/
def FormatWire : (format : List Letter) → Fields format → List Byte → Prop
  | [], _, wire => wire = []
  | letter :: rest, (field, fields), wire =>
      ∃ first second, wire = first ++ second ∧ letter.Wire field first ∧
        FormatWire rest fields second

@[simp] theorem bufferAddByte_eq (data : SVByte) : bufferAddByte data = [data] := by
  simp [bufferAddByte, BigEndian.toBytes]

/-! ## Removing takes what spells the value -/

theorem tracks_bufferRemoveByte :
    Tracks bufferRemoveByte fun value wire => wire = bufferAddByte value :=
  Tracks.word (rfl : 8 = 8 * 1)

theorem tracks_bufferRemoveShort :
    Tracks bufferRemoveShort fun value wire => wire = bufferAddShort value :=
  Tracks.word (rfl : 16 = 8 * 2)

theorem tracks_bufferRemoveInteger :
    Tracks bufferRemoveInteger fun value wire => wire = bufferAddInteger value :=
  Tracks.word (rfl : 32 = 8 * 4)

theorem tracks_bufferRemoveLong :
    Tracks bufferRemoveLong fun value wire => wire = bufferAddLong value :=
  Tracks.word (rfl : 64 = 8 * 8)

theorem tracks_removedString (content : List Byte) :
    Tracks (removedString content) fun string wire => string.content = content ∧ wire = [] := by
  unfold removedString
  cases hcreate : createStringFromBuffer content with
  | none => exact Tracks.throw _ _
  | some string => exact Tracks.pure ⟨content_of_createStringFromBuffer hcreate, rfl⟩

theorem toNat_of_not_neg {length : SVShort} (h : ¬ length.toInt < 0) :
    length.toNat < 0x8000 ∧ length.toInt = length.toNat := by
  have hlt : length.toNat < 0x10000 := length.isLt
  rw [BitVec.toInt_eq_toNat_cond] at h ⊢
  split_ifs at h ⊢ with hsmall <;> omega

theorem tracks_bufferRemoveString16 : Tracks bufferRemoveString16 String16Wire := by
  unfold bufferRemoveString16
  refine tracks_bufferRemoveShort.bind fun length => ?_
  split_ifs with hneg
  · exact Tracks.throw _ _
  · refine (Tracks.words (rfl : 16 = 8 * 2) _).bind fun data => ?_
    dsimp only
    split_ifs
    · exact Tracks.throw _ _
    · refine (tracks_removedString _).mono ?_
      rintro string _ ⟨hcontent, rfl⟩ _ ⟨hcount, rfl⟩ _ rfl
      refine ⟨data, ?_, hcontent, by rw [List.append_nil, hcount]; rfl⟩
      rw [hcount]
      exact (toNat_of_not_neg hneg).1

theorem tracks_bufferRemoveString : Tracks bufferRemoveString StringWire := by
  unfold bufferRemoveString
  refine tracks_bufferRemoveShort.bind fun length => ?_
  split_ifs with hlow hone
  · exact Tracks.throw _ _
  · exact Tracks.throw _ _
  · refine (Tracks.remove _).bind fun data => ?_
    split_ifs with hshort
    · exact Tracks.throw _ _
    · refine (tracks_removedString _).mono ?_
      rintro string _ ⟨hcontent, rfl⟩ wire ⟨hdata, hcount⟩ _ rfl
      have hneg : ¬ length.toInt < 0 := by omega
      refine ⟨data, ?_, hcontent, by rw [List.append_nil, hdata, hcount]; rfl⟩
      rw [hcount]
      exact (toNat_of_not_neg hneg).1

/-- An item is read from bytes that spell it, and its type is in its header. -/
theorem tracks_bufferRemoveData (header : SVByte) :
    Tracks (bufferRemoveData header) fun item wire =>
      header.sshiftRight 5 = item.type ∧ DataWire item wire := by
  have htype : ∀ n : Nat, n < 256 → (header.sshiftRight 5).toNat = n →
      header.sshiftRight 5 = BitVec.ofNat 8 n := by
    rintro n - rfl
    simp
  unfold bufferRemoveData
  split
  -- the type is in the upper three bits of the header, one arm for each
  next h =>
    refine tracks_bufferRemoveByte.bind fun value => Tracks.pure ?_
    rintro _ rfl
    exact ⟨htype 0 (by decide) h, List.append_nil _⟩
  next h =>
    refine tracks_bufferRemoveShort.bind fun value => Tracks.pure ?_
    rintro _ rfl
    exact ⟨htype 1 (by decide) h, List.append_nil _⟩
  next h =>
    refine tracks_bufferRemoveInteger.bind fun value => Tracks.pure ?_
    rintro _ rfl
    exact ⟨htype 2 (by decide) h, List.append_nil _⟩
  next h =>
    refine tracks_bufferRemoveInteger.bind fun value => Tracks.pure ?_
    rintro _ rfl
    exact ⟨htype 3 (by decide) h, List.append_nil _⟩
  next h =>
    refine tracks_bufferRemoveString.bind fun value => Tracks.pure ?_
    intro wire hwire
    rw [List.append_nil]
    exact ⟨htype 4 (by decide) h, hwire⟩
  next h =>
    refine tracks_bufferRemoveShort.bind fun first => tracks_bufferRemoveByte.bind fun second =>
      tracks_bufferRemoveShort.bind fun third => Tracks.pure ?_
    rintro _ rfl _ rfl _ rfl
    refine ⟨htype 5 (by decide) h, ?_⟩
    simp [DataWire]
  next h =>
    refine tracks_bufferRemoveInteger.bind fun first =>
      tracks_bufferRemoveInteger.bind fun second =>
      tracks_bufferRemoveInteger.bind fun third => Tracks.pure ?_
    rintro _ rfl _ rfl _ rfl
    refine ⟨htype 6 (by decide) h, ?_⟩
    simp [DataWire]
  next => exact Tracks.throw _ _

private theorem tracks_removeMetadataRound {rest : Remove SVMetadata}
    (hrest : Tracks rest MetadataWire) :
    Tracks (do
      let type ← bufferRemoveByte
      if type = 127 then return []
      else
        let current ← bufferRemoveData type
        let items ← rest
        return current :: items : Remove SVMetadata) MetadataWire := by
  refine tracks_bufferRemoveByte.bind fun header => ?_
  split_ifs with hend
  · subst hend
    refine Tracks.pure ?_
    rintro _ rfl
    exact .inr rfl
  · refine (tracks_bufferRemoveData header).bind fun item => hrest.bind fun items =>
      Tracks.pure ?_
    rintro after hafter payload ⟨htype, hpayload⟩ _ rfl
    exact ⟨header, hend, htype, payload, after, by simp, hpayload, hafter⟩

private theorem tracks_removeMetadataLoop (rounds : Nat) :
    Tracks (removeMetadataLoop rounds) MetadataWire := by
  induction rounds with
  | zero => exact Tracks.pure (.inl rfl)
  | succ rounds ih =>
      intro source value source' hrun
      rw [removeMetadataLoop] at hrun
      dsimp only at hrun
      split_ifs at hrun with hempty
      · cases hrun
        exact ⟨[], rfl, Nat.le_refl _, fun _ => .inl rfl⟩
      · exact tracks_removeMetadataRound ih source value source' hrun

private theorem tracks_bufferRemoveMetadata : Tracks bufferRemoveMetadata MetadataWire :=
  fun source => tracks_removeMetadataLoop source.bytes.length source

theorem tracks_bufferRemoveField (letter : Letter) :
    Tracks (bufferRemoveField letter) letter.Wire := by
  cases letter with
  | b => exact tracks_bufferRemoveByte
  | s => exact tracks_bufferRemoveShort
  | i => exact tracks_bufferRemoveInteger
  | l => exact tracks_bufferRemoveLong
  | f => exact tracks_bufferRemoveInteger
  | d => exact tracks_bufferRemoveLong
  | B => exact tracks_bufferRemoveByte
  | S => exact tracks_bufferRemoveString
  | U => exact tracks_bufferRemoveString16
  | M => exact tracks_bufferRemoveMetadata

/-- **Removing is sound.**  What a format takes off the buffer, when all of it was there,
spells the arguments it returns. -/
theorem tracks_bufferRemoveFormat (format : List Letter) :
    Tracks (bufferRemoveFormat format) (FormatWire format) := by
  induction format with
  | nil => exact Tracks.pure rfl
  | cons letter rest ih =>
      refine (tracks_bufferRemoveField letter).bind fun field => ih.bind fun fields =>
        Tracks.pure ?_
      intro second hsecond first hfirst
      rw [List.append_nil]
      exact ⟨first, second, rfl, hfirst, hsecond⟩

/-! ## Adding spells the value, and removing reads it back -/

theorem bufferAddString16_flatten {chars : List (List Byte)} (h : ∀ ch ∈ chars, IsChar ch)
    {string : SVString} (hcontent : string.content = chars.flatten) :
    bufferAddString16 string = .ok (BigEndian.toBytes 2 (sanitizeChars chars).length ++
      wordBytes 2 ((sanitizeChars chars).map ucs2OfChar)) := by
  obtain ⟨sanitized, hsanitize, hresult, hlength⟩ := svStringSanitize_flatten h hcontent
  have hchars : ∀ ch ∈ sanitizeChars chars, IsChar ch :=
    fun ch hmem => (isKept_of_mem_sanitizeChars hmem).isChar
  have hucs2 : (List.range sanitized.length).map (fun i => ucs2OfChar (charAt sanitized i)) =
      (sanitizeChars chars).map ucs2OfChar := by
    apply List.ext_getElem
    · simp [hlength]
    · intro i hi hi'
      rw [List.length_map] at hi'
      rw [List.getElem_map, List.getElem_map, List.getElem_range, charAt_flatten hchars hresult hi']
  unfold bufferAddString16
  rw [hsanitize]
  dsimp only
  rw [hucs2, hlength]

/-- A string that sanitising leaves alone and that an `SVShort` can measure. -/
def Sendable (string : SVString) : Prop :=
  svStringSanitize string = some string ∧ string.size ≤ 32767

/-- The fields that come back unchanged: scalars, a float that no call changes, and sendable
strings behind a `U`. -/
@[simp] def Letter.Carried : (letter : Letter) → letter.Field → Prop
  | .f, float => vaFloat float = float
  | .S, _ => False
  | .U, string => Sendable string
  | .M, _ => False
  | _, _ => True

/-- Every argument of a format string comes back unchanged. -/
@[simp] def FormatCarried : (format : List Letter) → Fields format → Prop
  | [], _ => True
  | letter :: rest, (field, fields) => letter.Carried field ∧ FormatCarried rest fields

theorem string16Wire_of_kept {chars : List (List Byte)} (hkept : ∀ ch ∈ chars, IsKept ch)
    {string : SVString} (hcontent : string.content = chars.flatten) (hsize : string.size ≤ 32767) :
    String16Wire string
      (BigEndian.toBytes 2 chars.length ++ wordBytes 2 (chars.map ucs2OfChar)) := by
  have hchars : ∀ ch ∈ chars, IsChar ch := fun ch hmem => (hkept ch hmem).isChar
  -- a character takes a byte at least, so there are no more of them than bytes
  have hcount : chars.length ≤ chars.flatten.length := by
    clear hcontent hkept
    induction chars with
    | nil => exact Nat.le_refl _
    | cons ch chars ih =>
        have hpos := (hchars ch (.head _)).length_pos
        have := ih fun other hmem => hchars other (.tail _ hmem)
        rw [List.flatten_cons, List.length_append, List.length_cons]
        omega
  have hunits : chars.flatten = (chars.map ucs2OfChar).flatMap utf8OfUnit := by
    rw [List.flatMap_map]
    conv_lhs => rw [← List.map_id chars]
    rw [← List.flatMap_def]
    exact List.flatMap_congr fun ch hmem => (hkept ch hmem).transcode.symm
  refine ⟨chars.map ucs2OfChar, ?_, ?_, ?_⟩
  · rw [List.length_map]
    rw [CDString.size, hcontent] at hsize
    omega
  · rw [hcontent, hunits]
  · rw [List.length_map]

private theorem exists_bufferAddString16 {string : SVString} (h : Sendable string) :
    ∃ wire, bufferAddString16 string = .ok wire ∧ String16Wire string wire := by
  obtain ⟨chars, hkept, hcontent, hfixed⟩ := exists_kept_of_svStringSanitize h.1
  have hchars : ∀ ch ∈ chars, IsChar ch := fun ch hmem => (hkept ch hmem).isChar
  have hadd := bufferAddString16_flatten hchars hcontent
  rw [hfixed] at hadd
  exact ⟨_, hadd, string16Wire_of_kept hkept hcontent h.2⟩

theorem reads_removedString {string : SVString} :
    Reads (removedString string.content) [] string := by
  unfold removedString
  rw [createStringFromBuffer_eq]
  exact Reads.pure string

theorem reads_bufferRemoveString16 {string : SVString} {wire : List Byte}
    (h : String16Wire string wire) (hsize : string.size ≤ 32767) :
    Reads bufferRemoveString16 wire string := by
  obtain ⟨units, hcount, hcontent, rfl⟩ := h
  have hlength : (BitVec.ofNat 16 units.length).toNat = units.length := by
    rw [BitVec.toNat_ofNat]
    exact Nat.mod_eq_of_lt (by omega)
  have hneg : ¬ (BitVec.ofNat 16 units.length).toInt < 0 := by
    rw [BitVec.toInt_eq_toNat_cond, hlength]
    split_ifs <;> omega
  have hshort : Reads bufferRemoveShort (BigEndian.toBytes 2 units.length)
      (BitVec.ofNat 16 units.length) := by
    have hread : Reads bufferRemoveShort _ _ :=
      Reads.word (rfl : 16 = 8 * 2) (BitVec.ofNat 16 units.length)
    rwa [hlength] at hread
  unfold bufferRemoveString16
  refine hshort.bind ?_
  rw [if_neg hneg, hlength, ← List.append_nil (wordBytes 2 units)]
  refine (Reads.words (rfl : 16 = 8 * 2) units).bind ?_
  dsimp only
  rw [← hcontent, if_neg (by rw [CDString.size] at hsize; omega)]
  exact reads_removedString

theorem reads_bufferRemoveByte (data : SVByte) :
    Reads bufferRemoveByte (bufferAddByte data) data :=
  Reads.word (rfl : 8 = 8 * 1) data

theorem exists_bufferAddField {letter : Letter} {field : letter.Field}
    (h : letter.Carried field) :
    ∃ wire, bufferAddField letter field = .ok wire ∧ letter.Wire field wire := by
  cases letter with
  | f => exact ⟨_, rfl, congrArg bufferAddInteger h⟩
  | S => exact h.elim
  | U => exact exists_bufferAddString16 h
  | M => exact h.elim
  | _ => exact ⟨_, rfl, rfl⟩

theorem reads_bufferRemoveField {letter : Letter} {field : letter.Field} {wire : List Byte}
    (h : letter.Carried field) (hwire : letter.Wire field wire) :
    Reads (bufferRemoveField letter) wire field := by
  cases letter with
  | b => subst hwire; exact reads_bufferRemoveByte field
  | s => subst hwire; exact Reads.word (rfl : 16 = 8 * 2) field
  | i => subst hwire; exact Reads.word (rfl : 32 = 8 * 4) field
  | l => subst hwire; exact Reads.word (rfl : 64 = 8 * 8) field
  | f => subst hwire; exact Reads.word (rfl : 32 = 8 * 4) field
  | d => subst hwire; exact Reads.word (rfl : 64 = 8 * 8) field
  | B => subst hwire; exact reads_bufferRemoveByte field
  | S => exact h.elim
  | U => exact reads_bufferRemoveString16 hwire h.2
  | M => exact h.elim

/-- **Adding spells the arguments.** -/
theorem exists_bufferAddFormat {format : List Letter} {fields : Fields format}
    (h : FormatCarried format fields) :
    ∃ wire, bufferAddFormat format fields = .ok wire ∧ FormatWire format fields wire := by
  induction format with
  | nil => exact ⟨[], rfl, rfl⟩
  | cons letter rest ih =>
      obtain ⟨field, fields⟩ := fields
      obtain ⟨first, hadd, hfirst⟩ := exists_bufferAddField h.1
      obtain ⟨second, hadds, hsecond⟩ := ih h.2
      refine ⟨first ++ second, ?_, first, second, rfl, hfirst, hsecond⟩
      rw [bufferAddFormat, hadd, hadds]
      rfl

/-- **Removing is complete.**  Bytes that spell arguments which the codec keeps are
read as these arguments. -/
theorem reads_bufferRemoveFormat {format : List Letter} {fields : Fields format}
    {wire : List Byte} (h : FormatCarried format fields)
    (hwire : FormatWire format fields wire) : Reads (bufferRemoveFormat format) wire fields := by
  induction format generalizing wire with
  | nil =>
      obtain rfl : wire = [] := hwire
      exact Reads.pure ()
  | cons letter rest ih =>
      obtain ⟨field, fields⟩ := fields
      obtain ⟨first, second, rfl, hfirst, hsecond⟩ := hwire
      rw [← List.append_nil second]
      exact (reads_bufferRemoveField h.1 hfirst).bind ((ih h.2 hsecond).bind (Reads.pure _))

end Craftd.Protocol
