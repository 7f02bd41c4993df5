import Craftd.Protocol.MetadataWalk
import Craftd.Protocol.Request

/-!
# The length check against the request decoder

`SV_PacketParsable` and the request decoder describe the layout of the packets
twice.  `requestSpan` is how many bytes behind the type byte the decoder asks for,
as a function of these bytes; `spans_request` proves it exact.  The two
descriptions are then compared type by type: they agree on all of them but two.
The table is a byte short for a login, and the check walks over metadata items
whose headers make the decoder read outside its table of formats.
-/

namespace Craftd.Protocol

open Craftd.Containers ByteReader PartialWalk Relation

/-! ## Spans of fields -/

/-- How many bytes a scalar letter stands for. -/
def Letter.width : Letter → Nat
  | .b => 1
  | .s => 2
  | .i => 4
  | .l => 8
  | .f => 4
  | .d => 8
  | .B => 1
  | .S => 0
  | .U => 0
  | .M => 0

/-- The letters of a fixed width. -/
def Letter.scalar : Letter → Bool
  | .S => false
  | .U => false
  | .M => false
  | _ => true

/-- Whether an `SVShort` can hold the size of a text of `length` units. -/
def TextFits (length : Nat) (bytes : List Byte) : Prop :=
  ((wordList 2 16 length bytes).flatMap utf8OfUnit).length ≤ 32767

instance (length : Nat) (bytes : List Byte) : Decidable (TextFits length bytes) := by
  unfold TextFits
  infer_instance

/-- How many bytes `SV_BufferRemoveFormat` asks for, in a format of scalars and texts. -/
def formatSpan : List Letter → List Byte → Nat
  | [], _ => 0
  | .U :: rest, bytes =>
      let length := number 2 bytes
      if length < 0x8000 then
        if TextFits length (bytes.drop 2) then
          2 + 2 * length + formatSpan rest (bytes.drop (2 + 2 * length))
        else 2 + 2 * length
      else 2
  | letter :: rest, bytes => letter.width + formatSpan rest (bytes.drop letter.width)

/-- How many bytes a format of scalars and texts takes in a whole packet. -/
def layoutSpan : List Letter → List Byte → Nat
  | [], _ => 0
  | .U :: rest, bytes =>
      2 + 2 * number 2 bytes + layoutSpan rest (bytes.drop (2 + 2 * number 2 bytes))
  | letter :: rest, bytes => letter.width + layoutSpan rest (bytes.drop letter.width)

/-- A scalar field as it stands at the front of `bytes`. -/
def Letter.From : (letter : Letter) → letter.Field → List Byte → Prop
  | .b, field, bytes => field = BitVec.ofNat 8 (number 1 bytes)
  | .s, field, bytes => field = BitVec.ofNat 16 (number 2 bytes)
  | .i, field, bytes => field = BitVec.ofNat 32 (number 4 bytes)
  | .l, field, bytes => field = BitVec.ofNat 64 (number 8 bytes)
  | .f, field, bytes => field = BitVec.ofNat 32 (number 4 bytes)
  | .d, field, bytes => field = BitVec.ofNat 64 (number 8 bytes)
  | .B, field, bytes => field = BitVec.ofNat 8 (number 1 bytes)
  | _, _, _ => True

/-- The arguments of a format of scalars, as they stand at the front of `bytes`. -/
def FieldsFrom : (format : List Letter) → Fields format → List Byte → Prop
  | [], _, _ => True
  | letter :: rest, (field, fields), bytes =>
      letter.From field bytes ∧ FieldsFrom rest fields (bytes.drop letter.width)

/-- The one fault that is not a clean stop. -/
abbrev Defined (fault : Fault) : Prop := fault ≠ .undefined

theorem takes_bufferRemoveField {letter : Letter} (h : letter.scalar = true) (source : Source) :
    Takes (bufferRemoveField letter) source letter.width fun field =>
      letter.From field source.bytes := by
  cases letter
  case S => cases h
  case U => cases h
  case M => cases h
  all_goals exact Takes.word _ _ source

theorem formatSpan_cons {letter : Letter} (h : letter.scalar = true) (rest : List Letter)
    (bytes : List Byte) :
    formatSpan (letter :: rest) bytes =
      letter.width + formatSpan rest (bytes.drop letter.width) := by
  cases letter
  case U => cases h
  all_goals rfl

theorem layoutSpan_cons {letter : Letter} (h : letter.scalar = true) (rest : List Letter)
    (bytes : List Byte) :
    layoutSpan (letter :: rest) bytes =
      letter.width + layoutSpan rest (bytes.drop letter.width) := by
  cases letter
  case U => cases h
  all_goals rfl

/-- Up to a text that cannot be transcoded a format asks for its layout, and then for nothing. -/
theorem formatSpan_le_layoutSpan (format : List Letter) (bytes : List Byte) :
    formatSpan format bytes ≤ layoutSpan format bytes := by
  induction format generalizing bytes with
  | nil => exact Nat.le_refl _
  | cons letter rest ih =>
      cases letter
      case U =>
        have h := ih (bytes.drop (2 + 2 * number 2 bytes))
        rw [formatSpan, layoutSpan]
        split_ifs <;> omega
      all_goals exact Nat.add_le_add_left (ih _) _

theorem takes_bufferRemoveFormat (format : List Letter) (h : format.all Letter.scalar = true)
    (source : Source) :
    Takes (bufferRemoveFormat format) source (formatSpan format source.bytes) fun fields =>
      FieldsFrom format fields source.bytes := by
  induction format generalizing source with
  | nil => exact Takes.pure trivial
  | cons letter rest ih =>
      rw [List.all_cons, Bool.and_eq_true] at h
      rw [formatSpan_cons h.1, ← Nat.add_zero (formatSpan _ _)]
      refine (takes_bufferRemoveField h.1 source).bind fun field hfield => ?_
      exact (ih h.2 (source.advance letter.width)).bind fun fields hfields =>
        Takes.pure ⟨hfield, hfields⟩

/-! ## Spans of texts -/

private theorem exists_utf8Strnlen_units (units : List (BitVec 16)) :
    ∃ length, utf8Strnlen (units.flatMap utf8OfUnit) = some length := by
  induction units with
  | nil => exact ⟨0, rfl⟩
  | cons ch units ih =>
      obtain ⟨length, hlength⟩ := ih
      rw [List.flatMap_cons]
      by_cases hzero : ch = 0
      · subst hzero
        exact ⟨0, rfl⟩
      by_cases hlast : ch = 0xFFFF
      · subst hlast
        exact ⟨length, hlength⟩
      · refine ⟨length + 1, ?_⟩
        rw [utf8Strnlen_char_append (isChar_utf8OfUnit hzero hlast), hlength]
        rfl

private theorem takes_removedString (units : List (BitVec 16)) (source : Source) :
    Takes (removedString (units.flatMap utf8OfUnit)) source 0 fun string =>
      string.content = units.flatMap utf8OfUnit := by
  obtain ⟨length, hlength⟩ := exists_utf8Strnlen_units units
  have hcreate := createStringFromBuffer_eq ⟨_, length, hlength⟩
  unfold removedString
  rw [hcreate]
  exact Takes.pure rfl

theorem toNat_ofNat_number (bytes : List Byte) :
    (BitVec.ofNat 16 (number 2 bytes)).toNat = number 2 bytes := by
  rw [BitVec.toNat_ofNat]
  exact Nat.mod_eq_of_lt (number_lt 2 bytes)

theorem toInt_neg_iff (bytes : List Byte) :
    (BitVec.ofNat 16 (number 2 bytes)).toInt < 0 ↔ ¬ number 2 bytes < 0x8000 := by
  have hlt : number 2 bytes < 256 ^ 2 := number_lt 2 bytes
  rw [BitVec.toInt_eq_toNat_cond, toNat_ofNat_number]
  split_ifs <;> omega

theorem takes_bufferRemoveString16 {source : Source} (hlength : number 2 source.bytes < 0x8000)
    (hfits : TextFits (number 2 source.bytes) (source.bytes.drop 2)) :
    Takes bufferRemoveString16 source (2 + 2 * number 2 source.bytes) fun _ => True := by
  unfold bufferRemoveString16
  refine (Takes.word 2 16 source).bind fun length hvalue => ?_
  subst hvalue
  rw [if_neg ((toInt_neg_iff _).not.mpr (not_not.mpr hlength)), toNat_ofNat_number,
    ← Nat.add_zero (2 * _)]
  refine (Takes.words 2 16 _ _).bind fun data hdata => ?_
  subst hdata
  dsimp only [Source.bytes_advance]
  rw [if_neg (not_lt.mpr hfits)]
  obtain ⟨string, hrun, -⟩ := takes_removedString _ _
  exact ⟨string, hrun, trivial⟩

theorem stops_bufferRemoveString16_long {source : Source}
    (hlength : number 2 source.bytes < 0x8000)
    (hfits : ¬ TextFits (number 2 source.bytes) (source.bytes.drop 2)) :
    Stops Defined bufferRemoveString16 source (2 + 2 * number 2 source.bytes) := by
  have hspan : Spans Defined bufferRemoveString16 source (2 + 2 * number 2 source.bytes)
      fun _ => False := by
    unfold bufferRemoveString16
    refine (Takes.word 2 16 source).bind_spans fun length hvalue => ?_
    subst hvalue
    rw [if_neg ((toInt_neg_iff _).not.mpr (not_not.mpr hlength)), toNat_ofNat_number,
      ← Nat.add_zero (2 * _)]
    refine (Takes.words 2 16 _ _).bind_spans fun data hdata => ?_
    subst hdata
    dsimp only [Source.bytes_advance]
    rw [if_pos (not_le.mp hfits)]
    exact .inr ⟨_, _, rfl, nofun, rfl⟩
  exact hspan.stops

theorem stops_bufferRemoveString16_negative {source : Source}
    (hlength : ¬ number 2 source.bytes < 0x8000) :
    Stops Defined bufferRemoveString16 source 2 := by
  have hspan : Spans Defined bufferRemoveString16 source (2 + 0) fun _ => False := by
    unfold bufferRemoveString16
    refine (Takes.word 2 16 source).bind_spans fun length hvalue => ?_
    subst hvalue
    rw [if_pos ((toInt_neg_iff _).mpr hlength)]
    exact .inr ⟨_, _, rfl, nofun, rfl⟩
  exact hspan.stops

/-- **The span of a format.** -/
theorem spans_bufferRemoveFormat {format : List Letter}
    (h : ∀ letter ∈ format, letter.scalar = true ∨ letter = .U) (source : Source) :
    Spans Defined (bufferRemoveFormat format) source (formatSpan format source.bytes)
      fun _ => True := by
  induction format generalizing source with
  | nil => exact .inl (Takes.pure trivial)
  | cons letter rest ih =>
      have hrest : ∀ source, Spans Defined (bufferRemoveFormat rest) source
          (formatSpan rest source.bytes) fun _ => True :=
        fun source => ih (fun other hmem => h other (.tail _ hmem)) source
      rcases h letter (.head _) with hscalar | rfl
      · rw [formatSpan_cons hscalar]
        exact (takes_bufferRemoveField hscalar source).bind_spans fun field _ =>
          (hrest (source.advance letter.width)).bind_pure fun _ _ _ => Takes.pure trivial
      · rw [formatSpan]
        split_ifs with hlength hfits
        · exact (takes_bufferRemoveString16 hlength hfits).bind_spans fun field _ =>
            (hrest (source.advance _)).bind_pure fun _ _ _ => Takes.pure trivial
        · exact .inr (stops_bufferRemoveString16_long hlength hfits).bind
        · exact .inr (stops_bufferRemoveString16_negative hlength).bind

/-! ## Spans of requests -/

/-- The fields that every request of a type has. -/
def requestFormat : SVPacketType → List Letter
  | .keepAlive => [.i]
  | .login => [.i, .U, .l, .i, .b, .b, .b, .b]
  | .handshake => [.U]
  | .chat => [.U]
  | .useEntity => [.i, .i, .b]
  | .respawn => [.b, .b, .b, .s, .l]
  | .onGround => [.B]
  | .playerPosition => [.d, .d, .d, .d, .b]
  | .playerLook => [.f, .f, .b]
  | .playerMoveLook => [.d, .d, .d, .d, .f, .f, .b]
  | .playerDigging => [.b, .i, .b, .i, .b]
  | .playerBlockPlacement => [.i, .b, .i, .b, .s]
  | .holdChange => [.s]
  | .animation => [.i, .b]
  | .entityAction => [.i, .b]
  | .stanceUpdate => [.f, .f, .f, .f, .B, .B]
  | .entityEffect => [.i, .b, .b, .s]
  | .removeEntityEffect => [.i, .b]
  | .closeWindow => [.b]
  | .windowClick => [.b, .s, .B, .s, .B, .s]
  | .transaction => [.b, .s, .B]
  | .creativeInventoryAction => [.s, .s, .s, .s]
  | .updateSign => [.i, .s, .i, .U, .U, .U, .U]
  | .incrementStatistic => [.i, .b]
  | .disconnect => [.U]
  | _ => []

/-- How many bytes behind the type byte the decoder asks for, metadata apart. -/
def requestSpan (type : SVPacketType) (bytes : List Byte) : Nat :=
  match type with
  | .playerBlockPlacement => 12 + if number 2 (bytes.drop 10) = 0xFFFF then 0 else 3
  | .windowClick => 9 + if number 2 (bytes.drop 7) = 0xFFFF then 0 else 3
  | type => formatSpan (requestFormat type) bytes

theorem spans_format {Packet : Type} {format : List Letter} {build : Fields format → Remove Packet}
    (h : ∀ letter ∈ format, letter.scalar = true ∨ letter = .U)
    (hbuild : ∀ fields, ∃ packet, build fields = pure packet) (source : Source) :
    Spans Defined (bufferRemoveFormat format >>= build) source
      (formatSpan format source.bytes) fun _ => True := by
  refine (spans_bufferRemoveFormat h source).bind_pure fun fields source' _ => ?_
  obtain ⟨packet, hpacket⟩ := hbuild fields
  rw [hpacket]
  exact Takes.pure trivial

theorem spans_field {Packet : Type} (letter : Letter) {build : letter.Field → Packet}
    (h : letter.scalar = true) (source : Source) :
    Spans Defined (bufferRemoveField letter >>= fun field => pure (build field)) source
      (formatSpan [letter] source.bytes) fun _ => True := by
  rw [formatSpan_cons h]
  exact (Spans.bind_pure (.inl (takes_bufferRemoveField h source))) fun _ _ _ =>
    Takes.pure trivial

theorem spans_bufferRemoveString16 (source : Source) :
    Spans Defined bufferRemoveString16 source (formatSpan [.U] source.bytes) fun _ => True := by
  rw [formatSpan]
  split_ifs with hlength hfits
  · exact .inl (takes_bufferRemoveString16 hlength hfits)
  · exact .inr (stops_bufferRemoveString16_long hlength hfits)
  · exact .inr (stops_bufferRemoveString16_negative hlength)

theorem spans_text {Packet : Type} {build : SVString → Packet} (source : Source) :
    Spans Defined (bufferRemoveString16 >>= fun text => pure (build text)) source
      (formatSpan [.U] source.bytes) fun _ => True :=
  (spans_bufferRemoveString16 source).bind_pure fun _ _ _ => Takes.pure trivial

theorem ofNat_eq_neg_one_iff (bytes : List Byte) :
    BitVec.ofNat 16 (number 2 bytes) = -1 ↔ number 2 bytes = 0xFFFF := by
  have hlt : number 2 bytes < 256 ^ 2 := number_lt 2 bytes
  constructor
  · intro h
    have hnat := congrArg BitVec.toNat h
    rw [toNat_ofNat_number] at hnat
    exact hnat
  · intro h
    rw [h]
    rfl

/-- An arm whose format ends with the id of an item, behind which count and damage follow
when there is one. -/
theorem spans_item {format : List Letter} {build : Fields format → Remove SVRequest}
    (id : Fields format → SVShort) (idOffset : Nat) (h : format.all Letter.scalar = true)
    (hid : ∀ fields bytes, FieldsFrom format fields bytes →
      id fields = BitVec.ofNat 16 (number 2 (bytes.drop idOffset)))
    (hsome : ∀ fields, id fields ≠ -1 → ∃ packet : SVByte → SVShort → SVRequest,
      build fields = do
        let (count, damage, ()) ← bufferRemoveFormat [.b, .s]
        return packet count damage)
    (hnone : ∀ fields, id fields = -1 → ∃ packet, build fields = pure packet)
    (source : Source) :
    Spans Defined (bufferRemoveFormat format >>= build) source
      (formatSpan format source.bytes +
        if number 2 (source.bytes.drop idOffset) = 0xFFFF then 0 else 3) fun _ => True := by
  refine (takes_bufferRemoveFormat _ h source).bind_spans fun fields hfields => ?_
  have hvalue := hid fields source.bytes hfields
  by_cases hitem : number 2 (source.bytes.drop idOffset) = 0xFFFF
  · obtain ⟨packet, hpacket⟩ :=
      hnone fields (hvalue.trans ((ofNat_eq_neg_one_iff _).mpr hitem))
    rw [if_pos hitem, hpacket]
    exact .inl (Takes.pure trivial)
  · obtain ⟨packet, hpacket⟩ := hsome fields fun hneg =>
      hitem ((ofNat_eq_neg_one_iff _).mp (hvalue.symm.trans hneg))
    rw [if_neg hitem, hpacket]
    exact spans_format (by decide) (fun _ => ⟨_, rfl⟩) _

/-- **The span of a request.**  The decoder's arm for a type asks for exactly the bytes of
`requestSpan`, and has no undefined behaviour. -/
theorem spans_request (heap : Heap) {type : SVPacketType} {read : Remove SVRequest}
    (hread : requestDataFromBuffer heap type = some read) (hmetadata : type ≠ .entityMetadata)
    (source : Source) :
    Spans Defined read source (requestSpan type source.bytes) fun _ => True := by
  cases type
  case entityMetadata => exact absurd rfl hmetadata
  case keepAlive => cases hread; exact spans_field .i rfl source
  case handshake => cases hread; exact spans_text source
  case chat => cases hread; exact spans_text source
  case onGround => cases hread; exact spans_field .B rfl source
  case holdChange => cases hread; exact spans_field .s rfl source
  case closeWindow => cases hread; exact spans_field .b rfl source
  case listPing => cases hread; exact .inl (Takes.pure trivial)
  case disconnect => cases hread; exact spans_text source
  case playerDigging =>
    cases hread
    -- status and face are read byte by byte
    have hspan : requestSpan .playerDigging source.bytes = 1 + (9 + (1 + 0)) := rfl
    rw [hspan]
    refine (Takes.word 1 8 source).bind_spans fun status _ => ?_
    refine (takes_bufferRemoveFormat [.i, .b, .i] rfl _).bind_spans fun fields _ => ?_
    exact (Takes.word 1 8 _).bind_spans fun face _ => .inl (Takes.pure trivial)
  case playerBlockPlacement =>
    cases hread
    refine spans_item (fun fields : Fields [.i, .b, .i, .b, .s] => fields.2.2.2.2.1) 10 rfl
      ?_ ?_ ?_ source
    -- the id decides whether count and damage follow
    · intro fields bytes hfields
      have hid := hfields.2.2.2.2.1
      simp only [Letter.width, List.drop_drop] at hid
      exact hid
    · rintro ⟨x, y, z, direction, id, ⟨⟩⟩ hid
      exact ⟨fun count damage => .playerBlockPlacement ⟨x, y, z⟩
        (overwriteLow heap.enum direction) { id, slot := 0, damage, count }, if_pos hid⟩
    · rintro ⟨x, y, z, direction, id, ⟨⟩⟩ hid
      exact ⟨_, if_neg (not_not.mpr hid)⟩
  case windowClick =>
    cases hread
    refine spans_item (fun fields : Fields [.b, .s, .B, .s, .B, .s] => fields.2.2.2.2.2.1) 7 rfl
      ?_ ?_ ?_ source
    · intro fields bytes hfields
      have hid := hfields.2.2.2.2.2.1
      simp only [Letter.width, List.drop_drop] at hid
      exact hid
    · rintro ⟨id, slot, rightClick, action, shiftPressed, itemId, ⟨⟩⟩ hid
      exact ⟨fun count damage => .windowClick id slot rightClick action shiftPressed
        { id := itemId, slot := 0, damage, count }, if_pos hid⟩
    · rintro ⟨id, slot, rightClick, action, shiftPressed, itemId, ⟨⟩⟩ hid
      exact ⟨_, if_neg (not_not.mpr hid)⟩
  all_goals first
    | (cases hread; exact spans_format (by decide) (fun _ => ⟨_, rfl⟩) source)
    | cases hread

/-! ## The two descriptions compared -/

/-- A login of which all but the last byte has arrived. -/
def LoginCutShort (data : List Byte) : Prop :=
  data.head? = some SVPacketType.login.value ∧ number 2 (data.drop 5) < 0x8000 ∧
    TextFits (number 2 (data.drop 5)) (data.drop 7) ∧
    data.length = 22 + 2 * number 2 (data.drop 5)

variable {data : List Byte}

theorem peek_eq_parsable {index n : Nat} {next : Nat → Framing}
    (h : some (peek data index n next) = some .parsable) :
    index + n ≤ data.length ∧ next (number n (data.drop index)) = .parsable := by
  unfold peek at h
  split_ifs at h with hfits
  · exact ⟨hfits, Option.some.inj h⟩
  · cases h

theorem check_eq_parsable {type : SVPacketType} {extra : Nat}
    (h : check data type extra = .parsable) : packetLength type + extra ≤ data.length := by
  unfold check at h
  split_ifs at h with hshort
  exact not_lt.mp hshort

/-- The texts of a sign end where the check expects them to. -/
theorem updateSignTexts_parsable {texts offset extra : Nat} (hoffset : texts * 2 + offset = 17)
    (h : updateSignTexts data texts offset extra = .parsable) :
    offset + extra +
      layoutSpan (List.replicate (texts + 1) .U) (data.drop (offset + extra)) ≤ data.length := by
  induction texts generalizing offset extra with
  | zero =>
      rw [updateSignTexts] at h
      obtain ⟨-, hcheck⟩ := peek_eq_parsable (congrArg some h)
      have hle := check_eq_parsable hcheck
      rw [packetLength] at hle
      rw [List.replicate_succ, layoutSpan]
      simp only [List.replicate, layoutSpan]
      omega
  | succ texts ih =>
      rw [updateSignTexts] at h
      obtain ⟨hfits, hnext⟩ := peek_eq_parsable (congrArg some h)
      split_ifs at hnext with hshort
      have hrest := ih (by omega) hnext
      rw [List.replicate_succ, layoutSpan, List.drop_drop]
      rw [show offset + extra + (2 + 2 * number 2 (data.drop (offset + extra))) =
        offset + 2 + (extra + number 2 (data.drop (offset + extra)) * 2) by omega]
      omega

theorem text_span_le {first : Byte} {rest : List Byte} {type : SVPacketType}
    (htype : packetLength type = 3)
    (h : some (peek (first :: rest) 1 2 fun length => check (first :: rest) type (length * 2)) =
      some .parsable) : 1 + formatSpan [.U] rest ≤ (first :: rest).length := by
  obtain ⟨-, hcheck⟩ := peek_eq_parsable h
  have hle := check_eq_parsable hcheck
  have hspan := formatSpan_le_layoutSpan [.U] rest
  rw [htype, List.drop_succ_cons, List.drop_zero] at hle
  rw [layoutSpan, layoutSpan] at hspan
  omega

theorem item_span_le {first : Byte} {rest : List Byte} {type : SVPacketType} (index : Nat)
    (h : some (peek (first :: rest) (index + 1) 2 fun id =>
      check (first :: rest) type (if id ≠ 0xFFFF then 3 else 0)) = some .parsable) :
    packetLength type + (if number 2 (rest.drop index) = 0xFFFF then 0 else 3) ≤
      (first :: rest).length := by
  obtain ⟨-, hcheck⟩ := peek_eq_parsable h
  have hle := check_eq_parsable hcheck
  rw [List.drop_succ_cons] at hle
  by_cases hid : number 2 (rest.drop index) = 0xFFFF
  · rw [if_neg (not_not.mpr hid)] at hle
    rwa [if_pos hid]
  · rw [if_pos hid] at hle
    rwa [if_neg hid]

/-- The table is a byte short for a login, so that one is complete unless it is cut short. -/
theorem login_span_le {first : Byte} {rest : List Byte}
    (hfirst : first = SVPacketType.login.value)
    (h : some (peek (first :: rest) 5 2 fun length =>
      check (first :: rest) .login (length * 2)) = some .parsable)
    (hlogin : ¬ LoginCutShort (first :: rest)) :
    1 + formatSpan [.i, .U, .l, .i, .b, .b, .b, .b] rest ≤ (first :: rest).length := by
  obtain ⟨-, hcheck⟩ := peek_eq_parsable h
  have hle := check_eq_parsable hcheck
  have hspan : formatSpan [.i, .U, .l, .i, .b, .b, .b, .b] rest =
      4 + formatSpan [.U, .l, .i, .b, .b, .b, .b] (rest.drop 4) := rfl
  have htail : ∀ bytes, formatSpan [.l, .i, .b, .b, .b, .b] bytes = 16 := fun _ => rfl
  rw [packetLength, List.drop_succ_cons] at hle
  unfold LoginCutShort at hlogin
  rw [hfirst, List.head?_cons, List.drop_succ_cons, List.drop_succ_cons, ← hfirst] at hlogin
  rw [hspan, formatSpan, htail, List.drop_drop]
  split_ifs with hshort hfits
  · have hother : (first :: rest).length ≠ 22 + 2 * number 2 (rest.drop 4) :=
      fun heq => hlogin ⟨rfl, hshort, hfits, heq⟩
    omega
  · omega
  · omega

/-- **The layouts agree.**  What the check accepts is as long as the decoder's span, metadata
apart, unless it is a login cut short. -/
theorem requestSpan_le {first : Byte} {rest : List Byte} {type : SVPacketType} {rounds : Nat}
    {heap : Heap} {read : Remove SVRequest} (hread : requestDataFromBuffer heap type = some read)
    (hfirst : SVPacketType.ofByte first = some type)
    (hlength : packetLength type ≤ (first :: rest).length)
    (h : packetComplete rounds (first :: rest) type = some .parsable)
    (hmetadata : type ≠ .entityMetadata) (hlogin : ¬ LoginCutShort (first :: rest)) :
    1 + requestSpan type rest ≤ (first :: rest).length := by
  cases type
  case entityMetadata => exact absurd rfl hmetadata
  case login => exact login_span_le (SVPacketType.value_of_ofByte hfirst) h hlogin
  case handshake => exact text_span_le rfl h
  case chat => exact text_span_le rfl h
  case disconnect => exact text_span_le rfl h
  case playerBlockPlacement =>
    have hle := item_span_le 10 h
    rw [packetLength] at hle
    rw [requestSpan]
    omega
  case windowClick =>
    have hle := item_span_le 7 h
    rw [packetLength] at hle
    rw [requestSpan]
    omega
  case updateSign =>
    have htexts : updateSignTexts (first :: rest) 3 11 0 = .parsable := Option.some.inj h
    have hle := updateSignTexts_parsable rfl htexts
    rw [Nat.add_zero, List.drop_succ_cons] at hle
    simp only [List.replicate] at hle
    have hlayout := formatSpan_le_layoutSpan [.U, .U, .U, .U] (rest.drop 10)
    have hspan : requestSpan .updateSign rest =
        4 + (2 + (4 + formatSpan [.U, .U, .U, .U] (((rest.drop 4).drop 2).drop 4))) := rfl
    rw [hspan, List.drop_drop, List.drop_drop]
    show 1 + (4 + (2 + (4 + formatSpan [.U, .U, .U, .U] (rest.drop 10)))) ≤ _
    omega
  all_goals first
    | exact hlength
    | cases hread

/-! ## Metadata -/

/-- An item of the packet's metadata, on the way to a terminator, whose header byte has its
highest bit set. -/
def HighItem (data : List Byte) : Prop :=
  data.head? = some SVPacketType.entityMetadata.value ∧
    packetLength .entityMetadata ≤ data.length ∧
    ∃ item last : Int, Reaches (nextItem data) 5 item ∧ Reaches (nextItem data) item last ∧
      Terminator data last ∧ ∃ header, 0 ≤ item ∧ data[item.toNat]? = some header ∧
        128 ≤ header.toNat

/-- Where the metadata loop of the decoder stands when `position` bytes are taken. -/
def sourceAt (data : List Byte) (position : Nat) : Source :=
  { bytes := data.drop position, asked := position }

theorem sourceAt_advance (data : List Byte) (position n : Nat) :
    (sourceAt data position).advance n = sourceAt data (position + n) := by
  simp [sourceAt, Source.advance]

/-- The decoder's round at an item takes its header and then its union. -/
theorem removeMetadataLoop_at {position : Nat} {header : Byte}
    (h : data[position]? = some header) (rounds : Nat) :
    removeMetadataLoop (rounds + 1) (sourceAt data position) =
      (if header = 127 then pure []
      else do
        let current ← bufferRemoveData header
        let rest ← removeMetadataLoop rounds
        return current :: rest : Remove SVMetadata) (sourceAt data (position + 1)) := by
  obtain ⟨hlt, hheader⟩ := List.getElem?_eq_some_iff.mp h
  have hbytes : (sourceAt data position).bytes = [header] ++ data.drop (position + 1) := by
    show data.drop position = _
    rw [List.drop_eq_getElem_cons hlt, hheader]
    rfl
  have hnumber : number 1 (sourceAt data position).bytes = header.toNat := by
    rw [hbytes, number_append (n := 1) rfl]
    simp [BigEndian.ofBytes]
  have hbyte : bufferRemoveByte (sourceAt data position) =
      .ok header (sourceAt data (position + 1)) := by
    show EStateM.Result.ok (BitVec.ofNat 8 (number 1 (sourceAt data position).bytes)) _ = _
    rw [hnumber, BitVec.ofNat_toNat, BitVec.setWidth_eq, sourceAt_advance]
  have hsome : ¬ (sourceAt data position).bytes = [] := by
    rw [hbytes]
    exact List.cons_ne_nil _ _
  rw [removeMetadataLoop]
  show (if (sourceAt data position).bytes = [] then _ else _) = _
  rw [if_neg hsome, bind_ok hbyte]

/-- Below 128 the decoder takes as much behind the header as the check steps over, and the
item has the type that the check saw. -/
theorem takes_bufferRemoveData {header : Byte} (hlow : header.toNat < 128) (position : Nat)
    (source : Source) :
    ∃ n : Nat, itemSize data position header = some (1 + n) ∧
      Takes (bufferRemoveData header) source n fun current => current.type = header >>> 5 := by
  have hkinds : ∀ n < 128, (BitVec.ofNat 8 n).sshiftRight 5 = BitVec.ofNat 8 n >>> 5 ∧
      (BitVec.ofNat 8 n >>> 5).toNat < 4 := by decide
  obtain ⟨hshift, hkind⟩ := hkinds header.toNat hlow
  rw [BitVec.ofNat_toNat, BitVec.setWidth_eq] at hshift hkind
  have htype : header >>> 5 = BitVec.ofNat 8 (header >>> 5).toNat := by
    rw [BitVec.ofNat_toNat, BitVec.setWidth_eq]
  rw [htype]
  -- one member of the union, read by one word
  have htakes : ∀ {n w : Nat} {kind : SVByte} (member : BitVec w → SVData),
      (∀ value, (member value).type = kind) →
      Takes (word n w >>= fun value => pure (member value) : Remove SVData) source n
        fun current => current.type = kind :=
    fun {n w _} _ hmember => (Takes.word n w source).bind fun value _ =>
      Takes.pure (hmember value)
  unfold itemSize bufferRemoveData
  rw [hshift]
  generalize (header >>> 5).toNat = kind at hkind ⊢
  rcases kind with _ | _ | _ | _ | kind
  · exact ⟨1, rfl, htakes .b fun _ => rfl⟩
  · exact ⟨2, rfl, htakes .s fun _ => rfl⟩
  · exact ⟨4, rfl, htakes .i fun _ => rfl⟩
  · exact ⟨4, rfl, htakes .f fun _ => rfl⟩
  · omega

/-- From 128 on the decoder reads its table of formats at a negative index. -/
theorem bufferRemoveData_high {header : Byte} (hhigh : 128 ≤ header.toNat) :
    bufferRemoveData header = throw .undefined := by
  have hkinds : ∀ n < 128, 252 ≤ ((BitVec.ofNat 8 (128 + n)).sshiftRight 5).toNat := by decide
  have hlt : header.toNat < 256 := header.isLt
  have hkind := hkinds (header.toNat - 128) (by omega)
  rw [Nat.add_sub_cancel' hhigh, BitVec.ofNat_toNat, BitVec.setWidth_eq] at hkind
  unfold bufferRemoveData
  generalize (header.sshiftRight 5).toNat = kind at hkind ⊢
  obtain ⟨k, rfl⟩ := Nat.exists_eq_add_of_le hkind
  rw [Nat.add_comm]
  rfl

/-- An item that is followed by another one, seen from the decoder: it stops at a high
header, and otherwise goes where the check goes. -/
theorem decoder_step {position : Nat} {next : Int} (h : nextItem data position = some next) :
    ∃ header, data[position]? = some header ∧
      ((128 ≤ header.toNat ∧ ∀ rounds, ∃ source,
          removeMetadataLoop (rounds + 1) (sourceAt data position) = .error .undefined source) ∨
        (header.toNat < 128 ∧ ∃ n : Nat, next = n ∧ position < n ∧ ∃ current : SVData,
          current.type = header >>> 5 ∧ ∀ rounds,
          removeMetadataLoop (rounds + 1) (sourceAt data position) =
            (do
              let rest ← removeMetadataLoop rounds
              return current :: rest : Remove SVMetadata) (sourceAt data n))) := by
  unfold nextItem at h
  rw [if_neg (by omega), Int.toNat_natCast] at h
  cases hheader : data[position]? with
  | none =>
      rw [hheader] at h
      cases h
  | some header =>
      rw [hheader] at h
      dsimp only at h
      split_ifs at h with hend
      obtain ⟨size, hsize, hnext⟩ := Option.map_eq_some_iff.mp h
      refine ⟨header, rfl, ?_⟩
      by_cases hlow : header.toNat < 128
      · right
        obtain ⟨n, hsize', current, hrun, htype⟩ :=
          takes_bufferRemoveData hlow position (sourceAt data (position + 1))
        cases hsize.symm.trans hsize'
        refine ⟨hlow, position + 1 + n, by omega, by omega, current, htype, fun rounds => ?_⟩
        rw [removeMetadataLoop_at hheader, if_neg hend, bind_ok hrun, sourceAt_advance]
      · left
        refine ⟨not_lt.mp hlow, fun rounds => ⟨sourceAt data (position + 1), ?_⟩⟩
        rw [removeMetadataLoop_at hheader, if_neg hend, bufferRemoveData_high (not_lt.mp hlow)]
        exact bind_error rfl

/-- The decoder's loop over the items that the check has walked over: it stops at a high
header, or there is none, and it takes the items and the terminator. -/
theorem decoder_run {start last : Int} {headers : List Byte}
    (hwalked : Walked data start headers last) (hlast : Terminator data last)
    {position rounds : Nat} (hstart : start = position)
    (hrounds : data.length ≤ position + rounds) :
    ((∃ header ∈ headers, 128 ≤ header.toNat) ∧
      ∃ source, removeMetadataLoop rounds (sourceAt data position) =
        .error .undefined source) ∨
    ((∀ header ∈ headers, header.toNat < 128) ∧
      ∃ items, removeMetadataLoop rounds (sourceAt data position) =
          .ok items (sourceAt data (last.toNat + 1)) ∧
        items.map SVData.type = headers.map fun header : Byte => header >>> 5) := by
  induction hwalked generalizing position rounds with
  | stop =>
      subst hstart
      have hend : data[position]? = some 127 := hlast.2
      have hlt : position < data.length := (List.getElem?_eq_some_iff.mp hend).1
      obtain ⟨k, rfl⟩ := Nat.exists_eq_add_of_lt (by omega : 0 < rounds)
      refine .inr ⟨nofun, [], ?_, rfl⟩
      rw [removeMetadataLoop_at hend, if_pos rfl]
      rfl
  | item hfirst hstep _ ih =>
      subst hstart
      obtain ⟨header', hheader, hcase⟩ := decoder_step hstep
      obtain rfl := Option.some.inj (hfirst.symm.trans hheader)
      have hposition : position < data.length := (List.getElem?_eq_some_iff.mp hheader).1
      obtain ⟨k, rfl⟩ := Nat.exists_eq_add_of_lt (by omega : 0 < rounds)
      rcases hcase with hhigh | ⟨hlow, n, rfl, hlt, current, htype, hrun⟩
      · exact .inl ⟨⟨_, .head _, hhigh.1⟩, hhigh.2 _⟩
      · have hround := hrun (0 + k)
        rcases @ih hlast n (0 + k) rfl (by omega) with
          ⟨⟨later, hmem, hhigh⟩, source, hloop⟩ | ⟨hall, items, hloop, htypes⟩
        · refine .inl ⟨⟨later, .tail _ hmem, hhigh⟩, source, ?_⟩
          rw [hround]
          exact bind_error hloop
        · refine .inr ⟨List.forall_mem_cons.mpr ⟨hlow, hall⟩, current :: items, ?_, ?_⟩
          · rw [hround, bind_ok hloop]
            rfl
          · rw [List.map_cons, List.map_cons, htype, htypes]

theorem metadata_format_ok {lead : List Letter} {source source' : Source} {items : SVMetadata}
    (hlead : lead.all Letter.scalar = true)
    (h : bufferRemoveMetadata (source.advance (lead.map Letter.width).sum) = .ok items source') :
    ∃ fields, bufferRemoveFormat (lead ++ [.M]) source = .ok fields source' := by
  induction lead generalizing source with
  | nil =>
      rw [List.map_nil, List.sum_nil, Source.advance_zero] at h
      have hfield : bufferRemoveField .M source = .ok items source' := h
      refine ⟨(items, ()), ?_⟩
      show (bufferRemoveField .M >>= fun field =>
        bufferRemoveFormat [] >>= fun fields => pure (field, fields)) source = _
      rw [bind_ok hfield]
      rfl
  | cons letter lead ih =>
      rw [List.all_cons, Bool.and_eq_true] at hlead
      rw [List.map_cons, List.sum_cons, ← Source.advance_advance] at h
      obtain ⟨field, hfield, -⟩ := takes_bufferRemoveField hlead.1 source
      obtain ⟨fields, hfields⟩ := ih hlead.2 h
      refine ⟨(field, fields), ?_⟩
      show (bufferRemoveField letter >>= fun field =>
        bufferRemoveFormat (lead ++ [.M]) >>= fun fields => pure (field, fields)) source = _
      rw [bind_ok hfield, bind_ok hfields]
      rfl

theorem metadata_format_error {lead : List Letter} {source source' : Source} {fault : Fault}
    (hlead : lead.all Letter.scalar = true)
    (h : bufferRemoveMetadata (source.advance (lead.map Letter.width).sum) =
      .error fault source') :
    bufferRemoveFormat (lead ++ [.M]) source = .error fault source' := by
  induction lead generalizing source with
  | nil =>
      rw [List.map_nil, List.sum_nil, Source.advance_zero] at h
      have hfield : bufferRemoveField .M source = .error fault source' := h
      rw [List.nil_append, bufferRemoveFormat, bind_error hfield]
  | cons letter lead ih =>
      rw [List.all_cons, Bool.and_eq_true] at hlead
      rw [List.map_cons, List.sum_cons, ← Source.advance_advance] at h
      obtain ⟨field, hfield, -⟩ := takes_bufferRemoveField hlead.1 source
      rw [List.cons_append, bufferRemoveFormat, bind_ok hfield, bind_error (ih hlead.2 h)]

/-! ## What has not arrived is not decoded -/

/-- The decoder asks for no more bytes than there are, and has no undefined behaviour. -/
def DecodesWithin (heap : Heap) (data : List Byte) : Prop :=
  match requestFromBuffers heap { bytes := data, asked := 0 } with
  | .ok _ source => source.asked ≤ data.length
  | .error fault source => fault ≠ .undefined ∧ source.asked ≤ data.length

/-- Whether the request decoder has an arm for the first byte. -/
def Supported (heap : Heap) (data : List Byte) : Prop :=
  ((data.head?.bind SVPacketType.ofByte).bind (requestDataFromBuffer heap)).isSome

section Types

variable {heap : Heap} {first : Byte} {rest : List Byte} {type : SVPacketType}
  {read : Remove SVRequest}

theorem bufferRemoveByte_cons (first : Byte) (rest : List Byte) :
    bufferRemoveByte { bytes := first :: rest, asked := 0 } =
      .ok first (sourceAt (first :: rest) 1) := by
  show EStateM.Result.ok (BitVec.ofNat 8 (number 1 ([first] ++ rest))) _ = _
  rw [number_append (n := 1) rfl]
  simp [BigEndian.ofBytes, sourceAt, Source.advance]

theorem requestFromBuffers_cons (hfirst : SVPacketType.ofByte first = some type)
    (hread : requestDataFromBuffer heap type = some read) :
    requestFromBuffers heap { bytes := first :: rest, asked := 0 } =
      (do return some (← read) : Remove (Option SVRequest)) (sourceAt (first :: rest) 1) := by
  unfold requestFromBuffers
  rw [bind_ok (bufferRemoveByte_cons first rest), hfirst, Option.bind_some, hread]

theorem decodesWithin_iff_of_spans {n : Nat} {P : SVRequest → Prop}
    (hfirst : SVPacketType.ofByte first = some type)
    (hread : requestDataFromBuffer heap type = some read)
    (hspan : Spans Defined read (sourceAt (first :: rest) 1) n P) :
    DecodesWithin heap (first :: rest) ↔ 1 + n ≤ (first :: rest).length := by
  unfold DecodesWithin
  rw [requestFromBuffers_cons hfirst hread]
  rcases hspan with ⟨packet, hrun, -⟩ | ⟨fault, source, hrun, hfault, hasked⟩
  · rw [bind_ok hrun]
    exact Iff.rfl
  · rw [bind_error hrun]
    dsimp only
    rw [hasked]
    exact and_iff_right hfault

theorem parsable_of_answers (hfirst : SVPacketType.ofByte first = some type)
    (h : Answers (first :: rest) .parsable) :
    packetLength type ≤ (first :: rest).length ∧
      ∃ rounds, packetComplete rounds (first :: rest) type = some .parsable := by
  obtain ⟨rounds, hanswer⟩ := h
  by_cases hlength : (first :: rest).length < packetLength type
  · rw [packetParsable_of_short hfirst hlength] at hanswer
    cases hanswer
  · rw [packetParsable_of_type hfirst hlength] at hanswer
    exact ⟨not_lt.mp hlength, rounds, hanswer⟩

/-- The check accepts a login that is cut short, and the decoder asks for the missing byte. -/
theorem login_cut_short (hfirst : SVPacketType.ofByte first = some .login)
    (h : LoginCutShort (first :: rest)) :
    Answers (first :: rest) .parsable ∧ ¬ DecodesWithin heap (first :: rest) := by
  obtain ⟨-, hshort, hfits, hlength⟩ := h
  rw [List.drop_succ_cons] at hshort hfits hlength
  rw [List.drop_succ_cons] at hfits
  constructor
  · refine ⟨0, ?_⟩
    have hnot : ¬ (first :: rest).length < packetLength .login := by
      rw [packetLength]
      omega
    rw [packetParsable_of_type hfirst hnot]
    show some (peek _ 5 2 fun length => check _ .login (length * 2)) = _
    rw [peek, if_pos (by omega), List.drop_succ_cons, check, packetLength, if_neg (by omega)]
  · have hlogin : SVPacketType.login ≠ .entityMetadata := by decide
    rw [decodesWithin_iff_of_spans hfirst rfl (spans_request heap rfl hlogin _)]
    have hspan : requestSpan .login (sourceAt (first :: rest) 1).bytes =
        4 + formatSpan [.U, .l, .i, .b, .b, .b, .b] (rest.drop 4) := rfl
    have htail : ∀ bytes, formatSpan [.l, .i, .b, .b, .b, .b] bytes = 16 := fun _ => rfl
    rw [hspan, formatSpan, htail, List.drop_drop]
    rw [if_pos hshort, if_pos hfits]
    omega

private theorem entityMetadata_ok {items : SVMetadata} {source : Source}
    (hfirst : SVPacketType.ofByte first = some .entityMetadata)
    (h : bufferRemoveMetadata (sourceAt (first :: rest) 5) = .ok items source) :
    ∃ packet, requestFromBuffers heap { bytes := first :: rest, asked := 0 } =
      .ok (some packet) source := by
  have hlead : [Letter.i].all Letter.scalar = true := rfl
  have hformat : ∃ fields, bufferRemoveFormat [.i, .M] (sourceAt (first :: rest) 1) =
      .ok fields source := metadata_format_ok hlead h
  obtain ⟨fields, hfields⟩ := hformat
  rw [requestFromBuffers_cons hfirst rfl, bind_assoc, bind_ok hfields]
  exact ⟨_, rfl⟩

private theorem entityMetadata_error {fault : Fault} {source : Source}
    (hfirst : SVPacketType.ofByte first = some .entityMetadata)
    (h : bufferRemoveMetadata (sourceAt (first :: rest) 5) = .error fault source) :
    requestFromBuffers heap { bytes := first :: rest, asked := 0 } = .error fault source := by
  have hlead : [Letter.i].all Letter.scalar = true := rfl
  have hfields : bufferRemoveFormat [.i, .M] (sourceAt (first :: rest) 1) =
      .error fault source := metadata_format_error hlead h
  rw [requestFromBuffers_cons hfirst rfl, bind_assoc, bind_error hfields]

/-- A metadata packet that the check accepts is decoded whole unless it has a high header. -/
theorem metadata_decodes_iff (hlength : (first :: rest).length < 2 ^ 63)
    (hfirst : SVPacketType.ofByte first = some .entityMetadata)
    (h : Answers (first :: rest) .parsable) :
    DecodesWithin heap (first :: rest) ↔ ¬ HighItem (first :: rest) := by
  obtain ⟨hsix, hcomplete⟩ := parsable_of_answers hfirst h
  have hparsable : ∃ rounds, metadataLoop (first :: rest) .entityMetadata 5 rounds
      (sizeT ((5 : Int) - (5 : Nat))) = some .parsable := hcomplete
  obtain ⟨last, hreach, hlast⟩ :=
    (metadataLoop_parsable_iff rfl hlength (by decide) (by decide)).mp hparsable
  obtain ⟨headers, hwalked⟩ := reaches_iff_walked.mp hreach
  have hhead := congrArg some (SVPacketType.value_of_ofByte hfirst)
  have hother : ∀ {header : Byte}, 128 ≤ header.toNat → header ≠ 127 := by
    rintro header hhigh rfl
    exact absurd hhigh (by decide)
  have hrounds : (first :: rest).length ≤ 5 + ((first :: rest).drop 5).length := by
    rw [List.length_drop]
    omega
  unfold DecodesWithin
  rcases decoder_run hwalked hlast rfl hrounds with
    ⟨⟨header, hmem, hhigh⟩, source, hloop⟩ | ⟨hall, items, hloop, -⟩
  · rw [entityMetadata_error hfirst hloop]
    refine iff_of_false (fun hdefined => hdefined.1 rfl) (not_not.mpr ?_)
    obtain ⟨item, hto, hfrom, hitem⟩ := (hwalked.mem_iff hlast (hother hhigh)).mp hmem
    exact ⟨hhead, hsix, item, last, hto, hfrom, hlast, header, hitem.1, hitem.2, hhigh⟩
  · obtain ⟨packet, hrun⟩ := entityMetadata_ok hfirst hloop
    rw [hrun]
    refine iff_of_true hlast.lt ?_
    rintro ⟨-, -, item, last', hto, hfrom, hlast', header, hnonneg, hheader, hhigh⟩
    have hsame := Reaches.end_unique (hto.trans hfrom) (nextItem_of_terminator hlast') hreach
      (nextItem_of_terminator hlast)
    subst hsame
    have hmem := (hwalked.mem_iff hlast (hother hhigh)).mpr
      ⟨item, hto, hfrom, hnonneg, hheader⟩
    exact absurd (hall header hmem) (not_lt.mpr hhigh)

private theorem answers_of_highItem (hlength : (first :: rest).length < 2 ^ 63)
    (hfirst : SVPacketType.ofByte first = some .entityMetadata)
    (h : HighItem (first :: rest)) : Answers (first :: rest) .parsable := by
  obtain ⟨-, hsix, item, last, hto, hfrom, hlast, -⟩ := h
  have htype : packetLength .entityMetadata = 5 + 1 := rfl
  obtain ⟨rounds, hloop⟩ := (metadataLoop_parsable_iff htype hlength (by decide)
    (by decide)).mpr ⟨last, hto.trans hfrom, hlast⟩
  exact ⟨rounds, (packetParsable_of_type hfirst (not_lt.mpr hsix) rounds).trans hloop⟩

end Types

/-- **Framing.**  What the length check lets through is decoded from bytes that have arrived,
unless it is a login that is cut short or has a metadata item with a high header. -/
theorem framing_iff (heap : Heap) (buffer : InputBuffer) (hsupported : Supported heap buffer.data) :
    (Answers buffer.data .parsable → DecodesWithin heap buffer.data) ↔
      ¬ LoginCutShort buffer.data ∧ ¬ HighItem buffer.data := by
  obtain ⟨data, hlength⟩ := buffer
  dsimp only at hsupported ⊢
  obtain ⟨read, hsome⟩ := Option.isSome_iff_exists.mp hsupported
  obtain ⟨type, htype, hread⟩ := Option.bind_eq_some_iff.mp hsome
  obtain ⟨first, hhead, hfirst⟩ := Option.bind_eq_some_iff.mp htype
  obtain ⟨rest, rfl⟩ := List.head?_eq_some_iff.mp hhead
  have hvalue := SVPacketType.value_of_ofByte hfirst
  have hkind : ∀ {other : SVPacketType}, (first :: rest).head? = some other.value →
      type = other := by
    intro other hother
    rw [List.head?_cons, Option.some.injEq] at hother
    rw [hother, SVPacketType.ofByte_value] at hfirst
    exact (Option.some.inj hfirst).symm
  by_cases hmetadata : type = .entityMetadata
  · subst hmetadata
    have hlogin : ¬ LoginCutShort (first :: rest) := fun h => by cases hkind h.1
    rw [and_iff_right hlogin]
    constructor
    · intro himplies hitem
      have hanswer := answers_of_highItem hlength hfirst hitem
      exact (metadata_decodes_iff hlength hfirst hanswer).mp (himplies hanswer) hitem
    · intro hitem hanswer
      exact (metadata_decodes_iff hlength hfirst hanswer).mpr hitem
  · have hitem : ¬ HighItem (first :: rest) := fun h => hmetadata (hkind h.1)
    rw [and_iff_left hitem]
    constructor
    · intro himplies hlogin
      have hcase := hkind hlogin.1
      subst hcase
      obtain ⟨hanswer, hoverrun⟩ := login_cut_short hfirst hlogin
      exact hoverrun (himplies hanswer)
    · intro hlogin hanswer
      obtain ⟨hlong, rounds, hcomplete⟩ := parsable_of_answers hfirst hanswer
      rw [decodesWithin_iff_of_spans hfirst hread (spans_request heap hread hmetadata _)]
      exact requestSpan_le hread hfirst hlong hcomplete hmetadata hlogin

/-- A whole login of 23 bytes is decoded from them. -/
theorem framing_iff_login :
    DecodesWithin ⟨0, fun _ => ⟨0, 0, 0, 0⟩, 0, fun _ => none⟩ (1 :: List.replicate 22 0) := by
  have hwhole : ¬ LoginCutShort (1 :: List.replicate 22 0) ∧
      ¬ HighItem (1 :: List.replicate 22 0) :=
    ⟨fun h => absurd h.2.2.2 (by decide), fun h => absurd h.1 (by decide)⟩
  exact (framing_iff _ ⟨1 :: List.replicate 22 0, by decide⟩ rfl).mpr hwhole ⟨0, by decide⟩

/-- The check accepts the first 22 bytes of a login of 23. -/
theorem login_byte_missing :
    Answers (1 :: List.replicate 21 0) .parsable ∧
      ¬ DecodesWithin ⟨0, fun _ => ⟨0, 0, 0, 0⟩, 0, fun _ => none⟩ (1 :: List.replicate 21 0) := by
  refine login_cut_short (by decide) ⟨by decide, by decide, ?_, by decide⟩
  unfold TextFits
  decide

end Craftd.Protocol
