import Craftd.Protocol.RequestRoundTrip
import Craftd.Protocol.Transparency

/-!
# Is the proxy transparent for requests?

The proxy decodes every packet of a client and encodes it again for the server behind
it.  `PlainRequest` says which packets come out as they went in, as a condition on their
bytes, given that sanitising leaves their texts unchanged.

The decoder's arms and the encoder's arms are compared type by type.  A type that
consists of integers always survives; the exceptions are texts with a unit that the
transcoding loses, signalling NaNs, the height of a sign, metadata, and the type that the
encoder has no arm for.
-/

namespace Craftd.Protocol

open Craftd.Containers ByteReader

/-! ## Texts -/

/-- The field at the front of `bytes` comes out as it went in if sanitising leaves it alone: no
unit of a text is one that the transcoding drops or replaces. -/
def Passage.Intact (passage : Passage) (bytes : List Byte) : Prop :=
  match passage with
  | .whole .U => 0xFFFD ∉ textUnits bytes ∧ 0xFFFF ∉ textUnits bytes
  | passage => passage.Plain bytes

/-- The fields at the front of `bytes` come out as they went in if sanitising leaves their texts
alone. -/
def IntactFields : List Passage → List Byte → Prop
  | [], _ => True
  | passage :: rest, bytes =>
      passage.Intact bytes ∧ IntactFields rest (bytes.drop (passage.size bytes))

theorem kept_of_svStringSanitize {string : SVString}
    (hfixed : svStringSanitize string = some string) : Kept string := by
  obtain ⟨chars, hkept, hcontent, -⟩ := exists_kept_of_svStringSanitize hfixed
  exact ⟨chars, hkept, hcontent⟩

/-- A text that sanitising leaves unchanged has no colour marker at which it would be cut. -/
theorem plainUnits_iff {string : SVString} {units : List (BitVec 16)}
    (hfixed : svStringSanitize string = some string)
    (hcontent : string.content = units.flatMap utf8OfUnit) :
    PlainUnits units ↔ 0xFFFD ∉ units ∧ 0xFFFF ∉ units := by
  obtain ⟨chars, hkept, hchars, hsame⟩ := exists_kept_of_svStringSanitize hfixed
  refine ⟨fun ⟨hmark, hlast, _⟩ => ⟨hmark, hlast⟩, fun ⟨hmark, hlast⟩ => ⟨hmark, hlast, ?_⟩⟩
  have hall : units.filter (· ≠ 0xFFFF) = units := by
    rw [List.filter_eq_self]
    intro unit hmem
    rw [decide_eq_true_iff]
    rintro rfl
    exact hlast hmem
  have hunits := chars_of_units hkept (hcontent.symm.trans hchars)
  rw [hall] at hunits
  rintro before last rfl
  apply (sanitizeChars_eq_self_iff hkept).mp hsame (before.map utf8OfUnit) (utf8OfUnit last)
  rw [hunits, List.map_append]
  rfl

theorem plain_iff_intact {passage : Passage} {field : passage.letter.Field} {wire : List Byte}
    (hwire : passage.letter.Wire field wire)
    (hfixed : ∀ text ∈ texts [passage.letter] (field, ()), svStringSanitize text = some text)
    (rest : List Byte) :
    passage.Plain (wire ++ rest) ↔ passage.Intact (wire ++ rest) := by
  cases passage with
  | byteOfShort => exact Iff.rfl
  | byteOfInteger => exact Iff.rfl
  | whole letter =>
      cases letter
      case U =>
        have htext : svStringSanitize field = some field := hfixed field (.head _)
        obtain ⟨units, hcount, hcontent, rfl⟩ := hwire
        unfold Passage.Plain Passage.Intact
        dsimp only
        rw [(textUnits_append units hcount rest).2]
        exact plainUnits_iff htext hcontent
      all_goals exact Iff.rfl

private theorem plainFields_iff_intactFields {passages : List Passage}
    {fields : Fields (letters passages)} {wire : List Byte}
    (hletters : ∀ passage ∈ passages, passage.letter.scalar = true ∨ passage.letter = .U)
    (hwire : FormatWire (letters passages) fields wire)
    (hfixed : ∀ text ∈ texts (letters passages) fields, svStringSanitize text = some text)
    (more : List Byte) :
    PlainFields passages (wire ++ more) ↔ IntactFields passages (wire ++ more) := by
  induction passages generalizing wire with
  | nil => exact Iff.rfl
  | cons passage rest ih =>
      obtain ⟨field, fields⟩ := fields
      obtain ⟨first, second, rfl, hfirst, hsecond⟩ := hwire
      have hfixed' : ∀ text, text ∈ texts [passage.letter] (field, ()) ∨
          text ∈ texts (letters rest) fields → svStringSanitize text = some text :=
        fun text hmem => hfixed text (texts_cons.mpr hmem)
      have hfield : ∀ text ∈ texts [passage.letter] (field, ()),
          svStringSanitize text = some text :=
        fun text hmem => hfixed' text (.inl hmem)
      have hkept : ∀ text ∈ texts [passage.letter] (field, ()), Kept text :=
        fun text hmem => kept_of_svStringSanitize (hfield text hmem)
      have hsize := (bufferAddField_passed (hletters _ (.head _)) hfirst hkept (second ++ more)).2
      have hrest := ih (fun other hmem => hletters other (.tail _ hmem)) hsecond
        fun text hmem => hfixed' text (.inr hmem)
      rw [List.append_assoc, PlainFields, IntactFields, hsize, List.drop_left, hrest,
        plain_iff_intact hfirst hfield]

/-! ## Packets -/

/-- The fields of the types that carry texts or floats. -/
def requestPassages : SVPacketType → List Passage
  | .login =>
      [.whole .i, .whole .U, .whole .l, .whole .i, .whole .b, .whole .b, .whole .b, .whole .b]
  | .handshake => [.whole .U]
  | .chat => [.whole .U]
  | .playerLook => [.whole .f, .whole .f, .whole .b]
  | .playerMoveLook =>
      [.whole .d, .whole .d, .whole .d, .whole .d, .whole .f, .whole .f, .whole .b]
  | .stanceUpdate => [.whole .f, .whole .f, .whole .f, .whole .f, .whole .B, .whole .B]
  | .updateSign =>
      [.whole .i, .byteOfShort, .whole .i, .whole .U, .whole .U, .whole .U, .whole .U]
  | .disconnect => [.whole .U]
  | _ => []

/-- The packets that come out as they went in, by the bytes behind the type byte. -/
def PlainRequestData (type : SVPacketType) (bytes : List Byte) : Prop :=
  match type with
  | .entityMetadata => PlainMetadata (bytes.drop 4)
  | .incrementStatistic => False
  | type => IntactFields (requestPassages type) bytes

/-- With texts that sanitising leaves unchanged, what is sent for the packet is `wire` exactly
when `wire` is plain. -/
def SurvivesRequest (type : SVPacketType) (packet : SVRequest) (wire : List Byte) : Prop :=
  packet.type = type ∧ ((∀ string ∈ packet.strings, svStringSanitize string = some string) →
    (requestDataToBuffer packet = some (.ok wire) ↔ PlainRequestData type wire))

variable {heap : Heap} {type : SVPacketType}

theorem SurvivesRequest.of_sent {packet : SVRequest} {wire : List Byte}
    (htype : packet.type = type) (hsent : requestDataToBuffer packet = some (.ok wire))
    (hplain : PlainRequestData type wire) : SurvivesRequest type packet wire :=
  ⟨htype, fun _ => iff_of_true hsent hplain⟩

theorem tracks_requestScalars {format : List Letter} {read : Remove SVRequest}
    {build : Fields format → Remove SVRequest}
    (hread : read = bufferRemoveFormat format >>= build)
    (hverbatim : format.all Letter.verbatim = true)
    (hbuild : ∀ fields, ∃ packet, build fields = pure packet ∧ packet.type = type ∧
      requestDataToBuffer packet = some (bufferAddFormat format fields))
    (hplain : ∀ wire, PlainRequestData type wire) :
    Tracks read (SurvivesRequest type) := by
  rw [hread]
  refine (tracks_verbatim format hverbatim).bind fun fields => ?_
  obtain ⟨packet, hpacket, htype, hadd⟩ := hbuild fields
  rw [hpacket]
  refine Tracks.pure ?_
  intro wire hwire
  rw [List.append_nil]
  exact .of_sent htype (by rw [hadd, hwire]) (hplain wire)

theorem tracks_requestScalar (letter : Letter) {build : letter.Field → SVRequest}
    (hverbatim : letter.verbatim = true)
    (hadd : ∀ field, requestDataToBuffer (build field) = some (bufferAddField letter field))
    (htype : ∀ field, (build field).type = type) (hplain : ∀ wire, PlainRequestData type wire) :
    Tracks (bufferRemoveField letter >>= fun field => pure (build field))
      (SurvivesRequest type) := by
  refine (tracks_bufferRemoveField letter).bind fun field => Tracks.pure ?_
  intro wire hwire
  rw [List.append_nil]
  apply SurvivesRequest.of_sent (htype field) _ (hplain wire)
  rw [hadd, (bufferAddField_of_verbatim hverbatim hwire).1]

private theorem tracks_requestFormat {read : Remove SVRequest}
    {build : Fields (letters (requestPassages type)) → Remove SVRequest}
    (hread : read = bufferRemoveFormat (letters (requestPassages type)) >>= build)
    (hbuild : ∀ fields, ∃ packet, build fields = pure packet ∧ packet.type = type ∧
      packet.strings = texts (letters (requestPassages type)) fields ∧
      requestDataToBuffer packet = some (bufferAddFormat (letters (requestPassages type))
        (passFields (requestPassages type) fields)))
    (hletters : ∀ passage ∈ requestPassages type,
      passage.letter.scalar = true ∨ passage.letter = .U)
    (hplain : ∀ wire, PlainRequestData type wire = IntactFields (requestPassages type) wire) :
    Tracks read (SurvivesRequest type) := by
  rw [hread]
  refine (tracks_bufferRemoveFormat _).bind fun fields => ?_
  obtain ⟨packet, hpacket, htype, hstrings, hadd⟩ := hbuild fields
  rw [hpacket]
  refine Tracks.pure ?_
  intro wire hwire
  rw [List.append_nil]
  refine ⟨htype, fun hfixed => ?_⟩
  rw [hstrings] at hfixed
  have hkept : ∀ text ∈ texts (letters (requestPassages type)) fields, Kept text :=
    fun text hmem => kept_of_svStringSanitize (hfixed text hmem)
  obtain ⟨out, hout, -, hsame⟩ := bufferAddFormat_passed hletters hwire hkept []
  have hintact := plainFields_iff_intactFields hletters hwire hfixed []
  rw [List.append_nil] at hsame hintact
  calc requestDataToBuffer packet = some (.ok wire)
      _ ↔ out = wire := by rw [hadd, hout, Option.some.injEq, Except.ok.injEq]
      _ ↔ PlainFields (requestPassages type) wire := hsame
      _ ↔ IntactFields (requestPassages type) wire := hintact
      _ ↔ PlainRequestData type wire := by rw [hplain]

/-- An arm that is a single text, whose format is that of one field. -/
theorem tracks_requestText {build : SVString → SVRequest}
    (hpassages : requestPassages type = [.whole .U])
    (hadd : ∀ text, requestDataToBuffer (build text) = some (bufferAddString16 text))
    (htype : ∀ text, (build text).type = type) (hstrings : ∀ text, (build text).strings = [text])
    (hplain : ∀ wire, PlainRequestData type wire = IntactFields (requestPassages type) wire) :
    Tracks (bufferRemoveString16 >>= fun text => pure (build text)) (SurvivesRequest type) := by
  refine tracks_bufferRemoveString16.bind fun text => Tracks.pure ?_
  intro wire hwire
  rw [List.append_nil]
  refine ⟨htype text, fun hfixed => ?_⟩
  have htext : svStringSanitize text = some text := by
    apply hfixed
    rw [hstrings]
    exact .head _
  obtain ⟨out, hout, -, hsame⟩ := bufferAddString16_kept (kept_of_svStringSanitize htext) hwire
  have hintact : (Passage.whole .U).Plain (wire ++ []) ↔ (Passage.whole .U).Intact (wire ++ []) :=
    @plain_iff_intact (.whole .U) text wire hwire
      (fun other hmem => by rwa [List.mem_singleton.mp hmem]) []
  rw [List.append_nil] at hintact
  calc requestDataToBuffer (build text) = some (.ok wire)
      _ ↔ out = wire := by rw [hadd, hout, Option.some.injEq, Except.ok.injEq]
      _ ↔ (Passage.whole .U).Plain wire := hsame
      _ ↔ (Passage.whole .U).Intact wire := hintact
      _ ↔ PlainRequestData type wire := by
        rw [hplain, hpassages, IntactFields, IntactFields, and_true]

/-! ## Packets that are more than a format -/

/-- Behind the fields of a format, count and damage follow when there is an item. -/
theorem tracks_requestItem (format : List Letter) {build : Fields format → Remove SVRequest}
    (id : Fields format → SVShort) (packet : Fields format → SVItemStack → SVRequest)
    (hverbatim : format.all Letter.verbatim = true)
    (hbuild : ∀ fields, build fields =
      if id fields ≠ -1 then do
        let (count, damage, ()) ← bufferRemoveFormat [.b, .s]
        return packet fields { id := id fields, slot := 0, damage, count }
      else pure (packet fields { id := id fields, slot := 0, damage := 0, count := 0 }))
    (htype : ∀ fields item, (packet fields item).type = type)
    (hadd : ∀ fields item, item.id = id fields → requestDataToBuffer (packet fields item) = some do
      let first ← bufferAddFormat format fields
      if item.id ≠ -1 then
        return first ++ (← bufferAddFormat [.b, .s] (item.count, item.damage, ()))
      else return first)
    (hplain : ∀ wire, PlainRequestData type wire) :
    Tracks (bufferRemoveFormat format >>= build) (SurvivesRequest type) := by
  refine (tracks_verbatim format hverbatim).bind fun fields => ?_
  rw [hbuild fields]
  by_cases hid : id fields ≠ -1
  · rw [if_pos hid]
    refine (tracks_verbatim [.b, .s] rfl).bind ?_
    intro ⟨count, damage, ()⟩
    refine Tracks.pure ?_
    intro second hsecond first hfirst
    apply SurvivesRequest.of_sent (htype _ _) _ (hplain _)
    rw [hadd _ _ rfl, hfirst]
    show some (if id fields ≠ -1 then _ else _) = _
    rw [if_pos hid, hsecond, List.append_nil]
    rfl
  · rw [if_neg hid]
    refine Tracks.pure ?_
    intro first hfirst
    apply SurvivesRequest.of_sent (htype _ _) _ (hplain _)
    rw [hadd _ _ rfl, hfirst]
    show some (if id fields ≠ -1 then _ else _) = _
    rw [if_neg hid, List.append_nil]
    rfl

/-- Status and face go through a byte of an `enum` field each. -/
theorem tracks_playerDigging {read : Remove SVRequest}
    (hread : requestDataFromBuffer heap .playerDigging = some read) :
    Tracks read (SurvivesRequest .playerDigging) := by
  cases hread
  refine tracks_bufferRemoveByte.bind fun status => ?_
  refine (tracks_verbatim [.i, .b, .i] rfl).bind ?_
  intro ⟨x, y, z, ()⟩
  refine tracks_bufferRemoveByte.bind fun face => Tracks.pure ?_
  intro last hlast block hblock first hfirst
  refine SurvivesRequest.of_sent rfl ?_ trivial
  rw [requestDataToBuffer, hblock, hfirst, hlast, setWidth_signExtend (by decide),
    setWidth_signExtend (by decide), List.append_nil, ← List.append_assoc]
  rfl

private theorem tracks_playerBlockPlacement {read : Remove SVRequest}
    (hread : requestDataFromBuffer heap .playerBlockPlacement = some read) :
    Tracks read (SurvivesRequest .playerBlockPlacement) := by
  cases hread
  -- the fields are a position, a direction and the id of the item
  apply tracks_requestItem [.i, .b, .i, .b, .s] (fun fields => fields.2.2.2.2.1)
    (fun fields item => .playerBlockPlacement ⟨fields.1, fields.2.1, fields.2.2.1⟩
      (overwriteLow heap.enum fields.2.2.2.1) item) rfl
    (fun _ => rfl) (fun _ _ => rfl) _ fun _ => trivial
  rintro ⟨x, y, z, direction, id, ⟨⟩⟩ item hitem
  dsimp only at hitem
  subst hitem
  rw [requestDataToBuffer, setWidth_overwriteLow]

private theorem tracks_windowClick {read : Remove SVRequest}
    (hread : requestDataFromBuffer heap .windowClick = some read) :
    Tracks read (SurvivesRequest .windowClick) := by
  cases hread
  -- the fields are those of the click, in order, and the id of the item
  apply tracks_requestItem [.b, .s, .B, .s, .B, .s] (fun fields => fields.2.2.2.2.2.1)
    (fun fields item => .windowClick fields.1 fields.2.1 fields.2.2.1 fields.2.2.2.1
      fields.2.2.2.2.1 item) rfl
    (fun _ => rfl) (fun _ _ => rfl) _ fun _ => trivial
  rintro ⟨id, slot, rightClick, action, shiftPressed, itemId, ⟨⟩⟩ item hitem
  dsimp only at hitem
  subst hitem
  rw [requestDataToBuffer]

/-- The items are sent behind their types, and they were received behind their headers. -/
theorem tracks_requestMetadata {read : Remove SVRequest}
    (hread : requestDataFromBuffer heap .entityMetadata = some read) :
    Tracks read (SurvivesRequest .entityMetadata) := by
  cases hread
  refine (tracks_bufferRemoveFormat [.i, .M]).bind ?_
  intro ⟨entityId, metadata, ()⟩
  refine Tracks.pure ?_
  intro wire hwire
  rw [List.append_nil]
  refine ⟨rfl, fun _ => ?_⟩
  have hlead : [Letter.i].all Letter.verbatim = true := rfl
  rw [requestDataToBuffer, Option.some.injEq]
  exact bufferAddFormat_metadata hlead hwire

/-- The decoder has an arm for the type and the encoder has none. -/
theorem tracks_incrementStatistic {read : Remove SVRequest}
    (hread : requestDataFromBuffer heap .incrementStatistic = some read) :
    Tracks read (SurvivesRequest .incrementStatistic) := by
  cases hread
  refine (tracks_bufferRemoveFormat [.i, .b]).bind fun fields => Tracks.pure ?_
  intro wire _
  exact ⟨rfl, fun _ => iff_of_false nofun id⟩

/-! ## All packets -/

/-- Every arm of the decoder gives a packet that survives exactly when its bytes are plain. -/
theorem tracks_requestData {read : Remove SVRequest}
    (hread : requestDataFromBuffer heap type = some read) :
    Tracks read (SurvivesRequest type) := by
  cases type
  case playerDigging => exact tracks_playerDigging hread
  case playerBlockPlacement => exact tracks_playerBlockPlacement hread
  case windowClick => exact tracks_windowClick hread
  case entityMetadata => exact tracks_requestMetadata hread
  case incrementStatistic => exact tracks_incrementStatistic hread
  all_goals cases hread
  case listPing => exact Tracks.pure (.of_sent rfl rfl trivial)
  case keepAlive =>
    exact tracks_requestScalar .i rfl (fun _ => rfl) (fun _ => rfl) fun _ => trivial
  case holdChange =>
    exact tracks_requestScalar .s rfl (fun _ => rfl) (fun _ => rfl) fun _ => trivial
  case onGround | closeWindow =>
    exact tracks_requestScalar .b rfl (fun _ => rfl) (fun _ => rfl) fun _ => trivial
  case handshake | chat | disconnect =>
    exact tracks_requestText rfl (fun _ => rfl) (fun _ => rfl) (fun _ => rfl) fun _ => rfl
  case login | updateSign | playerLook | playerMoveLook | stanceUpdate =>
    exact tracks_requestFormat rfl (fun fields => ⟨_, rfl, rfl, rfl, rfl⟩) (by decide) fun _ => rfl
  case animation | entityAction | entityEffect | removeEntityEffect =>
    refine tracks_requestScalars rfl rfl (fun fields => ⟨_, rfl, rfl, ?_⟩) fun _ => trivial
    rw [requestDataToBuffer, setWidth_overwriteLow]
  all_goals
    exact tracks_requestScalars rfl rfl (fun fields => ⟨_, rfl, rfl, rfl⟩) fun _ => trivial

/-- The packets that come out as they went in, by their bytes. -/
def PlainRequest : List Byte → Prop
  | [] => False
  | first :: data =>
      match SVPacketType.ofByte first with
      | none => False
      | some type => PlainRequestData type data

/-- The encoder puts the type byte in front of what its arm appended, if it has one. -/
theorem requestToBuffer_eq_iff (packet : SVRequest) (data : List Byte) :
    requestToBuffer packet = .ok (some ([packet.type.value] ++ data)) ↔
      requestDataToBuffer packet = some (.ok data) := by
  rw [requestToBuffer]
  cases requestDataToBuffer packet with
  | none => exact iff_of_false (fun hsent => by cases hsent) fun hsent => by cases hsent
  | some added =>
      cases added with
      | error fault => exact iff_of_false (fun hsent => by cases hsent) fun hsent => by cases hsent
      | ok out =>
          show Except.ok (some (bufferAddByte packet.type.value ++ out)) = _ ↔ _
          rw [bufferAddByte_eq, Except.ok.injEq, Option.some.injEq, List.append_cancel_left_eq,
            Option.some.injEq, Except.ok.injEq]

private theorem tracks_requestFromBuffers :
    Tracks (requestFromBuffers heap) fun received wire => ∀ packet, received = some packet →
      (∀ string ∈ packet.strings, svStringSanitize string = some string) →
        (requestToBuffer packet = .ok (some wire) ↔ PlainRequest wire) := by
  refine tracks_bufferRemoveByte.bind fun first => ?_
  cases hread : (SVPacketType.ofByte first).bind (requestDataFromBuffer heap) with
  | none => exact Tracks.pure fun _ _ => nofun
  | some read =>
      obtain ⟨type, htype, hdata⟩ := Option.bind_eq_some_iff.mp hread
      refine (tracks_requestData hdata).bind fun packet => Tracks.pure ?_
      intro data ⟨hpacket, hsurvives⟩ lead hlead sent hsent hfixed
      cases hsent
      have hvalue : first = packet.type.value := by
        rw [hpacket]
        exact SVPacketType.value_of_ofByte htype
      rw [hlead, List.append_nil, bufferAddByte_eq]
      calc requestToBuffer packet = .ok (some ([first] ++ data))
          _ ↔ requestDataToBuffer packet = some (.ok data) := by
            rw [hvalue, requestToBuffer_eq_iff]
          _ ↔ PlainRequestData type data := hsurvives hfixed
          _ ↔ PlainRequest ([first] ++ data) := by
            rw [List.singleton_append, PlainRequest, htype]

/-- **Transparency of the proxy for requests.**  A request packet that was decoded from the bytes
`wire` and whose texts sanitising leaves unchanged is encoded as `wire` exactly when `wire` is
plain. -/
theorem request_transparent_iff (heap : Heap) (wire rest : List Byte) {packet : SVRequest}
    (hdecode : requestFromBuffers heap ⟨wire ++ rest, 0⟩ = .ok (some packet) ⟨rest, wire.length⟩)
    (hfixed : ∀ string ∈ packet.strings, svStringSanitize string = some string) :
    requestToBuffer packet = .ok (some wire) ↔ PlainRequest wire := by
  obtain ⟨taken, hbytes, -, hsurvives⟩ := tracks_requestFromBuffers _ _ _ hdecode
  obtain rfl : wire = taken := List.append_cancel_right hbytes
  exact hsurvives (Nat.zero_add _).symm packet rfl hfixed

/-- The chat message `"hi"`, with other bytes behind it. -/
theorem request_transparent_iff_chat :
    requestToBuffer (.chat ⟨[0x68, 0x69], 2, rfl⟩) = .ok (some [0x03, 0, 2, 0, 0x68, 0, 0x69]) := by
  have hplain : PlainRequest [0x03, 0, 2, 0, 0x68, 0, 0x69] := by
    refine ⟨⟨?_, ?_⟩, trivial⟩ <;> decide
  have hfixed : ∀ string ∈ (SVRequest.chat ⟨[0x68, 0x69], 2, rfl⟩).strings,
      svStringSanitize string = some string := by
    decide +kernel
  exact (request_transparent_iff ⟨0, fun _ => ⟨0, 0, 0, 0⟩, 0, fun _ => none⟩ _ [7]
    rfl hfixed).mpr hplain

/-- A statistic of a client is decoded, and nothing is sent for it. -/
theorem statistic_not_sent :
    ¬ ∀ (heap : Heap) (wire rest : List Byte) (packet : SVRequest),
      requestFromBuffers heap ⟨wire ++ rest, 0⟩ = .ok (some packet) ⟨rest, wire.length⟩ →
        (∀ string ∈ packet.strings,
          svStringSanitize string = some string ∧ string.length < 0x8000) →
        requestToBuffer packet = .ok (some wire) := by
  intro htransparent
  have hsame := htransparent ⟨0, fun _ => ⟨0, 0, 0, 0⟩, 0, fun _ => none⟩
    [0xC8, 0, 0, 0, 1, 5] [] (.incrementStatistic 1 5) rfl (List.forall_mem_nil _)
  exact absurd hsame (by decide +kernel)

end Craftd.Protocol
