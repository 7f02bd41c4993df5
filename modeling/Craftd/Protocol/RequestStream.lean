import Craftd.Protocol.RequestRoundTrip
import Craftd.Protocol.Watermark

/-!
# Streams of requests

What the length check and the decoder make of a buffer in which the wire forms of requests
have begun to arrive.  Once the first of them is whole the check accepts and the decoder takes
just its bytes; before that the check asks for more, and its watermark lies above what is there
and not above the end of the request.  Two buffers are apart.  A login that lacks its last byte
is accepted, and an empty buffer is taken for the beginning of a keep-alive.
-/

namespace Craftd.Protocol

open Craftd.Containers ByteReader

/-- `wire` is what `SV_PacketToBuffer` sends for a packet that the wire carries. -/
structure Encodes (packet : SVRequest) (wire : List Byte) : Prop where
  sent : requestToBuffer packet = .ok (some wire)
  metadata : packet.type ≠ .entityMetadata
  strings : ∀ string ∈ packet.strings, Sendable string

/-- The wire forms of packets one after the other. -/
def Streams (packets : List SVRequest) (stream : List Byte) : Prop :=
  ∃ wires, List.Forall₂ Encodes packets wires ∧ stream = wires.flatten

@[simp] theorem streams_nil {stream : List Byte} : Streams [] stream ↔ stream = [] := by
  simp [Streams]

@[simp] theorem streams_cons {packet : SVRequest} {packets : List SVRequest}
    {stream : List Byte} :
    Streams (packet :: packets) stream ↔
      ∃ wire later, Encodes packet wire ∧ stream = wire ++ later ∧ Streams packets later := by
  simp only [Streams, List.forall₂_cons_left_iff]
  constructor
  · rintro ⟨-, ⟨wire, wires, hencodes, hall, rfl⟩, rfl⟩
    exact ⟨wire, wires.flatten, hencodes, rfl, wires, hall, rfl⟩
  · rintro ⟨wire, -, hencodes, rfl, wires, hall, rfl⟩
    exact ⟨wire :: wires, ⟨wire, wires, hencodes, hall, rfl⟩, rfl⟩

theorem exists_encodes {packets : List SVRequest} {wires : List (List Byte)}
    (hall : List.Forall₂ Encodes packets wires) {packet : SVRequest} (hmem : packet ∈ packets) :
    ∃ wire, Encodes packet wire := by
  induction hall with
  | nil => cases hmem
  | cons hencodes hall ih =>
      rcases List.mem_cons.mp hmem with rfl | hrest
      · exact ⟨_, hencodes⟩
      · exact ih hrest

variable {heap : Heap} {rounds : Nat} {packet : SVRequest} {wire input more later : List Byte}

/-! ## One request -/

/-- The wire form of a packet is its type and what the decoder's arm reads back. -/
theorem Encodes.reads (hencodes : Encodes packet wire) :
    ∃ data, wire = packet.type.value :: data ∧ ∀ heap, ∃ read result,
      requestDataFromBuffer heap packet.type = some read ∧ Reads read data result ∧
        result.wireFields = packet.wireFields := by
  have hsent := hencodes.sent
  cases hadded : requestDataToBuffer packet with
  | none =>
      rw [requestToBuffer, hadded] at hsent
      cases hsent
  | some added =>
      have hcarries := fun heap =>
        carries_request heap hadded hencodes.metadata hencodes.strings
      obtain ⟨-, -, -, ⟨data, rfl, -⟩, -⟩ := hcarries ⟨0, fun _ => ⟨0, 0, 0, 0⟩, 0, fun _ => none⟩
      rw [requestToBuffer, hadded] at hsent
      refine ⟨data, ?_, fun heap => ?_⟩
      · calc wire = bufferAddByte packet.type.value ++ data := by cases hsent; rfl
          _ = packet.type.value :: data := by rw [bufferAddByte_eq]; rfl
      · obtain ⟨read, result, hread, ⟨data', hdata, hreads⟩, hfields, -⟩ := hcarries heap
        cases hdata
        exact ⟨read, result, hread, hreads, hfields⟩

theorem Encodes.supported (hencodes : Encodes packet wire) (heap : Heap) :
    (requestDataFromBuffer heap packet.type).isSome := by
  obtain ⟨data, -, hreads⟩ := hencodes.reads
  obtain ⟨read, result, hread, -⟩ := hreads heap
  rw [hread]
  rfl

theorem Encodes.decodes (hencodes : Encodes packet wire) (heap : Heap) :
    ∃ result, (∀ rest, requestFromBuffers heap ⟨wire ++ rest, 0⟩ =
        .ok (some result) ⟨rest, wire.length⟩) ∧
      result.wireFields = packet.wireFields := by
  obtain ⟨data, rfl, hall⟩ := hencodes.reads
  obtain ⟨read, result, hread, hreads, hfields⟩ := hall heap
  refine ⟨result, fun rest => ?_, hfields⟩
  rw [List.cons_append, requestFromBuffers_cons (SVPacketType.ofByte_value _) hread]
  have hsource : sourceAt (packet.type.value :: (data ++ rest)) 1 = ⟨data ++ rest, 1⟩ := rfl
  rw [hsource, bind_ok (hreads rest 1), List.length_cons, Nat.add_comm]
  rfl

@[simp] theorem setWidth_lowByte (field : BitVec 32) :
    (lowByte field).setWidth 8 = field.setWidth 8 := by
  simp [lowByte]

/-- The encoder sends the fields that the wire carries, and no others. -/
theorem requestToBuffer_wireFields (packet : SVRequest) :
    requestToBuffer packet.wireFields = requestToBuffer packet := by
  have hdata : requestDataToBuffer packet.wireFields = requestDataToBuffer packet := by
    cases packet with
    | playerDigging | animation | entityAction | entityEffect | removeEntityEffect =>
        simp [SVRequest.wireFields, requestDataToBuffer]
    | playerBlockPlacement position direction item | windowClick _ _ _ _ _ item =>
        rw [SVRequest.wireFields, requestDataToBuffer, requestDataToBuffer, SVItemStack.sent]
        split_ifs <;> simp
    | playerLook | playerMoveLook | stanceUpdate =>
        simp only [SVRequest.wireFields, requestDataToBuffer, bufferAddFormat,
          bufferAddField_vaFloat]
    | _ => rfl
  rw [requestToBuffer, requestToBuffer, hdata, packet.type_wireFields]

theorem Encodes.requestSize_eq (hencodes : Encodes packet wire) (rest : List Byte) :
    requestSize (wire ++ rest) = wire.length := by
  let heap : Heap := ⟨0, fun _ => ⟨0, 0, 0, 0⟩, 0, fun _ => none⟩
  obtain ⟨result, hdecodes, -⟩ := hencodes.decodes heap
  have hsupported := hencodes.supported heap
  obtain ⟨data, rfl, -⟩ := hencodes.reads
  have hrun := hdecodes rest
  rw [List.cons_append] at hrun ⊢
  exact (asked_requestFromBuffers (SVPacketType.ofByte_value _) hsupported hencodes.metadata
    hrun).symm

theorem Encodes.ne_nil (hencodes : Encodes packet wire) : wire ≠ [] := by
  obtain ⟨data, rfl, -⟩ := hencodes.reads
  exact List.cons_ne_nil _ _

/-! ## What has arrived of it -/

/-- What the check accepts is as long as the request, metadata apart and but for the last byte of
a login. -/
theorem requestLayout_le {first : Byte} {rest : List Byte} {type : SVPacketType}
    {read : Remove SVRequest} (hread : requestDataFromBuffer heap type = some read)
    (hlength : packetLength type ≤ (first :: rest).length)
    (h : packetComplete rounds (first :: rest) type = some .parsable)
    (hmetadata : type ≠ .entityMetadata) (hlogin : type ≠ .login) :
    1 + requestLayout type rest ≤ (first :: rest).length := by
  -- a packet that is a single text is as long as its check asks
  have htext : some (peek (first :: rest) 1 2 fun length =>
      check (first :: rest) type (length * 2)) = some .parsable → packetLength type = 3 →
        1 + layoutSpan [.U] rest ≤ (first :: rest).length := by
    intro h htype
    obtain ⟨-, hcheck⟩ := peek_eq_parsable h
    have hle := check_eq_parsable hcheck
    rw [htype, List.drop_succ_cons, List.drop_zero] at hle
    simp only [layoutSpan]
    omega
  cases type
  case entityMetadata => exact absurd rfl hmetadata
  case login => exact absurd rfl hlogin
  case handshake => exact htext h rfl
  case chat => exact htext h rfl
  case disconnect => exact htext h rfl
  case playerBlockPlacement =>
    have hle := item_span_le 10 h
    rw [packetLength] at hle
    rw [requestLayout]
    omega
  case windowClick =>
    have hle := item_span_le 7 h
    rw [packetLength] at hle
    rw [requestLayout]
    omega
  case updateSign =>
    have htexts : updateSignTexts (first :: rest) 3 11 0 = .parsable := Option.some.inj h
    have hle := updateSignTexts_parsable rfl htexts
    rw [Nat.add_zero, List.drop_succ_cons] at hle
    have hspan : requestLayout .updateSign rest =
        4 + (2 + (4 + layoutSpan [.U, .U, .U, .U] (((rest.drop 4).drop 2).drop 4))) := rfl
    rw [hspan, List.drop_drop, List.drop_drop]
    calc 1 + (4 + (2 + (4 + layoutSpan [.U, .U, .U, .U] (rest.drop 10))))
        = 11 + layoutSpan [.U, .U, .U, .U] (rest.drop 10) := by omega
      _ ≤ (first :: rest).length := hle
  all_goals first
    | exact hlength
    | cases hread

theorem wordList_append_left {n w count : Nat} {bytes : List Byte}
    (hlength : n * count ≤ bytes.length) (rest : List Byte) :
    wordList n w count (bytes ++ rest) = wordList n w count bytes := by
  induction count generalizing bytes with
  | zero => rfl
  | succ count ih =>
      rw [Nat.mul_succ] at hlength
      have hfits : 0 + n ≤ bytes.length := by omega
      have hnumber := number_drop_append hfits rest
      rw [List.drop_zero, List.drop_zero] at hnumber
      rw [wordList, wordList, hnumber, List.drop_append_of_le_length (by omega), ih]
      rw [List.length_drop]
      omega

/-- The username of a login that the decoder returns is one that an `SVShort` can hold. -/
theorem login_text_fits {read : Remove SVRequest} {source source' : Source} {result : SVRequest}
    (hread : requestDataFromBuffer heap .login = some read)
    (hrun : read source = .ok result source') :
    number 2 (source.bytes.drop 4) < 0x8000 ∧
      TextFits (number 2 (source.bytes.drop 4)) (source.bytes.drop 6) := by
  cases hread
  obtain ⟨fields, middle, hfields, -⟩ := bind_eq_ok hrun
  obtain ⟨version, second, hversion, hmore⟩ := bind_eq_ok hfields
  obtain ⟨others, third, hothers, -⟩ := bind_eq_ok hmore
  obtain ⟨text, fourth, htext, -⟩ := bind_eq_ok hothers
  have hscalar : Letter.scalar .i = true := rfl
  obtain ⟨value, htaken, -⟩ := takes_bufferRemoveField hscalar source
  rw [htaken] at hversion
  cases hversion
  have hunits : number 2 (source.bytes.drop 4) < 0x8000 := by
    by_contra hlong
    obtain ⟨fault, stopped, hstops, -⟩ :=
      @stops_bufferRemoveString16_negative (source.advance 4) hlong
    exact absurd (hstops.symm.trans htext) nofun
  refine ⟨hunits, ?_⟩
  by_contra hfits
  obtain ⟨fault, stopped, hstops, -⟩ := @stops_bufferRemoveString16_long
    (source.advance 4) hunits (by simpa [List.drop_drop] using hfits)
  exact absurd (hstops.symm.trans htext) nofun

private theorem layoutSpan_append {format : List Letter} {bytes : List Byte}
    (hlength : layoutSpan format bytes ≤ bytes.length) (rest : List Byte) :
    layoutSpan format (bytes ++ rest) = layoutSpan format bytes := by
  induction format generalizing bytes with
  | nil => rfl
  | cons letter format ih =>
      by_cases htext : letter = .U
      · subst htext
        rw [layoutSpan] at hlength
        have hfits : 0 + 2 ≤ bytes.length := by omega
        have hnumber := number_drop_append hfits rest
        rw [List.drop_zero, List.drop_zero] at hnumber
        rw [layoutSpan, layoutSpan, hnumber, List.drop_append_of_le_length (by omega), ih]
        rw [List.length_drop]
        omega
      · have hspan : ∀ bytes, layoutSpan (letter :: format) bytes =
            letter.width + layoutSpan format (bytes.drop letter.width) := by
          intro bytes
          cases letter <;> first | rfl | exact absurd rfl htext
        rw [hspan] at hlength
        rw [hspan, hspan, List.drop_append_of_le_length (by omega), ih]
        rw [List.length_drop]
        omega

private theorem requestLayout_append {type : SVPacketType} {bytes : List Byte}
    (hlength : requestLayout type bytes ≤ bytes.length) (rest : List Byte) :
    requestLayout type (bytes ++ rest) = requestLayout type bytes := by
  cases type
  case playerBlockPlacement =>
    rw [requestLayout] at hlength
    rw [requestLayout, requestLayout, number_drop_append (by omega)]
  case windowClick =>
    rw [requestLayout] at hlength
    rw [requestLayout, requestLayout, number_drop_append (by omega)]
  all_goals exact layoutSpan_append hlength rest

/-- The check answers from inside the buffer, and asks for no more than the request. -/
theorem Encodes.answer (hencodes : Encodes packet wire) {first : Byte}
    (hfirst : SVPacketType.ofByte first = some packet.type) (rest : List Byte) :
    ∃ answer, (∀ rounds, packetParsable rounds (first :: rest) = some answer) ∧
      Bounded (first :: rest) answer := by
  have hsupported := hencodes.supported ⟨0, fun _ => ⟨0, 0, 0, 0⟩, 0, fun _ => none⟩
  by_cases hlength : (first :: rest).length < packetLength packet.type
  · refine ⟨_, packetParsable_of_short hfirst hlength, .inr ⟨_, rfl, hlength, fun more => ?_⟩⟩
    exact packetLength_le_requestSize hfirst hsupported hencodes.metadata
  · obtain ⟨answer, hcomplete, hbounded⟩ :=
      bounded_packetComplete hfirst hsupported hencodes.metadata (not_lt.mp hlength)
    exact ⟨answer, fun rounds => (packetParsable_of_type hfirst hlength rounds).trans
      (hcomplete rounds), hbounded⟩

/-- **A whole request is accepted**, whatever follows it. -/
theorem Encodes.parsable (hencodes : Encodes packet wire) (rest : List Byte) (rounds : Nat) :
    packetParsable rounds (wire ++ rest) = some .parsable := by
  have hsize := hencodes.requestSize_eq
  obtain ⟨data, rfl, -⟩ := hencodes.reads
  obtain ⟨answer, hanswer, hbounded⟩ :=
    hencodes.answer (SVPacketType.ofByte_value _) (data ++ rest)
  rcases hbounded with rfl | ⟨low, -, hlow, hle⟩
  · exact hanswer rounds
  · -- a watermark would lie above the buffer and not above the request in it
    have hwhole := hle []
    rw [List.append_nil, ← List.cons_append, hsize] at hwhole
    rw [← List.cons_append, List.length_append] at hlow
    omega

/-- A login that the check accepts before it is whole lacks just its last byte. -/
theorem loginCutShort_of_parsable {rest tail : List Byte}
    (hencodes : Encodes packet (SVPacketType.login.value :: (rest ++ tail)))
    (hlogin : packet.type = .login) (htail : tail ≠ [])
    (h : packetComplete rounds (SVPacketType.login.value :: rest) .login = some .parsable) :
    LoginCutShort (SVPacketType.login.value :: rest) := by
  obtain ⟨data, hwire, hall⟩ := hencodes.reads
  obtain ⟨read, result, hread, hreads, -⟩ := hall ⟨0, fun _ => ⟨0, 0, 0, 0⟩, 0, fun _ => none⟩
  rw [hlogin] at hread hwire
  cases hwire
  obtain ⟨hfits, hcheck⟩ := peek_eq_parsable h
  have hle : 22 + number 2 (rest.drop 4) * 2 ≤ (SVPacketType.login.value :: rest).length :=
    check_eq_parsable hcheck
  rw [List.length_cons] at hfits
  have hlength : 0 < tail.length := List.length_pos_iff.mpr htail
  have hnumber : number 2 ((rest ++ tail).drop 4) = number 2 (rest.drop 4) :=
    number_drop_append (by omega) tail
  have hsize : 23 + 2 * number 2 (rest.drop 4) = (rest ++ tail).length + 1 := by
    have hspan : requestSize (SVPacketType.login.value :: (rest ++ tail)) =
        1 + (4 + (2 + 2 * number 2 ((rest ++ tail).drop 4) + 16)) := rfl
    have hall := hencodes.requestSize_eq []
    rw [List.append_nil, hspan, hnumber, List.length_cons] at hall
    omega
  obtain ⟨hunits, htext⟩ := login_text_fits hread (hreads [] 0)
  rw [List.append_nil] at hunits htext
  rw [hnumber] at hunits htext
  rw [List.length_append] at hsize
  rw [List.length_cons] at hle
  refine ⟨rfl, hunits, ?_, ?_⟩
  · rw [List.drop_append_of_le_length (by omega)] at htext
    unfold TextFits at htext ⊢
    rwa [wordList_append_left (by rw [List.length_drop]; omega)] at htext
  · rw [List.length_cons, List.drop_succ_cons]
    omega

theorem Encodes.not_loginCutShort (hencodes : Encodes packet wire) (rest : List Byte) :
    ¬ LoginCutShort (wire ++ rest) := by
  rintro ⟨hhead, -, -, hlength⟩
  have hsize := hencodes.requestSize_eq rest
  obtain ⟨data, rfl, -⟩ := hencodes.reads
  have hvalue : packet.type.value = SVPacketType.login.value := Option.some.inj hhead
  rw [hvalue, List.cons_append] at hsize hlength
  have hlogin : requestSize (SVPacketType.login.value :: (data ++ rest)) =
      1 + (4 + (2 + 2 * number 2 ((data ++ rest).drop 4) + 16)) := rfl
  rw [List.drop_succ_cons, List.length_cons, List.length_append] at hlength
  rw [hlogin, List.length_cons] at hsize
  omega

/-- **A request that is not whole is waited for.**  The watermark lies above what has arrived and
not above the end of the request. -/
theorem Encodes.waits (hencodes : Encodes packet wire) (happend : input ++ more = wire ++ later)
    (hshort : input.length < wire.length) (hsome : input ≠ []) (hlogin : ¬ LoginCutShort input) :
    ∃ low, (∀ rounds, packetParsable rounds input = some (.again low)) ∧ input.length < low ∧
      low ≤ wire.length := by
  have hsize := hencodes.requestSize_eq []
  obtain ⟨tail, rfl, -⟩ | ⟨tail, rfl, -⟩ := List.append_eq_append_iff.mp happend
  · obtain ⟨first, rest, rfl⟩ := List.exists_cons_of_ne_nil hsome
    have htail : tail ≠ [] := by
      rintro rfl
      simp at hshort
    obtain ⟨data, hwire, hall⟩ := hencodes.reads
    rw [List.cons_append, List.cons.injEq] at hwire
    obtain ⟨hfirst, hdata⟩ := hwire
    have htype : SVPacketType.ofByte first = some packet.type := by
      rw [hfirst, SVPacketType.ofByte_value]
    obtain ⟨answer, hanswer, hbounded⟩ := hencodes.answer htype rest
    rcases hbounded with rfl | ⟨low, rfl, hlow, hle⟩
    · exfalso
      obtain ⟨hlength, rounds, hcomplete⟩ := parsable_of_answers htype ⟨0, hanswer 0⟩
      by_cases hkind : packet.type = .login
      · rw [hfirst, hkind] at hlogin
        rw [hfirst, hkind, List.cons_append] at hencodes
        rw [hfirst, hkind] at hcomplete
        exact hlogin (loginCutShort_of_parsable hencodes hkind htail hcomplete)
      · -- the layout of what has arrived is that of the whole request
        obtain ⟨read, result, hread, -⟩ := hall ⟨0, fun _ => ⟨0, 0, 0, 0⟩, 0, fun _ => none⟩
        have hle := requestLayout_le hread hlength hcomplete hencodes.metadata hkind
        have hlayout : requestLayout packet.type (rest ++ tail) =
            requestLayout packet.type rest := by
          refine requestLayout_append ?_ tail
          rw [List.length_cons] at hle
          omega
        rw [List.append_nil, List.cons_append, requestSize_cons htype, hlayout] at hsize
        rw [List.cons_append] at hshort
        omega
    · refine ⟨low, hanswer, hlow, ?_⟩
      rw [List.append_nil] at hsize
      exact hsize ▸ hle tail
  · simp at hshort

end Craftd.Protocol
