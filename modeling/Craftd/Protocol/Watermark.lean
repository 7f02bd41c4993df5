import Craftd.Protocol.Framing

/-!
# The low watermark of a request

When `SV_PacketParsable` finds a request incomplete it sets a low watermark, and the
read callback is not called before that many bytes have arrived.  `requestSize` is
the size of the request at the front of a buffer, by the fields and the length fields
of the decoder's layout; when the decoder returns it has asked for just that many
bytes (`asked_requestFromBuffers`).  The watermark always lies above what has arrived
and never above the size the request will have.
-/

namespace Craftd.Protocol

open Craftd.Containers ByteReader

/-! ## The size of a request -/

/-- How many bytes a whole request has behind its type byte, metadata apart. -/
def requestLayout (type : SVPacketType) (bytes : List Byte) : Nat :=
  match type with
  | .playerBlockPlacement => 12 + if number 2 (bytes.drop 10) = 0xFFFF then 0 else 3
  | .windowClick => 9 + if number 2 (bytes.drop 7) = 0xFFFF then 0 else 3
  | type => layoutSpan (requestFormat type) bytes

/-- The size of the request at the front of a buffer. -/
def requestSize (data : List Byte) : Nat :=
  match data with
  | [] => 0
  | first :: rest =>
      match SVPacketType.ofByte first with
      | none => 1
      | some type => 1 + requestLayout type rest

theorem requestSize_cons {first : Byte} {type : SVPacketType}
    (hfirst : SVPacketType.ofByte first = some type) (rest : List Byte) :
    requestSize (first :: rest) = 1 + requestLayout type rest := by
  rw [requestSize, hfirst]

/-! ## What the decoder consumes -/

variable {source source' : Source}

theorem asked_bufferRemoveString16 {string : SVString}
    (h : bufferRemoveString16 source = .ok string source') :
    source' = source.advance (2 + 2 * number 2 source.bytes) := by
  by_cases hlength : number 2 source.bytes < 0x8000
  · by_cases hfits : TextFits (number 2 source.bytes) (source.bytes.drop 2)
    · obtain ⟨value, hrun, -⟩ := takes_bufferRemoveString16 hlength hfits
      rw [hrun] at h
      cases h
      rfl
    · obtain ⟨fault, middle, hrun, -⟩ := stops_bufferRemoveString16_long hlength hfits
      rw [hrun] at h
      cases h
  · obtain ⟨fault, middle, hrun, -⟩ := stops_bufferRemoveString16_negative hlength
    rw [hrun] at h
    cases h

/-- A run of a format that returns has taken its layout. -/
theorem asked_bufferRemoveFormat {format : List Letter} {fields : Fields format}
    (hformat : ∀ letter ∈ format, letter.scalar = true ∨ letter = .U)
    (h : bufferRemoveFormat format source = .ok fields source') :
    source' = source.advance (layoutSpan format source.bytes) := by
  induction format generalizing source with
  | nil =>
      cases h
      rw [layoutSpan, Source.advance_zero]
  | cons letter rest ih =>
      obtain ⟨field, middle, hfield, hmore⟩ := bind_eq_ok h
      obtain ⟨fields, last, hfields, hdone⟩ := bind_eq_ok hmore
      cases hdone
      have hrest := ih (fun other hmem => hformat other (.tail _ hmem)) hfields
      rcases hformat letter (.head _) with hscalar | rfl
      · obtain ⟨value, hrun, -⟩ := takes_bufferRemoveField hscalar source
        rw [hrun] at hfield
        cases hfield
        rw [hrest, Source.advance_advance, layoutSpan_cons hscalar, Source.bytes_advance]
      · have htext := asked_bufferRemoveString16 hfield
        rw [hrest, htext, Source.advance_advance, layoutSpan, Source.bytes_advance]

theorem asked_format {format : List Letter} {build : Fields format → SVRequest}
    {packet : SVRequest} (hformat : ∀ letter ∈ format, letter.scalar = true ∨ letter = .U)
    (h : (bufferRemoveFormat format >>= fun fields => pure (build fields)) source =
      .ok packet source') : source' = source.advance (layoutSpan format source.bytes) := by
  obtain ⟨fields, middle, hfields, hdone⟩ := bind_eq_ok h
  cases hdone
  exact asked_bufferRemoveFormat hformat hfields

theorem asked_text {build : SVString → SVRequest} {packet : SVRequest}
    (h : (bufferRemoveString16 >>= fun text => pure (build text)) source = .ok packet source') :
    source' = source.advance (layoutSpan [.U] source.bytes) := by
  obtain ⟨text, middle, htext, hdone⟩ := bind_eq_ok h
  cases hdone
  exact asked_bufferRemoveString16 htext

private theorem asked_of_spans {read : Remove SVRequest} {packet : SVRequest} {n : Nat}
    {P : SVRequest → Prop} (hspan : Spans Defined read source n P)
    (h : read source = .ok packet source') : source' = source.advance n := by
  rcases hspan with ⟨value, hrun, -⟩ | ⟨fault, middle, hrun, -⟩
  · rw [hrun] at h
    cases h
    rfl
  · rw [hrun] at h
    cases h

/-- **What the decoder consumes.**  A run of an arm that returns has taken the layout of its
request. -/
theorem asked_requestData {heap : Heap} {type : SVPacketType} {read : Remove SVRequest}
    {packet : SVRequest} (hread : requestDataFromBuffer heap type = some read)
    (hmetadata : type ≠ .entityMetadata) (h : read source = .ok packet source') :
    source' = source.advance (requestLayout type source.bytes) := by
  have hspan := spans_request heap hread hmetadata source
  cases type
  case entityMetadata => exact absurd rfl hmetadata
  case login => cases hread; exact asked_format (by decide) h
  case handshake => cases hread; exact asked_text h
  case chat => cases hread; exact asked_text h
  case disconnect => cases hread; exact asked_text h
  case updateSign => cases hread; exact asked_format (by decide) h
  all_goals exact asked_of_spans hspan h

/-! ## What the check asks for -/

variable {data : List Byte}

/-- The check accepts, or asks for more than there is but for no more than the request will
have. -/
def Bounded (data : List Byte) (answer : Framing) : Prop :=
  answer = .parsable ∨
    ∃ low, answer = .again low ∧ data.length < low ∧ ∀ rest, low ≤ requestSize (data ++ rest)

theorem bounded_check {type : SVPacketType} {extra : Nat}
    (h : ∀ rest, packetLength type + extra ≤ requestSize (data ++ rest)) :
    Bounded data (check data type extra) := by
  unfold check
  by_cases hshort : data.length < packetLength type + extra
  · rw [if_pos hshort]
    exact .inr ⟨_, rfl, hshort, h⟩
  · rw [if_neg hshort]
    exact .inl rfl

theorem bounded_peek {index n : Nat} {next : Nat → Framing} (hfits : index + n ≤ data.length)
    (h : Bounded data (next (number n (data.drop index)))) :
    Bounded data (peek data index n next) := by
  unfold peek
  rwa [if_pos hfits]

theorem number_drop_append {index n : Nat} (hfits : index + n ≤ data.length) (rest : List Byte) :
    number n ((data ++ rest).drop index) = number n (data.drop index) := by
  have hlength : n ≤ (data.drop index).length := by
    rw [List.length_drop]
    omega
  rw [List.drop_append_of_le_length (by omega)]
  conv_lhs => rw [← List.take_append_drop n (data.drop index)]
  conv_rhs => rw [← List.take_append_drop n (data.drop index)]
  have htake : ((data.drop index).take n).length = n := by
    rw [List.length_take]
    omega
  rw [List.append_assoc, number_append htake, number_append htake]

private theorem bounded_updateSignTexts {texts offset extra : Nat}
    (hoffset : texts * 2 + offset = 17)
    (hfits : 19 + extra ≤ data.length)
    (hsize : ∀ rest, offset + extra +
      layoutSpan (List.replicate (texts + 1) .U) ((data ++ rest).drop (offset + extra)) ≤
        requestSize (data ++ rest)) :
    Bounded data (updateSignTexts data texts offset extra) := by
  have hnumber : ∀ rest, number 2 ((data ++ rest).drop (offset + extra)) =
      number 2 (data.drop (offset + extra)) := number_drop_append (by omega)
  induction texts generalizing offset extra with
  | zero =>
      -- the last text: what is asked for ends with its units
      rw [updateSignTexts]
      refine bounded_peek (by omega) (bounded_check fun rest => ?_)
      have h := hsize rest
      rw [List.replicate_succ, layoutSpan, hnumber] at h
      rw [packetLength]
      omega
  | succ texts ih =>
      rw [updateSignTexts]
      refine bounded_peek (by omega) ?_
      -- the text that has been counted lies in front of the others
      have hspan : ∀ rest, offset + 2 + (extra + number 2 (data.drop (offset + extra)) * 2) +
          layoutSpan (List.replicate (texts + 1) .U) ((data ++ rest).drop
            (offset + 2 + (extra + number 2 (data.drop (offset + extra)) * 2))) ≤
          requestSize (data ++ rest) := by
        intro rest
        have h := hsize rest
        rw [List.replicate_succ, layoutSpan, hnumber, List.drop_drop] at h
        rw [show offset + 2 + (extra + number 2 (data.drop (offset + extra)) * 2) =
          offset + extra + (2 + 2 * number 2 (data.drop (offset + extra))) by omega]
        omega
      by_cases hshort : data.length <
          packetLength .updateSign + (extra + number 2 (data.drop (offset + extra)) * 2)
      · rw [if_pos hshort]
        refine .inr ⟨_, rfl, hshort, fun rest => ?_⟩
        -- each text that is left takes two bytes at least
        have hmany : ∀ (texts : Nat) (bytes : List Byte),
            2 * texts ≤ layoutSpan (List.replicate texts .U) bytes := by
          intro texts
          induction texts with
          | zero => exact fun _ => Nat.zero_le _
          | succ texts ih =>
              intro bytes
              have h := ih (bytes.drop (2 + 2 * number 2 bytes))
              rw [List.replicate_succ, layoutSpan]
              omega
        have h := hspan rest
        have hleast := hmany (texts + 1) ((data ++ rest).drop
          (offset + 2 + (extra + number 2 (data.drop (offset + extra)) * 2)))
        rw [packetLength]
        omega
      · rw [if_neg hshort]
        rw [packetLength] at hshort
        exact ih (by omega) (by omega) hspan (number_drop_append (by omega))

section Types

variable {first : Byte} {rest : List Byte} {type : SVPacketType}

/-- A packet grows by what the number `index` bytes behind the type byte asks for. -/
theorem bounded_number (grows : Nat → Nat) (fixed index : Nat)
    (hfirst : SVPacketType.ofByte first = some type)
    (hlength : packetLength type ≤ (first :: rest).length) (hindex : index + 3 ≤ packetLength type)
    (hfixed : packetLength type ≤ 1 + fixed)
    (hlayout : ∀ bytes, requestLayout type bytes = fixed + grows (number 2 (bytes.drop index))) :
    Bounded (first :: rest) (peek (first :: rest) (index + 1) 2 fun value =>
      check (first :: rest) type (grows value)) := by
  have hfits : index + 1 + 2 ≤ (first :: rest).length := by omega
  refine bounded_peek hfits (bounded_check fun more => ?_)
  have hnumber := number_drop_append hfits more
  rw [List.cons_append, List.drop_succ_cons, List.drop_succ_cons] at hnumber
  rw [List.cons_append, requestSize_cons hfirst, hlayout, hnumber, List.drop_succ_cons]
  omega

theorem bounded_text (fixed index : Nat) (hfirst : SVPacketType.ofByte first = some type)
    (hlength : packetLength type ≤ (first :: rest).length) (hindex : index + 3 ≤ packetLength type)
    (hfixed : packetLength type ≤ 1 + fixed)
    (hlayout : ∀ bytes, requestLayout type bytes = fixed + 2 * number 2 (bytes.drop index)) :
    Bounded (first :: rest) (peek (first :: rest) (index + 1) 2 fun length =>
      check (first :: rest) type (length * 2)) :=
  bounded_number (· * 2) fixed index hfirst hlength hindex hfixed
    fun bytes => by rw [hlayout, Nat.mul_comm]

theorem bounded_item (fixed index : Nat) (hfirst : SVPacketType.ofByte first = some type)
    (hlength : packetLength type ≤ (first :: rest).length) (hindex : index + 3 ≤ packetLength type)
    (hfixed : packetLength type ≤ 1 + fixed)
    (hlayout : ∀ bytes, requestLayout type bytes =
      fixed + if number 2 (bytes.drop index) = 0xFFFF then 0 else 3) :
    Bounded (first :: rest) (peek (first :: rest) (index + 1) 2 fun id =>
      check (first :: rest) type (if id ≠ 0xFFFF then 3 else 0)) := by
  refine bounded_number (fun id => if id ≠ 0xFFFF then 3 else 0) fixed index hfirst hlength hindex
    hfixed fun bytes => ?_
  rw [hlayout, ite_not]

theorem bounded_packetComplete {heap : Heap} (hfirst : SVPacketType.ofByte first = some type)
    (hread : (requestDataFromBuffer heap type).isSome) (hmetadata : type ≠ .entityMetadata)
    (hlength : packetLength type ≤ (first :: rest).length) :
    ∃ answer, (∀ rounds, packetComplete rounds (first :: rest) type = some answer) ∧
      Bounded (first :: rest) answer := by
  cases type
  -- the types with a text or an item, and then those that the table tells whole
  case entityMetadata => exact absurd rfl hmetadata
  case login =>
    refine ⟨_, fun _ => rfl, bounded_text 22 4 hfirst hlength (by decide) (by decide) ?_⟩
    intro bytes
    show 4 + (2 + 2 * number 2 (bytes.drop 4) + 16) = 22 + 2 * number 2 (bytes.drop 4)
    omega
  case handshake =>
    exact ⟨_, fun _ => rfl, bounded_text 2 0 hfirst hlength (by decide) (by decide)
      fun _ => rfl⟩
  case chat =>
    exact ⟨_, fun _ => rfl, bounded_text 2 0 hfirst hlength (by decide) (by decide)
      fun _ => rfl⟩
  case disconnect =>
    exact ⟨_, fun _ => rfl, bounded_text 2 0 hfirst hlength (by decide) (by decide)
      fun _ => rfl⟩
  case playerBlockPlacement =>
    exact ⟨_, fun _ => rfl, bounded_item 12 10 hfirst hlength (by decide) (by decide) fun _ => rfl⟩
  case windowClick =>
    exact ⟨_, fun _ => rfl, bounded_item 9 7 hfirst hlength (by decide) (by decide) fun _ => rfl⟩
  case updateSign =>
    refine ⟨_, fun _ => rfl, bounded_updateSignTexts rfl hlength fun more => ?_⟩
    rw [List.cons_append, requestSize_cons hfirst]
    show 11 + layoutSpan [.U, .U, .U, .U] ((rest ++ more).drop 10) ≤
      1 + (4 + (2 + (4 + layoutSpan [.U, .U, .U, .U] (((rest ++ more).drop 4).drop 2 |>.drop 4))))
    rw [List.drop_drop, List.drop_drop]
    show 11 + layoutSpan [.U, .U, .U, .U] ((rest ++ more).drop 10) ≤
      1 + (4 + (2 + (4 + layoutSpan [.U, .U, .U, .U] ((rest ++ more).drop 10))))
    omega
  all_goals first
    | exact ⟨_, fun _ => rfl, .inl rfl⟩
    | cases hread

/-- A request is never shorter than the table says. -/
theorem packetLength_le_requestSize {heap : Heap} (hfirst : SVPacketType.ofByte first = some type)
    (hread : (requestDataFromBuffer heap type).isSome) (hmetadata : type ≠ .entityMetadata) :
    packetLength type ≤ requestSize (first :: rest) := by
  rw [requestSize_cons hfirst]
  cases type
  case entityMetadata => exact absurd rfl hmetadata
  case login =>
    show 22 ≤ 1 + (4 + (2 + 2 * number 2 (rest.drop 4) + 16))
    omega
  case handshake =>
    show 3 ≤ 1 + (2 + 2 * number 2 rest + 0)
    omega
  case chat =>
    show 3 ≤ 1 + (2 + 2 * number 2 rest + 0)
    omega
  case disconnect =>
    show 3 ≤ 1 + (2 + 2 * number 2 rest + 0)
    omega
  case playerBlockPlacement =>
    rw [packetLength, requestLayout]
    omega
  case windowClick =>
    rw [packetLength, requestLayout]
    omega
  case updateSign =>
    show 19 ≤ 1 + (4 + (2 + (4 + layoutSpan [.U, .U, .U, .U] _)))
    simp only [layoutSpan]
    omega
  all_goals first
    | exact Nat.le_refl _
    | cases hread

theorem bounded_answer {heap : Heap} (rest : List Byte)
    (hfirst : SVPacketType.ofByte first = some type)
    (hread : (requestDataFromBuffer heap type).isSome) (hmetadata : type ≠ .entityMetadata) :
    ∃ answer, Answers (first :: rest) answer ∧ Bounded (first :: rest) answer := by
  by_cases hlength : (first :: rest).length < packetLength type
  · refine ⟨_, ⟨0, packetParsable_of_short hfirst hlength 0⟩,
      .inr ⟨_, rfl, hlength, fun more => ?_⟩⟩
    exact packetLength_le_requestSize hfirst hread hmetadata
  · obtain ⟨answer, hcomplete, hbounded⟩ :=
      bounded_packetComplete hfirst hread hmetadata (not_lt.mp hlength)
    exact ⟨answer, ⟨0, (packetParsable_of_type hfirst hlength 0).trans (hcomplete 0)⟩, hbounded⟩

/-- A run of the decoder that returns has asked for the size of the request. -/
theorem asked_requestFromBuffers {heap : Heap} {packet : Option SVRequest} {source : Source}
    (hfirst : SVPacketType.ofByte first = some type)
    (hread : (requestDataFromBuffer heap type).isSome) (hmetadata : type ≠ .entityMetadata)
    (h : requestFromBuffers heap { bytes := first :: rest, asked := 0 } = .ok packet source) :
    source.asked = requestSize (first :: rest) := by
  obtain ⟨read, hsome⟩ := Option.isSome_iff_exists.mp hread
  rw [requestFromBuffers_cons hfirst hsome] at h
  obtain ⟨value, middle, hrun, hdone⟩ := bind_eq_ok h
  cases hdone
  rw [asked_requestData hsome hmetadata hrun, requestSize_cons hfirst]
  rfl

end Types

/-- **Framing does not stall a request.**  For a supported type without metadata the check
answers from inside the buffer; it accepts as soon as the whole request is there; and when it
does not accept, its watermark lies above what is there and not above the size of the request,
however the stream goes on.  That size is what the decoder consumes. -/
theorem framing_never_stalls (heap : Heap) (buffer : InputBuffer)
    (hsupported : Supported heap buffer.data)
    (hmetadata : buffer.data.head? ≠ some SVPacketType.entityMetadata.value) :
    (∃ answer, Answers buffer.data answer ∧ answer ≠ .outside) ∧
      (requestSize buffer.data ≤ buffer.data.length → Answers buffer.data .parsable) ∧
      (∀ answer, Answers buffer.data answer → answer ≠ .parsable →
        ∃ low, answer = .again low ∧ buffer.data.length < low ∧
          ∀ rest, low ≤ requestSize (buffer.data ++ rest)) ∧
      ∀ rest packet source,
        requestFromBuffers heap { bytes := buffer.data ++ rest, asked := 0 } = .ok packet source →
          source.asked = requestSize (buffer.data ++ rest) := by
  obtain ⟨data, hlength⟩ := buffer
  dsimp only at hsupported hmetadata ⊢
  obtain ⟨read, hsome⟩ := Option.isSome_iff_exists.mp hsupported
  obtain ⟨type, htype, hread⟩ := Option.bind_eq_some_iff.mp hsome
  obtain ⟨first, hhead, hfirst⟩ := Option.bind_eq_some_iff.mp htype
  obtain ⟨rest, rfl⟩ := List.head?_eq_some_iff.mp hhead
  have hother : type ≠ .entityMetadata := by
    rintro rfl
    exact hmetadata (congrArg some (SVPacketType.value_of_ofByte hfirst))
  have hread : (requestDataFromBuffer heap type).isSome := by rw [hread]; rfl
  obtain ⟨answer, hanswer, hbounded⟩ := bounded_answer rest hfirst hread hother
  refine ⟨⟨answer, hanswer, ?_⟩, fun hwhole => ?_, fun answer' hanswer' hnot => ?_,
    fun more packet source hrun => asked_requestFromBuffers hfirst hread hother hrun⟩
  · rcases hbounded with rfl | ⟨low, rfl, -⟩ <;> nofun
  · rcases hbounded with rfl | ⟨low, rfl, hlow, hsize⟩
    · exact hanswer
    · have h := hsize []
      rw [List.append_nil] at h
      omega
  · cases answers_unique hanswer hanswer'
    exact hbounded.resolve_left hnot

/-- Of a chat message of two units one has arrived. -/
theorem framing_never_stalls_chat :
    ∃ low, Framing.again 7 = .again low ∧ 5 < low ∧
      ∀ rest, low ≤ requestSize ([0x03, 0, 2, 0, 0x61] ++ rest) :=
  (framing_never_stalls ⟨0, fun _ => ⟨0, 0, 0, 0⟩, 0, fun _ => none⟩
    ⟨[0x03, 0, 2, 0, 0x61], by decide⟩ rfl (by decide)).2.2.1 (.again 7) ⟨0, by decide⟩ nofun

end Craftd.Protocol
