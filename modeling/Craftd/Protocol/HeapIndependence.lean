import Craftd.Protocol.ResponseFraming
import Craftd.Protocol.Passage

/-!
# Does the proxy send what its memory held?

The structures that the decoder fills come from `CD_malloc`, which leaves in them what
was there before.  `reencode` decodes a packet and encodes it again over a `Heap` of such
remains, and `sameBytes_iff` says for which packets the result is the same for all of
them.

Most arms write every field that the encoder reads back (`Agrees`, over two heaps).  The
exceptions are the items that a window leaves out, which keep what their memory held; the
arms that run into the next one; metadata with a header that the table of formats has no
entry for, or with a float, which the encoder does not find among its arguments; and the
array of an explosion, whose size overflows.
-/

namespace Craftd.Protocol

open Craftd.Containers ByteReader

/-! ## What is to hold -/

/-- A packet decoded from `data` and encoded again: what is sent for it, or why it does not
come to that.  There is nothing to send where the decoder has no arm. -/
def reencode (heap : Heap) (data : List Byte) : Except Fault (Option (List Byte)) :=
  match responseFromBuffers heap { bytes := data, asked := 0 } with
  | .error fault _ => .error fault
  | .ok none _ => .ok none
  | .ok (some packet) _ => (responseToBuffer packet).map some

/-- Whatever the memory held, the same is sent, and no byte is read that nothing wrote. -/
def SameBytes (data : List Byte) : Prop :=
  ∀ heap heap', reencode heap data = reencode heap' data ∧
    reencode heap data ≠ .error .undefined

/-- None of the items of a window is left out. -/
def NoneAbsent : Nat → List Byte → Prop
  | 0, _ => True
  | items + 1, bytes => number 2 bytes ≠ 0xFFFF ∧ NoneAbsent items (bytes.drop 5)

/-- The arrays of a packet are there, by the bytes behind the type byte. -/
def ArraysArrived (type : SVPacketType) (bytes : List Byte) : Prop :=
  match type with
  | .mapChunk => counted 32 (number 4 (bytes.drop 13)) ≤ (bytes.drop 17).length
  | .multiBlockChange => 4 * counted 16 (number 2 (bytes.drop 8)) ≤ (bytes.drop 10).length
  | .explosion => 3 * counted 32 (number 4 (bytes.drop 28)) ≤ (bytes.drop 32).length
  | _ => True

/-- Everything that the encoder reads of a packet has been written, when its arrays are
there. -/
def FieldsWritten (type : SVPacketType) (data : List Byte) : Prop :=
  match type with
  | .spawnMob => ¬ HighReached data 20 ∧ ¬ FloatReached data 20
  | .entityMetadata => ¬ HighReached data 5 ∧ ¬ FloatReached data 5
  | .explosion => counted 32 (number 4 (data.drop 29)) * 3 < 2 ^ 31
  | .windowItems => NoneAbsent (counted 16 (number 2 (data.drop 2))) (data.drop 4)
  -- these run into the next arm, or take more arguments than there are
  | .thunderbolt | .updateProgressBar | .itemData => False
  | _ => True

/-- The decoder writes all that the encoder reads. -/
def HeapFree : List Byte → Prop
  | [] => True
  | first :: rest =>
      match SVPacketType.ofByte first with
      | none => True
      | some type => FieldsWritten type (first :: rest)

/-! ## Packets that are sent alike -/

/-- What is sent for the packets is the same, and has been written. -/
structure SentAlike (packet packet' : SVResponse) : Prop where
  type_eq : packet.type = packet'.type
  data_eq : responseDataToBuffer packet = responseDataToBuffer packet'
  written : responseDataToBuffer packet ≠ .error .undefined

theorem ok_written {bytes : List Byte} : (.ok bytes : Added) ≠ .error .undefined := by
  intro heq
  cases heq

private theorem bufferAddString_written (string : SVString) :
    bufferAddString string ≠ .error .undefined := by
  unfold bufferAddString
  cases svStringSanitize string with
  | none => exact fun heq => by cases heq
  | some sanitized => exact ok_written

theorem bufferAddString16_written (string : SVString) :
    bufferAddString16 string ≠ .error .undefined := by
  unfold bufferAddString16
  cases svStringSanitize string with
  | none => exact fun heq => by cases heq
  | some sanitized => exact ok_written

theorem bind_written {Value : Type} {first : Except Fault Value} {next : Value → Added}
    (hfirst : first ≠ .error .undefined) (hnext : ∀ value, next value ≠ .error .undefined) :
    first >>= next ≠ .error .undefined := by
  cases first with
  | error fault =>
      intro heq
      exact hfirst (congrArg Except.error (Except.error.inj heq))
  | ok value => exact hnext value

theorem map_written {first : Added} {lead : List Byte} (hfirst : first ≠ .error .undefined) :
    first.map (lead ++ ·) ≠ .error .undefined := by
  cases first with
  | error fault =>
      intro heq
      exact hfirst (congrArg Except.error (Except.error.inj heq))
  | ok value => exact ok_written

private theorem bufferAddField_written (letter : Letter) (field : letter.Field) (h : letter ≠ .M) :
    bufferAddField letter field ≠ .error .undefined := by
  cases letter
  case S => exact bufferAddString_written field
  case U => exact bufferAddString16_written field
  case M => exact absurd rfl h
  all_goals exact ok_written

/-- A format without metadata reads nothing but its arguments. -/
theorem bufferAddFormat_written (format : List Letter) (fields : Fields format)
    (h : .M ∉ format) : bufferAddFormat format fields ≠ .error .undefined := by
  induction format with
  | nil => exact ok_written
  | cons letter rest ih =>
      obtain ⟨hletter, hrest⟩ := not_or.mp (List.mem_cons.not.mp h)
      exact bind_written (bufferAddField_written letter fields.1 (Ne.symm hletter)) fun _ =>
        bind_written (ih fields.2 hrest) fun _ => ok_written

/-- Of the items that the decoder returns, a float is the one that is not found. -/
theorem bufferAddMetadata_undefined_iff {items : SVMetadata}
    (htypes : ∀ item ∈ items, item.type.toNat < 4) :
    bufferAddMetadata items = .error .undefined ↔ ∃ value, .f value ∈ items := by
  induction items with
  | nil => exact iff_of_false (fun heq => by cases heq) fun ⟨_, hmem⟩ => by cases hmem
  | cons item rest ih =>
      obtain ⟨hitem, hrest⟩ := List.forall_mem_cons.mp htypes
      have hfloat : (∀ value, item ≠ .f value) → ((∃ value, .f value ∈ item :: rest) ↔
          ∃ value, .f value ∈ rest) := fun hne =>
        exists_congr fun value => by rw [List.mem_cons, or_iff_right (Ne.symm (hne value))]
      have hsent : ∀ first, bufferAddData item = .ok first →
          (bufferAddMetadata (item :: rest) = .error .undefined ↔
            bufferAddMetadata rest = .error .undefined) := by
        intro first hfirst
        rw [bufferAddMetadata, hfirst]
        cases bufferAddMetadata rest with
        | error fault => exact Iff.rfl
        | ok after => exact iff_of_false (fun heq => by cases heq) fun heq => by cases heq
      cases item with
      | f value => exact iff_of_true rfl ⟨value, .head _⟩
      | S string => exact absurd hitem (by decide : ¬ (4 : SVByte).toNat < 4)
      | sbs first second third => exact absurd hitem (by decide : ¬ (5 : SVByte).toNat < 4)
      | iii first second third => exact absurd hitem (by decide : ¬ (6 : SVByte).toNat < 4)
      | _ => rw [hsent _ rfl, ih hrest, hfloat fun value heq => by cases heq]

/-- The items that the decoder returns are bytes, shorts, integers and floats, and the floats are
where the headers say. -/
theorem decoder_items {data : List Byte} {position rounds : Nat} {items : SVMetadata}
    {source : Source} (hrounds : data.length ≤ position + rounds)
    (hloop : removeMetadataLoop rounds (sourceAt data position) = .ok items source) :
    (∀ item ∈ items, item.type.toNat < 4) ∧
      ((∃ value, .f value ∈ items) ↔ FloatReached data position) := by
  have hempty : (∀ item ∈ ([] : SVMetadata), item.type.toNat < 4) ∧
      ¬ ∃ value, .f value ∈ ([] : SVMetadata) :=
    ⟨List.forall_mem_nil _, fun ⟨_, hmem⟩ => by cases hmem⟩
  induction rounds generalizing position items with
  | zero =>
      have hbeyond : data.length ≤ position := hrounds
      cases hloop
      refine ⟨hempty.1, iff_of_false hempty.2 ?_⟩
      rw [FloatReached, headerReached_of_last (nextItem_beyond hbeyond),
        List.getElem?_eq_none hbeyond]
      rintro ⟨header, hheader, -⟩
      cases hheader
  | succ rounds ih =>
      cases hheader : data[position]? with
      | none =>
          have hbeyond := List.getElem?_eq_none_iff.mp hheader
          have hbytes : (sourceAt data position).bytes = [] := List.drop_eq_nil_iff.mpr hbeyond
          rw [removeMetadataLoop] at hloop
          cases (if_pos hbytes).symm.trans hloop
          refine ⟨hempty.1, iff_of_false hempty.2 ?_⟩
          rw [FloatReached, headerReached_of_last (nextItem_beyond hbeyond), hheader]
          rintro ⟨header, hheader, -⟩
          cases hheader
      | some header =>
          have hlt : position < data.length := (List.getElem?_eq_some_iff.mp hheader).1
          cases hnext : nextItem data position with
          | some next =>
              obtain ⟨header', hheader',
                  ⟨-, hstop⟩ | ⟨hlow, n, rfl, hafter, current, htype, hrun⟩⟩ :=
                decoder_step hnext
              -- a high header stops the decoder before it gets here
              · obtain ⟨stop, hstop⟩ := hstop rounds
                cases hstop.symm.trans hloop
              · cases hheader.symm.trans hheader'
                rw [hrun] at hloop
                obtain ⟨rest, middle, hrest, hpure⟩ := bind_eq_ok hloop
                cases hpure
                obtain ⟨htypes, hfloats⟩ := ih (by omega) hrest
                have hkinds : ∀ header : Byte, header.toNat < 128 → header ≠ 127 →
                    (header >>> 5).toNat < 4 ∧
                      (header >>> 5 = 3 ↔ 0x60 ≤ header.toNat ∧ header.toNat < 0x7F) := by
                  decide +kernel
                -- the item is a float exactly by the type bits of its header
                have hend : header ≠ 127 := by
                  rintro rfl
                  cases hnext.symm.trans (nextItem_of_terminator ⟨by omega, hheader⟩)
                obtain ⟨hbound, hkind⟩ := hkinds header hlow hend
                have hcurrent : (∃ value, current = .f value) ↔ header >>> 5 = 3 := by
                  rw [← htype]
                  cases current <;> simp [SVData.type]
                refine ⟨List.forall_mem_cons.mpr ⟨htype ▸ hbound, htypes⟩, ?_⟩
                calc (∃ value, .f value ∈ current :: rest)
                    ↔ (∃ value, current = .f value) ∨ ∃ value, .f value ∈ rest := by
                      simp only [List.mem_cons, exists_or, eq_comm]
                  _ ↔ (0x60 ≤ header.toNat ∧ header.toNat < 0x7F) ∨ FloatReached data n := by
                      rw [hcurrent, hkind, hfloats]
                  _ ↔ FloatReached data position := by
                      rw [FloatReached, headerReached_of_next hheader hnext]
          | none =>
              -- nothing follows: the terminator, or a header beyond the table of formats
              rw [removeMetadataLoop_at hheader] at hloop
              split_ifs at hloop with hend
              · subst hend
                cases hloop
                refine ⟨hempty.1, iff_of_false hempty.2 ?_⟩
                rw [FloatReached, headerReached_of_last hnext, hheader]
                rintro ⟨header, hsame, hbit⟩
                cases hsame
                exact absurd hbit (by decide)
              · rw [bufferRemoveData_high (high_of_last hheader hend hnext)] at hloop
                obtain ⟨current, middle, hrun, -⟩ := bind_eq_ok hloop
                cases hrun

/-! ## Arms over two heaps -/

section Arms

variable {source : Source}

theorem agrees_format {format : List Letter} {build build' : Fields format → Remove SVResponse}
    (h : ∀ letter ∈ format, letter.scalar = true ∨ letter = .U)
    (hbuild : ∀ fields, ∃ packet packet', build fields = pure packet ∧
      build' fields = pure packet' ∧ SentAlike packet packet') (source : Source) :
    Agrees Defined SentAlike (bufferRemoveFormat format >>= build)
      (bufferRemoveFormat format >>= build') source := by
  refine (spans_bufferRemoveFormat h source).bind_agrees fun fields _ => ?_
  obtain ⟨packet, packet', hpacket, hpacket', halike⟩ := hbuild fields
  rw [hpacket, hpacket']
  exact Agrees.pure halike

theorem agrees_field (letter : Letter) {build : letter.Field → SVResponse}
    (h : letter.scalar = true ∨ letter = .U)
    (hwritten : ∀ field, responseDataToBuffer (build field) ≠ .error .undefined)
    (source : Source) :
    Agrees Defined SentAlike (bufferRemoveField letter >>= fun field => pure (build field))
      (bufferRemoveField letter >>= fun field => pure (build field)) source := by
  have hbuild : ∀ field source, Agrees Defined SentAlike (pure (build field) : Remove SVResponse)
      (pure (build field)) source := fun field _ => Agrees.pure ⟨rfl, rfl, hwritten field⟩
  rcases h with hscalar | rfl
  · exact (takes_bufferRemoveField hscalar source).bind_agrees fun field _ => hbuild field _
  · exact (spans_bufferRemoveString16 source).bind_agrees fun field _ => hbuild field _

/-- Fields of a fixed size, and what the arm makes of them. -/
theorem agrees_more {format : List Letter} {build build' : Fields format → Remove SVResponse}
    (h : format.all Letter.scalar = true)
    (hmore : ∀ fields, FieldsFrom format fields source.bytes →
      Agrees Defined SentAlike (build fields) (build' fields)
        (source.advance (format.map Letter.width).sum)) :
    Agrees Defined SentAlike (bufferRemoveFormat format >>= build)
      (bufferRemoveFormat format >>= build') source := by
  have htakes := takes_bufferRemoveFormat format h source
  rw [formatSpan_of_scalars h] at htakes
  exact htakes.bind_agrees hmore

/-- An array that is there is sent as it came; one of a negative length is not taken. -/
theorem spans_array {length : Int} (harrived : length.toNat ≤ source.bytes.length) :
    Spans Defined (bufferRemove length) source length.toNat fun item =>
      0 ≤ length ∧ bufferAdd item length = .ok item := by
  rcases lt_or_ge length 0 with hneg | hpos
  · rw [Int.toNat_of_nonpos hneg.le]
    exact .inr (stops_bufferRemove hneg source)
  · have hitem : (source.bytes.take length.toNat).length = length.toNat := by
      rw [List.length_take, Nat.min_eq_left harrived]
    refine .inl ⟨source.bytes.take length.toNat, ?_, hpos, ?_⟩
    · rw [bufferRemove, if_neg (not_lt.mpr hpos)]
      rfl
    · unfold bufferAdd
      rw [if_neg (by omega), List.take_of_length_le hitem.le]

variable {heap heap' : Heap}

private theorem agrees_removeItems (items i : Nat) (hpresent : NoneAbsent items source.bytes) :
    Agrees Defined (fun item item' => bufferAddItems item = bufferAddItems item')
      (removeItems heap items i) (removeItems heap' items i) source := by
  induction items generalizing i source with
  | zero => exact Agrees.pure rfl
  | succ items ih =>
      obtain ⟨hid, hrest⟩ := hpresent
      rw [removeItems, removeItems]
      refine (Takes.word 2 16 source).bind_agrees fun id hvalue => ?_
      have hsome : ¬ id = -1 := by
        rw [hvalue]
        exact (ofNat_eq_neg_one_iff _).not.mpr hid
      rw [if_neg hsome, if_neg hsome]
      refine (Takes.word 1 8 _).bind_agrees fun count _ => ?_
      refine (Takes.word 2 16 _).bind_agrees fun damage _ => ?_
      rw [Source.advance_advance, Source.advance_advance]
      have hlater : NoneAbsent items (source.advance 5).bytes := hrest
      refine (ih (i + 1) hlater).bind fun item item' _ hsame => ?_
      refine Agrees.pure ?_
      rw [bufferAddItems, bufferAddItems, hsame]

private theorem agrees_spawnObject {read read' : Remove SVResponse}
    (hread : responseDataFromBuffer heap .spawnObject = some read)
    (hread' : responseDataFromBuffer heap' .spawnObject = some read') :
    Agrees Defined SentAlike read read' source := by
  cases hread
  cases hread'
  refine agrees_more rfl ?_
  rintro ⟨entityId, type, x, y, z, flag, ⟨⟩⟩ -
  dsimp only
  have hwritten : ∀ heap u1 u2 u3, responseDataToBuffer
      (.spawnObject entityId (overwriteLow heap type) ⟨x, y, z⟩ flag u1 u2 u3) ≠
        .error .undefined := by
    intro heap u1 u2 u3
    refine bind_written (bufferAddFormat_written _ _ (by decide)) fun object => ?_
    split_ifs <;> exact ok_written
  have hsame : ∀ heap heap' u1 u2 u3, responseDataToBuffer
      (.spawnObject entityId (overwriteLow heap type) ⟨x, y, z⟩ flag u1 u2 u3) =
        responseDataToBuffer
          (.spawnObject entityId (overwriteLow heap' type) ⟨x, y, z⟩ flag u1 u2 u3) := by
    intro heap heap' u1 u2 u3
    simp only [responseDataToBuffer, setWidth_overwriteLow]
  split_ifs
  · have hshorts : ∀ letter ∈ [Letter.s, .s, .s], letter.scalar = true ∨ letter = .U := by decide
    refine agrees_format hshorts (fun fields => ?_) _
    exact ⟨_, _, rfl, rfl, rfl, hsame _ _ _ _ _, hwritten _ _ _ _⟩
  · exact Agrees.pure ⟨rfl, hsame _ _ _ _ _, hwritten _ _ _ _⟩

private theorem agrees_setSlot {read read' : Remove SVResponse}
    (hread : responseDataFromBuffer heap .setSlot = some read)
    (hread' : responseDataFromBuffer heap' .setSlot = some read') :
    Agrees Defined SentAlike read read' source := by
  cases hread
  cases hread'
  refine agrees_more rfl ?_
  rintro ⟨windowId, slot, id, ⟨⟩⟩ -
  dsimp only
  have hwritten : ∀ item, responseDataToBuffer (.setSlot windowId item) ≠ .error .undefined := by
    intro item
    refine bind_written (bufferAddFormat_written _ _ (by decide)) fun slot => ?_
    split_ifs
    · exact bind_written (bufferAddFormat_written _ _ (by decide)) fun _ => ok_written
    · exact ok_written
  by_cases hid : id ≠ -1
  · rw [if_pos hid, if_pos hid]
    refine (Takes.word 1 8 _).bind_agrees fun count _ => ?_
    exact (Takes.word 2 16 _).bind_agrees fun damage _ =>
      Agrees.pure ⟨rfl, rfl, hwritten _⟩
  · rw [if_neg hid, if_neg hid]
    -- an item without an id is sent without the rest
    refine Agrees.pure ⟨rfl, ?_, hwritten _⟩
    simp only [responseDataToBuffer, if_neg hid]

private theorem agrees_windowItems {read read' : Remove SVResponse}
    (hread : responseDataFromBuffer heap .windowItems = some read)
    (hread' : responseDataFromBuffer heap' .windowItems = some read')
    (hpresent : NoneAbsent (counted 16 (number 2 (source.bytes.drop 1))) (source.bytes.drop 3)) :
    Agrees Defined SentAlike read read' source := by
  cases hread
  cases hread'
  refine agrees_more rfl ?_
  rintro ⟨id, length, ⟨⟩⟩ ⟨-, hlength, -⟩
  obtain rfl : length = BitVec.ofNat 16 (number 2 (source.bytes.drop 1)) := hlength
  unfold counted at hpresent
  generalize (BitVec.ofNat 16 (number 2 (source.bytes.drop 1))) = length at hpresent ⊢
  dsimp only
  split_ifs with hneg
  · refine Agrees.throw ?_
    intro hundefined
    cases hundefined
  · have hcount : length.toInt.toNat = length.toNat := by
      rw [(toNat_of_not_neg hneg).2, Int.toNat_natCast]
    rw [hcount] at hpresent
    refine (agrees_removeItems length.toNat 0 hpresent).bind fun item item' _ hsame => ?_
    refine Agrees.pure ⟨rfl, ?_, ok_written⟩
    rw [responseDataToBuffer, responseDataToBuffer, hsame]

private theorem agrees_mapChunk {read read' : Remove SVResponse}
    (hread : responseDataFromBuffer heap .mapChunk = some read)
    (hread' : responseDataFromBuffer heap' .mapChunk = some read')
    (harrived : ArraysArrived .mapChunk source.bytes) :
    Agrees Defined SentAlike read read' source := by
  cases hread
  cases hread'
  refine agrees_more rfl ?_
  rintro ⟨x, y, z, sizeX, sizeY, sizeZ, length, ⟨⟩⟩ ⟨-, -, -, -, -, -, hlength, -⟩
  simp only [Letter.width, List.drop_drop] at hlength
  obtain rfl : length = BitVec.ofNat 32 (number 4 (source.bytes.drop 13)) := hlength
  unfold ArraysArrived counted at harrived
  dsimp only at harrived
  generalize (BitVec.ofNat 32 (number 4 (source.bytes.drop 13))) = length at harrived ⊢
  refine (spans_array harrived).bind_agrees fun item hitem => Agrees.pure ⟨rfl, rfl, ?_⟩
  refine bind_written (bufferAddFormat_written _ _ (by decide)) fun chunk => ?_
  rw [hitem.2]
  exact ok_written

private theorem agrees_multiBlockChange {read read' : Remove SVResponse}
    (hread : responseDataFromBuffer heap .multiBlockChange = some read)
    (hread' : responseDataFromBuffer heap' .multiBlockChange = some read')
    (harrived : ArraysArrived .multiBlockChange source.bytes) :
    Agrees Defined SentAlike read read' source := by
  cases hread
  cases hread'
  refine agrees_more rfl ?_
  rintro ⟨x, z, length, ⟨⟩⟩ ⟨-, -, hlength, -⟩
  simp only [Letter.width, List.drop_drop] at hlength
  obtain rfl : length = BitVec.ofNat 16 (number 2 (source.bytes.drop 8)) := hlength
  unfold ArraysArrived counted at harrived
  dsimp only at harrived
  generalize (BitVec.ofNat 16 (number 2 (source.bytes.drop 8))) = length at harrived ⊢
  rw [List.length_drop] at harrived
  have hbytes : ∀ n, ((source.advance 10).advance n).bytes.length =
      source.bytes.length - 10 - n := by
    intro n
    rw [Source.bytes_advance, Source.bytes_advance, List.length_drop, List.length_drop]
  have hcoordinates := hbytes 0
  rw [Source.advance_zero] at hcoordinates
  have hfirst : (length.toInt * 2).toNat ≤ (source.advance 10).bytes.length := by omega
  refine (spans_array hfirst).bind_agrees fun coordinate hcoordinate => ?_
  have hsecond := hbytes (length.toInt * 2).toNat
  refine (spans_array (by omega)).bind_agrees fun type htype => ?_
  have hthird := hbytes ((length.toInt * 2).toNat + length.toInt.toNat)
  rw [Source.advance_advance]
  refine (spans_array (by omega)).bind_agrees fun metadata hmetadata =>
    Agrees.pure ⟨rfl, rfl, ?_⟩
  refine bind_written (bufferAddFormat_written _ _ (by decide)) fun change => ?_
  rw [hcoordinate.2, htype.2, hmetadata.2]
  exact ok_written

private theorem agrees_explosion {read read' : Remove SVResponse}
    (hread : responseDataFromBuffer heap .explosion = some read)
    (hread' : responseDataFromBuffer heap' .explosion = some read')
    (harrived : ArraysArrived .explosion source.bytes)
    (hsmall : counted 32 (number 4 (source.bytes.drop 28)) * 3 < 2 ^ 31) :
    Agrees Defined SentAlike read read' source := by
  cases hread
  cases hread'
  refine agrees_more rfl ?_
  rintro ⟨x, y, z, radius, length, ⟨⟩⟩ ⟨-, -, -, -, hlength, -⟩
  simp only [Letter.width, List.drop_drop] at hlength
  obtain rfl : length = BitVec.ofNat 32 (number 4 (source.bytes.drop 28)) := hlength
  unfold counted at hsmall
  unfold ArraysArrived counted at harrived
  dsimp only at harrived
  generalize (BitVec.ofNat 32 (number 4 (source.bytes.drop 28))) = length at harrived hsmall ⊢
  have htriple : (length.toInt * 3).toNat ≤ (source.advance 32).bytes.length := by
    rw [Source.bytes_advance]
    omega
  refine (spans_array htriple).bind_agrees fun item hitem => Agrees.pure ⟨rfl, rfl, ?_⟩
  refine bind_written (bufferAddFormat_written _ _ (by decide)) fun explosion => ?_
  rw [if_pos (by omega), hitem.2]
  exact ok_written

/-- The metadata behind scalars is sent behind what is sent for these. -/
theorem metadata_format_sent {lead : List Letter} {source source' : Source} {items : SVMetadata}
    (hlead : lead.all Letter.scalar = true)
    (h : bufferRemoveMetadata (source.advance (lead.map Letter.width).sum) = .ok items source') :
    ∃ fields first, bufferRemoveFormat (lead ++ [.M]) source = .ok fields source' ∧
      bufferAddFormat (lead ++ [.M]) fields = (bufferAddMetadata items).map (first ++ ·) := by
  induction lead generalizing source with
  | nil =>
      rw [List.map_nil, List.sum_nil, Source.advance_zero] at h
      have hfield : bufferRemoveField .M source = .ok items source' := h
      refine ⟨(items, ()), [], ?_, ?_⟩
      · show (bufferRemoveField .M >>= fun field =>
          bufferRemoveFormat [] >>= fun fields => pure (field, fields)) source = _
        rw [bind_ok hfield]
        rfl
      · show (do return (← bufferAddMetadata items) ++ [] : Added) = _
        cases bufferAddMetadata items with
        | error fault => rfl
        | ok out => exact congrArg Except.ok (List.append_nil out)
  | cons letter lead ih =>
      rw [List.all_cons, Bool.and_eq_true] at hlead
      rw [List.map_cons, List.sum_cons, ← Source.advance_advance] at h
      obtain ⟨field, hfield, -⟩ := takes_bufferRemoveField hlead.1 source
      obtain ⟨fields, later, hfields, hlater⟩ := ih hlead.2 h
      -- a scalar can always be sent
      obtain ⟨first, hfirst⟩ : ∃ first, bufferAddField letter field = .ok first := by
        cases letter
        case S => exact absurd hlead.1 (by decide)
        case U => exact absurd hlead.1 (by decide)
        case M => exact absurd hlead.1 (by decide)
        all_goals exact ⟨_, rfl⟩
      refine ⟨(field, fields), first ++ later, ?_, ?_⟩
      · show (bufferRemoveField letter >>= fun field =>
          bufferRemoveFormat (lead ++ [.M]) >>= fun fields => pure (field, fields)) source = _
        rw [bind_ok hfield, bind_ok hfields]
        rfl
      · show (do return (← bufferAddField letter field) ++
          (← bufferAddFormat (lead ++ [.M]) fields) : Added) = _
        rw [hfirst, hlater]
        cases bufferAddMetadata items with
        | error fault => rfl
        | ok out => exact congrArg Except.ok (List.append_assoc first later out).symm

theorem metadata_format_cases {lead : List Letter} {data : List Byte} {start : Nat}
    (hlead : lead.all Letter.scalar = true) (hstart : 1 + (lead.map Letter.width).sum = start) :
    (HighReached data start ∧ ∃ stop,
      bufferRemoveFormat (lead ++ [.M]) (sourceAt data 1) = .error .undefined stop) ∨
      ¬ HighReached data start ∧ ∃ fields stop,
        bufferRemoveFormat (lead ++ [.M]) (sourceAt data 1) = .ok fields stop ∧
        (bufferAddFormat (lead ++ [.M]) fields = .error .undefined ↔ FloatReached data start) := by
  have hsource : (sourceAt data 1).advance (lead.map Letter.width).sum = sourceAt data start := by
    rw [sourceAt_advance, hstart]
  have hrounds : data.length ≤ start + (data.drop start).length := by
    rw [List.length_drop]
    omega
  rcases decoder_end hrounds with ⟨hhigh, stop, hloop⟩ | ⟨hhigh, -, items, stop, -, -, hloop, -⟩
  · exact .inl ⟨hhigh, stop, metadata_format_error hlead (by rw [hsource]; exact hloop)⟩
  · obtain ⟨fields, first, hrun, hsent⟩ :=
      metadata_format_sent hlead (by rw [hsource]; exact hloop)
    obtain ⟨htypes, hfloats⟩ := decoder_items hrounds hloop
    refine .inr ⟨hhigh, fields, stop, hrun, ?_⟩
    rw [hsent, ← hfloats, ← bufferAddMetadata_undefined_iff htypes]
    cases bufferAddMetadata items with
    | error fault => exact Iff.rfl
    | ok out => exact iff_of_false (fun heq => by cases heq) fun heq => by cases heq

theorem agrees_metadata (lead : List Letter)
    {build build' : Fields (lead ++ [.M]) → Remove SVResponse} {data : List Byte} {start : Nat}
    (hbuild : ∀ fields, ∃ packet packet', build fields = pure packet ∧
      build' fields = pure packet' ∧ packet.type = packet'.type ∧
      responseDataToBuffer packet = bufferAddFormat (lead ++ [.M]) fields ∧
      responseDataToBuffer packet' = bufferAddFormat (lead ++ [.M]) fields)
    (hlead : lead.all Letter.scalar = true) (hstart : 1 + (lead.map Letter.width).sum = start)
    (hhigh : ¬ HighReached data start) (hfloat : ¬ FloatReached data start) :
    Agrees Defined SentAlike (bufferRemoveFormat (lead ++ [.M]) >>= build)
      (bufferRemoveFormat (lead ++ [.M]) >>= build') (sourceAt data 1) := by
  rcases metadata_format_cases hlead hstart with
    ⟨hreached, -⟩ | ⟨-, fields, stop, hrun, hsent⟩
  · exact absurd hreached hhigh
  · obtain ⟨packet, packet', hpacket, hpacket', htype, hdata, hdata'⟩ := hbuild fields
    refine .inl ⟨packet, packet', stop, ?_, ?_, htype, hdata.trans hdata'.symm, ?_⟩
    · rw [bind_ok hrun, hpacket]
      rfl
    · rw [bind_ok hrun, hpacket']
      rfl
    · rw [hdata]
      exact hsent.not.mpr hfloat

/-- **Every arm but the exceptions** gives packets that are sent alike. -/
theorem agrees_response {type : SVPacketType} {read read' : Remove SVResponse} {first : Byte}
    {rest : List Byte} (hread : responseDataFromBuffer heap type = some read)
    (hread' : responseDataFromBuffer heap' type = some read')
    (hwritten : FieldsWritten type (first :: rest)) (harrived : ArraysArrived type rest) :
    Agrees Defined SentAlike read read' (sourceAt (first :: rest) 1) := by
  cases type
  case thunderbolt | updateProgressBar | itemData => exact hwritten.elim
  case spawnObject => exact agrees_spawnObject hread hread'
  case setSlot => exact agrees_setSlot hread hread'
  case windowItems => exact agrees_windowItems hread hread' hwritten
  case mapChunk => exact agrees_mapChunk hread hread' harrived
  case multiBlockChange => exact agrees_multiBlockChange hread hread' harrived
  case explosion => exact agrees_explosion hread hread' harrived hwritten
  all_goals
    cases hread
    try cases hread'
  case keepAlive | entityDestroy | entityCreate =>
    refine agrees_field .i (.inl rfl) (fun _ => ?_) _
    exact ok_written
  case timeUpdate =>
    refine agrees_field .l (.inl rfl) (fun _ => ?_) _
    exact ok_written
  case closeWindow =>
    refine agrees_field .b (.inl rfl) (fun _ => ?_) _
    exact ok_written
  case handshake | chat | disconnect =>
    refine agrees_field .U (.inr rfl) (fun _ => ?_) _
    exact bufferAddString16_written _
  case entityMetadata =>
    exact agrees_metadata [.i] (fun _ => ⟨_, _, rfl, rfl, rfl, rfl, rfl⟩) rfl rfl hwritten.1
      hwritten.2
  case spawnMob =>
    have hsent : ∀ (heap : Heap) entityId (type : SVByte) x y z yaw pitch metadata,
        responseDataToBuffer (.spawnMob entityId (overwriteLow heap.enum type) ⟨x, y, z⟩ yaw pitch
          metadata) = bufferAddFormat [.i, .b, .i, .i, .i, .b, .b, .M]
            (entityId, type, x, y, z, yaw, pitch, metadata, ()) := by
      intros
      rw [responseDataToBuffer, setWidth_overwriteLow]
    exact agrees_metadata [.i, .b, .i, .i, .i, .b, .b]
      (fun _ => ⟨_, _, rfl, rfl, rfl, hsent heap .., hsent heap' ..⟩) rfl rfl hwritten.1 hwritten.2
  case animation | entityStatus | entityEffect | removeEntityEffect | openWindow =>
    refine agrees_format (by decide) (fun _ => ?_) _
    refine ⟨_, _, rfl, rfl, rfl, ?_, bufferAddFormat_written _ _ (by decide)⟩
    simp only [responseDataToBuffer, setWidth_overwriteLow]
  all_goals
    refine agrees_format (by decide) (fun _ => ?_) _
    exact ⟨_, _, rfl, rfl, rfl, rfl, bufferAddFormat_written _ _ (by decide)⟩

end Arms

/-! ## What is sent for a packet -/

section Packets

variable {heap : Heap} {type : SVPacketType} {first : Byte} {rest : List Byte}
  {read : Remove SVResponse}

theorem reencode_cons (hfirst : SVPacketType.ofByte first = some type)
    (hread : responseDataFromBuffer heap type = some read) :
    reencode heap (first :: rest) =
      match read (sourceAt (first :: rest) 1) with
      | .ok packet _ => (responseToBuffer packet).map some
      | .error fault _ => .error fault := by
  rw [reencode, responseFromBuffers_cons hfirst hread]
  cases hrun : read (sourceAt (first :: rest) 1) with
  | ok packet stop =>
      rw [bind_ok hrun]
      rfl
  | error fault stop => rw [bind_error hrun]

/-- Nothing is sent for a type that the decoder has no arm for. -/
theorem reencode_unsupported
    (hread : (SVPacketType.ofByte first).bind (responseDataFromBuffer heap) = none) :
    reencode heap (first :: rest) = .ok none := by
  rw [reencode, responseFromBuffers, bind_ok (bufferRemoveByte_cons first rest), hread]
  rfl

/-- Which arms there are does not depend on the memory. -/
theorem responseData_isSome (heap heap' : Heap) (type : SVPacketType) :
    (responseDataFromBuffer heap type).isSome = (responseDataFromBuffer heap' type).isSome := by
  cases type <;> rfl

private theorem reencode_of_agrees {heap' : Heap} {read' : Remove SVResponse}
    (hfirst : SVPacketType.ofByte first = some type)
    (hread : responseDataFromBuffer heap type = some read)
    (hread' : responseDataFromBuffer heap' type = some read')
    (hagrees : Agrees Defined SentAlike read read' (sourceAt (first :: rest) 1)) :
    reencode heap (first :: rest) = reencode heap' (first :: rest) ∧
      reencode heap (first :: rest) ≠ .error .undefined := by
  rw [reencode_cons hfirst hread, reencode_cons hfirst hread']
  rcases hagrees with ⟨packet, packet', stop, hrun, hrun', halike⟩ | ⟨fault, stop, hrun, hrun', hok⟩
  · rw [hrun, hrun']
    dsimp only
    have hwritten : (responseToBuffer packet).map some ≠ .error .undefined := by
      rw [responseToBuffer]
      cases hdata : responseDataToBuffer packet with
      | ok data => exact fun heq => by cases heq
      | error fault =>
          intro heq
          exact halike.written (hdata.trans (congrArg Except.error (Except.error.inj heq)))
    refine ⟨?_, hwritten⟩
    rw [responseToBuffer, responseToBuffer, halike.type_eq, halike.data_eq]
  · rw [hrun, hrun']
    refine ⟨rfl, fun heq => hok (Except.error.inj heq)⟩

/-- The check has seen the arrays of a packet that it accepts. -/
theorem arraysArrived_of_parsable (hfirst : SVPacketType.ofByte first = some type)
    (hparsable : Answers (first :: rest) .parsable)
    (hwritten : FieldsWritten type (first :: rest)) : ArraysArrived type rest := by
  cases type
  case mapChunk =>
    rw [parsable_iff_peek 14 4 _ hfirst (by decide) fun _ => rfl, packetLength,
      List.drop_succ_cons, List.length_cons] at hparsable
    rw [ArraysArrived, counted_integer, List.length_drop]
    split_ifs <;> omega
  case multiBlockChange =>
    rw [parsable_iff_peek 9 2 _ hfirst (by decide) fun _ => rfl, packetLength,
      List.drop_succ_cons, List.length_cons] at hparsable
    rw [ArraysArrived, counted_short, List.length_drop]
    split_ifs <;> omega
  case explosion =>
    rw [parsable_iff_peek 29 4 _ hfirst (by decide) fun _ => rfl, packetLength,
      List.drop_succ_cons, List.length_cons] at hparsable
    rw [FieldsWritten, List.drop_succ_cons, counted_integer] at hwritten
    rw [ArraysArrived, counted_integer, List.length_drop]
    split_ifs at hwritten ⊢ <;> omega
  all_goals trivial

/-- **The packets that come out alike** over every memory. -/
theorem sameBytes_of_heapFree {data : List Byte} (hparsable : Answers data .parsable)
    (hfree : HeapFree data) : SameBytes data := by
  intro heap heap'
  cases data with
  | nil => exact ⟨rfl, nofun⟩
  | cons first rest =>
      cases hfirst : SVPacketType.ofByte first with
      | none =>
          have hnone : ∀ heap,
              (SVPacketType.ofByte first).bind (responseDataFromBuffer heap) = none := by
            rw [hfirst]
            exact fun _ => rfl
          rw [reencode_unsupported (hnone heap), reencode_unsupported (hnone heap')]
          exact ⟨rfl, nofun⟩
      | some type =>
          have hsome := responseData_isSome heap heap' type
          cases hread : responseDataFromBuffer heap type with
          | none =>
              rw [hread] at hsome
              have hread' := Option.isNone_iff_eq_none.mp (Option.isSome_eq_false_iff.mp hsome.symm)
              rw [reencode_unsupported (by rw [hfirst]; exact hread),
                reencode_unsupported (by rw [hfirst]; exact hread')]
              exact ⟨rfl, nofun⟩
          | some read =>
              rw [hread] at hsome
              obtain ⟨read', hread'⟩ := Option.isSome_iff_exists.mp hsome.symm
              rw [HeapFree, hfirst] at hfree
              have harrived := arraysArrived_of_parsable hfirst hparsable hfree
              exact reencode_of_agrees hfirst hread hread'
                (agrees_response hread hread' hfree harrived)

/-! ## The packets that do not -/

/-- Memory of which every item has this id, and every transaction this byte behind it. -/
def heapOf (id : SVShort) (pad : Byte) : Heap where
  enum := 0
  item := fun _ => ⟨id, 0, 0, 0⟩
  pad := pad
  string := fun _ => none

theorem not_sameBytes_of_returns (heap : Heap) {read : Remove SVResponse}
    (hfirst : SVPacketType.ofByte first = some type)
    (hread : responseDataFromBuffer heap type = some read)
    (hreturns : Returns read (sourceAt (first :: rest) 1) fun packet =>
      responseDataToBuffer packet = .error .undefined) : ¬ SameBytes (first :: rest) := by
  intro hsame
  obtain ⟨n, packet, hrun, hunwritten⟩ := hreturns
  apply (hsame heap heap).2
  rw [reencode_cons hfirst hread, hrun]
  dsimp only
  rw [responseToBuffer, hunwritten]
  rfl

private theorem thunderbolt_unwritten (hfirst : SVPacketType.ofByte first = some .thunderbolt) :
    ¬ SameBytes (first :: rest) := by
  refine not_sameBytes_of_returns (heapOf 0 0) hfirst rfl ?_
  exact (takes_bufferRemoveFormat [.i, .B, .i, .i, .i] rfl _).bind_returns fun _ _ =>
    Returns.pure rfl

private theorem itemData_unwritten (hfirst : SVPacketType.ofByte first = some .itemData) :
    ¬ SameBytes (first :: rest) := by
  refine not_sameBytes_of_returns (heapOf 0 0) hfirst rfl ?_
  refine (takes_bufferRemoveFormat [.s, .s, .b] rfl _).bind_returns fun _ _ => ?_
  exact (takes_bufferRemove (Int.natCast_nonneg _) _).bind_returns fun _ _ => Returns.pure rfl

/-- A progress bar ends with the byte behind a transaction. -/
theorem updateProgressBar_unwritten
    (hfirst : SVPacketType.ofByte first = some .updateProgressBar) :
    ¬ SameBytes (first :: rest) := by
  intro hsame
  let source := sourceAt (first :: rest) 1
  obtain ⟨bar, hbar, -⟩ := takes_bufferRemoveFormat [.b, .s, .s] rfl source
  obtain ⟨⟨id, action, accepted, ⟨⟩⟩, hrest, -⟩ := takes_bufferRemoveFormat [.b, .s, .B] rfl
    (source.advance (formatSpan [.b, .s, .s] source.bytes))
  have hsent : ∀ pad, reencode (heapOf 0 pad) (first :: rest) =
      .ok (some (bufferAddByte SVPacketType.updateProgressBar.value ++ (bufferAddByte id ++
        (bufferAddShort action ++ (bufferAddShort (pad ++ accepted) ++ []))))) := by
    intro pad
    rw [reencode_cons hfirst rfl, bind_ok hbar, bind_ok hrest]
    rfl
  have hpads := (hsame (heapOf 0 0) (heapOf 0 1)).1
  rw [hsent, hsent] at hpads
  have hbytes := Option.some.inj (Except.ok.inj hpads)
  have hdata := List.append_cancel_left (List.append_cancel_left (List.append_cancel_left hbytes))
  have hvalues := bufferAddShort_inj.mp (List.append_cancel_right hdata)
  -- the two pads differ in the lowest bit
  have hlowest := congrArg (fun value => value.getLsbD 8) hvalues
  rw [BitVec.getLsbD_append, BitVec.getLsbD_append, if_neg (by decide), if_neg (by decide)]
    at hlowest
  exact absurd hlowest (by decide)

private theorem explosion_unwritten (hfirst : SVPacketType.ofByte first = some .explosion)
    (hlarge : 2 ^ 31 ≤ counted 32 (number 4 (rest.drop 28)) * 3) :
    ¬ SameBytes (first :: rest) := by
  refine not_sameBytes_of_returns (heapOf 0 0) hfirst rfl ?_
  refine (takes_bufferRemoveFormat [.d, .d, .d, .f, .i] rfl _).bind_returns ?_
  rintro ⟨x, y, z, radius, length, ⟨⟩⟩ ⟨-, -, -, -, hlength, -⟩
  simp only [Letter.width, List.drop_drop] at hlength
  obtain rfl : length = BitVec.ofNat 32 (number 4 (rest.drop 28)) := hlength
  unfold counted at hlarge
  refine (takes_bufferRemove (by omega) _).bind_returns fun item _ => Returns.pure ?_
  have hoverflow : ¬ (BitVec.ofNat 32 (number 4 (rest.drop 28))).toInt * 3 < 2 ^ 31 := by omega
  rw [responseDataToBuffer]
  simp only [if_neg hoverflow]
  rfl

/-- Metadata that leads to a header for which there is no format, or to a float. -/
theorem metadata_unwritten (lead : List Letter)
    {build : Fields (lead ++ [.M]) → Remove SVResponse} {start : Nat}
    (hfirst : SVPacketType.ofByte first = some type)
    (hread : responseDataFromBuffer (heapOf 0 0) type =
      some (bufferRemoveFormat (lead ++ [.M]) >>= build))
    (hbuild : ∀ fields, ∃ packet, build fields = pure packet ∧
      responseDataToBuffer packet = bufferAddFormat (lead ++ [.M]) fields)
    (hlead : lead.all Letter.scalar = true) (hstart : 1 + (lead.map Letter.width).sum = start)
    (hreached : ¬ (¬ HighReached (first :: rest) start ∧ ¬ FloatReached (first :: rest) start)) :
    ¬ SameBytes (first :: rest) := by
  intro hsame
  apply (hsame (heapOf 0 0) (heapOf 0 0)).2
  rcases metadata_format_cases hlead hstart with ⟨-, stop, hrun⟩ | ⟨hlow, fields, stop, hrun, hsent⟩
  · rw [reencode_cons hfirst hread, bind_error hrun]
  · obtain ⟨packet, hpacket, hdata⟩ := hbuild fields
    have hfloat : FloatReached (first :: rest) start := by
      by_contra hnone
      exact hreached ⟨hlow, hnone⟩
    rw [reencode_cons hfirst hread, bind_ok hrun, hpacket]
    show (responseToBuffer packet).map some = _
    rw [responseToBuffer, hdata, hsent.mpr hfloat]
    rfl

/-! Items of a window that are left out -/

private theorem itemsSpan_le (items : Nat) (bytes : List Byte) :
    itemsSpan items bytes ≤ 5 * items := by
  induction items generalizing bytes with
  | zero => exact Nat.le_refl 0
  | succ items ih =>
      rw [itemsSpan]
      have htwo := ih (bytes.drop 2)
      have hfive := ih (bytes.drop 5)
      split_ifs <;> omega

private theorem itemsSpan_lt {items : Nat} {bytes : List Byte}
    (habsent : ¬ NoneAbsent items bytes) :
    itemsSpan items bytes < 5 * items := by
  induction items generalizing bytes with
  | zero => exact absurd trivial habsent
  | succ items ih =>
      rw [itemsSpan]
      have htwo := itemsSpan_le items (bytes.drop 2)
      by_cases hid : number 2 bytes = 0xFFFF
      · rw [if_pos hid]
        omega
      · have hrest : ¬ NoneAbsent items (bytes.drop 5) := fun hnone => habsent ⟨hid, hnone⟩
        have hfive := ih hrest
        rw [if_neg hid]
        omega

theorem length_bufferAddItems_cons {item : SVItemStack} (hid : item.id ≠ -1)
    (rest : List SVItemStack) :
    (bufferAddItems (item :: rest)).length = 5 + (bufferAddItems rest).length := by
  rw [bufferAddItems, if_neg hid, List.length_append]
  rfl

/-- How many bytes the items are sent in, by what the memory held. -/
theorem returns_removeItems (id : SVShort) (items i : Nat) (source : Source) :
    Returns (removeItems (heapOf id 0) items i) source fun item =>
      (bufferAddItems item).length =
        if id = -1 then itemsSpan items source.bytes else 5 * items := by
  induction items generalizing i source with
  | zero => exact Returns.pure (by split_ifs <;> rfl)
  | succ items ih =>
      rw [removeItems, itemsSpan]
      refine (Takes.word 2 16 source).bind_returns fun read hvalue => ?_
      have hneg : read = -1 ↔ number 2 source.bytes = 0xFFFF := by
        rw [hvalue]
        exact ofNat_eq_neg_one_iff _
      by_cases habsent : read = -1
      · rw [if_pos habsent, if_pos (hneg.mp habsent)]
        obtain ⟨n, hrest⟩ := ih (i + 1) (source.advance 2)
        refine hrest.bind_returns fun item hlength => Returns.pure ?_
        -- the item keeps the id that the memory held
        by_cases hid : id = -1
        · have hheld : ((heapOf id 0).item i).id = -1 := hid
          rw [if_pos hid] at hlength ⊢
          rw [bufferAddItems, if_pos hheld, List.length_append, hlength]
          rfl
        · rw [if_neg hid] at hlength ⊢
          rw [length_bufferAddItems_cons hid, hlength]
          omega
      · rw [if_neg habsent, if_neg (hneg.not.mp habsent)]
        refine (Takes.word 1 8 _).bind_returns fun count _ => ?_
        refine (Takes.word 2 16 _).bind_returns fun damage _ => ?_
        rw [Source.advance_advance, Source.advance_advance]
        obtain ⟨n, hrest⟩ := ih (i + 1) (source.advance 5)
        refine hrest.bind_returns fun item hlength => Returns.pure ?_
        rw [length_bufferAddItems_cons habsent, hlength, Source.bytes_advance]
        split_ifs <;> omega

theorem windowItems_sent {length : SVShort}
    (hfirst : SVPacketType.ofByte first = some .windowItems)
    (hlength : BitVec.ofNat 16 (number 2 (rest.drop 1)) = length) (hpos : ¬ length.toInt < 0)
    (held : SVShort) :
    ∃ sent, reencode (heapOf held 0) (first :: rest) = .ok (some sent) ∧
      sent.length = 4 +
        if held = -1 then itemsSpan length.toNat (rest.drop 3) else 5 * length.toNat := by
  let source := sourceAt (first :: rest) 1
  obtain ⟨⟨id, read, ⟨⟩⟩, hwindow, -, hread, -⟩ := takes_bufferRemoveFormat [.b, .s] rfl source
  obtain rfl : read = length := hread.trans hlength
  obtain ⟨n, item, hrun, hbytes⟩ := returns_removeItems held read.toNat 0 (source.advance 3)
  have hfields : bufferRemoveFormat [.b, .s] source = .ok (id, read, ()) (source.advance 3) :=
    hwindow
  refine ⟨bufferAddByte SVPacketType.windowItems.value ++
    (bufferAddByte id ++ bufferAddShort read ++ bufferAddItems item), ?_, ?_⟩
  · rw [reencode_cons hfirst rfl, bind_ok hfields]
    simp only [if_neg hpos]
    rw [bind_ok hrun]
    rfl
  · rw [List.length_append, List.length_append, hbytes, ← Nat.add_assoc]
    rfl

/-- A window that leaves out an item is sent in fewer bytes when the memory held one that is
left out. -/
theorem windowItems_unwritten (hfirst : SVPacketType.ofByte first = some .windowItems)
    (habsent : ¬ NoneAbsent (counted 16 (number 2 (rest.drop 1))) (rest.drop 3)) :
    ¬ SameBytes (first :: rest) := by
  intro hsame
  unfold counted at habsent
  generalize hlength : BitVec.ofNat 16 (number 2 (rest.drop 1)) = length at habsent
  have hpos : ¬ length.toInt < 0 := by
    intro hneg
    rw [Int.toNat_of_nonpos hneg.le] at habsent
    exact habsent trivial
  have hitems : length.toInt.toNat = length.toNat := by
    rw [(toNat_of_not_neg hpos).2, Int.toNat_natCast]
  rw [hitems] at habsent
  obtain ⟨kept, hkept, hkeptLength⟩ := windowItems_sent hfirst hlength hpos 0
  obtain ⟨less, hless, hlessLength⟩ := windowItems_sent hfirst hlength hpos (-1)
  have hequal := (hsame (heapOf 0 0) (heapOf (-1) 0)).1
  rw [hkept, hless] at hequal
  obtain rfl : kept = less := Option.some.inj (Except.ok.inj hequal)
  rw [if_neg (by decide)] at hkeptLength
  rw [if_pos rfl] at hlessLength
  have hspan := itemsSpan_lt habsent
  have hshorter : kept.length < kept.length :=
    calc kept.length
        = 4 + itemsSpan length.toNat (rest.drop 3) := hlessLength
      _ < 4 + 5 * length.toNat := Nat.add_lt_add_left hspan 4
      _ = kept.length := hkeptLength.symm
  exact absurd hshorter (Nat.lt_irrefl _)

/-- A packet of which the decoder leaves out something that the encoder reads. -/
theorem not_sameBytes_of_unwritten (hfirst : SVPacketType.ofByte first = some type)
    (hunwritten : ¬ FieldsWritten type (first :: rest)) : ¬ SameBytes (first :: rest) := by
  cases type
  case thunderbolt => exact thunderbolt_unwritten hfirst
  case updateProgressBar => exact updateProgressBar_unwritten hfirst
  case itemData => exact itemData_unwritten hfirst
  case windowItems => exact windowItems_unwritten hfirst hunwritten
  case explosion => exact explosion_unwritten hfirst (not_lt.mp hunwritten)
  case spawnMob =>
    refine metadata_unwritten [.i, .b, .i, .i, .i, .b, .b] hfirst rfl
      (fun fields => ⟨_, rfl, ?_⟩) rfl rfl hunwritten
    rw [responseDataToBuffer, setWidth_overwriteLow]
    rfl
  case entityMetadata =>
    exact metadata_unwritten [.i] hfirst rfl (fun _ => ⟨_, rfl, rfl⟩) rfl rfl hunwritten
  all_goals exact absurd trivial hunwritten

/-- **Whether a packet is sent alike over every memory.**  It is exactly when the decoder
writes all that the encoder reads. -/
theorem sameBytes_iff (data : List Byte) (hparsable : Answers data .parsable) :
    SameBytes data ↔ HeapFree data := by
  refine ⟨fun hsame => ?_, sameBytes_of_heapFree hparsable⟩
  cases data with
  | nil => trivial
  | cons first rest =>
      cases hfirst : SVPacketType.ofByte first with
      | none => rw [HeapFree, hfirst]; trivial
      | some type =>
          rw [HeapFree, hfirst]
          by_contra hunwritten
          exact not_sameBytes_of_unwritten hfirst hunwritten hsame

/-- The two sides for a window with one item, which is there. -/
theorem sameBytes_iff_sword :
    SameBytes [0x68, 0, 0, 1, 1, 0x0C, 1, 0, 0] ↔ HeapFree [0x68, 0, 0, 1, 1, 0x0C, 1, 0, 0] :=
  sameBytes_iff _ ⟨0, by decide⟩

/-- A window with one item, which is left out, is accepted, and sent with the three more bytes of
an item when the memory held one. -/
theorem window_sends_memory :
    Answers [0x68, 0, 0, 1, 0xFF, 0xFF] .parsable ∧
      reencode (heapOf (-1) 0) [0x68, 0, 0, 1, 0xFF, 0xFF] =
        .ok (some [0x68, 0, 0, 1, 0xFF, 0xFF]) ∧
      reencode (heapOf 7 0) [0x68, 0, 0, 1, 0xFF, 0xFF] =
        .ok (some [0x68, 0, 0, 1, 0, 7, 0, 0, 0]) ∧
      ¬ SameBytes [0x68, 0, 0, 1, 0xFF, 0xFF] := by
  refine ⟨⟨0, by decide⟩, rfl, rfl, fun hsame => ?_⟩
  have hequal := (hsame (heapOf (-1) 0) (heapOf 7 0)).1
  exact absurd hequal (by decide)

end Packets

end Craftd.Protocol
