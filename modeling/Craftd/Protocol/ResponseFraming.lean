import Craftd.Protocol.Response
import Craftd.Protocol.Watermark
import Craftd.Protocol.Wire

/-!
# The length check against the response decoder

The proxy decodes the stream of another server as soon as `SV_PacketParsable` accepts
it.  `responseSpan` is how many bytes behind the type byte the response decoder asks
for, as a function of these bytes (`spans_response`); the check's own description is
then compared with it type by type.  `Torn` collects the buffers on which the two
differ: the ones whose length lies between the two sizes.
-/

namespace Craftd.Protocol

open Craftd.Containers ByteReader PartialWalk Relation

/-! ## Spans of responses -/

/-- The fields that every response of a type has, metadata apart. -/
def responseFormat : SVPacketType → List Letter
  | .keepAlive => [.i]
  | .login => [.i, .U, .l, .i, .b, .b, .b, .b]
  | .handshake => [.U]
  | .chat => [.U]
  | .timeUpdate => [.l]
  | .entityEquipment => [.i, .s, .s, .s]
  | .spawnPosition => [.i, .i, .i]
  | .updateHealth => [.s, .s, .f]
  | .respawn => [.b, .b, .b, .s, .l]
  | .playerMoveLook => [.d, .d, .d, .d, .f, .f, .b]
  | .useBed => [.i, .b, .i, .b, .i]
  | .animation => [.i, .b]
  | .namedEntitySpawn => [.i, .U, .i, .i, .i, .b, .b, .s]
  | .pickupSpawn => [.i, .s, .b, .s, .i, .i, .i, .b, .b, .b]
  | .collectItem => [.i, .i]
  | .spawnObject => [.i, .b, .i, .i, .i, .i]
  | .painting => [.i, .U, .i, .i, .i, .i]
  | .experienceOrb => [.i, .i, .i, .i, .s]
  | .stanceUpdate => [.f, .f, .f, .f, .B, .B]
  | .entityVelocity => [.i, .s, .s, .s]
  | .entityDestroy => [.i]
  | .entityCreate => [.i]
  | .entityRelativeMove => [.i, .b, .b, .b]
  | .entityLook => [.i, .b, .b]
  | .entityLookMove => [.i, .b, .b, .b, .b, .b]
  | .entityTeleport => [.i, .i, .i, .i, .b, .b]
  | .entityStatus => [.i, .b]
  | .entityAttach => [.i, .i]
  | .entityEffect => [.i, .b, .b, .s]
  | .removeEntityEffect => [.i, .b]
  | .experience => [.b, .b, .s]
  | .preChunk => [.i, .i, .b]
  | .mapChunk => [.i, .s, .i, .b, .b, .b, .i]
  | .multiBlockChange => [.i, .i, .s]
  | .blockChange => [.i, .b, .i, .b, .b]
  | .playNoteBlock => [.i, .s, .i, .b, .b]
  | .explosion => [.d, .d, .d, .f, .i]
  | .soundEffect => [.i, .i, .b, .i, .i]
  | .state => [.b, .b]
  | .thunderbolt => [.i, .B, .i, .i, .i]
  | .openWindow => [.b, .b, .U, .b]
  | .closeWindow => [.b]
  | .setSlot => [.b, .s, .s]
  | .windowItems => [.b, .s]
  | .updateProgressBar => [.b, .s, .s, .b, .s, .B]
  | .transaction => [.b, .s, .B]
  | .creativeInventoryAction => [.s, .s, .s, .s]
  | .updateSign => [.i, .s, .i, .U, .U, .U, .U]
  | .itemData => [.s, .s, .b]
  | .playerListItem => [.U, .B, .s]
  | .disconnect => [.U]
  | _ => []

/-- How many bytes `items` item stacks of `SVWindowItems` take. -/
def itemsSpan : Nat → List Byte → Nat
  | 0, _ => 0
  | items + 1, bytes =>
      if number 2 bytes = 0xFFFF then 2 + itemsSpan items (bytes.drop 2)
      else 5 + itemsSpan items (bytes.drop 5)

/-- What a length field counts, none when it is negative. -/
def counted (w value : Nat) : Nat := (BitVec.ofNat w value).toInt.toNat

/-- How many bytes behind the type byte the decoder asks for, metadata apart. -/
def responseSpan (type : SVPacketType) (bytes : List Byte) : Nat :=
  match type with
  | .spawnObject =>
      21 + if 0 < (BitVec.ofNat 32 (number 4 (bytes.drop 17))).toInt then 6 else 0
  | .mapChunk => 17 + counted 32 (number 4 (bytes.drop 13))
  | .multiBlockChange => 10 + 4 * counted 16 (number 2 (bytes.drop 8))
  | .explosion => 32 + 3 * counted 32 (number 4 (bytes.drop 28))
  | .setSlot => 5 + if number 2 (bytes.drop 3) = 0xFFFF then 0 else 3
  | .windowItems => 3 + itemsSpan (counted 16 (number 2 (bytes.drop 1))) (bytes.drop 3)
  | .itemData => 5 + number 1 (bytes.drop 4)
  | type => formatSpan (responseFormat type) bytes

theorem takes_bufferRemove {length : Int} (h : 0 ≤ length) (source : Source) :
    Takes (bufferRemove length) source length.toNat fun _ => True := by
  unfold bufferRemove
  rw [if_neg (not_lt.mpr h)]
  exact ⟨_, rfl, trivial⟩

theorem stops_bufferRemove {length : Int} (h : length < 0) (source : Source) :
    Stops Defined (bufferRemove length) source 0 := by
  unfold bufferRemove
  rw [if_pos h]
  exact ⟨_, source, rfl, nofun, rfl⟩

theorem spans_bufferRemove (length : Int) (source : Source) :
    Spans Defined (bufferRemove length) source length.toNat fun _ => True := by
  rcases lt_or_ge length 0 with hneg | hpos
  · rw [Int.toNat_of_nonpos (by omega)]
    exact .inr (stops_bufferRemove hneg source)
  · exact .inl (takes_bufferRemove hpos source)

private theorem takes_removeItems (heap : Heap) (items i : Nat) (source : Source) :
    Takes (removeItems heap items i) source (itemsSpan items source.bytes) fun _ => True := by
  induction items generalizing i source with
  | zero => exact Takes.pure trivial
  | succ items ih =>
      obtain ⟨id, hid, hvalue⟩ : Takes bufferRemoveShort source 2 fun value =>
        value = BitVec.ofNat 16 (number 2 source.bytes) := Takes.word 2 16 source
      rw [removeItems, itemsSpan]
      by_cases hnone : number 2 source.bytes = 0xFFFF
      · have hneg : id = -1 := hvalue.trans ((ofNat_eq_neg_one_iff _).mpr hnone)
        rw [if_pos hnone, ← Nat.add_zero (itemsSpan _ _)]
        have htakes : Takes bufferRemoveShort source 2 fun value => value = -1 := ⟨id, hid, hneg⟩
        refine htakes.bind fun id hneg => ?_
        rw [if_pos hneg]
        exact (ih (i + 1) (source.advance 2)).bind fun _ _ => Takes.pure trivial
      · have hitem : id ≠ -1 := fun hneg =>
          hnone ((ofNat_eq_neg_one_iff _).mp (hvalue.symm.trans hneg))
        have hspan : 5 + itemsSpan items (source.bytes.drop 5) =
            2 + (1 + (2 + (itemsSpan items (source.bytes.drop 5) + 0))) := by omega
        rw [if_neg hnone, hspan]
        have htakes : Takes bufferRemoveShort source 2 fun value => value ≠ -1 := ⟨id, hid, hitem⟩
        refine htakes.bind fun id hitem => ?_
        rw [if_neg hitem]
        refine (Takes.word 1 8 _).bind fun count _ => (Takes.word 2 16 _).bind fun damage _ => ?_
        rw [Source.advance_advance, Source.advance_advance]
        exact (ih (i + 1) (source.advance 5)).bind fun _ _ => Takes.pure trivial

theorem formatSpan_of_scalars {format : List Letter} (h : format.all Letter.scalar = true)
    (bytes : List Byte) : formatSpan format bytes = (format.map Letter.width).sum := by
  induction format generalizing bytes with
  | nil => rfl
  | cons letter rest ih =>
      rw [List.all_cons, Bool.and_eq_true] at h
      rw [formatSpan_cons h.1, ih h.2, List.map_cons, List.sum_cons]

theorem spans_more {Packet : Type} {format : List Letter} {build : Fields format → Remove Packet}
    (more : Nat) (h : format.all Letter.scalar = true) (source : Source)
    (hmore : ∀ fields, FieldsFrom format fields source.bytes →
      Spans Defined (build fields) (source.advance (format.map Letter.width).sum) more
        fun _ => True) :
    Spans Defined (bufferRemoveFormat format >>= build) source
      ((format.map Letter.width).sum + more) fun _ => True := by
  have htakes := takes_bufferRemoveFormat format h source
  rw [formatSpan_of_scalars h] at htakes
  exact htakes.bind_spans hmore

theorem spans_then_pure {Value Packet : Type} {read : Remove Value} {build : Value → Packet}
    {source : Source} {n : Nat} {P : Value → Prop} (h : Spans Defined read source n P) :
    Spans Defined (do return build (← read)) source n fun _ => True :=
  h.bind_pure fun _ _ _ => Takes.pure trivial

/-- **The span of a response.**  The decoder's arm for a type asks for exactly the bytes of
`responseSpan`, and has no undefined behaviour. -/
theorem spans_response (heap : Heap) {type : SVPacketType} {read : Remove SVResponse}
    (hread : responseDataFromBuffer heap type = some read) (hmetadata : type ≠ .entityMetadata)
    (hmob : type ≠ .spawnMob) (source : Source) :
    Spans Defined read source (responseSpan type source.bytes) fun _ => True := by
  cases type
  case entityMetadata => exact absurd rfl hmetadata
  case spawnMob => exact absurd rfl hmob
  case keepAlive => cases hread; exact spans_field .i rfl source
  case handshake => cases hread; exact spans_text source
  case chat => cases hread; exact spans_text source
  case timeUpdate => cases hread; exact spans_field .l rfl source
  case entityDestroy => cases hread; exact spans_field .i rfl source
  case entityCreate => cases hread; exact spans_field .i rfl source
  case closeWindow => cases hread; exact spans_field .b rfl source
  case disconnect => cases hread; exact spans_text source
  case spawnObject =>
    cases hread
    refine spans_more _ rfl source ?_
    rintro ⟨entityId, type, x, y, z, flag, ⟨⟩⟩ ⟨-, -, -, -, -, hflag, -⟩
    simp only [Letter.width, List.drop_drop] at hflag
    obtain rfl : flag = BitVec.ofNat 32 (number 4 (source.bytes.drop 17)) := hflag
    by_cases hpos : 0 < (BitVec.ofNat 32 (number 4 (source.bytes.drop 17))).toInt
    · simp only [if_pos hpos]
      exact spans_format (by decide) (fun _ => ⟨_, rfl⟩) _
    · simp only [if_neg hpos]
      exact .inl (Takes.pure trivial)
  case mapChunk =>
    cases hread
    refine spans_more _ rfl source ?_
    rintro ⟨x, y, z, sizeX, sizeY, sizeZ, length, ⟨⟩⟩ ⟨-, -, -, -, -, -, hlength, -⟩
    simp only [Letter.width, List.drop_drop] at hlength
    obtain rfl : length = BitVec.ofNat 32 (number 4 (source.bytes.drop 13)) := hlength
    exact spans_then_pure (spans_bufferRemove _ _)
  case multiBlockChange =>
    cases hread
    refine spans_more _ rfl source ?_
    rintro ⟨x, z, length, ⟨⟩⟩ ⟨-, -, hlength, -⟩
    simp only [Letter.width, List.drop_drop] at hlength
    obtain rfl : length = BitVec.ofNat 16 (number 2 (source.bytes.drop 8)) := hlength
    unfold counted
    generalize (BitVec.ofNat 16 (number 2 (source.bytes.drop 8))) = length
    dsimp only
    rcases lt_or_ge length.toInt 0 with hneg | hpos
    · rw [Int.toNat_of_nonpos (by omega)]
      exact .inr (stops_bufferRemove (by omega) _).bind
    · have hspan : 4 * length.toInt.toNat =
          (length.toInt * 2).toNat + (length.toInt.toNat + (length.toInt.toNat + 0)) := by omega
      rw [hspan]
      refine (takes_bufferRemove (by omega) _).bind_spans fun coordinate _ => ?_
      refine (takes_bufferRemove hpos _).bind_spans fun type _ => ?_
      exact (takes_bufferRemove hpos _).bind_spans fun metadata _ => .inl (Takes.pure trivial)
  case explosion =>
    cases hread
    refine spans_more _ rfl source ?_
    rintro ⟨x, y, z, radius, length, ⟨⟩⟩ ⟨-, -, -, -, hlength, -⟩
    simp only [Letter.width, List.drop_drop] at hlength
    obtain rfl : length = BitVec.ofNat 32 (number 4 (source.bytes.drop 28)) := hlength
    have hspan : ∀ length : Int, 3 * length.toNat = (length * 3).toNat := by omega
    unfold counted
    rw [hspan]
    exact spans_then_pure (spans_bufferRemove _ _)
  case setSlot =>
    cases hread
    refine spans_more _ rfl source ?_
    rintro ⟨windowId, slot, id, ⟨⟩⟩ ⟨-, -, hid, -⟩
    simp only [Letter.width, List.drop_drop] at hid
    obtain rfl : id = BitVec.ofNat 16 (number 2 (source.bytes.drop 3)) := hid
    by_cases hnone : number 2 (source.bytes.drop 3) = 0xFFFF
    · simp only [if_pos hnone, if_neg (not_not.mpr ((ofNat_eq_neg_one_iff _).mpr hnone))]
      exact .inl (Takes.pure trivial)
    · simp only [if_neg hnone, if_pos (mt (ofNat_eq_neg_one_iff _).mp hnone)]
      have hspan : 3 = 1 + (2 + 0) := rfl
      rw [hspan]
      refine (Takes.word 1 8 _).bind_spans fun count _ => ?_
      exact (Takes.word 2 16 _).bind_spans fun damage _ => .inl (Takes.pure trivial)
  case windowItems =>
    cases hread
    refine spans_more _ rfl source ?_
    rintro ⟨id, length, ⟨⟩⟩ ⟨-, hlength, -⟩
    obtain rfl : length = BitVec.ofNat 16 (number 2 (source.bytes.drop 1)) := hlength
    unfold counted
    generalize (BitVec.ofNat 16 (number 2 (source.bytes.drop 1))) = length
    dsimp only
    by_cases hneg : length.toInt < 0
    · rw [if_pos hneg, Int.toNat_of_nonpos (by omega)]
      refine .inr ⟨_, _, rfl, ?_, rfl⟩
      intro hundefined
      cases hundefined
    · have hcount : length.toInt.toNat = length.toNat := by
        rw [(toNat_of_not_neg hneg).2, Int.toNat_natCast]
      rw [if_neg hneg, hcount]
      exact spans_then_pure (.inl (takes_removeItems heap length.toNat 0 _))
  case updateProgressBar =>
    cases hread
    refine spans_more 4 (by decide : [Letter.b, .s, .s].all Letter.scalar) source fun fields _ => ?_
    exact spans_format (by decide) (fun _ => ⟨_, rfl⟩) _
  case itemData =>
    cases hread
    refine spans_more _ rfl source ?_
    rintro ⟨itemType, itemId, textLength, ⟨⟩⟩ ⟨-, -, hlength, -⟩
    simp only [Letter.width, List.drop_drop] at hlength
    have hcount : textLength.toNat = number 1 (source.bytes.drop 4) := by
      rw [hlength, BitVec.toNat_ofNat]
      exact Nat.mod_eq_of_lt (number_lt 1 _)
    rw [← hcount]
    exact spans_then_pure (spans_bufferRemove _ _)
  all_goals first
    | (cases hread; exact spans_format (by decide) (fun _ => ⟨_, rfl⟩) source)
    | cases hread

/-! ## Buffers on which the two differ -/

/-- Where the decoder gives up a text: behind a negative length, or behind the units of a text
that an `SVShort` cannot measure. -/
def textStop (index : Nat) (data : List Byte) : Option Nat :=
  if number 2 (data.drop index) < 0x8000 then
    if TextFits (number 2 (data.drop index)) (data.drop (index + 2)) then none
    else some (index + 2 + 2 * number 2 (data.drop index))
  else some (index + 2)

/-- The first of `texts` texts, one behind the other, that the decoder gives up. -/
def textsStop : Nat → Nat → List Byte → Option Nat
  | 0, _, _ => none
  | texts + 1, index, data =>
      match textStop index data with
      | some stop => some stop
      | none => textsStop texts (index + 2 + 2 * number 2 (data.drop index)) data

/-- A packet with a text, of `table` bytes in the table of lengths and `whole` bytes in fact,
units apart: it has arrived up to where the text is given up, or the table's length has. -/
def TornText (index table whole : Nat) (data : List Byte) : Prop :=
  match textStop index data with
  | some stop => stop ≤ data.length ∧ data.length < table + 2 * number 2 (data.drop index)
  | none =>
      table + 2 * number 2 (data.drop index) ≤ data.length ∧
        data.length < whole + 2 * number 2 (data.drop index)

/-- A painting, of which the check overlooks the title. -/
def TornPainting (data : List Byte) : Prop :=
  match textStop 5 data with
  | some stop => (stop ≤ data.length ∧ data.length < 23) ∨ (23 ≤ data.length ∧ data.length < stop)
  | none => 23 ≤ data.length ∧ data.length < 23 + 2 * number 2 (data.drop 5)

/-- A sign of which the decoder gives up a text before the check has seen all of them. -/
def TornSign (data : List Byte) : Prop :=
  match textsStop 4 11 data with
  | some stop =>
      stop ≤ data.length ∧ data.length < 11 + layoutSpan [.U, .U, .U, .U] (data.drop 11)
  | none => False

/-- Metadata whose items lead to one with a high header, or stop where the buffer does. -/
def TornMetadata (start : Nat) (data : List Byte) : Prop :=
  ∃ item : Int, Reaches (nextItem data) start item ∧
    (item = data.length ∨
      0 ≤ item ∧ ∃ header, data[item.toNat]? = some header ∧ 128 ≤ header.toNat)

/-- The length of the buffer lies between the sizes that the two descriptions give. -/
def TornAs (type : SVPacketType) (data : List Byte) : Prop :=
  match type with
  | .login => TornText 5 22 23 data
  | .handshake => TornText 1 3 3 data
  | .chat => TornText 1 3 3 data
  | .namedEntitySpawn => TornText 5 23 23 data
  | .spawnMob => TornMetadata 20 data
  | .painting => TornPainting data
  | .entityMetadata => TornMetadata 5 data
  | .mapChunk =>
      2 ^ 31 ≤ number 4 (data.drop 14) ∧ 18 ≤ data.length ∧
        data.length < 18 + number 4 (data.drop 14)
  | .multiBlockChange =>
      11 + (if number 2 (data.drop 9) < 2 ^ 15 then 4 * number 2 (data.drop 9) else 0) ≤
          data.length ∧
        data.length < 11 + 5 * number 2 (data.drop 9)
  | .explosion =>
      if number 4 (data.drop 29) < 2 ^ 31 then
        33 + number 4 (data.drop 29) * 3 % 2 ^ 32 ≤ data.length ∧
          data.length < 33 + number 4 (data.drop 29) * 3
      else
        33 ≤ data.length ∧ data.length < 33 + number 4 (data.drop 29) * 3 % 2 ^ 32
  | .openWindow => TornText 3 6 6 data
  | .updateProgressBar => 6 ≤ data.length ∧ data.length < 10
  | .updateSign => TornSign data
  | .playerListItem => TornText 1 6 6 data
  | .disconnect => TornText 1 3 3 data
  | _ => False

/-! ## The check -/

section Types

variable {heap : Heap} {first : Byte} {rest : List Byte} {type : SVPacketType}

theorem parsable_iff_complete (hfirst : SVPacketType.ofByte first = some type) :
    Answers (first :: rest) .parsable ↔
      packetLength type ≤ (first :: rest).length ∧
        ∃ rounds, packetComplete rounds (first :: rest) type = some .parsable := by
  constructor
  · exact parsable_of_answers hfirst
  · rintro ⟨hlength, rounds, hcomplete⟩
    exact ⟨rounds, (packetParsable_of_type hfirst (not_lt.mpr hlength) rounds).trans hcomplete⟩

theorem parsable_iff_table (hfirst : SVPacketType.ofByte first = some type)
    (hcomplete : packetComplete 0 (first :: rest) type = some .parsable) :
    Answers (first :: rest) .parsable ↔ packetLength type ≤ (first :: rest).length := by
  rw [parsable_iff_complete hfirst]
  exact and_iff_left ⟨0, hcomplete⟩

theorem parsable_iff_peek (index n : Nat) (extra : Nat → Nat)
    (hfirst : SVPacketType.ofByte first = some type) (hindex : index + n ≤ packetLength type)
    (hcomplete : ∀ rounds, packetComplete rounds (first :: rest) type =
      some (peek (first :: rest) index n fun value => check (first :: rest) type (extra value))) :
    Answers (first :: rest) .parsable ↔
      packetLength type + extra (number n ((first :: rest).drop index)) ≤
        (first :: rest).length := by
  rw [parsable_iff_complete hfirst]
  constructor
  · rintro ⟨-, rounds, hparsable⟩
    rw [hcomplete] at hparsable
    exact check_eq_parsable (peek_eq_parsable hparsable).2
  · intro hlength
    refine ⟨by omega, 0, ?_⟩
    rw [hcomplete, peek, if_pos (by omega), check, if_neg (not_lt.mpr hlength)]

private theorem parsable_updateSign (heap : Heap)
    (hfirst : SVPacketType.ofByte first = some .updateSign) :
    Answers (first :: rest) .parsable ↔
      11 + layoutSpan [.U, .U, .U, .U] (rest.drop 10) ≤ (first :: rest).length := by
  constructor
  · intro h
    obtain ⟨-, rounds, hparsable⟩ := parsable_of_answers hfirst h
    have htexts : updateSignTexts (first :: rest) 3 11 0 = .parsable := Option.some.inj hparsable
    have hle := updateSignTexts_parsable rfl htexts
    rw [Nat.add_zero, List.drop_succ_cons] at hle
    simpa only [List.replicate] using hle
  · intro hlength
    have hread : (requestDataFromBuffer heap .updateSign).isSome := rfl
    obtain ⟨answer, hanswer, rfl | ⟨low, rfl, hlow, hsize⟩⟩ :=
      bounded_answer rest hfirst hread (by decide)
    · exact hanswer
    · have h := hsize []
      have hlayout : requestLayout .updateSign rest =
          4 + (2 + (4 + layoutSpan [.U, .U, .U, .U] (((rest.drop 4).drop 2).drop 4))) := rfl
      rw [List.append_nil, requestSize_cons hfirst, hlayout, List.drop_drop, List.drop_drop] at h
      change low ≤ 1 + (4 + (2 + (4 + layoutSpan [.U, .U, .U, .U] (rest.drop 10)))) at h
      omega

theorem windowItemsLoop_parsable {data : List Byte} {items extra : Nat} :
    windowItemsLoop data items extra = .parsable ↔
      4 + extra + itemsSpan items (data.drop (4 + extra)) ≤ data.length := by
  induction items generalizing extra with
  | zero =>
      rw [windowItemsLoop, check, packetLength, itemsSpan]
      split_ifs with hshort
      · exact iff_of_false (fun hparsable => by cases hparsable) (by omega)
      · exact iff_of_true rfl (by omega)
  | succ items ih =>
      rw [windowItemsLoop, packetLength, itemsSpan]
      by_cases hshort : data.length < 4 + (extra + 2)
      · rw [if_pos hshort]
        refine iff_of_false (fun hparsable => by cases hparsable) ?_
        split_ifs <;> omega
      · rw [if_neg hshort, peek, if_pos (by omega)]
        by_cases hid : number 2 (data.drop (4 + extra)) = 0xFFFF
        · rw [if_neg (not_not.mpr hid), if_pos hid, ih, List.drop_drop, ← Nat.add_assoc 4 extra 2]
          omega
        · rw [if_pos hid, if_neg hid, ih, List.drop_drop,
            show 4 + (extra + 2 + 3) = 4 + extra + 5 by omega]
          omega

private theorem parsable_windowItems (hfirst : SVPacketType.ofByte first = some .windowItems) :
    Answers (first :: rest) .parsable ↔
      4 + itemsSpan (counted 16 (number 2 (rest.drop 1))) (rest.drop 3) ≤
        (first :: rest).length := by
  have hcomplete : ∀ rounds, 4 ≤ (first :: rest).length →
      packetComplete rounds (first :: rest) .windowItems =
        some (windowItemsLoop (first :: rest) (counted 16 (number 2 (rest.drop 1))) 0) := by
    intro rounds hlength
    show some (peek _ (1 + 1) 2 _) = _
    rw [peek, if_pos hlength]
    rfl
  rw [parsable_iff_complete hfirst, packetLength]
  constructor
  · rintro ⟨hlength, rounds, hparsable⟩
    rw [hcomplete rounds hlength] at hparsable
    exact windowItemsLoop_parsable.mp (Option.some.inj hparsable)
  · intro hlength
    refine ⟨by omega, 0, ?_⟩
    rw [hcomplete 0 (by omega)]
    exact congrArg some (windowItemsLoop_parsable.mpr hlength)

/-! ## The two compared -/

/-- The span of a format with one text ends where the text is given up, or with the format. -/
theorem span_text (lead tail : List Letter) (hlead : lead.all Letter.scalar = true)
    (htail : tail.all Letter.scalar = true) (bytes : List Byte) :
    formatSpan (lead ++ .U :: tail) bytes =
      (textStop (lead.map Letter.width).sum bytes).getD
        ((lead.map Letter.width).sum + 2 + (tail.map Letter.width).sum +
          2 * number 2 (bytes.drop (lead.map Letter.width).sum)) := by
  induction lead generalizing bytes with
  | nil =>
      simp only [List.map_nil, List.sum_nil, List.nil_append, textStop, List.drop_zero,
        Nat.zero_add, formatSpan, formatSpan_of_scalars htail]
      split_ifs <;> simp only [Option.getD_none, Option.getD_some]
      omega
  | cons letter lead ih =>
      rw [List.all_cons, Bool.and_eq_true] at hlead
      rw [List.cons_append, formatSpan_cons hlead.1, ih hlead.2, List.map_cons, List.sum_cons]
      simp only [textStop, List.drop_drop]
      rw [show letter.width + ((lead.map Letter.width).sum + 2) =
        letter.width + (lead.map Letter.width).sum + 2 by omega]
      split_ifs <;> simp only [Option.getD_none, Option.getD_some] <;> omega

/-- The texts of a sign, up to the first that is given up. -/
theorem span_texts (texts index : Nat) (data : List Byte) :
    index + formatSpan (List.replicate texts .U) (data.drop index) =
      (textsStop texts index data).getD
        (index + layoutSpan (List.replicate texts .U) (data.drop index)) := by
  induction texts generalizing index with
  | zero => rfl
  | succ texts ih =>
      have hrest := ih (index + 2 + 2 * number 2 (data.drop index))
      rw [List.replicate_succ, formatSpan, layoutSpan, textsStop, textStop, List.drop_drop,
        List.drop_drop, ← Nat.add_assoc index 2]
      by_cases hlength : number 2 (data.drop index) < 0x8000
      · by_cases hfits : TextFits (number 2 (data.drop index)) (data.drop (index + 2))
        · rw [if_pos hlength, if_pos hfits, if_pos hlength, if_pos hfits]
          dsimp only
          cases hstop : textsStop texts (index + 2 + 2 * number 2 (data.drop index)) data with
          | none =>
              rw [hstop, Option.getD_none] at hrest
              rw [Option.getD_none]
              omega
          | some stop =>
              rw [hstop, Option.getD_some] at hrest
              rw [Option.getD_some]
              omega
        · rw [if_pos hlength, if_neg hfits, if_pos hlength, if_neg hfits]
          dsimp only
          rw [Option.getD_some]
          omega
      · rw [if_neg hlength, if_neg hlength]
        rfl

theorem textStop_cons (index : Nat) :
    textStop (index + 1) (first :: rest) = (textStop index rest).map (· + 1) := by
  unfold textStop
  rw [List.drop_succ_cons, show index + 1 + 2 = index + 2 + 1 by omega, List.drop_succ_cons]
  split_ifs
  · rfl
  · rw [Option.map_some, Option.some_inj]
    omega
  · rfl

private theorem textStop_bounds {index stop : Nat} {data : List Byte}
    (h : textStop index data = some stop) :
    index + 2 ≤ stop ∧ stop ≤ index + 2 + 2 * number 2 (data.drop index) := by
  unfold textStop at h
  split_ifs at h <;> cases h <;> omega

/-- The check adds the units of a text to the table's length. -/
theorem tornText_iff (lead tail : List Letter) (hfirst : SVPacketType.ofByte first = some type)
    (hlead : lead.all Letter.scalar = true) (htail : tail.all Letter.scalar = true)
    (hcomplete : ∀ rounds, packetComplete rounds (first :: rest) type =
      some (peek (first :: rest) ((lead.map Letter.width).sum + 1) 2 fun length =>
        check (first :: rest) type (length * 2)))
    (htable : (lead.map Letter.width).sum + 3 ≤ packetLength type)
    (hwhole : packetLength type ≤
      (lead.map Letter.width).sum + 3 + (tail.map Letter.width).sum) :
    (Answers (first :: rest) .parsable ↔
        1 + formatSpan (lead ++ .U :: tail) rest ≤ (first :: rest).length) ↔
      ¬ TornText ((lead.map Letter.width).sum + 1) (packetLength type)
        ((lead.map Letter.width).sum + 3 + (tail.map Letter.width).sum) (first :: rest) := by
  rw [parsable_iff_peek _ 2 (· * 2) hfirst htable hcomplete, span_text lead tail hlead htail,
    TornText, textStop_cons, List.drop_succ_cons]
  cases hstop : textStop (lead.map Letter.width).sum rest with
  | none =>
      simp only [Option.map_none, Option.getD_none]
      omega
  | some stop =>
      have hbounds := textStop_bounds hstop
      simp only [Option.map_some, Option.getD_some]
      omega

private theorem tornPainting_iff (hfirst : SVPacketType.ofByte first = some .painting) :
    (Answers (first :: rest) .parsable ↔
        1 + formatSpan [.i, .U, .i, .i, .i, .i] rest ≤ (first :: rest).length) ↔
      ¬ TornPainting (first :: rest) := by
  have hspan := span_text [.i] [.i, .i, .i, .i] rfl rfl rest
  rw [parsable_iff_table hfirst rfl, packetLength, TornPainting, textStop_cons]
  rw [List.singleton_append] at hspan
  rw [hspan, List.drop_succ_cons]
  change _ ↔ ¬ _
  have hwidths : ([Letter.i].map Letter.width).sum = 4 ∧
      ([Letter.i, .i, .i, .i].map Letter.width).sum = 16 := ⟨rfl, rfl⟩
  rw [hwidths.1, hwidths.2]
  cases hstop : textStop 4 rest with
  | none =>
      simp only [Option.map_none, Option.getD_none]
      omega
  | some stop =>
      simp only [Option.map_some, Option.getD_some]
      omega

private theorem tornSign_iff (heap : Heap) (hfirst : SVPacketType.ofByte first = some .updateSign) :
    (Answers (first :: rest) .parsable ↔
        1 + formatSpan [.i, .s, .i, .U, .U, .U, .U] rest ≤ (first :: rest).length) ↔
      ¬ TornSign (first :: rest) := by
  have hspan : 1 + formatSpan [.i, .s, .i, .U, .U, .U, .U] rest =
      11 + formatSpan [.U, .U, .U, .U] ((first :: rest).drop 11) := by
    show 1 + (4 + (2 + (4 + formatSpan [.U, .U, .U, .U] (((rest.drop 4).drop 2).drop 4)))) = _
    rw [List.drop_drop, List.drop_drop, List.drop_succ_cons]
    change 1 + (4 + (2 + (4 + formatSpan [.U, .U, .U, .U] (rest.drop 10)))) = _
    omega
  have htexts := span_texts 4 11 (first :: rest)
  simp only [List.replicate] at htexts
  have hlayout := formatSpan_le_layoutSpan [.U, .U, .U, .U] ((first :: rest).drop 11)
  rw [parsable_updateSign heap hfirst, hspan, htexts, TornSign]
  rw [List.drop_succ_cons] at htexts hlayout ⊢
  cases hstop : textsStop 4 11 (first :: rest) with
  | none =>
      rw [Option.getD_none]
      exact iff_of_true Iff.rfl not_false
  | some stop =>
      rw [hstop, Option.getD_some] at htexts
      rw [Option.getD_some]
      dsimp only
      omega

theorem counted_short (bytes : List Byte) :
    counted 16 (number 2 bytes) = if number 2 bytes < 2 ^ 15 then number 2 bytes else 0 := by
  have hlt : number 2 bytes < 256 ^ 2 := number_lt 2 bytes
  unfold counted
  rw [BitVec.toInt_eq_toNat_cond, toNat_ofNat_number]
  split_ifs <;> omega

theorem counted_integer (bytes : List Byte) :
    counted 32 (number 4 bytes) = if number 4 bytes < 2 ^ 31 then number 4 bytes else 0 := by
  have hlt : number 4 bytes < 256 ^ 4 := number_lt 4 bytes
  have hnat : (BitVec.ofNat 32 (number 4 bytes)).toNat = number 4 bytes := by
    rw [BitVec.toNat_ofNat]
    exact Nat.mod_eq_of_lt hlt
  unfold counted
  rw [BitVec.toInt_eq_toNat_cond, hnat]
  split_ifs <;> omega

theorem torn_iff (heap : Heap) (hfirst : SVPacketType.ofByte first = some type)
    (hread : (responseDataFromBuffer heap type).isSome) (hmetadata : type ≠ .entityMetadata)
    (hmob : type ≠ .spawnMob) :
    (Answers (first :: rest) .parsable ↔
        1 + responseSpan type rest ≤ (first :: rest).length) ↔ ¬ TornAs type (first :: rest) := by
  cases type
  case entityMetadata => exact absurd rfl hmetadata
  case spawnMob => exact absurd rfl hmob
  case login =>
    -- the types with texts: what the table counts, against what the layout takes
    exact tornText_iff [.i] [.l, .i, .b, .b, .b, .b] hfirst rfl rfl (fun _ => rfl) (by decide)
      (by decide)
  case handshake =>
    exact tornText_iff [] [] hfirst rfl rfl (fun _ => rfl) (by decide) (by decide)
  case chat =>
    exact tornText_iff [] [] hfirst rfl rfl (fun _ => rfl) (by decide) (by decide)
  case namedEntitySpawn =>
    exact tornText_iff [.i] [.i, .i, .i, .b, .b, .s] hfirst rfl rfl (fun _ => rfl) (by decide)
      (by decide)
  case openWindow =>
    exact tornText_iff [.b, .b] [.b] hfirst rfl rfl (fun _ => rfl) (by decide) (by decide)
  case playerListItem =>
    exact tornText_iff [] [.B, .s] hfirst rfl rfl (fun _ => rfl) (by decide) (by decide)
  case disconnect =>
    exact tornText_iff [] [] hfirst rfl rfl (fun _ => rfl) (by decide) (by decide)
  case painting => exact tornPainting_iff hfirst
  case updateSign => exact tornSign_iff heap hfirst
  case spawnObject =>
    -- the types whose length depends on a number in front
    rw [parsable_iff_peek 18 4 _ hfirst (by decide) fun _ => rfl, packetLength, responseSpan,
      List.drop_succ_cons]
    refine iff_of_true ?_ not_false
    split_ifs <;> omega
  case mapChunk =>
    rw [parsable_iff_peek 14 4 _ hfirst (by decide) fun _ => rfl, packetLength, responseSpan,
      TornAs, counted_integer, List.drop_succ_cons]
    split_ifs <;> omega
  case multiBlockChange =>
    rw [parsable_iff_peek 9 2 _ hfirst (by decide) fun _ => rfl, packetLength, responseSpan,
      TornAs, counted_short, List.drop_succ_cons]
    split_ifs <;> omega
  case explosion =>
    rw [parsable_iff_peek 29 4 _ hfirst (by decide) fun _ => rfl, packetLength, responseSpan,
      TornAs, counted_integer, List.drop_succ_cons]
    split_ifs <;> omega
  case setSlot =>
    rw [parsable_iff_peek 4 2 _ hfirst (by decide) fun _ => rfl, packetLength, responseSpan,
      List.drop_succ_cons]
    refine iff_of_true ?_ not_false
    split_ifs <;> omega
  case windowItems =>
    rw [parsable_windowItems hfirst, responseSpan]
    refine iff_of_true ?_ not_false
    omega
  case updateProgressBar =>
    rw [parsable_iff_table hfirst rfl]
    -- the table has six bytes, the decoder takes nine behind the type
    show (6 ≤ (first :: rest).length ↔ 1 + 9 ≤ (first :: rest).length) ↔
      ¬ (6 ≤ (first :: rest).length ∧ (first :: rest).length < 10)
    omega
  case itemData =>
    rw [parsable_iff_peek 5 1 _ hfirst (by decide) fun _ => rfl, packetLength, responseSpan,
      List.drop_succ_cons]
    refine iff_of_true ?_ not_false
    omega
  -- every other type has the length of the table
  all_goals first
    | exact iff_of_true (parsable_iff_table hfirst rfl) not_false
    | cases hread

end Types

/-! ## Metadata -/

section Metadata

variable {data : List Byte}

/-- The items lead to one with a header of this kind. -/
def HeaderReached (kind : Byte → Prop) (data : List Byte) (start : Nat) : Prop :=
  ∃ item : Int, Reaches (nextItem data) start item ∧ 0 ≤ item ∧
    ∃ header, data[item.toNat]? = some header ∧ kind header

/-- The items lead to one with a high header. -/
def HighReached : List Byte → Nat → Prop := HeaderReached fun header => 128 ≤ header.toNat

/-- The items lead to a float. -/
def FloatReached : List Byte → Nat → Prop :=
  HeaderReached fun header => 0x60 ≤ header.toNat ∧ header.toNat < 0x7F

theorem headerReached_of_next {kind : Byte → Prop} {position n : Nat} {header : Byte}
    (hheader : data[position]? = some header) (hnext : nextItem data position = some (n : Int)) :
    HeaderReached kind data position ↔ kind header ∨ HeaderReached kind data n := by
  constructor
  · rintro ⟨item, hreach, hpos, other, hother, hkind⟩
    rcases ReflTransGen.cases_head hreach with rfl | ⟨next, hstep, hrest⟩
    · rw [Int.toNat_natCast, hheader] at hother
      cases hother
      exact .inl hkind
    · cases hnext.symm.trans hstep
      exact .inr ⟨item, hrest, hpos, other, hother, hkind⟩
  · rintro (hkind | ⟨item, hreach, hitem⟩)
    · exact ⟨position, .refl, by omega, header, hheader, hkind⟩
    · exact ⟨item, .head hnext hreach, hitem⟩

theorem headerReached_of_last {kind : Byte → Prop} {position : Nat}
    (hlast : nextItem data position = none) :
    HeaderReached kind data position ↔ ∃ header, data[position]? = some header ∧ kind header := by
  constructor
  · rintro ⟨item, hreach, -, hitem⟩
    rcases ReflTransGen.cases_head hreach with rfl | ⟨next, hstep, -⟩
    · exact hitem
    · cases hlast.symm.trans hstep
  · exact fun hitem => ⟨position, .refl, by omega, hitem⟩

/-- An item that nothing follows, other than the terminator, has a high header. -/
theorem high_of_last {position : Nat} {header : Byte} (hheader : data[position]? = some header)
    (hend : header ≠ 127) (hlast : nextItem data position = none) : 128 ≤ header.toNat := by
  by_contra hlow
  obtain ⟨n, hsize, -⟩ := takes_bufferRemoveData (not_le.mp hlow) position (sourceAt data position)
  unfold nextItem at hlast
  rw [if_neg (by omega), Int.toNat_natCast, hheader] at hlast
  dsimp only at hlast
  rw [if_neg hend, hsize] at hlast
  cases hlast

/-- Where the buffer ends the decoder's loop does. -/
theorem decoder_beyond {position : Nat} {run : EStateM.Result Fault Source SVMetadata}
    (hnone : data[position]? = none) (hrun : run = .ok [] (sourceAt data position)) :
    ¬ HighReached data position ∧ ∃ (last : Nat) (items : SVMetadata) (source : Source),
      Reaches (nextItem data) position last ∧ nextItem data last = none ∧
        run = .ok items source ∧ ((Terminator data last ∧ source.asked = last + 1) ∨
          (data.length ≤ last ∧ source.asked = last)) := by
  have hlast : nextItem data position = none := nextItem_beyond (List.getElem?_eq_none_iff.mp hnone)
  refine ⟨?_, position, [], sourceAt data position, .refl, hlast, hrun,
    .inr ⟨List.getElem?_eq_none_iff.mp hnone, rfl⟩⟩
  rw [HighReached, headerReached_of_last hlast, hnone]
  rintro ⟨header, hheader, -⟩
  cases hheader

/-- How the decoder's loop ends: at a high header, or behind the terminator, or where the
buffer does. -/
theorem decoder_end {position rounds : Nat} (hrounds : data.length ≤ position + rounds) :
    (HighReached data position ∧ ∃ source,
      removeMetadataLoop rounds (sourceAt data position) = .error .undefined source) ∨
    (¬ HighReached data position ∧ ∃ (last : Nat) (items : SVMetadata) (source : Source),
      Reaches (nextItem data) position last ∧ nextItem data last = none ∧
        removeMetadataLoop rounds (sourceAt data position) = .ok items source ∧
        ((Terminator data last ∧ source.asked = last + 1) ∨
          (data.length ≤ last ∧ source.asked = last))) := by
  induction rounds generalizing position with
  -- the rounds are used up where the buffer ends
  | zero =>
      have hnone : data[position]? = none := List.getElem?_eq_none_iff.mpr hrounds
      exact .inr (decoder_beyond hnone rfl)
  | succ rounds ih =>
      cases hheader : data[position]? with
      | none =>
          refine .inr (decoder_beyond hheader ?_)
          have hbytes : (sourceAt data position).bytes = [] :=
            List.drop_eq_nil_iff.mpr (List.getElem?_eq_none_iff.mp hheader)
          rw [removeMetadataLoop]
          exact if_pos hbytes
      | some header =>
          have hlt : position < data.length := (List.getElem?_eq_some_iff.mp hheader).1
          cases hnext : nextItem data position with
          | some next =>
              obtain ⟨header', hheader', hhigh | ⟨hlow, n, rfl, hafter, current, -, hrun⟩⟩ :=
                decoder_step hnext
              · exact .inl ⟨⟨position, .refl, by omega, header', hheader', hhigh.1⟩, hhigh.2 rounds⟩
              -- a low header leads on, to a walk of which the hypothesis tells the end
              · have hhere : HighReached data position ↔ HighReached data n := by
                  rw [HighReached, headerReached_of_next hheader' hnext,
                    or_iff_right (not_le.mpr hlow)]
                rw [hhere]
                rcases @ih n (by omega) with
                  ⟨hhigh, source, hloop⟩ |
                    ⟨hhigh, last, items, source, hreach, hlast, hloop, hasked⟩
                · refine .inl ⟨hhigh, source, ?_⟩
                  rw [hrun]
                  exact bind_error hloop
                · refine .inr ⟨hhigh, last, current :: items, source, .head hnext hreach, hlast, ?_,
                    hasked⟩
                  rw [hrun, bind_ok hloop]
                  rfl
          | none =>
              -- nothing follows: the terminator ends the loop, a high header is undefined
              by_cases hend : header = 127
              · subst hend
                refine .inr ⟨?_, position, [], sourceAt data (position + 1), .refl, hnext, ?_,
                  .inl ⟨⟨by omega, hheader⟩, rfl⟩⟩
                · rw [HighReached, headerReached_of_last hnext, hheader]
                  rintro ⟨header, hsame, hbit⟩
                  cases hsame
                  exact absurd hbit (by decide)
                · rw [removeMetadataLoop_at hheader, if_pos rfl]
                  rfl
              · have hhigh := high_of_last hheader hend hnext
                refine .inl ⟨⟨position, .refl, by omega, header, hheader, hhigh⟩,
                  sourceAt data (position + 1), ?_⟩
                rw [removeMetadataLoop_at hheader, if_neg hend, bufferRemoveData_high hhigh]
                exact bind_error rfl

end Metadata

/-! ## Every response -/

/-- The decoder asks for `n` bytes, and has no undefined behaviour. -/
def ResponseAsks (heap : Heap) (data : List Byte) (n : Nat) : Prop :=
  match responseFromBuffers heap { bytes := data, asked := 0 } with
  | .ok _ source => source.asked = n
  | .error fault source => fault ≠ .undefined ∧ source.asked = n

/-- The check accepts exactly when the bytes that the decoder asks for are there. -/
def FramedExactly (heap : Heap) (data : List Byte) : Prop :=
  ∃ n, ResponseAsks heap data n ∧ (Answers data .parsable ↔ n ≤ data.length)

/-- Whether the response decoder has an arm for the first byte. -/
def ResponseSupported (heap : Heap) (data : List Byte) : Prop :=
  ((data.head?.bind SVPacketType.ofByte).bind (responseDataFromBuffer heap)).isSome

/-- The length of the buffer lies between the sizes that the check and the decoder give to the
packet at its front. -/
def Torn (data : List Byte) : Prop :=
  ∃ type, data.head?.bind SVPacketType.ofByte = some type ∧ TornAs type data

section Responses

variable {heap : Heap} {first : Byte} {rest : List Byte} {type : SVPacketType}
  {read : Remove SVResponse}

theorem responseFromBuffers_cons (hfirst : SVPacketType.ofByte first = some type)
    (hread : responseDataFromBuffer heap type = some read) :
    responseFromBuffers heap { bytes := first :: rest, asked := 0 } =
      (do return some (← read) : Remove (Option SVResponse)) (sourceAt (first :: rest) 1) := by
  unfold responseFromBuffers
  rw [bind_ok (bufferRemoveByte_cons first rest), hfirst, Option.bind_some, hread]

theorem torn_cons (hfirst : SVPacketType.ofByte first = some type) :
    Torn (first :: rest) ↔ TornAs type (first :: rest) := by
  unfold Torn
  rw [List.head?_cons, Option.bind_some, hfirst]
  constructor
  · rintro ⟨other, hother, htorn⟩
    cases hother
    exact htorn
  · intro htorn
    exact ⟨type, rfl, htorn⟩

theorem framedExactly_of_spans {n : Nat} {P : SVResponse → Prop}
    (hfirst : SVPacketType.ofByte first = some type)
    (hread : responseDataFromBuffer heap type = some read)
    (hspan : Spans Defined read (sourceAt (first :: rest) 1) n P) :
    FramedExactly heap (first :: rest) ↔
      (Answers (first :: rest) .parsable ↔ 1 + n ≤ (first :: rest).length) := by
  have hasks : ∀ m, ResponseAsks heap (first :: rest) m ↔ 1 + n = m := by
    intro m
    unfold ResponseAsks
    rw [responseFromBuffers_cons hfirst hread]
    rcases hspan with ⟨packet, hrun, -⟩ | ⟨fault, source, hrun, hfault, hasked⟩
    · rw [bind_ok hrun]
      exact Iff.rfl
    · rw [bind_error hrun]
      dsimp only
      rw [hasked]
      exact and_iff_right hfault
  unfold FramedExactly
  constructor
  · rintro ⟨m, hm, hiff⟩
    rwa [(hasks m).mp hm]
  · intro hiff
    exact ⟨1 + n, (hasks _).mpr rfl, hiff⟩

theorem tornMetadata_iff (lead : List Letter) {build : Fields (lead ++ [.M]) → Remove SVResponse}
    {start : Nat} (hlength : (first :: rest).length < 2 ^ 63)
    (hfirst : SVPacketType.ofByte first = some type)
    (hread : responseDataFromBuffer heap type = some (bufferRemoveFormat (lead ++ [.M]) >>= build))
    (hbuild : ∀ fields, ∃ packet, build fields = pure packet)
    (hlead : lead.all Letter.scalar = true) (hstart : 1 + (lead.map Letter.width).sum = start)
    (htable : packetLength type = start + 1) (hsmall : start < 2 ^ 62)
    (hloop : ∀ rounds, packetComplete rounds (first :: rest) type =
      metadataLoop (first :: rest) type start rounds 0) :
    FramedExactly heap (first :: rest) ↔ ¬ TornMetadata start (first :: rest) := by
  have hsource : (sourceAt (first :: rest) 1).advance (lead.map Letter.width).sum =
      sourceAt (first :: rest) start := by rw [sourceAt_advance, hstart]
  have hrounds : (first :: rest).length ≤ start + ((first :: rest).drop start).length := by
    rw [List.length_drop]
    omega
  have hzero : sizeT ((start : Int) - start) = 0 := by
    rw [Int.sub_self]
    rfl
  rcases decoder_end hrounds with
    ⟨hhigh, source, hmetadata⟩ | ⟨hhigh, last, items, source, hreach, hlast, hmetadata, hend⟩
  · refine iff_of_false ?_ (not_not.mpr ?_)
    · rintro ⟨n, hasks, -⟩
      have hrun := metadata_format_error hlead (by rw [hsource]; exact hmetadata)
      unfold ResponseAsks at hasks
      rw [responseFromBuffers_cons hfirst hread, bind_error (bind_error hrun)] at hasks
      exact hasks.1 rfl
    · obtain ⟨item, hitem, hrest⟩ := hhigh
      exact ⟨item, hitem, .inr hrest⟩
  · obtain ⟨fields, hrun⟩ := metadata_format_ok hlead (by rw [hsource]; exact hmetadata)
    obtain ⟨packet, hpacket⟩ := hbuild fields
    have hasks : ∀ n, ResponseAsks heap (first :: rest) n ↔ source.asked = n := by
      intro n
      unfold ResponseAsks
      rw [responseFromBuffers_cons hfirst hread]
      have hdata : (bufferRemoveFormat (lead ++ [.M]) >>= build) (sourceAt (first :: rest) 1) =
          .ok packet source := by
        rw [bind_ok hrun, hpacket]
        rfl
      rw [bind_ok hdata]
      exact Iff.rfl
    have hparsable : Answers (first :: rest) .parsable ↔ Terminator (first :: rest) last := by
      rw [parsable_iff_complete hfirst]
      simp only [hloop]
      rw [← hzero, metadataLoop_parsable_iff htable hlength (by omega) (by omega)]
      constructor
      · rintro ⟨-, last', hreach', hterminator⟩
        rwa [hreach.end_unique hlast hreach' (nextItem_of_terminator hterminator)]
      · intro hterminator
        refine ⟨?_, last, hreach, hterminator⟩
        -- a walk that starts beyond the buffer ends there
        by_contra hshort
        have hnone : nextItem (first :: rest) start = none := nextItem_beyond (by omega)
        have hsame : (start : Int) = last := Reaches.end_unique .refl hnone hreach hlast
        have hlt := hterminator.lt
        omega
    have htorn : TornMetadata start (first :: rest) ↔ last = (first :: rest).length := by
      constructor
      · rintro ⟨item, hitem, rfl | hheader⟩
        · have hsame := hreach.end_unique hlast hitem (nextItem_beyond le_rfl)
          omega
        · exact absurd ⟨item, hitem, hheader⟩ hhigh
      · rintro rfl
        exact ⟨_, hreach, .inl rfl⟩
    unfold FramedExactly
    simp only [hasks, hparsable, htorn, exists_eq_left']
    rcases hend with ⟨hterminator, hasked⟩ | ⟨hbeyond, hasked⟩
    · have hlt := hterminator.lt
      rw [hasked]
      exact iff_of_true (iff_of_true hterminator (by omega)) (by omega)
    · have hno : ¬ Terminator (first :: rest) last := fun hterminator => by
        have hlt := hterminator.lt
        omega
      rw [hasked, iff_false_left hno]
      omega

end Responses

/-- **Framing of server packets.**  For a supported response the check accepts exactly when the
bytes are there that the decoder asks for, unless the buffer is torn. -/
theorem response_framing_iff (heap : Heap) (buffer : InputBuffer)
    (hsupported : ResponseSupported heap buffer.data) :
    FramedExactly heap buffer.data ↔ ¬ Torn buffer.data := by
  obtain ⟨data, hlength⟩ := buffer
  dsimp only at hsupported ⊢
  obtain ⟨read, hsome⟩ := Option.isSome_iff_exists.mp hsupported
  obtain ⟨type, htype, hread⟩ := Option.bind_eq_some_iff.mp hsome
  obtain ⟨first, hhead, hfirst⟩ := Option.bind_eq_some_iff.mp htype
  obtain ⟨rest, rfl⟩ := List.head?_eq_some_iff.mp hhead
  rw [torn_cons hfirst]
  by_cases hmetadata : type = .entityMetadata
  · subst hmetadata
    exact tornMetadata_iff [.i] hlength hfirst rfl (fun _ => ⟨_, rfl⟩) rfl rfl rfl
      (by decide) fun _ => rfl
  by_cases hmob : type = .spawnMob
  · subst hmob
    exact tornMetadata_iff [.i, .b, .i, .i, .i, .b, .b] hlength hfirst rfl
      (fun _ => ⟨_, rfl⟩) rfl rfl rfl (by decide) fun _ => rfl
  rw [framedExactly_of_spans hfirst hread (spans_response heap hread hmetadata hmob _)]
  exact torn_iff heap hfirst (by rw [hread]; rfl) hmetadata hmob

/-- A chat message of one unit, whole. -/
theorem response_framing_iff_chat :
    FramedExactly ⟨0, fun _ => ⟨0, 0, 0, 0⟩, 0, fun _ => none⟩ [0x03, 0, 1, 0, 0x41] := by
  have hstop : textStop 1 [0x03, 0, 1, 0, 0x41] = none := by
    unfold textStop TextFits
    decide
  have hwhole : ¬ Torn [0x03, 0, 1, 0, 0x41] := by
    rw [torn_cons (rfl : SVPacketType.ofByte 0x03 = some .chat)]
    unfold TornAs TornText
    rw [hstop]
    decide
  exact (response_framing_iff _ ⟨[0x03, 0, 1, 0, 0x41], by decide⟩ rfl).mpr hwhole

/-- The six bytes of a progress bar are accepted, and decoded with four more. -/
theorem progress_bar_overrun :
    ¬ FramedExactly ⟨0, fun _ => ⟨0, 0, 0, 0⟩, 0, fun _ => none⟩ [0x69, 0, 0, 0, 0, 0] := by
  have hfirst : SVPacketType.ofByte 0x69 = some .updateProgressBar := rfl
  have hspan := spans_response ⟨0, fun _ => ⟨0, 0, 0, 0⟩, 0, fun _ => none⟩ rfl
    (by decide : SVPacketType.updateProgressBar ≠ .entityMetadata) (by decide)
    (sourceAt [0x69, 0, 0, 0, 0, 0] 1)
  rw [framedExactly_of_spans hfirst rfl hspan, parsable_iff_table hfirst rfl]
  decide

end Craftd.Protocol
