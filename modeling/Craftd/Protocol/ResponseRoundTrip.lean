import Craftd.Protocol.RequestRoundTrip
import Craftd.Protocol.Response

/-!
# Responses survive the wire

What `SV_PacketToBuffer` sends for a response packet, `SV_PacketFromBuffers` reads back
as a packet of the same type with the same wire fields, for every packet that its layout
`Carries`.  The layouts of the encoder and of the decoder are compared arm by arm.

Five types are sent in one layout and read in another, or not at all: a thunderbolt and
the data of an item follow pointers that are none, the title of a window goes out as
UTF-8 and is read as UCS-2, a progress bar is read twice, and no arm reads a statistic.
The two types with metadata have their own results, and an item that is none makes the
decoder of `SVWindowItems` keep what its allocation held.
-/

namespace Craftd.Protocol

open Craftd.Containers ByteReader

/-- The packets that come back from the wire: their strings can be sent, no call changes their
floats, their arrays are as long as they say, and their layout is the same on both sides. -/
def SVResponse.Carried : SVResponse → Prop
  | .login _ u1 _ _ _ _ _ _ => Sendable u1
  | .handshake hash => Sendable hash
  | .chat message => Sendable message
  | .namedEntitySpawn _ name _ _ _ _ => Sendable name
  | .painting _ title _ _ => Sendable title
  | .updateSign _ first second third fourth =>
      Sendable first ∧ Sendable second ∧ Sendable third ∧ Sendable fourth
  | .playerListItem playerName _ _ => Sendable playerName
  | .disconnect reason => Sendable reason
  | .updateHealth _ _ foodSaturation => vaFloat foodSaturation = foodSaturation
  | .playerMoveLook _ _ yaw pitch _ => vaFloat yaw = yaw ∧ vaFloat pitch = pitch
  | .stanceUpdate u1 u2 u3 u4 _ _ =>
      vaFloat u1 = u1 ∧ vaFloat u2 = u2 ∧ vaFloat u3 = u3 ∧ vaFloat u4 = u4
  | .mapChunk _ _ length item => length.toInt = item.length
  | .multiBlockChange _ length coordinate type metadata =>
      (coordinate.length : Int) = length.toInt * 2 ∧ (type.length : Int) = length.toInt ∧
        (metadata.length : Int) = length.toInt
  | .explosion _ radius length item =>
      vaFloat radius = radius ∧ (item.length : Int) = length.toInt * 3 ∧
        length.toInt * 3 < 2 ^ 31
  | .windowItems _ length item => length.toInt = item.length ∧ ∀ entry ∈ item, entry.id ≠ -1
  | .spawnMob .. | .entityMetadata .. | .thunderbolt .. | .openWindow .. | .updateProgressBar .. |
    .itemData .. | .incrementStatistic .. => False
  | _ => True

/-- An item behind a layout without a slot. -/
def SVItemStack.unslotted (item : SVItemStack) : SVItemStack := { item with slot := 0 }

/-- A response packet without what its layout leaves out. -/
def SVResponse.wireFields : SVResponse → SVResponse
  | .animation entityId type => .animation entityId (lowByte type)
  | .pickupSpawn entityId item position rotation pitch roll =>
      .pickupSpawn entityId item.unslotted position rotation pitch roll
  | .spawnObject entityId type position flag u1 u2 u3 =>
      if 0 < flag.toInt then .spawnObject entityId (lowByte type) position flag u1 u2 u3
      else .spawnObject entityId (lowByte type) position flag 0 0 0
  | .entityStatus entityId status => .entityStatus entityId (lowByte status)
  | .entityEffect entityId effect amplifier duration =>
      .entityEffect entityId (lowByte effect) amplifier duration
  | .removeEntityEffect entityId effect => .removeEntityEffect entityId (lowByte effect)
  | .setSlot windowId item =>
      .setSlot windowId (if item.id ≠ -1 then item else { item with damage := 0, count := 0 })
  | .windowItems id length item => .windowItems id length (item.map SVItemStack.unslotted)
  | packet => packet

theorem SVResponse.type_wireFields (packet : SVResponse) :
    packet.wireFields.type = packet.type := by
  cases packet with
  | spawnObject entityId type position flag u1 u2 u3 =>
      rw [wireFields]
      split_ifs <;> rfl
  | _ => rfl

@[simp] theorem lowByte_overwriteLow (old field : BitVec 32) :
    lowByte (overwriteLow old (field.setWidth 8)) = lowByte field := by
  simp [lowByte]

/-! ## One arm -/

/-- What is added is read back as `result`, a packet with the wire fields of `packet`. -/
def Arrives (added : Added) (read : Remove SVResponse) (packet : SVResponse) : Prop :=
  ∃ wire result, added = .ok wire ∧ Reads read wire result ∧ result.wireFields = packet.wireFields

theorem arrives_format {format : List Letter} {fields : Fields format}
    {build : Fields format → Remove SVResponse} {packet result : SVResponse}
    (h : FormatCarried format fields) (hbuild : build fields = pure result)
    (hfields : result.wireFields = packet.wireFields) :
    Arrives (bufferAddFormat format fields) (bufferRemoveFormat format >>= build) packet := by
  obtain ⟨wire, hadd, hwire⟩ := exists_bufferAddFormat h
  refine ⟨wire, result, hadd, ?_, hfields⟩
  rw [← List.append_nil wire]
  refine (reads_bufferRemoveFormat h hwire).bind ?_
  rw [hbuild]
  exact Reads.pure result

theorem arrives_field (letter : Letter) {field : letter.Field}
    {build : letter.Field → SVResponse} (h : letter.Carried field) :
    Arrives (bufferAddField letter field)
      (bufferRemoveField letter >>= fun field => pure (build field)) (build field) := by
  obtain ⟨wire, hadd, hwire⟩ := exists_bufferAddField h
  refine ⟨wire, _, hadd, ?_, rfl⟩
  rw [← List.append_nil wire]
  exact (reads_bufferRemoveField h hwire).bind (Reads.pure _)

theorem arrives_then {format : List Letter} (fields : Fields format) (more : Added) {added : Added}
    {build : Fields format → Remove SVResponse} {packet : SVResponse}
    (h : FormatCarried format fields)
    (hadded : added = do return (← bufferAddFormat format fields) ++ (← more))
    (hmore : Arrives more (build fields) packet) :
    Arrives added (bufferRemoveFormat format >>= build) packet := by
  obtain ⟨first, hadd, hfirst⟩ := exists_bufferAddFormat h
  obtain ⟨second, result, hsecond, hread, hfields⟩ := hmore
  refine ⟨first ++ second, result, ?_, (reads_bufferRemoveFormat h hfirst).bind hread, hfields⟩
  rw [hadded, hadd, hsecond]
  rfl

theorem added_bind (first : List Byte) (next : List Byte → Added) :
    ((.ok first : Added) >>= next) = next first := rfl

theorem bufferAdd_of_length {item : List Byte} {length : Int} (h : (item.length : Int) = length) :
    bufferAdd item length = .ok item := by
  have hbounds : ¬ (length < 0 ∨ (item.length : Int) < length) := by omega
  rw [bufferAdd, if_neg hbounds, ← h, Int.toNat_natCast, List.take_length]

private theorem reads_bufferRemove {item : List Byte} {length : Int}
    (h : (item.length : Int) = length) :
    Reads (bufferRemove length) item item := by
  rw [bufferRemove, if_neg (by omega)]
  exact Reads.remove (by omega)

theorem arrives_pure {packet result : SVResponse}
    (hfields : result.wireFields = packet.wireFields) :
    Arrives (.ok []) (pure result) packet :=
  ⟨[], result, rfl, Reads.pure result, hfields⟩

theorem arrives_array {item wire : List Byte} {length : Int}
    {build : List Byte → Remove SVResponse} {packet : SVResponse}
    (hlength : (item.length : Int) = length) (hmore : Arrives (.ok wire) (build item) packet) :
    Arrives (.ok (item ++ wire)) (bufferRemove length >>= build) packet := by
  obtain ⟨more, result, hadd, hread, hfields⟩ := hmore
  cases hadd
  exact ⟨item ++ wire, result, rfl, (reads_bufferRemove hlength).bind hread, hfields⟩

private theorem exists_removeItems (heap : Heap) {items : List SVItemStack}
    (h : ∀ entry ∈ items, entry.id ≠ -1) (i : Nat) :
    ∃ result, Reads (removeItems heap items.length i) (bufferAddItems items) result ∧
      result.map SVItemStack.unslotted = items.map SVItemStack.unslotted := by
  induction items generalizing i with
  | nil => exact ⟨[], Reads.pure _, rfl⟩
  | cons item rest ih =>
      obtain ⟨hid, hrest⟩ := List.forall_mem_cons.mp h
      obtain ⟨result, hread, hsame⟩ := ih hrest (i + 1)
      refine ⟨{ heap.item i with id := item.id, count := item.count, damage := item.damage } ::
        result, ?_, ?_⟩
      · rw [bufferAddItems, if_neg hid, List.append_assoc, List.append_assoc]
        refine (Reads.word (rfl : 16 = 8 * 2) item.id).bind ?_
        rw [if_neg hid]
        refine (reads_bufferRemoveByte item.count).bind ?_
        refine (Reads.word (rfl : 16 = 8 * 2) item.damage).bind ?_
        rw [← List.append_nil (bufferAddItems rest)]
        exact hread.bind (Reads.pure _)
      · rw [List.map_cons, List.map_cons, hsame]
        rfl

/-! ## Every arm -/

/-- What the encoder appends for a packet is read back by the decoder's arm for its type. -/
theorem arrives_response (heap : Heap) {packet : SVResponse} (h : packet.Carried) :
    ∃ read, responseDataFromBuffer heap packet.type = some read ∧
      Arrives (responseDataToBuffer packet) read packet := by
  cases packet with
  | keepAlive keepAliveID => exact ⟨_, rfl, arrives_field .i trivial⟩
  | handshake hash => exact ⟨_, rfl, arrives_field .U h⟩
  | chat message => exact ⟨_, rfl, arrives_field .U h⟩
  | timeUpdate time => exact ⟨_, rfl, arrives_field .l trivial⟩
  | entityDestroy entityId => exact ⟨_, rfl, arrives_field .i trivial⟩
  | entityCreate entityId => exact ⟨_, rfl, arrives_field .i trivial⟩
  | closeWindow id => exact ⟨_, rfl, arrives_field .b trivial⟩
  | disconnect reason => exact ⟨_, rfl, arrives_field .U h⟩
  | login id u1 mapSeed serverMode dimension u2 worldHeight maxPlayers =>
      have hstring : Sendable u1 := h
      exact ⟨_, rfl, arrives_format (by simp [hstring]) rfl rfl⟩
  | namedEntitySpawn entityId name position rotation pitch itemId =>
      have hstring : Sendable name := h
      exact ⟨_, rfl, arrives_format (by simp [hstring]) rfl rfl⟩
  | painting entityId title position direction =>
      have hstring : Sendable title := h
      exact ⟨_, rfl, arrives_format (by simp [hstring]) rfl (by simp [SVResponse.wireFields])⟩
  | updateSign position first second third fourth =>
      obtain ⟨hfirst, hsecond, hthird, hfourth⟩ := id h
      exact ⟨_, rfl, arrives_format (by simp [hfirst, hsecond, hthird, hfourth]) rfl
        (by simp [SVResponse.wireFields])⟩
  | playerListItem playerName online ping =>
      have hstring : Sendable playerName := h
      exact ⟨_, rfl, arrives_format (by simp [hstring]) rfl rfl⟩
  | updateHealth health food foodSaturation =>
      have hfloat : vaFloat foodSaturation = foodSaturation := h
      exact ⟨_, rfl, arrives_format (by simp [hfloat]) rfl rfl⟩
  | playerMoveLook position stance yaw pitch onGround =>
      obtain ⟨hyaw, hpitch⟩ := id h
      exact ⟨_, rfl, arrives_format (by simp [hyaw, hpitch]) rfl rfl⟩
  | stanceUpdate u1 u2 u3 u4 u5 u6 =>
      obtain ⟨hfirst, hsecond, hthird, hfourth⟩ := id h
      exact ⟨_, rfl, arrives_format (by simp [hfirst, hsecond, hthird, hfourth]) rfl rfl⟩
  | pickupSpawn entityId item position rotation pitch roll =>
      exact ⟨_, rfl, arrives_format (by simp) rfl rfl⟩
  | spawnObject entityId type position flag u1 u2 u3 =>
      refine ⟨_, rfl, ?_⟩
      by_cases hflag : 0 < flag.toInt
      · refine arrives_then
          (entityId, type.setWidth 8, position.x, position.y, position.z, flag, ())
          (bufferAddFormat [.s, .s, .s] (u1, u2, u3, ())) (by simp) ?_ ?_
        · rw [responseDataToBuffer]
          simp [hflag, bufferAddFormat, bufferAddField, added_bind]
        · dsimp only
          rw [if_pos hflag]
          exact arrives_format (by simp) rfl (by simp [SVResponse.wireFields, hflag])
      · refine arrives_then
          (entityId, type.setWidth 8, position.x, position.y, position.z, flag, ())
          (.ok []) (by simp) ?_ ?_
        · rw [responseDataToBuffer]
          simp [hflag, bufferAddFormat, bufferAddField, added_bind]
        · dsimp only
          rw [if_neg hflag]
          exact arrives_pure (by simp [SVResponse.wireFields, hflag])
  | mapChunk position size length item =>
      have hlength : (item.length : Int) = length.toInt := Eq.symm h
      refine ⟨_, rfl, arrives_then
        (position.x, position.y.signExtend 16, position.z, size.x - 1, size.y - 1, size.z - 1,
          length, ())
        (.ok (item ++ [])) (by simp) ?_ (arrives_array hlength (arrives_pure ?_))⟩
      · rw [responseDataToBuffer, bufferAdd_of_length hlength]
        simp [bufferAddFormat, bufferAddField, added_bind]
      · simp [SVResponse.wireFields]
  | multiBlockChange position length coordinate type metadata =>
      obtain ⟨hcoordinate, htype, hmetadata⟩ := id h
      refine ⟨_, rfl, arrives_then (position.x, position.z, length, ())
        (.ok (coordinate ++ (type ++ (metadata ++ [])))) (by simp) ?_
        (arrives_array hcoordinate (arrives_array htype (arrives_array hmetadata
          (arrives_pure ?_))))⟩
      · rw [responseDataToBuffer, bufferAdd_of_length hcoordinate, bufferAdd_of_length htype,
          bufferAdd_of_length hmetadata]
        simp [bufferAddFormat, bufferAddField, added_bind]
      · simp [SVResponse.wireFields]
  | explosion position radius length item =>
      obtain ⟨hradius, hlength, hbound⟩ := id h
      refine ⟨_, rfl, arrives_then (position.x, position.y, position.z, radius, length, ())
        (.ok (item ++ [])) (by simp [hradius]) ?_ (arrives_array hlength (arrives_pure ?_))⟩
      · rw [responseDataToBuffer, bufferAdd_of_length hlength]
        simp only [if_pos hbound]
        simp [bufferAddFormat, bufferAddField, added_bind]
      · simp [SVResponse.wireFields]
  | setSlot windowId item =>
      refine ⟨_, rfl, ?_⟩
      by_cases hid : item.id = -1
      · refine arrives_then (windowId, item.slot.signExtend 16, item.id, ()) (.ok []) (by simp)
          ?_ ?_
        · rw [responseDataToBuffer]
          simp [hid, bufferAddFormat, bufferAddField, added_bind]
        · dsimp only
          rw [if_neg (not_not.mpr hid)]
          exact arrives_pure (by simp [SVResponse.wireFields, hid])
      · refine arrives_then (windowId, item.slot.signExtend 16, item.id, ())
          (bufferAddFormat [.b, .s] (item.count, item.damage, ())) (by simp) ?_ ?_
        · rw [responseDataToBuffer]
          simp only [if_pos hid]
        · dsimp only
          rw [if_pos hid]
          refine ⟨_, _, rfl, (reads_bufferRemoveByte item.count).bind
            ((Reads.word (rfl : 16 = 8 * 2) item.damage).bind (Reads.pure _)), ?_⟩
          simp [SVResponse.wireFields]
  | windowItems windowId length item =>
      obtain ⟨hlength, hitems⟩ := id h
      have hcount : length.toNat = item.length := by
        have hsame := toNat_of_not_neg (show ¬ length.toInt < 0 by omega)
        omega
      obtain ⟨result, hread, hsame⟩ := exists_removeItems heap hitems 0
      refine ⟨_, rfl, arrives_then (windowId, length, ()) (.ok (bufferAddItems item)) (by simp)
        ?_ ⟨bufferAddItems item, .windowItems windowId length result, rfl, ?_, ?_⟩⟩
      · rw [responseDataToBuffer]
        simp [bufferAddFormat, bufferAddField, added_bind]
      · dsimp only
        rw [if_neg (by omega), hcount, ← List.append_nil (bufferAddItems item)]
        exact hread.bind (Reads.pure _)
      · rw [SVResponse.wireFields, SVResponse.wireFields, hsame]
  | spawnMob => exact h.elim
  | entityMetadata => exact h.elim
  | thunderbolt => exact h.elim
  | openWindow => exact h.elim
  | updateProgressBar => exact h.elim
  | itemData => exact h.elim
  | incrementStatistic => exact h.elim
  | _ => exact ⟨_, rfl, arrives_format (by simp) rfl (by simp [SVResponse.wireFields])⟩

theorem reads_responseFromBuffers (heap : Heap) {packet : SVResponse} (h : packet.Carried) :
    ∃ wire result, responseToBuffer packet = .ok wire ∧
      Reads (responseFromBuffers heap) wire (some result) ∧
      result.wireFields = packet.wireFields := by
  obtain ⟨read, hdecode, data, result, hadd, hread, hfields⟩ := arrives_response heap h
  refine ⟨bufferAddByte packet.type.value ++ data, result, ?_, ?_, hfields⟩
  · rw [responseToBuffer, hadd]
    rfl
  · rw [← List.append_nil data]
    refine (reads_bufferRemoveByte _).bind ?_
    rw [SVPacketType.ofByte_value, Option.bind_some, hdecode]
    exact hread.bind (Reads.pure _)

/-- **Response round trip.**  Every response packet that its layout carries comes back from the
wire: in front of any other bytes the decoder takes exactly the packet's bytes and returns a
packet of the same type with the same wire fields, whatever its allocations held before. -/
theorem response_round_trip (heap : Heap) (packet : SVResponse) (hcarried : packet.Carried) :
    ∃ wire result, responseToBuffer packet = .ok wire ∧
      (∀ rest, responseFromBuffers heap ⟨wire ++ rest, 0⟩ =
        .ok (some result) ⟨rest, wire.length⟩) ∧
      result.type = packet.type ∧ result.wireFields = packet.wireFields := by
  obtain ⟨wire, result, hsent, hwhole, hfields⟩ := reads_responseFromBuffers heap hcarried
  refine ⟨wire, result, hsent, fun rest => ?_, ?_, hfields⟩
  · rw [hwhole rest 0, Nat.zero_add]
  · rw [← result.type_wireFields, hfields, packet.type_wireFields]

/-- A change of two blocks, with other bytes behind it. -/
theorem response_round_trip_multiBlockChange :
    ∃ wire result,
      responseToBuffer (.multiBlockChange ⟨1, 2⟩ 2 [0x10, 0x40, 0x21, 0x40] [3, 4] [0, 5]) =
        .ok wire ∧
      (∀ rest, responseFromBuffers ⟨0, fun _ => ⟨0, 0, 0, 0⟩, 0, fun _ => none⟩
        ⟨wire ++ rest, 0⟩ = .ok (some result) ⟨rest, wire.length⟩) ∧
      result.type = .multiBlockChange ∧
      result.wireFields = .multiBlockChange ⟨1, 2⟩ 2 [0x10, 0x40, 0x21, 0x40] [3, 4] [0, 5] :=
  response_round_trip _ _ ⟨by decide, by decide, by decide⟩

end Craftd.Protocol
