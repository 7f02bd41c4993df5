import Craftd.Protocol.Request
import Craftd.Protocol.Wire

/-!
# Requests survive the wire

Sending a request packet and decoding what was sent gives a packet of the same
type with the same wire fields.  The layouts of the encoder and the decoder are
compared arm by arm; everything behind a format string comes from
`exists_bufferAddFormat` and `reads_bufferRemoveFormat`.
-/

namespace Craftd.Protocol

open Craftd.Containers ByteReader

/-- The strings of a request packet. -/
def SVRequest.strings : SVRequest → List SVString
  | .login _ username _ _ _ _ _ _ => [username]
  | .handshake username => [username]
  | .chat message => [message]
  | .updateSign _ first second third fourth => [first, second, third, fourth]
  | .disconnect reason => [reason]
  | _ => []

/-- The part of an `enum` field that a `b` sends. -/
def lowByte (field : BitVec 32) : BitVec 32 := (field.setWidth 8).setWidth 32

/-- The part of an item that a packet sends: without its slot, and without count and
damage when there is no item. -/
def SVItemStack.sent (item : SVItemStack) : SVItemStack :=
  if item.id ≠ -1 then { item with slot := 0 } else { item with slot := 0, damage := 0, count := 0 }

@[simp] theorem SVItemStack.sent_sent (item : SVItemStack) : item.sent.sent = item.sent := by
  unfold sent
  split_ifs <;> simp_all

/-- The floats of a request packet. -/
def SVRequest.floats : SVRequest → List SVFloat
  | .playerLook yaw pitch _ => [yaw, pitch]
  | .playerMoveLook _ _ yaw pitch _ => [yaw, pitch]
  | .stanceUpdate u1 u2 u3 u4 _ _ => [u1, u2, u3, u4]
  | _ => []

/-- A request packet without what its layout leaves out, with its floats as they are sent. -/
def SVRequest.wireFields : SVRequest → SVRequest
  | .playerLook yaw pitch ground => .playerLook (vaFloat yaw) (vaFloat pitch) ground
  | .playerMoveLook position stance yaw pitch ground =>
      .playerMoveLook position stance (vaFloat yaw) (vaFloat pitch) ground
  | .stanceUpdate u1 u2 u3 u4 u5 u6 =>
      .stanceUpdate (vaFloat u1) (vaFloat u2) (vaFloat u3) (vaFloat u4) u5 u6
  | .playerDigging status position face => .playerDigging (lowByte status) position (lowByte face)
  | .playerBlockPlacement position direction item =>
      .playerBlockPlacement position (lowByte direction) item.sent
  | .animation entityId type => .animation entityId (lowByte type)
  | .entityAction entityId type => .entityAction entityId (lowByte type)
  | .entityEffect entityId effect amplifier duration =>
      .entityEffect entityId (lowByte effect) amplifier duration
  | .removeEntityEffect entityId effect => .removeEntityEffect entityId (lowByte effect)
  | .windowClick id slot rightClick action shiftPressed item =>
      .windowClick id slot rightClick action shiftPressed item.sent
  | packet => packet

theorem SVRequest.type_wireFields (packet : SVRequest) : packet.wireFields.type = packet.type := by
  cases packet <;> rfl

@[simp] theorem setWidth_signExtend {w : Nat} (hw : 8 ≤ w) (data : SVByte) :
    (data.signExtend w).setWidth 8 = data := by
  apply BitVec.eq_of_getLsbD_eq
  intro i hi
  have hi' : i < w := by omega
  simp [BitVec.getElem_signExtend, hi, hi']

/-! ## One arm -/

/-- What is added can be read back as `packet`. -/
def Carries (added : Added) (read : Remove SVRequest) (packet : SVRequest) : Prop :=
  ∃ wire, added = .ok wire ∧ Reads read wire packet

theorem carries_format {format : List Letter} {fields : Fields format}
    {build : Fields format → Remove SVRequest} {packet : SVRequest}
    (h : FormatCarried format fields) (hbuild : build fields = pure packet) :
    Carries (bufferAddFormat format fields) (bufferRemoveFormat format >>= build) packet := by
  obtain ⟨wire, hadd, hwire⟩ := exists_bufferAddFormat h
  refine ⟨wire, hadd, ?_⟩
  rw [← List.append_nil wire]
  refine (reads_bufferRemoveFormat h hwire).bind ?_
  rw [hbuild]
  exact Reads.pure packet

/-- A float is sent as `va_arg` hands it on. -/
theorem bufferAddField_vaFloat (data : SVFloat) :
    bufferAddField .f (vaFloat data) = bufferAddField .f data := by
  rw [bufferAddField, bufferAddField, vaFloat_vaFloat]

theorem carries_field (letter : Letter) {field : letter.Field}
    {build : letter.Field → SVRequest} (h : letter.Carried field) :
    Carries (bufferAddField letter field)
      (bufferRemoveField letter >>= fun field => pure (build field)) (build field) := by
  obtain ⟨wire, hadd, hwire⟩ := exists_bufferAddField h
  refine ⟨wire, hadd, ?_⟩
  rw [← List.append_nil wire]
  exact (reads_bufferRemoveField h hwire).bind (Reads.pure _)

/-- Behind the fields of a format, count and damage follow when there is an item. -/
theorem carries_item {format : List Letter} {fields : Fields format}
    {build : Fields format → Remove SVRequest} (item : SVItemStack)
    (packet : SVItemStack → SVRequest) (h : FormatCarried format fields)
    (hsome : item.id ≠ -1 → build fields = do
      let (count, damage, ()) ← bufferRemoveFormat [.b, .s]
      return packet { id := item.id, slot := 0, damage, count })
    (hnone : item.id = -1 → build fields =
      pure (packet { id := item.id, slot := 0, damage := 0, count := 0 })) :
    Carries (do
        let first ← bufferAddFormat format fields
        if item.id ≠ -1 then
          return first ++ (← bufferAddFormat [.b, .s] (item.count, item.damage, ()))
        else return first)
      (bufferRemoveFormat format >>= build) (packet item.sent) := by
  obtain ⟨first, hadd, hfirst⟩ := exists_bufferAddFormat h
  have hread := reads_bufferRemoveFormat h hfirst
  by_cases hid : item.id = -1
  · refine ⟨first, ?_, ?_⟩
    · rw [hadd]
      show (if item.id ≠ -1 then _ else _) = _
      rw [if_neg (not_not.mpr hid)]
      rfl
    · rw [← List.append_nil first]
      refine hread.bind ?_
      rw [hnone hid, SVItemStack.sent, if_neg (not_not.mpr hid)]
      exact Reads.pure _
  · have hcarried : FormatCarried [.b, .s] (item.count, item.damage, ()) :=
      ⟨trivial, trivial, trivial⟩
    obtain ⟨second, hadds, hsecond⟩ := exists_bufferAddFormat hcarried
    refine ⟨first ++ second, ?_, ?_⟩
    · rw [hadd]
      show (if item.id ≠ -1 then _ else _) = _
      rw [if_pos hid, hadds]
      rfl
    · refine hread.bind ?_
      rw [hsome hid, SVItemStack.sent, if_pos hid, ← List.append_nil second]
      exact (reads_bufferRemoveFormat hcarried hsecond).bind (Reads.pure _)

/-- The arm of `SVPlayerDigging`, whose status and face are plain bytes. -/
theorem carries_playerDigging (status : BitVec 32) (position : SVBlockPosition)
    (face : BitVec 32) :
    Carries (do
        let block ← bufferAddFormat [.i, .b, .i] (position.x, position.y, position.z, ())
        return bufferAddByte (status.setWidth 8) ++ block ++ bufferAddByte (face.setWidth 8))
      (do
        let status ← bufferRemoveByte
        let (x, y, z, ()) ← bufferRemoveFormat [.i, .b, .i]
        let face ← bufferRemoveByte
        return .playerDigging (status.signExtend 32) ⟨x, y, z⟩ (face.signExtend 32))
      (.playerDigging ((status.setWidth 8).signExtend 32) position
        ((face.setWidth 8).signExtend 32)) := by
  have hcarried : FormatCarried [.i, .b, .i] (position.x, position.y, position.z, ()) := by simp
  obtain ⟨block, hadd, hblock⟩ := exists_bufferAddFormat hcarried
  refine ⟨bufferAddByte (status.setWidth 8) ++ block ++ bufferAddByte (face.setWidth 8), ?_, ?_⟩
  · rw [hadd]
    rfl
  · rw [List.append_assoc, ← List.append_nil (bufferAddByte (face.setWidth 8))]
    refine (reads_bufferRemoveByte _).bind ((reads_bufferRemoveFormat hcarried hblock).bind ?_)
    exact (reads_bufferRemoveByte _).bind (Reads.pure _)

/-! ## Every arm -/

/-- What the encoder appends for a packet is read back by the decoder's arm for its type,
as a packet with the same wire fields. -/
theorem carries_request (heap : Heap) {packet : SVRequest} {added : Added}
    (hadded : requestDataToBuffer packet = some added)
    (hmetadata : packet.type ≠ .entityMetadata) (hstrings : ∀ s ∈ packet.strings, Sendable s) :
    ∃ read result, requestDataFromBuffer heap packet.type = some read ∧
      Carries added read result ∧ result.wireFields = packet.wireFields ∧
        result.floats = packet.floats.map vaFloat := by
  cases packet with
  | keepAlive keepAliveID =>
      cases hadded
      exact ⟨_, _, rfl, carries_field .i trivial, rfl, rfl⟩
  | login version username u1 u2 u3 u4 u5 u6 =>
      cases hadded
      have husername : Sendable username := hstrings username (.head _)
      exact ⟨_, _, rfl, carries_format (by simp [husername]) rfl, rfl, rfl⟩
  | handshake username =>
      cases hadded
      exact ⟨_, _, rfl, carries_field .U (hstrings username (.head _)), rfl, rfl⟩
  | chat message =>
      cases hadded
      exact ⟨_, _, rfl, carries_field .U (hstrings message (.head _)), rfl, rfl⟩
  | useEntity user target leftClick =>
      cases hadded
      exact ⟨_, _, rfl, carries_format (by simp) rfl, rfl, rfl⟩
  | respawn world u1 mode worldHeight mapSeed =>
      cases hadded
      exact ⟨_, _, rfl, carries_format (by simp) rfl, rfl, rfl⟩
  | onGround onGround =>
      cases hadded
      exact ⟨_, _, rfl, carries_field .B trivial, rfl, rfl⟩
  | playerPosition position stance onGround =>
      cases hadded
      exact ⟨_, _, rfl, carries_format (by simp) rfl, rfl, rfl⟩
  | playerLook yaw pitch onGround =>
      cases hadded
      -- a float is sent as `va_arg` hands it on, and that is what comes back
      have hsent : bufferAddFormat [.f, .f, .b] (yaw, pitch, onGround, ()) =
          bufferAddFormat [.f, .f, .b] (vaFloat yaw, vaFloat pitch, onGround, ()) := by
        simp only [bufferAddFormat, bufferAddField_vaFloat]
      refine ⟨_, .playerLook (vaFloat yaw) (vaFloat pitch) onGround, rfl, ?_, ?_, rfl⟩
      · rw [hsent]
        exact carries_format (by simp) rfl
      · simp [SVRequest.wireFields]
  | playerMoveLook position stance yaw pitch onGround =>
      cases hadded
      have hsent : bufferAddFormat [.d, .d, .d, .d, .f, .f, .b]
            (position.x, stance, position.y, position.z, yaw, pitch, onGround, ()) =
          bufferAddFormat [.d, .d, .d, .d, .f, .f, .b]
            (position.x, stance, position.y, position.z, vaFloat yaw, vaFloat pitch, onGround,
              ()) := by
        simp only [bufferAddFormat, bufferAddField_vaFloat]
      refine ⟨_, .playerMoveLook position stance (vaFloat yaw) (vaFloat pitch) onGround, rfl, ?_,
        ?_, rfl⟩
      · rw [hsent]
        exact carries_format (by simp) rfl
      · simp [SVRequest.wireFields]
  | playerDigging status position face =>
      cases hadded
      refine ⟨_, _, rfl, carries_playerDigging status position face, ?_, rfl⟩
      simp [SVRequest.wireFields, lowByte]
  | playerBlockPlacement position direction item =>
      cases hadded
      -- the decoder writes the low byte of the `enum` field only
      let placed (item : SVItemStack) : SVRequest :=
        .playerBlockPlacement position (overwriteLow heap.enum (direction.setWidth 8)) item
      refine ⟨_, _, rfl, carries_item item placed (by simp) ?_ ?_, ?_, rfl⟩
      · intro hid
        exact if_pos hid
      · intro hid
        exact if_neg (not_not.mpr hid)
      · simp [placed, SVRequest.wireFields, lowByte]
  | holdChange slot =>
      cases hadded
      exact ⟨_, _, rfl, carries_field .s trivial, rfl, rfl⟩
  | animation entityId type =>
      cases hadded
      refine ⟨_, _, rfl, carries_format (by simp) rfl, ?_, rfl⟩
      simp [SVRequest.wireFields, lowByte]
  | entityAction entityId type =>
      cases hadded
      refine ⟨_, _, rfl, carries_format (by simp) rfl, ?_, rfl⟩
      simp [SVRequest.wireFields, lowByte]
  | stanceUpdate u1 u2 u3 u4 u5 u6 =>
      cases hadded
      have hsent : bufferAddFormat [.f, .f, .f, .f, .B, .B] (u1, u2, u3, u4, u5, u6, ()) =
          bufferAddFormat [.f, .f, .f, .f, .B, .B]
            (vaFloat u1, vaFloat u2, vaFloat u3, vaFloat u4, u5, u6, ()) := by
        simp only [bufferAddFormat, bufferAddField_vaFloat]
      refine ⟨_, .stanceUpdate (vaFloat u1) (vaFloat u2) (vaFloat u3) (vaFloat u4) u5 u6, rfl, ?_,
        ?_, rfl⟩
      · rw [hsent]
        exact carries_format (by simp) rfl
      · simp [SVRequest.wireFields]
  | entityMetadata entityId metadata => exact absurd rfl hmetadata
  | entityEffect entityId effect amplifier duration =>
      cases hadded
      refine ⟨_, _, rfl, carries_format (by simp) rfl, ?_, rfl⟩
      simp [SVRequest.wireFields, lowByte]
  | removeEntityEffect entityId effect =>
      cases hadded
      refine ⟨_, _, rfl, carries_format (by simp) rfl, ?_, rfl⟩
      simp [SVRequest.wireFields, lowByte]
  | closeWindow id =>
      cases hadded
      exact ⟨_, _, rfl, carries_field .b trivial, rfl, rfl⟩
  | windowClick id slot rightClick action shiftPressed item =>
      cases hadded
      let clicked (item : SVItemStack) : SVRequest :=
        .windowClick id slot rightClick action shiftPressed item
      refine ⟨_, _, rfl, carries_item item clicked (by simp) ?_ ?_, ?_, rfl⟩
      · intro hid
        exact if_pos hid
      · intro hid
        exact if_neg (not_not.mpr hid)
      · simp [clicked, SVRequest.wireFields]
  | transaction id action accepted =>
      cases hadded
      exact ⟨_, _, rfl, carries_format (by simp) rfl, rfl, rfl⟩
  | creativeInventoryAction slot itemId quantity damage =>
      cases hadded
      exact ⟨_, _, rfl, carries_format (by simp) rfl, rfl, rfl⟩
  | updateSign position first second third fourth =>
      cases hadded
      have hcarried : Sendable first ∧ Sendable second ∧ Sendable third ∧ Sendable fourth := by
        simpa [SVRequest.strings] using hstrings
      refine ⟨_, _, rfl, carries_format (by simp [hcarried]) rfl, ?_, rfl⟩
      simp [SVRequest.wireFields]
  | incrementStatistic id amount => cases hadded
  | listPing =>
      cases hadded
      exact ⟨_, _, rfl, ⟨[], rfl, Reads.pure _⟩, rfl, rfl⟩
  | disconnect reason =>
      cases hadded
      exact ⟨_, _, rfl, carries_field .U (hstrings reason (.head _)), rfl, rfl⟩

end Craftd.Protocol
