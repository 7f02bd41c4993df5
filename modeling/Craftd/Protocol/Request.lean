import Craftd.Protocol.Buffer

/-!
# Request packets

A translation of the `SVRequest` arms of `SV_GetPacketDataFromBuffer` and
`SV_PacketToBuffer`.  A packet is one constructor of `SVRequest` for its type, with
the fields of the source's structure; of an `SVEntity` only the id is used.

Fields of an `enum` type have 32 bits.  Where the decoder stores a byte through a
pointer to one, its other bytes keep what the allocation held.
-/

namespace Craftd.Protocol

open Craftd.Containers ByteReader

/-- The data of a request packet. -/
inductive SVRequest
  | keepAlive (keepAliveID : SVInteger)
  | login (version : SVInteger) (username : SVString) (u1 : SVLong) (u2 : SVInteger)
      (u3 u4 u5 u6 : SVByte)
  | handshake (username : SVString)
  | chat (message : SVString)
  | useEntity (user target : SVInteger) (leftClick : SVBoolean)
  | respawn (world u1 mode : SVByte) (worldHeight : SVShort) (mapSeed : SVLong)
  | onGround (onGround : SVBoolean)
  | playerPosition (position : SVPrecisePosition) (stance : SVDouble) (onGround : SVBoolean)
  | playerLook (yaw pitch : SVFloat) (onGround : SVBoolean)
  | playerMoveLook (position : SVPrecisePosition) (stance : SVDouble) (yaw pitch : SVFloat)
      (onGround : SVBoolean)
  | playerDigging (status : BitVec 32) (position : SVBlockPosition) (face : BitVec 32)
  | playerBlockPlacement (position : SVBlockPosition) (direction : BitVec 32)
      (item : SVItemStack)
  | holdChange (slot : SVShort)
  | animation (entityId : SVInteger) (type : BitVec 32)
  | entityAction (entityId : SVInteger) (type : BitVec 32)
  | stanceUpdate (u1 u2 u3 u4 : SVFloat) (u5 u6 : SVBoolean)
  | entityMetadata (entityId : SVInteger) (metadata : SVMetadata)
  | entityEffect (entityId : SVInteger) (effect : BitVec 32) (amplifier : SVByte)
      (duration : SVShort)
  | removeEntityEffect (entityId : SVInteger) (effect : BitVec 32)
  | closeWindow (id : SVByte)
  | windowClick (id : SVByte) (slot : SVShort) (rightClick : SVBoolean) (action : SVShort)
      (shiftPressed : SVBoolean) (item : SVItemStack)
  | transaction (id : SVByte) (action : SVShort) (accepted : SVBoolean)
  | creativeInventoryAction (slot itemId quantity damage : SVShort)
  | updateSign (position : SVBlockPosition) (first second third fourth : SVString)
  | incrementStatistic (id : SVInteger) (amount : SVByte)
  | listPing
  | disconnect (reason : SVString)
  deriving DecidableEq

/-- The type of a request packet. -/
def SVRequest.type : SVRequest → SVPacketType
  | .keepAlive .. => .keepAlive
  | .login .. => .login
  | .handshake .. => .handshake
  | .chat .. => .chat
  | .useEntity .. => .useEntity
  | .respawn .. => .respawn
  | .onGround .. => .onGround
  | .playerPosition .. => .playerPosition
  | .playerLook .. => .playerLook
  | .playerMoveLook .. => .playerMoveLook
  | .playerDigging .. => .playerDigging
  | .playerBlockPlacement .. => .playerBlockPlacement
  | .holdChange .. => .holdChange
  | .animation .. => .animation
  | .entityAction .. => .entityAction
  | .stanceUpdate .. => .stanceUpdate
  | .entityMetadata .. => .entityMetadata
  | .entityEffect .. => .entityEffect
  | .removeEntityEffect .. => .removeEntityEffect
  | .closeWindow .. => .closeWindow
  | .windowClick .. => .windowClick
  | .transaction .. => .transaction
  | .creativeInventoryAction .. => .creativeInventoryAction
  | .updateSign .. => .updateSign
  | .incrementStatistic .. => .incrementStatistic
  | .listPing => .listPing
  | .disconnect .. => .disconnect

/-- `SV_GetPacketDataFromBuffer` in the chain `SVRequest`; the types without an arm have
none. -/
def requestDataFromBuffer (heap : Heap) : SVPacketType → Option (Remove SVRequest)
  | .keepAlive => some do
      return .keepAlive (← bufferRemoveInteger)
  | .login => some do
      let (version, username, u1, u2, u3, u4, u5, u6, ()) ←
        bufferRemoveFormat [.i, .U, .l, .i, .b, .b, .b, .b]
      return .login version username u1 u2 u3 u4 u5 u6
  | .handshake => some do
      return .handshake (← bufferRemoveString16)
  | .chat => some do
      return .chat (← bufferRemoveString16)
  | .useEntity => some do
      let (user, target, leftClick, ()) ← bufferRemoveFormat [.i, .i, .b]
      return .useEntity user target leftClick
  | .respawn => some do
      let (world, u1, mode, worldHeight, mapSeed, ()) ← bufferRemoveFormat [.b, .b, .b, .s, .l]
      return .respawn world u1 mode worldHeight mapSeed
  | .onGround => some do
      return .onGround (← bufferRemoveBoolean)
  | .playerPosition => some do
      let (x, y, stance, z, onGround, ()) ← bufferRemoveFormat [.d, .d, .d, .d, .b]
      return .playerPosition ⟨x, y, z⟩ stance onGround
  | .playerLook => some do
      let (yaw, pitch, onGround, ()) ← bufferRemoveFormat [.f, .f, .b]
      return .playerLook yaw pitch onGround
  | .playerMoveLook => some do
      let (x, stance, y, z, yaw, pitch, onGround, ()) ←
        bufferRemoveFormat [.d, .d, .d, .d, .f, .f, .b]
      return .playerMoveLook ⟨x, y, z⟩ stance yaw pitch onGround
  | .playerDigging => some do
      let status ← bufferRemoveByte
      let (x, y, z, ()) ← bufferRemoveFormat [.i, .b, .i]
      let face ← bufferRemoveByte
      return .playerDigging (status.signExtend 32) ⟨x, y, z⟩ (face.signExtend 32)
  | .playerBlockPlacement => some do
      let (x, y, z, direction, id, ()) ← bufferRemoveFormat [.i, .b, .i, .b, .s]
      if id ≠ -1 then
        let (count, damage, ()) ← bufferRemoveFormat [.b, .s]
        return .playerBlockPlacement ⟨x, y, z⟩ (overwriteLow heap.enum direction)
          { id, slot := 0, damage, count }
      else
        return .playerBlockPlacement ⟨x, y, z⟩ (overwriteLow heap.enum direction)
          { id, slot := 0, damage := 0, count := 0 }
  | .holdChange => some do
      return .holdChange (← bufferRemoveShort)
  | .animation => some do
      let (entityId, type, ()) ← bufferRemoveFormat [.i, .b]
      return .animation entityId (overwriteLow heap.enum type)
  | .entityAction => some do
      let (entityId, type, ()) ← bufferRemoveFormat [.i, .b]
      return .entityAction entityId (overwriteLow heap.enum type)
  | .stanceUpdate => some do
      let (u1, u2, u3, u4, u5, u6, ()) ← bufferRemoveFormat [.f, .f, .f, .f, .B, .B]
      return .stanceUpdate u1 u2 u3 u4 u5 u6
  | .entityMetadata => some do
      let (entityId, metadata, ()) ← bufferRemoveFormat [.i, .M]
      return .entityMetadata entityId metadata
  | .entityEffect => some do
      let (entityId, effect, amplifier, duration, ()) ← bufferRemoveFormat [.i, .b, .b, .s]
      return .entityEffect entityId (overwriteLow heap.enum effect) amplifier duration
  | .removeEntityEffect => some do
      let (entityId, effect, ()) ← bufferRemoveFormat [.i, .b]
      return .removeEntityEffect entityId (overwriteLow heap.enum effect)
  | .closeWindow => some do
      return .closeWindow (← bufferRemoveByte)
  | .windowClick => some do
      let (id, slot, rightClick, action, shiftPressed, itemId, ()) ←
        bufferRemoveFormat [.b, .s, .B, .s, .B, .s]
      if itemId ≠ -1 then
        let (count, damage, ()) ← bufferRemoveFormat [.b, .s]
        return .windowClick id slot rightClick action shiftPressed
          { id := itemId, slot := 0, damage, count }
      else
        return .windowClick id slot rightClick action shiftPressed
          { id := itemId, slot := 0, damage := 0, count := 0 }
  | .transaction => some do
      let (id, action, accepted, ()) ← bufferRemoveFormat [.b, .s, .B]
      return .transaction id action accepted
  | .creativeInventoryAction => some do
      let (slot, itemId, quantity, damage, ()) ← bufferRemoveFormat [.s, .s, .s, .s]
      return .creativeInventoryAction slot itemId quantity damage
  | .updateSign => some do
      -- the short lands on `y`, a byte, and on the padding behind it
      let (x, y, z, first, second, third, fourth, ()) ←
        bufferRemoveFormat [.i, .s, .i, .U, .U, .U, .U]
      return .updateSign ⟨x, y.setWidth 8, z⟩ first second third fourth
  | .incrementStatistic => some do
      let (id, amount, ()) ← bufferRemoveFormat [.i, .b]
      return .incrementStatistic id amount
  | .listPing => some do
      return .listPing
  | .disconnect => some do
      return .disconnect (← bufferRemoveString16)
  | _ => none

/-- `SV_PacketFromBuffers(buffers, false)`; no packet stands for NULL. -/
def requestFromBuffers (heap : Heap) : Remove (Option SVRequest) := do
  let type ← bufferRemoveByte
  match (SVPacketType.ofByte type).bind (requestDataFromBuffer heap) with
  | none => return none
  | some data => return some (← data)

/-- What `SV_PacketToBuffer` appends to the type byte of a request packet; the types
without an arm have nothing. -/
def requestDataToBuffer : SVRequest → Option Added
  | .keepAlive keepAliveID => some (.ok (bufferAddInteger keepAliveID))
  | .login version username u1 u2 u3 u4 u5 u6 => some <|
      bufferAddFormat [.i, .U, .l, .i, .b, .b, .b, .b]
        (version, username, u1, u2, u3, u4, u5, u6, ())
  | .handshake username => some (bufferAddString16 username)
  | .chat message => some (bufferAddString16 message)
  | .useEntity user target leftClick => some <|
      bufferAddFormat [.i, .i, .b] (user, target, leftClick, ())
  | .respawn world u1 mode worldHeight mapSeed => some <|
      bufferAddFormat [.b, .b, .b, .s, .l] (world, u1, mode, worldHeight, mapSeed, ())
  | .onGround onGround => some (.ok (bufferAddByte onGround))
  | .playerPosition position stance onGround => some <|
      bufferAddFormat [.d, .d, .d, .d, .b]
        (position.x, position.y, stance, position.z, onGround, ())
  | .playerLook yaw pitch onGround => some <|
      bufferAddFormat [.f, .f, .b] (yaw, pitch, onGround, ())
  | .playerMoveLook position stance yaw pitch onGround => some <|
      bufferAddFormat [.d, .d, .d, .d, .f, .f, .b]
        (position.x, stance, position.y, position.z, yaw, pitch, onGround, ())
  | .playerDigging status position face => some do
      let block ← bufferAddFormat [.i, .b, .i] (position.x, position.y, position.z, ())
      return bufferAddByte (status.setWidth 8) ++ block ++ bufferAddByte (face.setWidth 8)
  | .playerBlockPlacement position direction item => some do
      let placed ← bufferAddFormat [.i, .b, .i, .b, .s]
        (position.x, position.y, position.z, direction.setWidth 8, item.id, ())
      if item.id ≠ -1 then
        return placed ++ (← bufferAddFormat [.b, .s] (item.count, item.damage, ()))
      else return placed
  | .holdChange slot => some (.ok (bufferAddShort slot))
  | .animation entityId type => some <|
      bufferAddFormat [.i, .b] (entityId, type.setWidth 8, ())
  | .entityAction entityId type => some <|
      bufferAddFormat [.i, .b] (entityId, type.setWidth 8, ())
  | .stanceUpdate u1 u2 u3 u4 u5 u6 => some <|
      bufferAddFormat [.f, .f, .f, .f, .B, .B] (u1, u2, u3, u4, u5, u6, ())
  | .entityMetadata entityId metadata => some <|
      bufferAddFormat [.i, .M] (entityId, metadata, ())
  | .entityEffect entityId effect amplifier duration => some <|
      bufferAddFormat [.i, .b, .b, .s] (entityId, effect.setWidth 8, amplifier, duration, ())
  | .removeEntityEffect entityId effect => some <|
      bufferAddFormat [.i, .b] (entityId, effect.setWidth 8, ())
  | .closeWindow id => some (.ok (bufferAddByte id))
  | .windowClick id slot rightClick action shiftPressed item => some do
      let click ← bufferAddFormat [.b, .s, .B, .s, .B, .s]
        (id, slot, rightClick, action, shiftPressed, item.id, ())
      if item.id ≠ -1 then
        return click ++ (← bufferAddFormat [.b, .s] (item.count, item.damage, ()))
      else return click
  | .transaction id action accepted => some <|
      bufferAddFormat [.b, .s, .B] (id, action, accepted, ())
  | .creativeInventoryAction slot itemId quantity damage => some <|
      bufferAddFormat [.s, .s, .s, .s] (slot, itemId, quantity, damage, ())
  | .updateSign position first second third fourth => some <|
      bufferAddFormat [.i, .s, .i, .U, .U, .U, .U]
        (position.x, position.y.signExtend 16, position.z, first, second, third, fourth, ())
  | .incrementStatistic .. => none
  | .listPing => some (.ok [])
  | .disconnect reason => some (bufferAddString16 reason)

/-- `SV_PacketToBuffer` in the chain `SVRequest`; no bytes stand for NULL. -/
def requestToBuffer (packet : SVRequest) : Except Fault (Option (List Byte)) :=
  match requestDataToBuffer packet with
  | none => .ok none
  | some data => data.map fun data => some (bufferAddByte packet.type.value ++ data)

end Craftd.Protocol
