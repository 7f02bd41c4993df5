import Craftd.Protocol.Buffer

/-!
# Response packets

A translation of the `SVResponse` arms of `SV_GetPacketDataFromBuffer` and
`SV_PacketToBuffer`, which the proxy uses in both directions.  A packet is one
constructor of `SVResponse` for its type, with the fields of the source's structure.

Two of the arms run into the one that follows.  The decoder's arm for a progress bar
goes on with the arm of a transaction, so the data of such a packet is a transaction
and the encoder reads it as a progress bar.  The encoder's arm for a thunderbolt goes
on with the arm of a window and follows a pointer that is none.
-/

namespace Craftd.Protocol

open Craftd.Containers ByteReader

/-- The data of a response packet. -/
inductive SVResponse
  | keepAlive (keepAliveID : SVInteger)
  | login (id : SVInteger) (u1 : SVString) (mapSeed : SVLong) (serverMode : SVInteger)
      (dimension u2 worldHeight maxPlayers : SVByte)
  | handshake (hash : SVString)
  | chat (message : SVString)
  | timeUpdate (time : SVLong)
  | entityEquipment (entityId : SVInteger) (slot item damage : SVShort)
  | spawnPosition (position : SVBlockPosition)
  | updateHealth (health food : SVShort) (foodSaturation : SVFloat)
  | respawn (world u1 mode : SVByte) (worldHeight : SVShort) (mapSeed : SVLong)
  | playerMoveLook (position : SVPrecisePosition) (stance : SVDouble) (yaw pitch : SVFloat)
      (onGround : SVBoolean)
  | useBed (entityId : SVInteger) (inBed : SVByte) (position : SVBlockPosition)
  | animation (entityId : SVInteger) (type : BitVec 32)
  | namedEntitySpawn (entityId : SVInteger) (name : SVString) (position : SVAbsolutePosition)
      (rotation pitch : SVByte) (itemId : SVShort)
  | pickupSpawn (entityId : SVInteger) (item : SVItemStack) (position : SVAbsolutePosition)
      (rotation pitch roll : SVByte)
  | collectItem (collected collector : SVInteger)
  | spawnObject (entityId : SVInteger) (type : BitVec 32) (position : SVAbsolutePosition)
      (flag : SVInteger) (u1 u2 u3 : SVShort)
  | spawnMob (id : SVInteger) (type : BitVec 32) (position : SVAbsolutePosition)
      (yaw pitch : SVByte) (metadata : SVMetadata)
  | painting (entityId : SVInteger) (title : SVString) (position : SVBlockPosition)
      (direction : SVInteger)
  | experienceOrb (entityId : SVInteger) (position : SVBlockPosition) (count : SVShort)
  | stanceUpdate (u1 u2 u3 u4 : SVFloat) (u5 u6 : SVBoolean)
  | entityVelocity (entityId : SVInteger) (velocity : SVVelocity)
  | entityDestroy (entityId : SVInteger)
  | entityCreate (entityId : SVInteger)
  | entityRelativeMove (entityId : SVInteger) (position : SVRelativePosition)
  | entityLook (entityId : SVInteger) (yaw pitch : SVByte)
  | entityLookMove (entityId : SVInteger) (position : SVRelativePosition) (yaw pitch : SVByte)
  | entityTeleport (entityId : SVInteger) (position : SVAbsolutePosition)
      (rotation pitch : SVByte)
  | entityStatus (entityId : SVInteger) (status : BitVec 32)
  | entityAttach (entityId vehicleId : SVInteger)
  | entityMetadata (entityId : SVInteger) (metadata : SVMetadata)
  | entityEffect (entityId : SVInteger) (effect : BitVec 32) (amplifier : SVByte)
      (duration : SVShort)
  | removeEntityEffect (entityId : SVInteger) (effect : BitVec 32)
  | experience (currentExperience level : SVByte) (totalExperience : SVShort)
  | preChunk (position : SVChunkPosition) (mode : SVBoolean)
  | mapChunk (position : SVBlockPosition) (size : SVRelativePosition) (length : SVInteger)
      (item : List Byte)
  | multiBlockChange (position : SVChunkPosition) (length : SVShort)
      (coordinate type metadata : List Byte)
  | blockChange (position : SVBlockPosition) (type metadata : SVByte)
  | playNoteBlock (position : SVBlockPosition) (data1 data2 : SVByte)
  | explosion (position : SVPrecisePosition) (radius : SVFloat) (length : SVInteger)
      (item : List Byte)
  | soundEffect (effect : BitVec 32) (position : SVBlockPosition) (data : BitVec 32)
  | state (reason gameMode : SVByte)
  | thunderbolt (entityId : SVInteger) (u1 : SVBoolean) (position : SVAbsolutePosition)
  | openWindow (id : SVByte) (type : BitVec 32) (title : SVString) (slots : SVByte)
  | closeWindow (id : SVByte)
  | setSlot (windowId : SVByte) (item : SVItemStack)
  | windowItems (id : SVByte) (length : SVShort) (item : List SVItemStack)
  /-- the data is the structure of a transaction, and the byte behind it -/
  | updateProgressBar (id : SVByte) (action : SVShort) (accepted : SVBoolean) (pad : Byte)
  | transaction (id : SVByte) (action : SVShort) (accepted : SVBoolean)
  | creativeInventoryAction (slot itemId quantity damage : SVShort)
  | updateSign (position : SVBlockPosition) (first second third fourth : SVString)
  | itemData (itemType itemId : SVShort) (textLength : SVByte) (text : List Byte)
  | incrementStatistic (id : SVInteger) (amount : SVByte)
  | playerListItem (playerName : SVString) (online : SVBoolean) (ping : SVShort)
  | disconnect (reason : SVString)
  deriving DecidableEq

/-- The type of a response packet. -/
def SVResponse.type : SVResponse → SVPacketType
  | .keepAlive .. => .keepAlive
  | .login .. => .login
  | .handshake .. => .handshake
  | .chat .. => .chat
  | .timeUpdate .. => .timeUpdate
  | .entityEquipment .. => .entityEquipment
  | .spawnPosition .. => .spawnPosition
  | .updateHealth .. => .updateHealth
  | .respawn .. => .respawn
  | .playerMoveLook .. => .playerMoveLook
  | .useBed .. => .useBed
  | .animation .. => .animation
  | .namedEntitySpawn .. => .namedEntitySpawn
  | .pickupSpawn .. => .pickupSpawn
  | .collectItem .. => .collectItem
  | .spawnObject .. => .spawnObject
  | .spawnMob .. => .spawnMob
  | .painting .. => .painting
  | .experienceOrb .. => .experienceOrb
  | .stanceUpdate .. => .stanceUpdate
  | .entityVelocity .. => .entityVelocity
  | .entityDestroy .. => .entityDestroy
  | .entityCreate .. => .entityCreate
  | .entityRelativeMove .. => .entityRelativeMove
  | .entityLook .. => .entityLook
  | .entityLookMove .. => .entityLookMove
  | .entityTeleport .. => .entityTeleport
  | .entityStatus .. => .entityStatus
  | .entityAttach .. => .entityAttach
  | .entityMetadata .. => .entityMetadata
  | .entityEffect .. => .entityEffect
  | .removeEntityEffect .. => .removeEntityEffect
  | .experience .. => .experience
  | .preChunk .. => .preChunk
  | .mapChunk .. => .mapChunk
  | .multiBlockChange .. => .multiBlockChange
  | .blockChange .. => .blockChange
  | .playNoteBlock .. => .playNoteBlock
  | .explosion .. => .explosion
  | .soundEffect .. => .soundEffect
  | .state .. => .state
  | .thunderbolt .. => .thunderbolt
  | .openWindow .. => .openWindow
  | .closeWindow .. => .closeWindow
  | .setSlot .. => .setSlot
  | .windowItems .. => .windowItems
  | .updateProgressBar .. => .updateProgressBar
  | .transaction .. => .transaction
  | .creativeInventoryAction .. => .creativeInventoryAction
  | .updateSign .. => .updateSign
  | .itemData .. => .itemData
  | .incrementStatistic .. => .incrementStatistic
  | .playerListItem .. => .playerListItem
  | .disconnect .. => .disconnect

/-! ## The decoder -/

/-- `CD_BufferRemove` with a length computed from a packet: a negative one reaches `CD_malloc`
as an enormous one. -/
def bufferRemove (length : Int) : Remove (List Byte) :=
  if length < 0 then throw .aborted else remove length.toNat

/-- The loop over the items of `SVWindowItems`, from the `i`th on. -/
def removeItems (heap : Heap) : Nat → Nat → Remove (List SVItemStack)
  | 0, _ => pure []
  | items + 1, i => do
      let id ← bufferRemoveShort
      if id = -1 then
        -- the item keeps what the allocation held, its id included
        return heap.item i :: (← removeItems heap items (i + 1))
      else
        let count ← bufferRemoveByte
        let damage ← bufferRemoveShort
        return { heap.item i with id, count, damage } :: (← removeItems heap items (i + 1))

/-- `SV_GetPacketDataFromBuffer` in the chain `SVResponse`; the types without an arm have
none. -/
def responseDataFromBuffer (heap : Heap) : SVPacketType → Option (Remove SVResponse)
  | .keepAlive => some do
      return .keepAlive (← bufferRemoveInteger)
  | .login => some do
      let (id, u1, mapSeed, serverMode, dimension, u2, worldHeight, maxPlayers, ()) ←
        bufferRemoveFormat [.i, .U, .l, .i, .b, .b, .b, .b]
      return .login id u1 mapSeed serverMode dimension u2 worldHeight maxPlayers
  | .handshake => some do
      return .handshake (← bufferRemoveString16)
  | .chat => some do
      return .chat (← bufferRemoveString16)
  | .timeUpdate => some do
      return .timeUpdate (← bufferRemoveLong)
  | .entityEquipment => some do
      let (entityId, slot, item, damage, ()) ← bufferRemoveFormat [.i, .s, .s, .s]
      return .entityEquipment entityId slot item damage
  | .spawnPosition => some do
      let (x, y, z, ()) ← bufferRemoveFormat [.i, .i, .i]
      return .spawnPosition ⟨x, y.setWidth 8, z⟩
  | .updateHealth => some do
      let (health, food, foodSaturation, ()) ← bufferRemoveFormat [.s, .s, .f]
      return .updateHealth health food foodSaturation
  | .respawn => some do
      let (world, u1, mode, worldHeight, mapSeed, ()) ← bufferRemoveFormat [.b, .b, .b, .s, .l]
      return .respawn world u1 mode worldHeight mapSeed
  | .playerMoveLook => some do
      let (x, y, stance, z, yaw, pitch, onGround, ()) ←
        bufferRemoveFormat [.d, .d, .d, .d, .f, .f, .b]
      return .playerMoveLook ⟨x, y, z⟩ stance yaw pitch onGround
  | .useBed => some do
      let (entityId, inBed, x, y, z, ()) ← bufferRemoveFormat [.i, .b, .i, .b, .i]
      return .useBed entityId inBed ⟨x, y, z⟩
  | .animation => some do
      let (entityId, type, ()) ← bufferRemoveFormat [.i, .b]
      return .animation entityId (overwriteLow heap.enum type)
  | .namedEntitySpawn => some do
      let (entityId, name, x, y, z, rotation, pitch, itemId, ()) ←
        bufferRemoveFormat [.i, .U, .i, .i, .i, .b, .b, .s]
      return .namedEntitySpawn entityId name ⟨x, y, z⟩ rotation pitch itemId
  | .pickupSpawn => some do
      let (entityId, id, count, damage, x, y, z, rotation, pitch, roll, ()) ←
        bufferRemoveFormat [.i, .s, .b, .s, .i, .i, .i, .b, .b, .b]
      return .pickupSpawn entityId { heap.item 0 with id, count, damage } ⟨x, y, z⟩
        rotation pitch roll
  | .collectItem => some do
      let (collected, collector, ()) ← bufferRemoveFormat [.i, .i]
      return .collectItem collected collector
  | .spawnObject => some do
      let (entityId, type, x, y, z, flag, ()) ← bufferRemoveFormat [.i, .b, .i, .i, .i, .i]
      if 0 < flag.toInt then
        let (u1, u2, u3, ()) ← bufferRemoveFormat [.s, .s, .s]
        return .spawnObject entityId (overwriteLow heap.enum type) ⟨x, y, z⟩ flag u1 u2 u3
      else
        -- nothing reads the three shorts then
        return .spawnObject entityId (overwriteLow heap.enum type) ⟨x, y, z⟩ flag 0 0 0
  | .spawnMob => some do
      let (id, type, x, y, z, yaw, pitch, metadata, ()) ←
        bufferRemoveFormat [.i, .b, .i, .i, .i, .b, .b, .M]
      return .spawnMob id (overwriteLow heap.enum type) ⟨x, y, z⟩ yaw pitch metadata
  | .painting => some do
      let (entityId, title, x, y, z, direction, ()) ← bufferRemoveFormat [.i, .U, .i, .i, .i, .i]
      return .painting entityId title ⟨x, y.setWidth 8, z⟩ direction
  | .experienceOrb => some do
      let (entityId, x, y, z, count, ()) ← bufferRemoveFormat [.i, .i, .i, .i, .s]
      return .experienceOrb entityId ⟨x, y.setWidth 8, z⟩ count
  | .stanceUpdate => some do
      let (u1, u2, u3, u4, u5, u6, ()) ← bufferRemoveFormat [.f, .f, .f, .f, .B, .B]
      return .stanceUpdate u1 u2 u3 u4 u5 u6
  | .entityVelocity => some do
      let (entityId, x, y, z, ()) ← bufferRemoveFormat [.i, .s, .s, .s]
      return .entityVelocity entityId ⟨x, y, z⟩
  | .entityDestroy => some do
      return .entityDestroy (← bufferRemoveInteger)
  | .entityCreate => some do
      return .entityCreate (← bufferRemoveInteger)
  | .entityRelativeMove => some do
      let (entityId, x, y, z, ()) ← bufferRemoveFormat [.i, .b, .b, .b]
      return .entityRelativeMove entityId ⟨x, y, z⟩
  | .entityLook => some do
      let (entityId, yaw, pitch, ()) ← bufferRemoveFormat [.i, .b, .b]
      return .entityLook entityId yaw pitch
  | .entityLookMove => some do
      let (entityId, x, y, z, yaw, pitch, ()) ← bufferRemoveFormat [.i, .b, .b, .b, .b, .b]
      return .entityLookMove entityId ⟨x, y, z⟩ yaw pitch
  | .entityTeleport => some do
      let (entityId, x, y, z, rotation, pitch, ()) ← bufferRemoveFormat [.i, .i, .i, .i, .b, .b]
      return .entityTeleport entityId ⟨x, y, z⟩ rotation pitch
  | .entityStatus => some do
      let (entityId, status, ()) ← bufferRemoveFormat [.i, .b]
      return .entityStatus entityId (overwriteLow heap.enum status)
  | .entityAttach => some do
      let (entityId, vehicleId, ()) ← bufferRemoveFormat [.i, .i]
      return .entityAttach entityId vehicleId
  | .entityMetadata => some do
      let (entityId, metadata, ()) ← bufferRemoveFormat [.i, .M]
      return .entityMetadata entityId metadata
  | .entityEffect => some do
      let (entityId, effect, amplifier, duration, ()) ← bufferRemoveFormat [.i, .b, .b, .s]
      return .entityEffect entityId (overwriteLow heap.enum effect) amplifier duration
  | .removeEntityEffect => some do
      let (entityId, effect, ()) ← bufferRemoveFormat [.i, .b]
      return .removeEntityEffect entityId (overwriteLow heap.enum effect)
  | .experience => some do
      let (currentExperience, level, totalExperience, ()) ← bufferRemoveFormat [.b, .b, .s]
      return .experience currentExperience level totalExperience
  | .preChunk => some do
      let (x, z, mode, ()) ← bufferRemoveFormat [.i, .i, .b]
      return .preChunk ⟨x, z⟩ mode
  | .mapChunk => some do
      let (x, y, z, sizeX, sizeY, sizeZ, length, ()) ←
        bufferRemoveFormat [.i, .s, .i, .b, .b, .b, .i]
      let item ← bufferRemove length.toInt
      return .mapChunk ⟨x, y.setWidth 8, z⟩ ⟨sizeX + 1, sizeY + 1, sizeZ + 1⟩ length item
  | .multiBlockChange => some do
      let (x, z, length, ()) ← bufferRemoveFormat [.i, .i, .s]
      let coordinate ← bufferRemove (length.toInt * 2)
      let type ← bufferRemove length.toInt
      let metadata ← bufferRemove length.toInt
      return .multiBlockChange ⟨x, z⟩ length coordinate type metadata
  | .blockChange => some do
      let (x, y, z, type, metadata, ()) ← bufferRemoveFormat [.i, .b, .i, .b, .b]
      return .blockChange ⟨x, y, z⟩ type metadata
  | .playNoteBlock => some do
      let (x, y, z, data1, data2, ()) ← bufferRemoveFormat [.i, .s, .i, .b, .b]
      return .playNoteBlock ⟨x, y.setWidth 8, z⟩ data1 data2
  | .explosion => some do
      let (x, y, z, radius, length, ()) ← bufferRemoveFormat [.d, .d, .d, .f, .i]
      let item ← bufferRemove (length.toInt * 3)
      return .explosion ⟨x, y, z⟩ radius length item
  | .soundEffect => some do
      let (effect, x, y, z, data, ()) ← bufferRemoveFormat [.i, .i, .b, .i, .i]
      return .soundEffect effect ⟨x, y, z⟩ data
  | .state => some do
      let (reason, gameMode, ()) ← bufferRemoveFormat [.b, .b]
      return .state reason gameMode
  | .thunderbolt => some do
      let (entityId, u1, x, y, z, ()) ← bufferRemoveFormat [.i, .B, .i, .i, .i]
      return .thunderbolt entityId u1 ⟨x, y, z⟩
  | .openWindow => some do
      let (id, type, title, slots, ()) ← bufferRemoveFormat [.b, .b, .U, .b]
      return .openWindow id (overwriteLow heap.enum type) title slots
  | .closeWindow => some do
      return .closeWindow (← bufferRemoveByte)
  | .setSlot => some do
      -- the short lands on `slot`, a byte, and on the padding behind it
      let (windowId, slot, id, ()) ← bufferRemoveFormat [.b, .s, .s]
      if id ≠ -1 then
        let count ← bufferRemoveByte
        let damage ← bufferRemoveShort
        return .setSlot windowId { id, slot := slot.setWidth 8, damage, count }
      else
        return .setSlot windowId { heap.item 0 with id, slot := slot.setWidth 8 }
  | .windowItems => some do
      let (id, length, ()) ← bufferRemoveFormat [.b, .s]
      if length.toInt < 0 then throw .aborted
      else
        let item ← removeItems heap length.toNat 0
        return .windowItems id length item
  | .updateProgressBar => some do
      let _ ← bufferRemoveFormat [.b, .s, .s]
      -- falls through
      let (id, action, accepted, ()) ← bufferRemoveFormat [.b, .s, .B]
      return .updateProgressBar id action accepted heap.pad
  | .transaction => some do
      let (id, action, accepted, ()) ← bufferRemoveFormat [.b, .s, .B]
      return .transaction id action accepted
  | .creativeInventoryAction => some do
      let (slot, itemId, quantity, damage, ()) ← bufferRemoveFormat [.s, .s, .s, .s]
      return .creativeInventoryAction slot itemId quantity damage
  | .updateSign => some do
      -- the short lands on `y`, a byte, and on the padding behind it
      let (x, y, z, first, second, third, fourth, ()) ←
        bufferRemoveFormat [.i, .s, .i, .U, .U, .U, .U]
      return .updateSign ⟨x, y.setWidth 8, z⟩ first second third fourth
  | .itemData => some do
      let (itemType, itemId, textLength, ()) ← bufferRemoveFormat [.s, .s, .b]
      let text ← bufferRemove textLength.toNat
      return .itemData itemType itemId textLength text
  | .playerListItem => some do
      let (playerName, online, ping, ()) ← bufferRemoveFormat [.U, .B, .s]
      return .playerListItem playerName online ping
  | .disconnect => some do
      return .disconnect (← bufferRemoveString16)
  | _ => none

/-- `SV_PacketFromBuffers(buffers, true)`; no packet stands for NULL. -/
def responseFromBuffers (heap : Heap) : Remove (Option SVResponse) := do
  let type ← bufferRemoveByte
  match (SVPacketType.ofByte type).bind (responseDataFromBuffer heap) with
  | none => return none
  | some data => return some (← data)

/-! ## The encoder -/

/-- `CD_BufferAdd` of `length` bytes from an array; bytes that nothing has written are whatever
the allocation held. -/
def bufferAdd (item : List Byte) (length : Int) : Added :=
  if length < 0 ∨ (item.length : Int) < length then .error .undefined
  else .ok (item.take length.toNat)

/-- The loop over the items of `SVWindowItems`. -/
def bufferAddItems : List SVItemStack → List Byte
  | [] => []
  | item :: rest =>
      (if item.id = -1 then bufferAddShort (-1)
        else bufferAddShort item.id ++ bufferAddByte item.count ++ bufferAddShort item.damage) ++
        bufferAddItems rest

/-- What `SV_PacketToBuffer` appends to the type byte of a response packet. -/
def responseDataToBuffer : SVResponse → Added
  | .keepAlive keepAliveID => .ok (bufferAddInteger keepAliveID)
  | .login id u1 mapSeed serverMode dimension u2 worldHeight maxPlayers =>
      bufferAddFormat [.i, .U, .l, .i, .b, .b, .b, .b]
        (id, u1, mapSeed, serverMode, dimension, u2, worldHeight, maxPlayers, ())
  | .handshake hash => bufferAddString16 hash
  | .chat message => bufferAddString16 message
  | .timeUpdate time => .ok (bufferAddLong time)
  | .entityEquipment entityId slot item damage =>
      bufferAddFormat [.i, .s, .s, .s] (entityId, slot, item, damage, ())
  | .spawnPosition position =>
      bufferAddFormat [.i, .i, .i] (position.x, position.y.signExtend 32, position.z, ())
  | .updateHealth health food foodSaturation =>
      bufferAddFormat [.s, .s, .f] (health, food, foodSaturation, ())
  | .respawn world u1 mode worldHeight mapSeed =>
      bufferAddFormat [.b, .b, .b, .s, .l] (world, u1, mode, worldHeight, mapSeed, ())
  | .playerMoveLook position stance yaw pitch onGround =>
      bufferAddFormat [.d, .d, .d, .d, .f, .f, .B]
        (position.x, position.y, stance, position.z, yaw, pitch, onGround, ())
  | .useBed entityId inBed position =>
      bufferAddFormat [.i, .b, .i, .b, .i]
        (entityId, inBed, position.x, position.y, position.z, ())
  | .animation entityId type => bufferAddFormat [.i, .b] (entityId, type.setWidth 8, ())
  | .namedEntitySpawn entityId name position rotation pitch itemId =>
      bufferAddFormat [.i, .U, .i, .i, .i, .b, .b, .s]
        (entityId, name, position.x, position.y, position.z, rotation, pitch, itemId, ())
  | .pickupSpawn entityId item position rotation pitch roll =>
      bufferAddFormat [.i, .s, .b, .s, .i, .i, .i, .b, .b, .b]
        (entityId, item.id, item.count, item.damage, position.x, position.y, position.z,
          rotation, pitch, roll, ())
  | .collectItem collected collector => bufferAddFormat [.i, .i] (collected, collector, ())
  | .spawnObject entityId type position flag u1 u2 u3 => do
      let object ← bufferAddFormat [.i, .b, .i, .i, .i, .i]
        (entityId, type.setWidth 8, position.x, position.y, position.z, flag, ())
      if 0 < flag.toInt then
        return object ++ (bufferAddShort u1 ++ bufferAddShort u2 ++ bufferAddShort u3)
      else return object
  | .spawnMob id type position yaw pitch metadata =>
      bufferAddFormat [.i, .b, .i, .i, .i, .b, .b, .M]
        (id, type.setWidth 8, position.x, position.y, position.z, yaw, pitch, metadata, ())
  | .painting entityId title position direction =>
      bufferAddFormat [.i, .U, .i, .i, .i, .i]
        (entityId, title, position.x, position.y.signExtend 32, position.z, direction, ())
  | .experienceOrb entityId position count =>
      bufferAddFormat [.i, .i, .i, .i, .s]
        (entityId, position.x, position.y.signExtend 32, position.z, count, ())
  | .stanceUpdate u1 u2 u3 u4 u5 u6 =>
      bufferAddFormat [.f, .f, .f, .f, .B, .B] (u1, u2, u3, u4, u5, u6, ())
  | .entityVelocity entityId velocity =>
      bufferAddFormat [.i, .s, .s, .s] (entityId, velocity.x, velocity.y, velocity.z, ())
  | .entityDestroy entityId => .ok (bufferAddInteger entityId)
  | .entityCreate entityId => .ok (bufferAddInteger entityId)
  | .entityRelativeMove entityId position =>
      bufferAddFormat [.i, .b, .b, .b] (entityId, position.x, position.y, position.z, ())
  | .entityLook entityId yaw pitch => bufferAddFormat [.i, .b, .b] (entityId, yaw, pitch, ())
  | .entityLookMove entityId position yaw pitch =>
      bufferAddFormat [.i, .b, .b, .b, .b, .b]
        (entityId, position.x, position.y, position.z, yaw, pitch, ())
  | .entityTeleport entityId position rotation pitch =>
      bufferAddFormat [.i, .i, .i, .i, .b, .b]
        (entityId, position.x, position.y, position.z, rotation, pitch, ())
  | .entityStatus entityId status => bufferAddFormat [.i, .b] (entityId, status.setWidth 8, ())
  | .entityAttach entityId vehicleId => bufferAddFormat [.i, .i] (entityId, vehicleId, ())
  | .entityMetadata entityId metadata => bufferAddFormat [.i, .M] (entityId, metadata, ())
  | .entityEffect entityId effect amplifier duration =>
      bufferAddFormat [.i, .b, .b, .s] (entityId, effect.setWidth 8, amplifier, duration, ())
  | .removeEntityEffect entityId effect =>
      bufferAddFormat [.i, .b] (entityId, effect.setWidth 8, ())
  | .experience currentExperience level totalExperience =>
      bufferAddFormat [.b, .b, .s] (currentExperience, level, totalExperience, ())
  | .preChunk position mode => bufferAddFormat [.i, .i, .B] (position.x, position.z, mode, ())
  | .mapChunk position size length item => do
      let chunk ← bufferAddFormat [.i, .s, .i, .b, .b, .b]
        (position.x, position.y.signExtend 16, position.z, size.x - 1, size.y - 1, size.z - 1, ())
      return chunk ++ bufferAddInteger length ++ (← bufferAdd item length.toInt)
  | .multiBlockChange position length coordinate type metadata => do
      let change ← bufferAddFormat [.i, .i] (position.x, position.z, ())
      return change ++ bufferAddShort length ++ (← bufferAdd coordinate (length.toInt * 2)) ++
        (← bufferAdd type length.toInt) ++ (← bufferAdd metadata length.toInt)
  | .blockChange position type metadata =>
      bufferAddFormat [.i, .b, .i, .b, .b] (position.x, position.y, position.z, type, metadata, ())
  | .playNoteBlock position data1 data2 =>
      bufferAddFormat [.i, .s, .i, .b, .b]
        (position.x, position.y.signExtend 16, position.z, data1, data2, ())
  | .explosion position radius length item => do
      let explosion ← bufferAddFormat [.d, .d, .d, .f]
        (position.x, position.y, position.z, radius, ())
      -- `length * 3` is an `int`
      if length.toInt * 3 < 2 ^ 31 then
        return explosion ++ bufferAddInteger length ++ (← bufferAdd item (length.toInt * 3))
      else throw .undefined
  | .soundEffect effect position data =>
      bufferAddFormat [.i, .i, .b, .i, .i] (effect, position.x, position.y, position.z, data, ())
  | .state reason gameMode => bufferAddFormat [.b, .b] (reason, gameMode, ())
  -- falls through, and reads the packet as a window's
  | .thunderbolt .. => .error .undefined
  | .openWindow id type title slots =>
      bufferAddFormat [.b, .b, .S, .b] (id, type.setWidth 8, title, slots, ())
  | .closeWindow id => .ok (bufferAddByte id)
  | .setSlot windowId item => do
      let slot ← bufferAddFormat [.b, .s, .s] (windowId, item.slot.signExtend 16, item.id, ())
      if item.id ≠ -1 then
        return slot ++ (← bufferAddFormat [.b, .s] (item.count, item.damage, ()))
      else return slot
  | .windowItems id length item =>
      .ok (bufferAddByte id ++ bufferAddShort length ++ bufferAddItems item)
  -- `value` is the boolean of the transaction and the byte behind it
  | .updateProgressBar id action accepted pad =>
      bufferAddFormat [.b, .s, .s] (id, action, pad ++ accepted, ())
  | .transaction id action accepted => bufferAddFormat [.b, .s, .B] (id, action, accepted, ())
  | .creativeInventoryAction slot itemId quantity damage =>
      bufferAddFormat [.s, .s, .s, .s] (slot, itemId, quantity, damage, ())
  | .updateSign position first second third fourth =>
      bufferAddFormat [.i, .s, .i, .U, .U, .U, .U]
        (position.x, position.y.signExtend 16, position.z, first, second, third, fourth, ())
  -- the format asks for four strings more than there are arguments
  | .itemData .. => .error .undefined
  | .incrementStatistic id amount => bufferAddFormat [.i, .b] (id, amount, ())
  | .playerListItem playerName online ping =>
      bufferAddFormat [.U, .b, .s] (playerName, online, ping, ())
  | .disconnect reason => bufferAddString16 reason

/-- `SV_PacketToBuffer` in the chain `SVResponse`; every packet of `SVResponse` has an arm. -/
def responseToBuffer (packet : SVResponse) : Added :=
  (responseDataToBuffer packet).map fun data => bufferAddByte packet.type.value ++ data

end Craftd.Protocol
