import Craftd.Containers.String

/-!
# The types of the survival protocol

The C types of `minecraft.h` and the packet types of `Packet.h`.  Signed types
are bit vectors, read as two's complement where the source compares or extends
them.  A `float` or a `double` is the pattern of its bits.
-/

namespace Craftd.Protocol

open Craftd.Containers

abbrev SVBoolean := BitVec 8
abbrev SVByte := BitVec 8
abbrev SVShort := BitVec 16
abbrev SVInteger := BitVec 32
abbrev SVLong := BitVec 64
abbrev SVFloat := BitVec 32
abbrev SVDouble := BitVec 64
abbrev SVString := CDString

/-- Why a call does not return. -/
inductive Fault
  /-- an allocation that cannot be met, at which `CD_abort` ends the process -/
  | aborted
  /-- undefined behaviour -/
  | undefined
  /-- a loop that never ends -/
  | hangs
  deriving DecidableEq, Repr

/-- `SVBlockPosition`. -/
structure SVBlockPosition where
  x : SVInteger
  y : SVByte
  z : SVInteger
  deriving DecidableEq, Repr

/-- `SVAbsolutePosition`. -/
structure SVAbsolutePosition where
  x : SVInteger
  y : SVInteger
  z : SVInteger
  deriving DecidableEq, Repr

/-- `SVPrecisePosition`. -/
structure SVPrecisePosition where
  x : SVDouble
  y : SVDouble
  z : SVDouble
  deriving DecidableEq, Repr

/-- `SVRelativePosition`, and `SVSize`, which has the same fields. -/
structure SVRelativePosition where
  x : SVByte
  y : SVByte
  z : SVByte
  deriving DecidableEq, Repr

/-- `SVChunkPosition`. -/
structure SVChunkPosition where
  x : SVInteger
  z : SVInteger
  deriving DecidableEq, Repr

/-- `SVVelocity`. -/
structure SVVelocity where
  x : SVShort
  y : SVShort
  z : SVShort
  deriving DecidableEq, Repr

/-- `SVItemStack`. -/
structure SVItemStack where
  id : SVShort
  slot : SVByte
  damage : SVShort
  count : SVByte
  deriving DecidableEq, Repr

/-- `SVData`: the union, with the member that the type selects. -/
inductive SVData
  | b (value : SVByte)
  | s (value : SVShort)
  | i (value : SVInteger)
  | f (value : SVFloat)
  | S (value : SVString)
  | sbs (first : SVShort) (second : SVByte) (third : SVShort)
  | iii (first second third : SVInteger)
  deriving DecidableEq

/-- The `type` field of an `SVData`. -/
def SVData.type : SVData → SVByte
  | .b _ => 0
  | .s _ => 1
  | .i _ => 2
  | .f _ => 3
  | .S _ => 4
  | .sbs _ _ _ => 5
  | .iii _ _ _ => 6

/-- `SVMetadata`. -/
abbrev SVMetadata := List SVData

/-- What memory fresh from `CD_malloc` holds, wherever some of it is read unwritten:
an `enum` field whose low byte alone is set, the items of an array, the byte behind
the last field of a transaction, and the strings that stray pointers lead to. -/
structure Heap where
  enum : BitVec 32
  item : Nat → SVItemStack
  pad : Byte
  string : Nat → Option SVString

/-- An `enum` field after a byte was stored through a pointer to it. -/
def overwriteLow (field : BitVec 32) (data : SVByte) : BitVec 32 :=
  field.extractLsb' 8 24 ++ data

@[simp] theorem setWidth_overwriteLow (field : BitVec 32) (data : SVByte) :
    (overwriteLow field data).setWidth 8 = data :=
  BitVec.setWidth_append_eq_right

/-- `SVPacketType`. -/
inductive SVPacketType
  | keepAlive
  | login
  | handshake
  | chat
  | timeUpdate
  | entityEquipment
  | spawnPosition
  | useEntity
  | updateHealth
  | respawn
  | onGround
  | playerPosition
  | playerLook
  | playerMoveLook
  | playerDigging
  | playerBlockPlacement
  | holdChange
  | useBed
  | animation
  | entityAction
  | namedEntitySpawn
  | pickupSpawn
  | collectItem
  | spawnObject
  | spawnMob
  | painting
  | experienceOrb
  | stanceUpdate
  | entityVelocity
  | entityDestroy
  | entityCreate
  | entityRelativeMove
  | entityLook
  | entityLookMove
  | entityTeleport
  | entityStatus
  | entityAttach
  | entityMetadata
  | entityEffect
  | removeEntityEffect
  | experience
  | preChunk
  | mapChunk
  | multiBlockChange
  | blockChange
  | playNoteBlock
  | explosion
  | soundEffect
  | state
  | thunderbolt
  | openWindow
  | closeWindow
  | windowClick
  | setSlot
  | windowItems
  | updateProgressBar
  | transaction
  | creativeInventoryAction
  | updateSign
  | itemData
  | incrementStatistic
  | playerListItem
  | listPing
  | disconnect
  deriving DecidableEq, Repr

/-- The value of a packet type. -/
def SVPacketType.value : SVPacketType → Byte
  | .keepAlive => 0x00
  | .login => 0x01
  | .handshake => 0x02
  | .chat => 0x03
  | .timeUpdate => 0x04
  | .entityEquipment => 0x05
  | .spawnPosition => 0x06
  | .useEntity => 0x07
  | .updateHealth => 0x08
  | .respawn => 0x09
  | .onGround => 0x0A
  | .playerPosition => 0x0B
  | .playerLook => 0x0C
  | .playerMoveLook => 0x0D
  | .playerDigging => 0x0E
  | .playerBlockPlacement => 0x0F
  | .holdChange => 0x10
  | .useBed => 0x11
  | .animation => 0x12
  | .entityAction => 0x13
  | .namedEntitySpawn => 0x14
  | .pickupSpawn => 0x15
  | .collectItem => 0x16
  | .spawnObject => 0x17
  | .spawnMob => 0x18
  | .painting => 0x19
  | .experienceOrb => 0x1A
  | .stanceUpdate => 0x1B
  | .entityVelocity => 0x1C
  | .entityDestroy => 0x1D
  | .entityCreate => 0x1E
  | .entityRelativeMove => 0x1F
  | .entityLook => 0x20
  | .entityLookMove => 0x21
  | .entityTeleport => 0x22
  | .entityStatus => 0x26
  | .entityAttach => 0x27
  | .entityMetadata => 0x28
  | .entityEffect => 0x29
  | .removeEntityEffect => 0x2A
  | .experience => 0x2B
  | .preChunk => 0x32
  | .mapChunk => 0x33
  | .multiBlockChange => 0x34
  | .blockChange => 0x35
  | .playNoteBlock => 0x36
  | .explosion => 0x3C
  | .soundEffect => 0x3D
  | .state => 0x46
  | .thunderbolt => 0x47
  | .openWindow => 0x64
  | .closeWindow => 0x65
  | .windowClick => 0x66
  | .setSlot => 0x67
  | .windowItems => 0x68
  | .updateProgressBar => 0x69
  | .transaction => 0x6A
  | .creativeInventoryAction => 0x6B
  | .updateSign => 0x82
  | .itemData => 0x83
  | .incrementStatistic => 0xC8
  | .playerListItem => 0xC9
  | .listPing => 0xFE
  | .disconnect => 0xFF

/-- The packet type a byte stands for; the other bytes reach the `default` of every
`switch`. -/
def SVPacketType.ofByte (byte : Byte) : Option SVPacketType :=
  match byte.toNat with
  | 0x00 => some .keepAlive
  | 0x01 => some .login
  | 0x02 => some .handshake
  | 0x03 => some .chat
  | 0x04 => some .timeUpdate
  | 0x05 => some .entityEquipment
  | 0x06 => some .spawnPosition
  | 0x07 => some .useEntity
  | 0x08 => some .updateHealth
  | 0x09 => some .respawn
  | 0x0A => some .onGround
  | 0x0B => some .playerPosition
  | 0x0C => some .playerLook
  | 0x0D => some .playerMoveLook
  | 0x0E => some .playerDigging
  | 0x0F => some .playerBlockPlacement
  | 0x10 => some .holdChange
  | 0x11 => some .useBed
  | 0x12 => some .animation
  | 0x13 => some .entityAction
  | 0x14 => some .namedEntitySpawn
  | 0x15 => some .pickupSpawn
  | 0x16 => some .collectItem
  | 0x17 => some .spawnObject
  | 0x18 => some .spawnMob
  | 0x19 => some .painting
  | 0x1A => some .experienceOrb
  | 0x1B => some .stanceUpdate
  | 0x1C => some .entityVelocity
  | 0x1D => some .entityDestroy
  | 0x1E => some .entityCreate
  | 0x1F => some .entityRelativeMove
  | 0x20 => some .entityLook
  | 0x21 => some .entityLookMove
  | 0x22 => some .entityTeleport
  | 0x26 => some .entityStatus
  | 0x27 => some .entityAttach
  | 0x28 => some .entityMetadata
  | 0x29 => some .entityEffect
  | 0x2A => some .removeEntityEffect
  | 0x2B => some .experience
  | 0x32 => some .preChunk
  | 0x33 => some .mapChunk
  | 0x34 => some .multiBlockChange
  | 0x35 => some .blockChange
  | 0x36 => some .playNoteBlock
  | 0x3C => some .explosion
  | 0x3D => some .soundEffect
  | 0x46 => some .state
  | 0x47 => some .thunderbolt
  | 0x64 => some .openWindow
  | 0x65 => some .closeWindow
  | 0x66 => some .windowClick
  | 0x67 => some .setSlot
  | 0x68 => some .windowItems
  | 0x69 => some .updateProgressBar
  | 0x6A => some .transaction
  | 0x6B => some .creativeInventoryAction
  | 0x82 => some .updateSign
  | 0x83 => some .itemData
  | 0xC8 => some .incrementStatistic
  | 0xC9 => some .playerListItem
  | 0xFE => some .listPing
  | 0xFF => some .disconnect
  | _ => none

@[simp] theorem SVPacketType.ofByte_value (type : SVPacketType) :
    ofByte type.value = some type := by
  cases type <;> rfl

theorem SVPacketType.value_of_ofByte {byte : Byte} {type : SVPacketType}
    (h : ofByte byte = some type) : byte = type.value := by
  unfold ofByte at h
  split at h <;> cases h <;> apply BitVec.eq_of_toNat_eq <;> assumption

end Craftd.Protocol
