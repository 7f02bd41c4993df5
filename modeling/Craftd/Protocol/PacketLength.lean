import Craftd.Library.ByteReader
import Craftd.Protocol.Types

/-!
# Is a packet complete?

A translation of `SVPacketLength` and `SV_PacketParsable`.  The function looks at
the content of the input buffer only; `Framing` is its answer with the watermark it
leaves behind, or the fact that it read a byte that is not in the buffer.

`variable` is a `size_t`, and called `extra` here.  It can only wrap in the two
metadata loops, where a signed length is added to it; `sizeT` is written there and
left out elsewhere.  These loops take a bound on their rounds, and have no answer when
it is too small.
-/

namespace Craftd.Protocol

open Craftd.Containers ByteReader

/-- The content of an input buffer, which `evbuffer_pullup` makes one object in memory. -/
structure InputBuffer where
  data : List Byte
  hlength : data.length < 2 ^ 63

/-- What `SV_PacketParsable` answers. -/
inductive Framing
  /-- `true` -/
  | parsable
  /-- `false` with `EAGAIN`, after a low watermark was set -/
  | again (low : Nat)
  /-- `false` with `EILSEQ` -/
  | badSequence
  /-- a byte outside the buffer was read -/
  | outside
  deriving DecidableEq, Repr

/-- `SVPacketLength`; the other entries are 0. -/
def packetLength : SVPacketType → Nat
  | .keepAlive => 5
  | .login => 22
  | .handshake => 3
  | .chat => 3
  | .timeUpdate => 9
  | .entityEquipment => 11
  | .spawnPosition => 13
  | .useEntity => 10
  | .updateHealth => 9
  | .respawn => 14
  | .onGround => 2
  | .playerPosition => 34
  | .playerLook => 10
  | .playerMoveLook => 42
  | .playerDigging => 12
  | .playerBlockPlacement => 13
  | .holdChange => 3
  | .useBed => 15
  | .animation => 6
  | .entityAction => 6
  | .namedEntitySpawn => 23
  | .pickupSpawn => 25
  | .collectItem => 9
  | .spawnObject => 22
  | .spawnMob => 21
  | .painting => 23
  | .experienceOrb => 19
  | .stanceUpdate => 19
  | .entityVelocity => 11
  | .entityDestroy => 5
  | .entityCreate => 5
  | .entityRelativeMove => 8
  | .entityLook => 7
  | .entityLookMove => 10
  | .entityTeleport => 19
  | .entityStatus => 6
  | .entityAttach => 9
  | .entityMetadata => 6
  | .entityEffect => 9
  | .removeEntityEffect => 6
  | .experience => 5
  | .preChunk => 10
  | .mapChunk => 18
  | .multiBlockChange => 11
  | .blockChange => 12
  | .playNoteBlock => 13
  | .explosion => 33
  | .soundEffect => 18
  | .state => 3
  | .thunderbolt => 18
  | .openWindow => 6
  | .closeWindow => 2
  | .windowClick => 10
  | .setSlot => 6
  | .windowItems => 4
  | .updateProgressBar => 6
  | .transaction => 5
  | .creativeInventoryAction => 9
  | .updateSign => 19
  | .itemData => 6
  | .incrementStatistic => 6
  | .playerListItem => 6
  | .listPing => 1
  | .disconnect => 3

/-- The value of an expression of type `size_t`. -/
def sizeT (value : Int) : Nat := (value % 2 ^ 64).toNat

/-- `CHECK` and what follows it, at the end of an arm. -/
def check (data : List Byte) (type : SVPacketType) (extra : Nat) : Framing :=
  if data.length < packetLength type + extra then .again (packetLength type + extra)
  else .parsable

/-- The number in the `n` bytes at `data + index`. -/
def peek (data : List Byte) (index n : Nat) (next : Nat → Framing) : Framing :=
  if index + n ≤ data.length then next (number n (data.drop index)) else .outside

/-- The loop over the items of `SVWindowItems`, `items` of them being left. -/
def windowItemsLoop (data : List Byte) : Nat → Nat → Framing
  | 0, extra => check data .windowItems extra
  | items + 1, extra =>
      if data.length < packetLength .windowItems + (extra + 2) then
        .again (packetLength .windowItems + (extra + 2))
      else
        peek data (4 + extra) 2 fun id =>
          windowItemsLoop data items (if id ≠ 0xFFFF then extra + 2 + 3 else extra + 2)

/-- The texts of `SVUpdateSign`, with `CHECK` between them; `texts` follow this one. -/
def updateSignTexts (data : List Byte) : Nat → Nat → Nat → Framing
  | 0, offset, extra =>
      peek data (offset + extra) 2 fun length => check data .updateSign (extra + length * 2)
  | texts + 1, offset, extra =>
      peek data (offset + extra) 2 fun length =>
        if data.length < packetLength .updateSign + (extra + length * 2) then
          .again (packetLength .updateSign + (extra + length * 2))
        else updateSignTexts data texts (offset + 2) (extra + length * 2)

/-- `*((SVShort*) (data + index))`, in the byte order of the host. -/
def hostShort (data : List Byte) (index : Nat) : Int :=
  (data.getD (index + 1) 0 ++ data.getD index 0 : BitVec 16).toInt

/-- The metadata loop of `SVSpawnMob` and `SVEntityMetadata`. -/
def metadataLoop (data : List Byte) (type : SVPacketType) (offset : Nat) :
    Nat → Nat → Option Framing
  | 0, _ => none
  | rounds + 1, extra =>
      let low := sizeT (packetLength type + extra)
      if data.length < low then some (.again low)
      else
        match data[sizeT (offset + extra)]? with
        | none => some .outside
        | some metatype =>
            if metatype = 127 then some .parsable
            else
              match (metatype >>> 5).toNat with
              | 0 => metadataLoop data type offset rounds (sizeT (extra + 1 + 1))
              | 1 => metadataLoop data type offset rounds (sizeT (extra + 2 + 1))
              | 2 => metadataLoop data type offset rounds (sizeT (extra + 4 + 1))
              | 3 => metadataLoop data type offset rounds (sizeT (extra + 4 + 1))
              | 4 =>
                  let low := sizeT (packetLength type + extra + 2)
                  let index := sizeT (offset + extra + 1)
                  if data.length < low then some (.again low)
                  else if index + 2 ≤ data.length then
                    metadataLoop data type offset rounds
                      (sizeT (extra + 2 + hostShort data index + 1))
                  else some .outside
              | 5 => metadataLoop data type offset rounds (sizeT (extra + 4 + 1))
              | 6 => metadataLoop data type offset rounds (sizeT (extra + 12 + 1))
              | _ => some .badSequence

/-- The `switch` of `SV_PacketParsable`, for a buffer as long as the table asks for. -/
def packetComplete (rounds : Nat) (data : List Byte) (type : SVPacketType) : Option Framing :=
  match type with
  | .login => some <| peek data (1 + 4) 2 fun length => check data type (length * 2)
  | .handshake => some <| peek data 1 2 fun length => check data type (length * 2)
  | .chat => some <| peek data 1 2 fun length => check data type (length * 2)
  | .playerBlockPlacement => some <| peek data (1 + 4 + 1 + 4 + 1) 2 fun id =>
      check data type (if id ≠ 0xFFFF then 3 else 0)
  | .namedEntitySpawn => some <| peek data (1 + 4) 2 fun length => check data type (length * 2)
  | .spawnObject => some <| peek data (1 + 4 + 1 + 4 * 3) 4 fun flag =>
      check data type (if 0 < (BitVec.ofNat 32 flag).toInt then 2 * 3 else 0)
  | .spawnMob => metadataLoop data type (1 + 4 + 1 + 4 * 3 + 1 + 1) rounds 0
  | .entityMetadata => metadataLoop data type (1 + 4) rounds 0
  | .mapChunk => some <| peek data (1 + 4 + 2 + 4 + 1 * 3) 4 fun length => check data type length
  | .multiBlockChange => some <| peek data (1 + 4 + 4) 2 fun length =>
      check data type (length * (2 + 1 + 2))
  | .explosion => some <| peek data (1 + 8 * 3 + 4) 4 fun length =>
      check data type (length * 3 % 2 ^ 32)
  | .openWindow => some <| peek data (1 + 1 + 1) 2 fun length => check data type (length * 2)
  | .windowClick => some <| peek data (1 + 1 + 2 + 1 + 2 + 1) 2 fun id =>
      check data type (if id ≠ 0xFFFF then 3 else 0)
  | .setSlot => some <| peek data (1 + 1 + 2) 2 fun id =>
      check data type (if id ≠ 0xFFFF then 1 + 2 else 0)
  | .windowItems => some <| peek data (1 + 1) 2 fun count =>
      windowItemsLoop data (BitVec.ofNat 16 count).toInt.toNat 0
  | .updateSign => some (updateSignTexts data 3 (1 + 4 + 2 + 4) 0)
  | .itemData => some <| peek data (1 + 2 + 2) 1 fun length => check data type length
  | .playerListItem => some <| peek data 1 2 fun length => check data type (length * 2)
  | .disconnect => some <| peek data 1 2 fun length => check data type (length * 2)
  | _ => some .parsable

/-- `SV_PacketParsable`.  An empty buffer leaves `type` at 0, and a byte that is no packet
type has length 0 in the table and takes the `default` arm. -/
def packetParsable (rounds : Nat) (data : List Byte) : Option Framing :=
  match data with
  | [] => some (.again (packetLength .keepAlive))
  | first :: _ =>
      match SVPacketType.ofByte first with
      | none => some .parsable
      | some type =>
          if data.length < packetLength type then some (.again (packetLength type))
          else packetComplete rounds data type

theorem packetParsable_of_none {first : Byte} (h : SVPacketType.ofByte first = none)
    (rounds : Nat) (rest : List Byte) :
    packetParsable rounds (first :: rest) = some .parsable := by
  simp only [packetParsable, h]

theorem packetParsable_of_short {first : Byte} {type : SVPacketType} {rest : List Byte}
    (h : SVPacketType.ofByte first = some type)
    (hlength : (first :: rest).length < packetLength type) (rounds : Nat) :
    packetParsable rounds (first :: rest) = some (.again (packetLength type)) := by
  simp only [packetParsable, h, if_pos hlength]

theorem packetParsable_of_type {first : Byte} {type : SVPacketType} {rest : List Byte}
    (h : SVPacketType.ofByte first = some type)
    (hlength : ¬ (first :: rest).length < packetLength type) (rounds : Nat) :
    packetParsable rounds (first :: rest) = packetComplete rounds (first :: rest) type := by
  simp only [packetParsable, h, if_neg hlength]

/-- `SV_PacketParsable` answers `answer`, after however many rounds. -/
def Answers (data : List Byte) (answer : Framing) : Prop :=
  ∃ rounds, packetParsable rounds data = some answer

end Craftd.Protocol
