import Craftd.Survival.Chunk
import Craftd.Survival.Inventory
import Craftd.Survival.Positions
import Craftd.Survival.Session

/-!
# Digging

A translation of the `SVPlayerDigging` arm of `cdsurvival_ClientProcess` for a logged-in
player.  One index, that of the block in the chunk, is used on `blocks` and on `data`, and
`data` has half as many entries.

The index is 128 for each column before the block's own, and the height.  So it stays inside
both arrays for the first 128 columns of a chunk, less the negative heights of the very first
one, and beyond them only for the negative heights of the next column
(`digging_inside_iff`).
-/

namespace Craftd.Survival

open BoundedArray
open Protocol (SVResponse)

/-- What the arm does. -/
inductive DigOutcome
  /-- the block type and data that were read, and the packet that is broadcast -/
  | dug (type data : Byte) (change : SVResponse)
  | kicked
  | dropped
  | ignored

/-- Why the arm does not come to an end. -/
inductive DigFault
  /-- `SV_WorldGetChunk` returned NULL -/
  | missingChunk
  /-- an index outside an array -/
  | outside
  deriving DecidableEq

/-- `SVStartedDigging`. -/
def startedDiggingStatus : BitVec 32 := 0
/-- `SVStoppedDigging`. -/
def stoppedDiggingStatus : BitVec 32 := 2

/-- The test of the arm on the status and the mode of the world. -/
def Digs (mode : SVWorldMode) (status : BitVec 32) : Prop :=
  status = stoppedDiggingStatus ∧ mode = .survival ∨
    status = startedDiggingStatus ∧ mode = .creative

instance (mode : SVWorldMode) (status : BitVec 32) : Decidable (Digs mode status) :=
  inferInstanceAs (Decidable (_ ∨ _))

/-- The position of a block, by its values. -/
def SVBlockPosition.ofPacket (position : Protocol.SVBlockPosition) : SVBlockPosition :=
  ⟨position.x.toInt, position.y.toInt, position.z.toInt⟩

/-- The column of a block in its chunk. -/
def digColumnIndex (position : Protocol.SVBlockPosition) : ℕ :=
  (position.z &&& 0xF).toNat + 16 * (position.x &&& 0xF).toNat

/-- `iPos`. -/
def digIndex (position : Protocol.SVBlockPosition) : ℤ :=
  position.y.toInt + 128 * digColumnIndex position

/-- The arm for a player at a position, in a world with a mode and chunks. -/
def playerDigging (machine : SVDouble → SVInteger) (round : ℚ → SVDouble) (mode : SVWorldMode)
    (getChunk : SVChunkPosition → Option SVChunk) (stored : SVPrecisePosition)
    (status : BitVec 32) (position : Protocol.SVBlockPosition) : Except DigFault DigOutcome :=
  if Digs mode status then
    let a := blockPositionToPrecisePosition (.ofPacket position)
    if !isDistanceGreater machine round stored a 6 then
      match getChunk (blockPositionToChunkPosition (.ofPacket position)) with
      | none => .error .missingChunk
      | some chunk =>
          match readAt chunk.blocks (digIndex position), readAt chunk.data (digIndex position) with
          | some type, some data => .ok (.dug type data (.blockChange position air air))
          | _, _ => .error .outside
    else .ok .kicked
  else if status = dropItemStatus then .ok .dropped
  else .ok .ignored

/-! ## Inside the arrays -/

/-- The columns and heights for which the index lies in both arrays. -/
def Diggable (position : Protocol.SVBlockPosition) : Prop :=
  (digColumnIndex position = 0 → 0 ≤ position.y.toInt) ∧
    (digColumnIndex position < 128 ∨ digColumnIndex position = 128 ∧ position.y.toInt < 0)

private theorem digIndex_inside_iff (position : Protocol.SVBlockPosition) :
    (Inside 32768 (digIndex position) ∧ Inside 16384 (digIndex position)) ↔
      Diggable position := by
  have hlow := position.y.le_toInt
  have hhigh := position.y.toInt_lt
  have hx : (position.x &&& 0xF).toNat ≤ 15 := by
    rw [BitVec.toNat_and]
    exact Nat.and_le_right
  have hz : (position.z &&& 0xF).toNat ≤ 15 := by
    rw [BitVec.toNat_and]
    exact Nat.and_le_right
  have hcolumn : digColumnIndex position ≤ 255 := by
    unfold digColumnIndex
    omega
  unfold Inside digIndex Diggable
  omega

variable {machine : SVDouble → SVInteger} {round : ℚ → SVDouble} {mode : SVWorldMode}
  {getChunk : SVChunkPosition → Option SVChunk} {stored : SVPrecisePosition} {status : BitVec 32}
  {position : Protocol.SVBlockPosition}

private theorem playerDigging_of_passes {chunk : SVChunk} (hdigs : Digs mode status)
    (hnear : isDistanceGreater machine round stored
      (blockPositionToPrecisePosition (.ofPacket position)) 6 = false)
    (hchunk : getChunk (blockPositionToChunkPosition (.ofPacket position)) = some chunk) :
    playerDigging machine round mode getChunk stored status position =
      match readAt chunk.blocks (digIndex position), readAt chunk.data (digIndex position) with
      | some type, some data => .ok (.dug type data (.blockChange position air air))
      | _, _ => .error .outside := by
  unfold playerDigging
  simp only [if_pos hdigs, hnear, Bool.not_false, if_true, hchunk]

/-- A chunk of air. -/
def emptyChunk : SVChunk := ⟨fun _ => 0, fun _ => 0, fun _ => 0, fun _ => 0, fun _ => 0⟩

end Craftd.Survival
