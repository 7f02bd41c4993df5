import Craftd.Protocol.ResponseRoundTrip
import Craftd.Survival.Chunk
import Craftd.Survival.LoginSpiral

/-!
# The packets that carry chunks

A translation of what sends the chunks themselves: `cdsurvival_SendPreChunk` announces or drops a
chunk, and `cdsurvival_SendChunk` asks the handlers of `World.chunk` for it, compresses its arrays
and sends them.  `cdsurvival_PlayerLogin` and the callbacks of `cdsurvival_SendChunkRadius` call the
two; which positions they call them for is the subject of other modules.

What the handlers of `World.chunk` answer while one packet is processed is a parameter for each
packet, and so are the two functions of zlib.  A login and a move ask for no chunk twice.
-/

namespace Craftd.Survival

open BoundedArray CountingLoop

/-- What the handlers of `World.chunk` answer: nothing where one of them fails. -/
abbrev ChunkAnswers := SVChunkPosition → Option SVChunk

/-! ## The code -/

/-- `SV_ChunkToByteArray`. -/
def chunkToByteArray (chunk : SVChunk) : List Byte :=
  contents chunk.blocks ++ (contents chunk.data ++
    (contents chunk.blockLight ++ contents chunk.skyLight))

/-- The fields of an `SVChunkPosition`. -/
def SVChunkPosition.toWire (position : SVChunkPosition) : Protocol.SVChunkPosition where
  x := BitVec.ofInt 32 position.x
  z := BitVec.ofInt 32 position.z

/-- `SV_ChunkPositionToBlockPosition`. -/
def chunkPositionToBlockPosition (position : Protocol.SVChunkPosition) :
    Protocol.SVBlockPosition where
  x := position.x <<< 4
  y := 0
  z := position.z <<< 4

/-- `cdsurvival_SendPreChunk`. -/
def sendPreChunk (coord : SVChunkPosition) : List Protocol.SVResponse :=
  [.preChunk coord.toWire 1]

variable (compress : List Byte → Option (List Byte)) (answers : ChunkAnswers)

/-- `cdsurvival_SendChunk`; it returns `false` where it sends nothing. -/
def sendChunk (coord : SVChunkPosition) : List Protocol.SVResponse :=
  match answers coord with
  | none => []
  | some chunk =>
      match compress (chunkToByteArray chunk) with
      | none => []
      | some buffer =>
          [.mapChunk (chunkPositionToBlockPosition coord.toWire) ⟨16, 128, 16⟩
            (BitVec.ofNat 32 buffer.length) buffer]

/-- `cdsurvival_ChunkRadiusUnload`, and `cdsurvival_ChunkRadiusLoad`, which does not look at what
`cdsurvival_SendChunk` returns. -/
def chunkRadiusCallback (packet : SVPacketPreChunk) : List Protocol.SVResponse :=
  if packet.mode then sendPreChunk packet.position ++ sendChunk compress answers packet.position
  else [.preChunk packet.position.toWire 0]

/-- What a call of `cdsurvival_PlayerLogin` sends. -/
def loginCall : LoginSend → List Protocol.SVResponse
  | .preChunk coords => sendPreChunk coords
  | .chunk coords => sendChunk compress answers coords

/-- Whether a call of `cdsurvival_PlayerLogin` returns `true`. -/
def loginCallSends : LoginSend → Bool
  | .preChunk _ => true
  | .chunk coords => !(sendChunk compress answers coords).isEmpty

/-- The calls of a login, up to the one that failed when one did. -/
def LoginSends.calls : LoginSends → List LoginSend
  | .ok calls => calls
  | .error calls => calls

/-- `cdsurvival_PlayerLogin`, without the position packet between its two parts. -/
def playerLoginPackets (spawnPosition : SVBlockPosition) : List Protocol.SVResponse :=
  (LoginSends.calls (loginSends (loginCallSends compress answers) spawnPosition maxRadius
    true)).flatMap (loginCall compress answers)

variable (machine : ℤ → ℤ) (doubles : SVDouble → SVInteger)

/-- Any sequence of position packets, each with what `World.chunk` answers meanwhile. -/
def moveAllPackets : List (PositionPacket × ChunkAnswers) → ChunkPlayer →
    Option (ChunkPlayer × List Protocol.SVResponse)
  | [], self => some (self, [])
  | (packet, answers) :: rest, self => do
      let (self, packets) ← moveChunks machine doubles self packet
      let (self, later) ← moveAllPackets rest self
      some (self, packets.flatMap (chunkRadiusCallback compress answers) ++ later)

/-- A login and any sequence of position packets. -/
def chunkPackets (spawnPosition : SVBlockPosition) (moves : List (PositionPacket × ChunkAnswers)) :
    Option (ChunkPlayer × List Protocol.SVResponse) := do
  let (self, _) ← loginChunks createChunkPlayer spawnPosition
  let (self, sent) ← moveAllPackets compress machine doubles moves self
  some (self, playerLoginPackets compress answers spawnPosition ++ sent)

/-! ## A client -/

/-- The arrays of a chunk that are sent. -/
@[ext] structure ChunkArrays where
  blocks : Cells Byte 32768
  data : Cells Byte 16384
  blockLight : Cells Byte 16384
  skyLight : Cells Byte 16384

/-- The arrays of a chunk of the world. -/
def SVChunk.arrays (self : SVChunk) : ChunkArrays where
  blocks := self.blocks
  data := self.data
  blockLight := self.blockLight
  skyLight := self.skyLight

/-- The arrays in the bytes of a chunk. -/
def byteArrayToChunk (bytes : List Byte) : Option ChunkArrays :=
  if h : bytes.length = 81920 then
    some {
      blocks := fun i => bytes.get ⟨i, by omega⟩
      data := fun i => bytes.get ⟨32768 + i, by omega⟩
      blockLight := fun i => bytes.get ⟨49152 + i, by omega⟩
      skyLight := fun i => bytes.get ⟨65536 + i, by omega⟩ }
  else none

/-- The chunks of a client: those announced, and of these the ones that have arrived. -/
abbrev Screen := SVChunkPosition → Option (Option ChunkArrays)

variable (uncompress : List Byte → Option (List Byte))

/-- A client announces and drops chunks as it is told, and fills those that it was told of. -/
def receiveChunk (screen : Screen) : Protocol.SVResponse → Screen
  | .preChunk position mode =>
      Function.update screen ⟨position.x.toInt, position.z.toInt⟩
        (if mode = 0 then none else some none)
  | .mapChunk position size _ item =>
      let chunk : SVChunkPosition := ⟨position.x.toInt >>> 4, position.z.toInt >>> 4⟩
      match screen chunk, (uncompress item).bind byteArrayToChunk with
      | some _, some arrays =>
          if size = ⟨16, 128, 16⟩ then Function.update screen chunk (some (some arrays)) else screen
      | _, _ => screen
  | _ => screen

/-- What is promised about zlib: `compress` needs no more room than `compressBound` says, and
`uncompress` gives back what was compressed. -/
structure Zlib (compress uncompress : List Byte → Option (List Byte)) : Prop where
  bound : ∀ data buffer, compress data = some buffer →
    buffer.length ≤ data.length + data.length / 2 ^ 12 + data.length / 2 ^ 14 +
      data.length / 2 ^ 25 + 13
  inverse : ∀ data buffer, compress data = some buffer → uncompress buffer = some data

/-! ## The bytes of a chunk -/

variable {compress uncompress : List Byte → Option (List Byte)} {answers : ChunkAnswers}

theorem length_chunkToByteArray (chunk : SVChunk) : (chunkToByteArray chunk).length = 81920 := by
  simp [chunkToByteArray]

theorem get_between {size index : ℕ} {bytes before behind : List Byte} {cells : Cells Byte size}
    (hbytes : bytes = before ++ (contents cells ++ behind)) (i : Fin size)
    (hindex : index = before.length + i) (hinside : index < bytes.length) :
    bytes.get ⟨index, hinside⟩ = cells i := by
  subst hbytes hindex
  have hi : i.val < (contents cells).length := by
    rw [length_contents]
    exact i.isLt
  have hinner : i.val < (contents cells ++ behind).length := by
    rw [List.length_append]
    omega
  calc (before ++ (contents cells ++ behind))[before.length + i.val]
      = (contents cells ++ behind)[i.val] := by
        simp [List.getElem_append_right]
    _ = (contents cells)[i.val] := List.getElem_append_left hi
    _ = cells i := List.getElem_ofFn hi

private theorem byteArrayToChunk_arrays {bytes : List Byte} (arrays : ChunkArrays)
    (hbytes : bytes = contents arrays.blocks ++ (contents arrays.data ++
      (contents arrays.blockLight ++ contents arrays.skyLight))) :
    byteArrayToChunk bytes = some arrays := by
  have hlength : bytes.length = 81920 := by simp [hbytes]
  have hblocks : bytes = [] ++ (contents arrays.blocks ++ (contents arrays.data ++
      (contents arrays.blockLight ++ contents arrays.skyLight))) := by
    rw [List.nil_append]
    exact hbytes
  have hblockLight : bytes = (contents arrays.blocks ++ contents arrays.data) ++
      (contents arrays.blockLight ++ contents arrays.skyLight) := by
    rw [List.append_assoc]
    exact hbytes
  have hskyLight : bytes = (contents arrays.blocks ++ contents arrays.data ++
      contents arrays.blockLight) ++ (contents arrays.skyLight ++ []) := by
    rw [List.append_nil, List.append_assoc (contents arrays.blocks ++ contents arrays.data)]
    exact hblockLight
  rw [byteArrayToChunk, dif_pos hlength, Option.some.injEq]
  refine ChunkArrays.ext (funext fun i => ?_) (funext fun i => ?_) (funext fun i => ?_)
    (funext fun i => ?_)
  · exact get_between hblocks i (by simp) _
  · exact get_between hbytes i (by simp) _
  · exact get_between hblockLight i (by simp) _
  · exact get_between hskyLight i (by simp) _

private theorem byteArrayToChunk_chunkToByteArray (chunk : SVChunk) :
    byteArrayToChunk (chunkToByteArray chunk) = some chunk.arrays :=
  byteArrayToChunk_arrays chunk.arrays rfl

/-! ## One packet -/

/-- The block positions of a chunk are integers. -/
def Shiftable (position : SVChunkPosition) : Prop :=
  (-2 ^ 27 ≤ position.x ∧ position.x < 2 ^ 27) ∧ -2 ^ 27 ≤ position.z ∧ position.z < 2 ^ 27

theorem toInt_ofInt_shiftable {value : ℤ} (hlow : -2 ^ 27 ≤ value) (hhigh : value < 2 ^ 27) :
    (BitVec.ofInt 32 value).toInt = value := by
  rw [BitVec.toInt_ofInt]
  exact Int.bmod_eq_of_le (by omega) (by omega)

/-- Four bits are free in front of a coordinate. -/
theorem toInt_shiftLeft_shiftable {value : ℤ} (hlow : -2 ^ 27 ≤ value) (hhigh : value < 2 ^ 27) :
    (BitVec.ofInt 32 value <<< 4).toInt >>> 4 = value := by
  have hshift : BitVec.ofInt 32 value <<< 4 = BitVec.ofInt 32 (value * 16) := by
    rw [BitVec.shiftLeft_eq_mul_twoPow, BitVec.ofInt_mul]
    rfl
  have hvalue : (BitVec.ofInt 32 (value * 16)).toInt = value * 16 := by
    rw [BitVec.toInt_ofInt]
    exact Int.bmod_eq_of_le (by omega) (by omega)
  have hback : (value * 16) >>> 4 = value * 16 / 16 :=
    (Int.shiftRight_natCast_right (value * 16) 4).trans (Int.shiftRight_eq_div_pow _ 4)
  rw [hshift, hvalue, hback]
  omega

variable {position : SVChunkPosition}

theorem foldl_preChunk (hposition : Shiftable position) (screen : Screen)
    (mode : Protocol.SVBoolean) :
    [.preChunk position.toWire mode].foldl (receiveChunk uncompress) screen =
      Function.update screen position (if mode = 0 then none else some none) := by
  obtain ⟨⟨hlowX, hhighX⟩, hlowZ, hhighZ⟩ := hposition
  have hwire : (⟨position.toWire.x.toInt, position.toWire.z.toInt⟩ : SVChunkPosition) = position :=
    congrArg₂ SVChunkPosition.mk (toInt_ofInt_shiftable hlowX hhighX)
      (toInt_ofInt_shiftable hlowZ hhighZ)
  rw [List.foldl_cons, List.foldl_nil, receiveChunk, hwire]

variable (compress answers) in
/-- What a client gets of a chunk: nothing where a handler or `compress` failed. -/
def sentArrays (position : SVChunkPosition) : Option ChunkArrays :=
  (answers position).bind fun chunk =>
    (compress (chunkToByteArray chunk)).map fun _ => chunk.arrays

theorem foldl_sendChunk (hzlib : Zlib compress uncompress) (hposition : Shiftable position)
    {screen : Screen} (hannounced : screen position = some none) :
    (sendChunk compress answers position).foldl (receiveChunk uncompress) screen =
      Function.update screen position (some (sentArrays compress answers position)) := by
  have hsame : Function.update screen position (some none) = screen := by
    rw [← hannounced, Function.update_eq_self]
  rw [sendChunk, sentArrays]
  cases hanswer : answers position with
  | none => exact hsame.symm
  | some chunk =>
      dsimp only [Option.bind_some]
      cases hcompress : compress (chunkToByteArray chunk) with
      | none => exact hsame.symm
      | some buffer =>
          obtain ⟨⟨hlowX, hhighX⟩, hlowZ, hhighZ⟩ := hposition
          have hwire : (⟨(chunkPositionToBlockPosition position.toWire).x.toInt >>> 4,
              (chunkPositionToBlockPosition position.toWire).z.toInt >>> 4⟩ : SVChunkPosition) =
              position :=
            congrArg₂ SVChunkPosition.mk (toInt_shiftLeft_shiftable hlowX hhighX)
              (toInt_shiftLeft_shiftable hlowZ hhighZ)
          have harrays : (uncompress buffer).bind byteArrayToChunk = some chunk.arrays := by
            rw [hzlib.inverse _ _ hcompress, Option.bind_some, byteArrayToChunk_chunkToByteArray]
          simp only [List.foldl_cons, List.foldl_nil, receiveChunk, hwire, hannounced, harrays,
            if_true, Option.map_some]

/-! ## Many packets -/

/-- A loop over chunks, each of which changes its own place on the screen. -/
theorem foldl_places (packets : SVChunkPosition → List Protocol.SVResponse)
    (value : SVChunkPosition → Option (Option ChunkArrays))
    (ready : Option (Option ChunkArrays) → Prop) {positions : List SVChunkPosition}
    (hnodup : positions.Nodup)
    (hone : ∀ position ∈ positions, ∀ screen : Screen, ready (screen position) →
      (packets position).foldl (receiveChunk uncompress) screen =
        Function.update screen position (value position))
    {screen : Screen} (hready : ∀ position ∈ positions, ready (screen position)) :
    (positions.flatMap packets).foldl (receiveChunk uncompress) screen =
      fun position => if position ∈ positions then value position else screen position := by
  induction positions generalizing screen with
  | nil => rfl
  | cons first rest ih =>
      obtain ⟨hfirst, hrest⟩ := List.nodup_cons.mp hnodup
      rw [List.flatMap_cons, List.foldl_append,
        hone first List.mem_cons_self screen (hready first List.mem_cons_self),
        ih hrest (fun position hmem => hone position (List.mem_cons_of_mem first hmem))]
      · funext position
        by_cases heq : position = first
        · simp [heq, hfirst]
        · simp [heq]
      · intro position hmem
        have hne : position ≠ first := fun heq => hfirst (heq ▸ hmem)
        rw [Function.update_of_ne hne]
        exact hready position (List.mem_cons_of_mem first hmem)

/-! ## The calls of a login -/

variable {sends : LoginSend → Bool} {spawnChunk : SVChunkPosition}

private theorem sendRing_foldlM (spawnChunk : SVChunkPosition) (calls : List LoginSend) (r : ℤ) :
    sendRing sends spawnChunk calls r =
      ((ring spawnChunk r).map .chunk).foldlM (loginSend sends) calls := by
  unfold sendRing
  simp only [up_eq, down_eq, bind_map_left]
  simp only [ring, row, column, List.map_append, List.foldlM_append, List.map_map,
    List.foldlM_map, bind_assoc, bind_pure, Int.sub_add_cancel]
  rfl

private theorem announceSquare_foldlM (spawnChunk : SVChunkPosition) (radius : ℤ)
    (calls : List LoginSend) :
    announceSquare sends spawnChunk radius calls =
      ((square spawnChunk radius).map .preChunk).foldlM (loginSend sends) calls := by
  unfold announceSquare
  simp only [up_eq, bind_map_left, bind_pure]
  simp only [square, column, List.map_flatMap, foldlM_flatMap, List.map_map, List.foldlM_map]
  rfl

private theorem sendSpiral_foldlM (spawnChunk : SVChunkPosition) {radius : ℤ} (hradius : 0 ≤ radius)
    (calls : List LoginSend) :
    sendSpiral sends spawnChunk radius calls =
      ((spiral spawnChunk radius).map .chunk).foldlM (loginSend sends) calls := by
  unfold sendSpiral
  simp only [up_eq, bind_map_left, bind_pure]
  rw [spiral_eq_cons hradius, List.map_cons, List.foldlM_cons, List.map_flatMap]
  refine bind_congr fun calls => ?_
  rw [foldlM_flatMap]
  exact congrArg (fun body => (Int.range 1 (radius + 1)).foldlM body calls)
    (funext fun calls => funext fun r => sendRing_foldlM spawnChunk calls r)

/-- A login makes its calls up to the first that fails. -/
theorem loginSends_foldlM (spawnPosition : SVBlockPosition) {radius : ℤ} (hradius : 0 ≤ radius) :
    loginSends sends spawnPosition radius true =
      ((square (blockPositionToChunkPosition spawnPosition) radius).map LoginSend.preChunk ++
        (spiral (blockPositionToChunkPosition spawnPosition) radius).map LoginSend.chunk).foldlM
          (loginSend sends) [] := by
  unfold loginSends
  simp only [if_true, announceSquare_foldlM, List.foldlM_append]
  exact bind_congr fun calls => sendSpiral_foldlM _ hradius calls

/-- What the calls of a login send, where a call that fails sends nothing. -/
theorem flatMap_calls {Item : Type*} {send : LoginSend → List Item}
    (hfails : ∀ call, sends call = false → send call = []) (list calls : List LoginSend) :
    (LoginSends.calls (list.foldlM (loginSend sends) calls)).flatMap send =
      calls.flatMap send ++ (list.takeWhile sends).flatMap send := by
  induction list generalizing calls with
  | nil => exact (List.append_nil _).symm
  | cons call rest ih =>
      rw [List.foldlM_cons, loginSend]
      cases hsends : sends call with
      | false =>
          rw [List.takeWhile_cons_of_neg (by simp [hsends]), List.flatMap_nil, List.append_nil]
          change (calls ++ [call]).flatMap send = calls.flatMap send
          rw [List.flatMap_append, List.flatMap_singleton, hfails call hsends, List.append_nil]
      | true =>
          rw [List.takeWhile_cons_of_pos hsends, List.flatMap_cons]
          refine (ih (calls ++ [call])).trans ?_
          rw [List.flatMap_append, List.flatMap_singleton, List.append_assoc]

theorem nodup_square (spawnChunk : SVChunkPosition) (radius : ℤ) :
    (square spawnChunk radius).Nodup := by
  have hrange := CountingLoop.nodup_range (-radius) (radius + 1)
  refine List.nodup_flatMap.mpr ⟨fun i _ => nodup_column hrange, ?_⟩
  refine hrange.imp fun {i j} hne => ?_
  intro position hfirst hsecond
  exact hne ((mem_column.mp hfirst).1.symm.trans (mem_column.mp hsecond).1)

end Craftd.Survival
