import Craftd.Survival.ChunkRadius
import Mathlib.Data.Finset.Basic
import Mathlib.Data.Finset.Erase

/-!
# The chunks of a client

Chunks reach a client from two places: `cdsurvival_PlayerLogin` sends a square
around the spawn chunk, and `cdsurvival_SendChunkRadius` sends the difference when a
position packet leads into another chunk.  Only the second one records what it sent.

The client's chunks are those recorded, and those of the login square that no move
has recorded yet (`Follows`): the first move around a chunk of the square takes it
into the record, and a later one unloads it.  So the record is the client's set if
and only if the moves have covered the whole square.
-/

namespace Craftd.Survival

open Containers

/-- `SVBlockPosition`. -/
structure SVBlockPosition where
  x : SVInteger
  y : SVInteger
  z : SVInteger
  deriving DecidableEq

/-- `SV_BlockPositionToChunkPosition`. -/
def blockPositionToChunkPosition (position : SVBlockPosition) : SVChunkPosition :=
  ⟨position.x >>> 4, position.z >>> 4⟩

/-- A client after a `SVPreChunk`. -/
def receive (chunks : Finset SVChunkPosition) (packet : SVPacketPreChunk) :
    Finset SVChunkPosition :=
  if packet.mode then insert packet.position chunks else chunks.erase packet.position

/-- The chunks of a client that received the packets. -/
def clientChunks (packets : List SVPacketPreChunk) : Finset SVChunkPosition :=
  packets.foldl receive ∅

/-- The `maxRadius` of `cdsurvival_PlayerLogin`, which is also the radius of a move. -/
def maxRadius : ℤ := 10

/-- The values of a loop from `-maxRadius` up to and with `maxRadius`. -/
def loginRange : List ℤ :=
  (List.range 21).map fun i : ℕ => -maxRadius + (i : ℤ)

/-- The positions that the two loops of `cdsurvival_PlayerLogin` go through. -/
def loginSquare (spawnChunk : SVChunkPosition) : List SVChunkPosition :=
  loginRange.flatMap fun i => loginRange.map fun j => ⟨spawnChunk.x + i, spawnChunk.z + j⟩

/-- What the chunks of a player depend on. -/
structure ChunkPlayer where
  chunks : PlayerChunks
  position : SVPrecisePosition

/-- `SV_CreatePlayer`. -/
def createChunkPlayer : ChunkPlayer where
  chunks := ⟨none, fun _ => none, 0⟩
  position := ⟨.finite 0, .finite 0, .finite 0⟩

/-- `cdsurvival_PlayerPreLogin` and the `cdsurvival_PlayerLogin` it dispatches. -/
def loginChunks (self : ChunkPlayer) (spawnPosition : SVBlockPosition) :
    Option (ChunkPlayer × List SVPacketPreChunk) := do
  let loadedChunks ← createSetWith 400
  some ({ self with chunks := { self.chunks with loadedChunks := some loadedChunks } },
    (loginSquare (blockPositionToChunkPosition spawnPosition)).map fun position =>
      ⟨position, true⟩)

/-- A position packet; what else it brings does not matter here. -/
inductive PositionPacket
  | playerPosition (position : SVPrecisePosition)
  | playerMoveLook (position : SVPrecisePosition)

/-- `data->request.position`. -/
def PositionPacket.position : PositionPacket → SVPrecisePosition
  | .playerPosition position | .playerMoveLook position => position

variable (machine : ℤ → ℤ) (doubles : SVDouble → SVInteger)

/-- What `cdsurvival_ClientProcess` does for a position packet: the chunks are sent when
the packet leads into another chunk. -/
def moveChunks (self : ChunkPlayer) (packet : PositionPacket) :
    Option (ChunkPlayer × List SVPacketPreChunk) :=
  let newChunk := precisePositionToChunkPosition doubles packet.position
  let curChunk := precisePositionToChunkPosition doubles self.position
  if newChunk = curChunk then
    some ({ self with position := packet.position }, [])
  else
    (sendChunkRadius machine self.chunks newChunk maxRadius).map fun (chunks, packets) =>
      ({ chunks := chunks, position := packet.position }, packets)

/-- Any sequence of position packets. -/
def moveAllChunks : List PositionPacket → ChunkPlayer →
    Option (ChunkPlayer × List SVPacketPreChunk)
  | [], self => some (self, [])
  | packet :: rest, self => do
      let (self, packets) ← moveChunks machine doubles self packet
      let (self, later) ← moveAllChunks rest self
      some (self, packets ++ later)

/-- A login and any sequence of position packets. -/
def chunkSession (spawnPosition : SVBlockPosition) (packets : List PositionPacket) :
    Option (ChunkPlayer × List SVPacketPreChunk) := do
  let (self, square) ← loginChunks createChunkPlayer spawnPosition
  let (self, sent) ← moveAllChunks machine doubles packets self
  some (self, square ++ sent)

/-- The chunks that position packets lead into, one after the other. -/
def centres : SVPrecisePosition → List PositionPacket → List SVChunkPosition
  | _, [] => []
  | current, packet :: rest =>
      let newChunk := precisePositionToChunkPosition doubles packet.position
      let later := centres packet.position rest
      if newChunk = precisePositionToChunkPosition doubles current then later
      else newChunk :: later

variable {machine doubles}

/-! ## What the client makes of the packets -/

private theorem mem_receive_unloads (chunks : Finset SVChunkPosition)
    (removed : List SVChunkPosition)
    (position : SVChunkPosition) :
    position ∈ (removed.map fun position => SVPacketPreChunk.mk position false).foldl receive
        chunks ↔ position ∈ chunks ∧ position ∉ removed := by
  induction removed generalizing chunks with
  | nil => simp
  | cons first rest ih =>
      rw [List.map_cons, List.foldl_cons, ih]
      simp only [receive, Bool.false_eq_true, if_false, Finset.mem_erase, List.mem_cons, not_or]
      rw [and_comm (a := position ≠ first), and_assoc]

theorem mem_receive_loads (chunks : Finset SVChunkPosition) (added : List SVChunkPosition)
    (position : SVChunkPosition) :
    position ∈ (added.map fun position => SVPacketPreChunk.mk position true).foldl receive
        chunks ↔ position ∈ chunks ∨ position ∈ added := by
  induction added generalizing chunks with
  | nil => simp
  | cons first rest ih =>
      rw [List.map_cons, List.foldl_cons, ih]
      simp only [receive, if_true, Finset.mem_insert, List.mem_cons]
      rw [or_comm (a := position = first), or_assoc]

/-- Some chunk entered so far has the position around it. -/
def Covered (visited : List SVChunkPosition) (position : SVChunkPosition) : Prop :=
  ∃ centre ∈ visited, InRadius centre maxRadius position

/-- **What the client has**: the chunks recorded, which the moves have covered, and those
of the login square that no move has covered. -/
structure Follows (machine : ℤ → ℤ) (player : ChunkPlayer) (square visited : List SVChunkPosition)
    (client : Finset SVChunkPosition) (loaded : List SVChunkPosition) : Prop where
  sound : player.chunks.Sound machine
  recorded : player.chunks.loaded = some loaded
  covered : ∀ position ∈ loaded, Covered visited position
  mem_client : ∀ position, position ∈ client ↔
    position ∈ loaded ∨ position ∈ square ∧ ¬Covered visited position

variable {self : ChunkPlayer} {square visited loaded : List SVChunkPosition}
  {client : Finset SVChunkPosition}

/-- The record is the client's set if and only if the square is covered. -/
theorem Follows.eq_iff (hfollows : Follows machine self square visited client loaded) :
    client = loaded.toFinset ↔ ∀ position ∈ square, Covered visited position := by
  constructor
  · intro heq position hsquare
    by_contra huncovered
    have hmem : position ∈ client := (hfollows.mem_client position).mpr (.inr ⟨hsquare, huncovered⟩)
    rw [heq, List.mem_toFinset] at hmem
    exact huncovered (hfollows.covered position hmem)
  · intro hcovered
    ext position
    rw [hfollows.mem_client, List.mem_toFinset]
    apply or_iff_left
    intro hleft
    exact hleft.2 (hcovered position hleft.1)

/-- After the login the client has the square and nothing is recorded. -/
theorem loginChunks_follows (machine : ℤ → ℤ) (spawnPosition : SVBlockPosition) :
    ∃ next, loginChunks createChunkPlayer spawnPosition = some (next,
        (loginSquare (blockPositionToChunkPosition spawnPosition)).map fun position =>
          ⟨position, true⟩) ∧
      next.position = createChunkPlayer.position ∧
      Follows machine next (loginSquare (blockPositionToChunkPosition spawnPosition)) []
        (clientChunks ((loginSquare (blockPositionToChunkPosition spawnPosition)).map
          fun position => ⟨position, true⟩)) [] := by
  have hhint : ¬(400 : BitVec 32).slt 0 := by decide
  obtain ⟨empty, hcreate, -, hempty⟩ := exists_createSetWith (chunkMethods machine) hhint
  obtain ⟨members, hmembers, hperm, -⟩ := hempty.setMembers
  obtain rfl := List.map_eq_nil_iff.mp hperm.eq_nil
  have hleft : PlayerChunks.Left machine ⟨some empty, fun _ => none, 0⟩ :=
    .login hcreate rfl fun _ _ => rfl
  refine ⟨⟨⟨some empty, fun _ => none, 0⟩, createChunkPlayer.position⟩, ?_, rfl,
    sound_of_left hleft, ?_, nofun, fun position => ?_⟩
  · simp only [loginChunks, hcreate, Option.bind_eq_bind, Option.bind_some]
    rfl
  · simp [PlayerChunks.loaded, hmembers]
  · rw [clientChunks, mem_receive_loads]
    simp [Covered]

/-- **One move** around a new chunk: what was recorded and is not around it is unloaded,
what is around it is recorded. -/
theorem sendChunkRadius_follows (hfollows : Follows machine self square visited client loaded)
    (centre : SVChunkPosition) (position : SVPrecisePosition) :
    ∃ chunks packets now,
      sendChunkRadius machine self.chunks centre maxRadius = some (chunks, packets) ∧
      Follows machine ⟨chunks, position⟩ square (visited ++ [centre]) (packets.foldl receive client)
        now := by
  obtain ⟨old, removed, added, now, chunks, hsends⟩ :=
    sendChunkRadius_sends hfollows.sound centre maxRadius
  obtain rfl := Option.some.inj (hsends.loaded.symm.trans hfollows.recorded)
  have hcovered : ∀ position, Covered (visited ++ [centre]) position ↔
      Covered visited position ∨ InRadius centre maxRadius position := by
    intro position
    simp [Covered, or_and_right, exists_or]
  refine ⟨chunks, _, now, hsends.outcome, hsends.sound, hsends.loaded_after, ?_, ?_⟩
  · intro position hmem
    exact (hcovered position).mpr (.inr ((hsends.mem_now position).mp hmem))
  · intro position
    rw [List.foldl_append, mem_receive_loads, mem_receive_unloads, hfollows.mem_client,
      hsends.mem_removed, hsends.mem_added, hsends.mem_now, hcovered]
    by_cases hold : position ∈ old
    · have hbefore := hfollows.covered position hold
      by_cases haround : InRadius centre maxRadius position <;> simp [hold, hbefore, haround]
    · by_cases haround : InRadius centre maxRadius position <;> simp [hold, haround]

/-- **Any sequence of position packets.** -/
theorem moveAllChunks_follows (doubles : SVDouble → SVInteger)
    (hfollows : Follows machine self square visited client loaded)
    (packets : List PositionPacket) :
    ∃ next sent now, moveAllChunks machine doubles packets self = some (next, sent) ∧
      Follows machine next square (visited ++ centres doubles self.position packets)
        (sent.foldl receive client) now := by
  induction packets generalizing self visited client loaded with
  | nil =>
      refine ⟨self, [], loaded, rfl, ?_⟩
      rw [centres, List.append_nil]
      exact hfollows
  | cons packet rest ih =>
      by_cases hsame : precisePositionToChunkPosition doubles packet.position =
          precisePositionToChunkPosition doubles self.position
      · have hstay : Follows machine { self with position := packet.position } square visited
            client loaded :=
          ⟨hfollows.sound, hfollows.recorded, hfollows.covered, hfollows.mem_client⟩
        obtain ⟨next, sent, now, hmoves, hnext⟩ := ih hstay
        refine ⟨next, sent, now, ?_, ?_⟩
        · simp [moveAllChunks, moveChunks, hsame, hmoves]
        · rw [centres, if_pos hsame]
          exact hnext
      · obtain ⟨chunks, first, middle, hsent, hmiddle⟩ := sendChunkRadius_follows hfollows
          (precisePositionToChunkPosition doubles packet.position) packet.position
        obtain ⟨next, later, now, hmoves, hnext⟩ := ih hmiddle
        refine ⟨next, first ++ later, now, ?_, ?_⟩
        · simp [moveAllChunks, moveChunks, hsame, hsent, hmoves]
        · rw [centres, if_neg hsame, List.foldl_append]
          rw [List.append_assoc, List.singleton_append] at hnext
          exact hnext

theorem chunkSession_follows (machine : ℤ → ℤ) (doubles : SVDouble → SVInteger)
    (spawnPosition : SVBlockPosition) (packets : List PositionPacket) :
    ∃ player sent loaded,
      chunkSession machine doubles spawnPosition packets = some (player, sent) ∧
      Follows machine player (loginSquare (blockPositionToChunkPosition spawnPosition))
        (centres doubles createChunkPlayer.position packets) (clientChunks sent) loaded := by
  obtain ⟨start, hlogin, hposition, hstart⟩ := loginChunks_follows machine spawnPosition
  obtain ⟨player, sent, loaded, hmoves, hfollows⟩ := moveAllChunks_follows doubles hstart packets
  rw [List.nil_append, hposition, clientChunks, ← List.foldl_append] at hfollows
  refine ⟨player, _, loaded, ?_, hfollows⟩
  simp only [chunkSession, hlogin, hmoves, Option.bind_eq_bind, Option.bind_some]

/-- **When the record is the client's set.**  After a login and any sequence of position
packets the chunks of the client are those recorded if and only if each chunk of the
login square was around some chunk that the packets led into; so never right after the
login. -/
theorem loaded_chunks_iff (machine : ℤ → ℤ) (doubles : SVDouble → SVInteger)
    (spawnPosition : SVBlockPosition) (packets : List PositionPacket) :
    ∃ player sent loaded,
      chunkSession machine doubles spawnPosition packets = some (player, sent) ∧
      player.chunks.loaded = some loaded ∧
      (clientChunks sent = loaded.toFinset ↔
        ∀ position ∈ loginSquare (blockPositionToChunkPosition spawnPosition),
          Covered (centres doubles createChunkPlayer.position packets) position) := by
  obtain ⟨player, sent, loaded, hsession, hfollows⟩ :=
    chunkSession_follows machine doubles spawnPosition packets
  exact ⟨player, sent, loaded, hsession, hfollows.recorded, hfollows.eq_iff⟩

/-- A step into the next chunk. -/
def stepAside : List PositionPacket :=
  [.playerPosition ⟨.finite 20, .finite 64, .finite 0⟩]

/-- As long as the moves stay to the east of chunk 0, the client has the north west corner
of the login square, and it is not recorded. -/
theorem corner_unrecorded {packets : List PositionPacket}
    (heast : ∀ centre ∈ centres (fun _ => 0) createChunkPlayer.position packets, 0 < centre.x) :
    ∃ player sent loaded,
      chunkSession id (fun _ => 0) ⟨0, 64, 0⟩ packets = some (player, sent) ∧
      player.chunks.loaded = some loaded ∧ clientChunks sent ≠ loaded.toFinset := by
  obtain ⟨player, sent, loaded, hsession, hfollows⟩ :=
    chunkSession_follows id (fun _ => 0) ⟨0, 64, 0⟩ packets
  refine ⟨player, sent, loaded, hsession, hfollows.recorded, fun heq => ?_⟩
  obtain ⟨centre, hcentre, x, z, hx, -, -, -, -, hcorner⟩ :=
    hfollows.eq_iff.mp heq ⟨-10, -10⟩ (by decide)
  have hcornerX : (-10 : ℤ) = centre.x + x := congrArg SVChunkPosition.x hcorner
  have hcentreX : (0 : ℤ) < centre.x := heast centre hcentre
  rw [maxRadius] at hx
  omega

/-- Right after a login, and still after a step into the next chunk, the client has a chunk
that is not recorded. -/
theorem login_square_unrecorded :
    (∃ player sent loaded, chunkSession id (fun _ => 0) ⟨0, 64, 0⟩ [] = some (player, sent) ∧
      player.chunks.loaded = some loaded ∧ clientChunks sent ≠ loaded.toFinset) ∧
    ∃ player sent loaded,
      chunkSession id (fun _ => 0) ⟨0, 64, 0⟩ stepAside = some (player, sent) ∧
      player.chunks.loaded = some loaded ∧ clientChunks sent ≠ loaded.toFinset :=
  ⟨corner_unrecorded (by decide), corner_unrecorded (by decide)⟩

end Craftd.Survival
