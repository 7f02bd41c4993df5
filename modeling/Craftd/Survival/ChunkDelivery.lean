import Craftd.Survival.ChunkPackets

/-!
# Chunks reach the client

What a client shows that reads back the bytes a login and any position packets have sent it.

`sessionScreen` says it without the sets, the positions behind pointers, the packets and the
bytes: a login announces its square and fills it along the spiral as far as the handlers answer; a
move drops the chunks that were around the last one and are not around this one, and asks for
those that are around this one and were not around the last.  Everything else stays, whatever the
world has become meanwhile.
-/

namespace Craftd.Survival

open ByteReader

/-! ## The bytes of the packets -/

/-- `SV_PlayerSendPacketAndCleanData` of each packet: what the output gets. -/
def sendPackets : List Protocol.SVResponse → Protocol.Added
  | [] => .ok []
  | packet :: rest => do
      let wire ← Protocol.responseToBuffer packet
      let later ← sendPackets rest
      return wire ++ later

/-- A client that reads packets as `SV_PacketFromBuffers` does, as long as there are bytes. -/
def readPackets (heap : Protocol.Heap) : ℕ → List Byte → List Protocol.SVResponse
  | 0, _ => []
  | _, [] => []
  | fuel + 1, bytes =>
      match Protocol.responseFromBuffers heap ⟨bytes, 0⟩ with
      | .ok (some packet) source => packet :: readPackets heap fuel source.bytes
      | _ => []

/-- The packets that carry chunks, as the server fills them in. -/
def CarriesChunk : Protocol.SVResponse → Prop
  | .preChunk _ _ => True
  | .mapChunk _ _ length item => length.toInt = item.length
  | _ => False

/-- The layout of such a packet leaves nothing out. -/
theorem eq_of_wireFields {packet result : Protocol.SVResponse} (h : CarriesChunk packet)
    (hfields : result.wireFields = packet.wireFields) : result = packet := by
  have htype : result.type = packet.type := by
    rw [← result.type_wireFields, hfields, packet.type_wireFields]
  cases packet with
  | preChunk position mode =>
      cases result with
      | preChunk position' mode' => exact hfields
      | _ => cases htype
  | mapChunk position size length item =>
      cases result with
      | mapChunk position' size' length' item' => exact hfields
      | _ => cases htype
  | _ => exact h.elim

private theorem reads_carriesChunk (heap : Protocol.Heap) {packet : Protocol.SVResponse}
    (h : CarriesChunk packet) :
    ∃ first wire, Protocol.responseToBuffer packet = .ok (first :: wire) ∧
      Reads (Protocol.responseFromBuffers heap) (first :: wire) (some packet) := by
  have hcarried : packet.Carried := by
    cases packet with
    | preChunk position mode => trivial
    | mapChunk position size length item => exact h
    | _ => exact h.elim
  obtain ⟨wire, result, hsent, hread, hfields⟩ :=
    Protocol.reads_responseFromBuffers heap hcarried
  rw [eq_of_wireFields h hfields] at hread
  rw [Protocol.responseToBuffer, Protocol.bufferAddByte_eq] at hsent
  cases hdata : Protocol.responseDataToBuffer packet with
  | error fault =>
      rw [hdata] at hsent
      cases hsent
  | ok data =>
      rw [hdata] at hsent
      obtain rfl := Except.ok.inj hsent
      exact ⟨packet.type.value, data, by
        rw [Protocol.responseToBuffer, Protocol.bufferAddByte_eq, hdata]; rfl, hread⟩

/-- **The stream** of such packets is read back as it was sent. -/
theorem readPackets_sendPackets (heap : Protocol.Heap) {packets : List Protocol.SVResponse}
    (h : ∀ packet ∈ packets, CarriesChunk packet) :
    ∃ wire, sendPackets packets = .ok wire ∧
      ∀ fuel, wire.length ≤ fuel → readPackets heap fuel wire = packets := by
  induction packets with
  | nil =>
      refine ⟨[], rfl, fun fuel _ => ?_⟩
      cases fuel <;> rfl
  | cons packet rest ih =>
      obtain ⟨hpacket, hrest⟩ := List.forall_mem_cons.mp h
      obtain ⟨later, hlater, hread⟩ := ih hrest
      obtain ⟨first, wire, hsent, hwhole⟩ := reads_carriesChunk heap hpacket
      refine ⟨first :: wire ++ later, ?_, fun fuel hfuel => ?_⟩
      · rw [sendPackets, hsent, hlater]
        rfl
      · cases fuel with
        | zero => simp at hfuel
        | succ fuel =>
            rw [List.length_append, List.length_cons] at hfuel
            have hfirst := hwhole later 0
            rw [List.cons_append] at hfirst ⊢
            rw [readPackets]
            · rw [hfirst]
              exact congrArg (packet :: ·) (hread fuel (by omega))
            · exact fun hnil => by cases hnil

/-! ## What the client is to show -/

/-- The chunks around the last area, which the player has recorded. -/
def Around (area : Option SVChunkPosition) (position : SVChunkPosition) : Prop :=
  ∃ centre ∈ area, InRadius centre maxRadius position

section Screens

variable (compress : List Byte → Option (List Byte))

/-- The screen after a login. -/
def loginScreen (spawnChunk : SVChunkPosition) (answers : ChunkAnswers) : Screen := fun position =>
  if position ∈ square spawnChunk maxRadius then
    some (if position ∈ (spiral spawnChunk maxRadius).takeWhile fun coords =>
        (sentArrays compress answers coords).isSome
      then sentArrays compress answers position else none)
  else none

open Classical in
/-- The screen after a move into another chunk. -/
noncomputable def moveScreen (area : Option SVChunkPosition) (centre : SVChunkPosition)
    (answers : ChunkAnswers) (screen : Screen) : Screen := fun position =>
  if InRadius centre maxRadius position then
    if Around area position then screen position else some (sentArrays compress answers position)
  else if Around area position then none else screen position

/-- The screen after any sequence of position packets. -/
noncomputable def sessionScreen (doubles : SVDouble → SVInteger) : SVPrecisePosition →
    Option SVChunkPosition → List (PositionPacket × ChunkAnswers) → Screen → Screen
  | _, _, [], screen => screen
  | current, area, (packet, answers) :: rest, screen =>
      let newChunk := precisePositionToChunkPosition doubles packet.position
      if newChunk = precisePositionToChunkPosition doubles current then
        sessionScreen doubles packet.position area rest screen
      else
        sessionScreen doubles packet.position (some newChunk) rest
          (moveScreen compress area newChunk answers screen)

end Screens

/-! ## What the client shows -/

/-- The chunks around a centre have block positions. -/
def Central (centre : SVChunkPosition) : Prop :=
  (-2 ^ 27 + maxRadius ≤ centre.x ∧ centre.x + maxRadius < 2 ^ 27) ∧
    -2 ^ 27 + maxRadius ≤ centre.z ∧ centre.z + maxRadius < 2 ^ 27

instance (centre : SVChunkPosition) : Decidable (Central centre) :=
  inferInstanceAs (Decidable (_ ∧ _))

theorem Central.shiftable {centre position : SVChunkPosition} (hcentre : Central centre)
    (h : InRadius centre maxRadius position) : Shiftable position := by
  obtain ⟨x, z, hlowX, hhighX, hlowZ, hhighZ, -, rfl⟩ := h
  unfold Central at hcentre
  unfold Shiftable
  dsimp only
  unfold SVInteger at *
  omega

theorem Central.shiftable_square {centre position : SVChunkPosition} (hcentre : Central centre)
    (h : position ∈ square centre maxRadius) : Shiftable position := by
  have hring := mem_square.mp h
  rw [ringOf, max_le_iff, abs_le, abs_le] at hring
  unfold Central at hcentre
  unfold Shiftable
  unfold SVInteger at *
  omega

variable {compress uncompress : List Byte → Option (List Byte)} {answers : ChunkAnswers}
  {machine : ℤ → ℤ} {doubles : SVDouble → SVInteger}

theorem carriesChunk_sendPreChunk (coord : SVChunkPosition) :
    ∀ packet ∈ sendPreChunk coord, CarriesChunk packet := by
  intro packet hmem
  rw [sendPreChunk, List.mem_singleton] at hmem
  rw [hmem]
  trivial

theorem carriesChunk_sendChunk (hzlib : Zlib compress uncompress) (coord : SVChunkPosition) :
    ∀ packet ∈ sendChunk compress answers coord, CarriesChunk packet := by
  intro packet hmem
  unfold sendChunk at hmem
  split at hmem
  · cases hmem
  · next chunk =>
      split at hmem
      · cases hmem
      · next buffer hcompress =>
          rw [List.mem_singleton] at hmem
          rw [hmem]
          have hbound := hzlib.bound _ _ hcompress
          rw [length_chunkToByteArray] at hbound
          have hnat : (BitVec.ofNat 32 buffer.length).toNat = buffer.length := by
            rw [BitVec.toNat_ofNat]
            exact Nat.mod_eq_of_lt (by omega)
          change (BitVec.ofNat 32 buffer.length).toInt = buffer.length
          rw [BitVec.toInt_eq_toNat_of_lt (by omega), hnat]

private theorem carriesChunk_login (hzlib : Zlib compress uncompress)
    (spawnPosition : SVBlockPosition) :
    ∀ packet ∈ playerLoginPackets compress answers spawnPosition, CarriesChunk packet := by
  intro packet hmem
  obtain ⟨call, -, hmem⟩ := List.mem_flatMap.mp hmem
  cases call with
  | preChunk coords => exact carriesChunk_sendPreChunk coords packet hmem
  | chunk coords => exact carriesChunk_sendChunk hzlib coords packet hmem

private theorem carriesChunk_callback (hzlib : Zlib compress uncompress)
    (sent : List SVPacketPreChunk) :
    ∀ packet ∈ sent.flatMap (chunkRadiusCallback compress answers), CarriesChunk packet := by
  intro packet hmem
  obtain ⟨preChunk, -, hmem⟩ := List.mem_flatMap.mp hmem
  rw [chunkRadiusCallback] at hmem
  split_ifs at hmem
  · rcases List.mem_append.mp hmem with hmem | hmem
    · exact carriesChunk_sendPreChunk _ packet hmem
    · exact carriesChunk_sendChunk hzlib _ packet hmem
  · rw [List.mem_singleton.mp hmem]
    trivial

/-- A chunk is sent when there are arrays to send. -/
theorem isEmpty_sendChunk (coords : SVChunkPosition) :
    (!(sendChunk compress answers coords).isEmpty) =
      (sentArrays compress answers coords).isSome := by
  rw [sendChunk, sentArrays]
  cases answers coords with
  | none => rfl
  | some chunk =>
      dsimp only [Option.bind_some]
      cases compress (chunkToByteArray chunk) <;> rfl

variable (compress answers) in
/-- The chunks that a login fills: those on the spiral in front of the first that fails. -/
def filledChunks (spawnChunk : SVChunkPosition) : List SVChunkPosition :=
  (spiral spawnChunk maxRadius).takeWhile fun coords => (sentArrays compress answers coords).isSome

theorem mem_square_of_mem_filled {spawnChunk position : SVChunkPosition}
    (h : position ∈ filledChunks compress answers spawnChunk) :
    position ∈ square spawnChunk maxRadius := by
  rw [mem_square, ← mem_spiral]
  exact List.takeWhile_subset _ h

/-- What a login sends: the square, and then the chunks that it fills. -/
theorem playerLoginPackets_eq (spawnPosition : SVBlockPosition) :
    playerLoginPackets compress answers spawnPosition =
      (square (blockPositionToChunkPosition spawnPosition) maxRadius).flatMap sendPreChunk ++
        (filledChunks compress answers (blockPositionToChunkPosition spawnPosition)).flatMap
          (sendChunk compress answers) := by
  have hfails : ∀ call, loginCallSends compress answers call = false →
      loginCall compress answers call = [] := by
    intro call hcall
    cases call with
    | preChunk coords => cases hcall
    | chunk coords => simpa [loginCallSends, loginCall] using hcall
  have hsquare : ∀ call ∈ (square (blockPositionToChunkPosition spawnPosition) maxRadius).map
      LoginSend.preChunk, loginCallSends compress answers call = true := by
    intro call hmem
    obtain ⟨coords, -, rfl⟩ := List.mem_map.mp hmem
    rfl
  have hspiral : loginCallSends compress answers ∘ LoginSend.chunk = fun coords =>
      (sentArrays compress answers coords).isSome := funext isEmpty_sendChunk
  rw [playerLoginPackets, loginSends_foldlM _ (by decide), flatMap_calls hfails,
    List.takeWhile_append_of_pos hsquare, List.takeWhile_map, hspiral, List.flatMap_nil,
    List.nil_append, List.flatMap_append, List.flatMap_map, List.flatMap_map]
  rfl

/-- **The login** leaves its screen. -/
theorem receive_login (hzlib : Zlib compress uncompress) {spawnPosition : SVBlockPosition}
    (hcentral : Central (blockPositionToChunkPosition spawnPosition)) :
    (playerLoginPackets compress answers spawnPosition).foldl (receiveChunk uncompress)
        (fun _ => none) =
      loginScreen compress (blockPositionToChunkPosition spawnPosition) answers := by
  rw [playerLoginPackets_eq]
  generalize blockPositionToChunkPosition spawnPosition = spawnChunk at *
  have hannounced : ((square spawnChunk maxRadius).flatMap sendPreChunk).foldl
      (receiveChunk uncompress) (fun _ => none) = fun position =>
        if position ∈ square spawnChunk maxRadius then some none else none :=
    foldl_places sendPreChunk (fun _ => some none) (fun _ => True)
      (nodup_square spawnChunk maxRadius)
      (fun position hmem screen _ =>
        foldl_preChunk (hcentral.shiftable_square hmem) screen 1)
      fun _ _ => trivial
  have hfilled : ((filledChunks compress answers spawnChunk).flatMap
      (sendChunk compress answers)).foldl (receiveChunk uncompress)
        (fun position => if position ∈ square spawnChunk maxRadius then some none else none) =
      fun position => if position ∈ filledChunks compress answers spawnChunk then
        some (sentArrays compress answers position)
        else if position ∈ square spawnChunk maxRadius then some none else none :=
    foldl_places (sendChunk compress answers)
      (fun position => some (sentArrays compress answers position)) (· = some none)
      ((List.takeWhile_sublist _).nodup (nodup_spiral spawnChunk maxRadius))
      (fun position hmem screen hready =>
        foldl_sendChunk hzlib (hcentral.shiftable_square (mem_square_of_mem_filled hmem)) hready)
      fun position hmem => if_pos (mem_square_of_mem_filled hmem)
  rw [List.foldl_append, hannounced, hfilled]
  funext position
  unfold loginScreen
  change _ = if position ∈ square spawnChunk maxRadius then
    some (if position ∈ filledChunks compress answers spawnChunk then _ else none) else none
  by_cases hmem : position ∈ filledChunks compress answers spawnChunk
  · rw [if_pos hmem, if_pos (mem_square_of_mem_filled hmem), if_pos hmem]
  · rw [if_neg hmem, if_neg hmem]

/-- **A move** into another chunk changes the screen. -/
theorem receive_move (hzlib : Zlib compress uncompress) {area : Option SVChunkPosition}
    {centre : SVChunkPosition} (harea : ∀ before ∈ area, Central before)
    (hcentral : Central centre) {removed added : List SVChunkPosition} (hnodup : removed.Nodup)
    (hremoved : ∀ position, position ∈ removed ↔
      Around area position ∧ ¬InRadius centre maxRadius position)
    (hnodup' : added.Nodup)
    (hadded : ∀ position, position ∈ added ↔
      InRadius centre maxRadius position ∧ ¬Around area position) (screen : Screen) :
    ((removed.map (fun position => SVPacketPreChunk.mk position false) ++
        added.map fun position => SVPacketPreChunk.mk position true).flatMap
          (chunkRadiusCallback compress answers)).foldl (receiveChunk uncompress) screen =
      moveScreen compress area centre answers screen := by
  let unload : SVChunkPosition → List Protocol.SVResponse := fun position =>
    [.preChunk position.toWire 0]
  let load : SVChunkPosition → List Protocol.SVResponse := fun position =>
    sendPreChunk position ++ sendChunk compress answers position
  -- the unloaded places are dropped, the loaded ones announced and filled
  have hunload : (removed.flatMap unload).foldl (receiveChunk uncompress) screen =
      fun position => if position ∈ removed then none else screen position := by
    refine foldl_places unload (fun _ => none) (fun _ => True) hnodup
      (fun position hmem screen _ => ?_) fun _ _ => trivial
    obtain ⟨⟨before, hbefore, haround⟩, -⟩ := (hremoved position).mp hmem
    exact foldl_preChunk ((harea before hbefore).shiftable haround) screen 0
  have hload : ∀ screen : Screen, (added.flatMap load).foldl (receiveChunk uncompress) screen =
      fun position => if position ∈ added then some (sentArrays compress answers position)
        else screen position := by
    intro screen
    refine foldl_places load (fun position => some (sentArrays compress answers position))
      (fun _ => True) hnodup' (fun position hmem screen _ => ?_) fun _ _ => trivial
    have hposition := hcentral.shiftable ((hadded position).mp hmem).1
    have hannounce : (sendPreChunk position).foldl (receiveChunk uncompress) screen =
        Function.update screen position (some none) :=
      foldl_preChunk hposition screen 1
    rw [List.foldl_append, hannounce,
      foldl_sendChunk hzlib hposition (Function.update_self _ _ _), Function.update_idem]
  rw [List.flatMap_append, List.flatMap_map, List.flatMap_map, List.foldl_append]
  change (added.flatMap load).foldl (receiveChunk uncompress)
    ((removed.flatMap unload).foldl (receiveChunk uncompress) screen) =
    moveScreen compress area centre answers screen
  rw [hunload, hload]
  -- place by place, by whether it is around the new and the old centre
  funext position
  have hadd := hadded position
  have hremove := hremoved position
  unfold moveScreen
  by_cases hnear : InRadius centre maxRadius position <;>
    by_cases haround : Around area position <;>
      simp only [hnear, haround, not_true, not_false_iff, and_true, and_false, iff_true,
        iff_false] at hadd hremove <;>
      simp only [hadd, hremove, hnear, haround, if_true, if_false]

/-- **One move** into another chunk records what is around it, and shows the screen after it. -/
theorem moveChunks_shows (hzlib : Zlib compress uncompress) {self : ChunkPlayer}
    (hsound : self.chunks.Sound machine) {loaded : List SVChunkPosition}
    (hloaded : self.chunks.loaded = some loaded) {area : Option SVChunkPosition}
    (hrecorded : ∀ position, position ∈ loaded ↔ Around area position)
    (harea : ∀ before ∈ area, Central before) {packet : PositionPacket}
    (hother : precisePositionToChunkPosition doubles packet.position ≠
      precisePositionToChunkPosition doubles self.position)
    (hcentral : Central (precisePositionToChunkPosition doubles packet.position))
    (screen : Screen) :
    ∃ chunks now packets,
      moveChunks machine doubles self packet = some (⟨chunks, packet.position⟩, packets) ∧
      chunks.Sound machine ∧ chunks.loaded = some now ∧
      (∀ position, position ∈ now ↔
        Around (some (precisePositionToChunkPosition doubles packet.position)) position) ∧
      (packets.flatMap (chunkRadiusCallback compress answers)).foldl (receiveChunk uncompress)
        screen = moveScreen compress area (precisePositionToChunkPosition doubles packet.position)
          answers screen := by
  obtain ⟨old, removed, added, now, chunks, hsends⟩ := sendChunkRadius_sends hsound
    (precisePositionToChunkPosition doubles packet.position) maxRadius
  obtain rfl := Option.some.inj (hsends.loaded.symm.trans hloaded)
  refine ⟨chunks, now, removed.map (fun position => SVPacketPreChunk.mk position false) ++
    added.map fun position => SVPacketPreChunk.mk position true, ?_, hsends.sound,
    hsends.loaded_after, fun position => ?_, ?_⟩
  · simp [moveChunks, hother, hsends.outcome]
  · simp [hsends.mem_now, Around]
  · exact receive_move hzlib harea hcentral hsends.nodup_removed
      (fun position => by rw [hsends.mem_removed, hrecorded]) hsends.nodup_added
      (fun position => by rw [hsends.mem_added, hrecorded]) screen

/-- **Any sequence of position packets.** -/
theorem moveAllPackets_shows (hzlib : Zlib compress uncompress) {self : ChunkPlayer}
    (hsound : self.chunks.Sound machine) {loaded : List SVChunkPosition}
    (hloaded : self.chunks.loaded = some loaded) {area : Option SVChunkPosition}
    (hrecorded : ∀ position, position ∈ loaded ↔ Around area position)
    (harea : ∀ before ∈ area, Central before) (moves : List (PositionPacket × ChunkAnswers))
    (hcentral : ∀ centre ∈ centres doubles self.position (moves.map Prod.fst), Central centre)
    (screen : Screen) :
    ∃ next packets, moveAllPackets compress machine doubles moves self = some (next, packets) ∧
      (∀ packet ∈ packets, CarriesChunk packet) ∧
      packets.foldl (receiveChunk uncompress) screen =
        sessionScreen compress doubles self.position area moves screen := by
  induction moves generalizing self loaded area screen with
  | nil =>
      refine ⟨self, [], rfl, fun packet hmem => ?_, rfl⟩
      cases hmem
  | cons move rest ih =>
      obtain ⟨packet, answers⟩ := move
      rw [List.map_cons, centres] at hcentral
      rw [sessionScreen]
      by_cases hsame : precisePositionToChunkPosition doubles packet.position =
          precisePositionToChunkPosition doubles self.position
      -- the packet stays in its chunk: nothing is sent
      · rw [if_pos hsame] at hcentral ⊢
        obtain ⟨next, packets, hmoves, hcarries, hshows⟩ :=
          @ih ⟨self.chunks, packet.position⟩ hsound loaded hloaded area hrecorded harea hcentral
            screen
        refine ⟨next, packets, ?_, hcarries, hshows⟩
        simp [moveAllPackets, moveChunks, hsame, hmoves]
      · rw [if_neg hsame] at hcentral ⊢
        -- the packet crosses into another chunk
        obtain ⟨hnew, hlater⟩ := List.forall_mem_cons.mp hcentral
        obtain ⟨chunks, now, packets, hmove, hnext, hnow, hmem, hscreen⟩ := moveChunks_shows
          hzlib hsound hloaded hrecorded harea hsame hnew screen
        obtain ⟨next, later, hmoves, hcarries, hshows⟩ :=
          @ih ⟨chunks, packet.position⟩ hnext now hnow _ hmem
            (fun before hbefore => Option.mem_some.mp hbefore ▸ hnew) hlater
            (moveScreen compress area (precisePositionToChunkPosition doubles packet.position)
              answers screen)
        refine ⟨next, packets.flatMap (chunkRadiusCallback compress answers) ++ later, ?_, ?_, ?_⟩
        · simp [moveAllPackets, hmove, hmoves]
        · intro sent hsent
          rcases List.mem_append.mp hsent with hsent | hsent
          · exact carriesChunk_callback hzlib _ sent hsent
          · exact hcarries sent hsent
        · rw [List.foldl_append, hscreen]
          exact hshows

/-! ## What is on the screen -/

theorem exists_answer_of_sentArrays {position : SVChunkPosition} {arrays : ChunkArrays}
    (h : sentArrays compress answers position = some arrays) :
    ∃ chunk, answers position = some chunk ∧ chunk.arrays = arrays := by
  obtain ⟨chunk, hanswer, hchunk⟩ := Option.bind_eq_some_iff.mp h
  obtain ⟨buffer, -, harrays⟩ := Option.map_eq_some_iff.mp hchunk
  exact ⟨chunk, hanswer, harrays⟩

/-- A screen shows nothing but what one of the handlers has answered for the place. -/
def Answered (given : List ChunkAnswers) (screen : Screen) : Prop :=
  ∀ position arrays, screen position = some (some arrays) →
    ∃ answers ∈ given, ∃ chunk, answers position = some chunk ∧ chunk.arrays = arrays

private theorem answered_loginScreen (spawnChunk : SVChunkPosition) :
    Answered [answers] (loginScreen compress spawnChunk answers) := by
  intro position arrays hshown
  unfold loginScreen at hshown
  split_ifs at hshown
  · exact ⟨answers, List.mem_singleton_self _,
      exists_answer_of_sentArrays (Option.some.inj hshown)⟩
  · cases hshown

private theorem answered_sessionScreen {given : List ChunkAnswers} {screen : Screen}
    (hscreen : Answered given screen) (current : SVPrecisePosition)
    (area : Option SVChunkPosition) (moves : List (PositionPacket × ChunkAnswers)) :
    Answered (given ++ moves.map Prod.snd)
      (sessionScreen compress doubles current area moves screen) := by
  induction moves generalizing given screen current area with
  | nil =>
      rw [List.map_nil, List.append_nil]
      exact hscreen
  | cons move rest ih =>
      obtain ⟨packet, answers⟩ := move
      have hlater : Answered (given ++ [answers]) screen := fun position arrays hshown =>
        have ⟨earlier, hmem, hchunk⟩ := hscreen position arrays hshown
        ⟨earlier, List.mem_append_left _ hmem, hchunk⟩
      rw [List.map_cons, List.append_cons, sessionScreen]
      split_ifs
      · exact ih hlater packet.position area
      · refine ih (fun position arrays hshown => ?_) packet.position _
        unfold moveScreen at hshown
        split_ifs at hshown
        · exact hlater position arrays hshown
        · exact ⟨answers, List.mem_append_right _ (List.mem_singleton_self _),
            exists_answer_of_sentArrays (Option.some.inj hshown)⟩
        · exact hlater position arrays hshown

private theorem announced_sessionScreen {screen : Screen} {area : Option SVChunkPosition}
    (hscreen : ∀ position, Around area position → (screen position).isSome)
    (current : SVPrecisePosition) (moves : List (PositionPacket × ChunkAnswers))
    {position : SVChunkPosition}
    (haround : Around ((centres doubles current (moves.map Prod.fst)).getLast?.or area) position) :
    (sessionScreen compress doubles current area moves screen position).isSome := by
  induction moves generalizing screen area current with
  | nil => exact hscreen position haround
  | cons move rest ih =>
      obtain ⟨packet, answers⟩ := move
      rw [List.map_cons, centres] at haround
      rw [sessionScreen]
      split_ifs at haround ⊢ with hsame
      · exact ih hscreen packet.position haround
      · refine ih (fun other hother => ?_) packet.position ?_
        · obtain ⟨centre, hcentre, hnear⟩ := hother
          obtain rfl := Option.mem_some.mp hcentre
          unfold moveScreen
          rw [if_pos hnear]
          split_ifs with hold
          · exact hscreen other hold
          · rfl
        · rw [List.getLast?_cons] at haround
          cases hlast : (centres doubles packet.position (rest.map Prod.fst)).getLast? with
          | none => rwa [hlast] at haround
          | some last => rwa [hlast] at haround

/-- A chunk of air in the dark. -/
def airChunk : SVChunk where
  heightMap := fun _ => 0
  blocks := fun _ => 0
  data := fun _ => 0
  blockLight := fun _ => 0
  skyLight := fun _ => 0

/-- What `compress` makes of its bytes. -/
def packedAir : List Byte :=
  [0x78, 0x9C, 0xED, 0xC1, 0x31, 0x01, 0x00, 0x00, 0x00, 0xC2, 0xA0, 0xF5, 0x4F, 0x6D, 0x0D, 0x0F,
    0xA0] ++ List.replicate 79 0 ++ [0x78, 0x30, 0x40, 0x0F, 0x00, 0x01]

/-- `compress`, of a chunk of air. -/
def packAir (data : List Byte) : Option (List Byte) :=
  if data = List.replicate 81920 0 then some packedAir else none

/-- `uncompress`, of a chunk of air. -/
def unpackAir (buffer : List Byte) : Option (List Byte) :=
  if buffer = packedAir then some (List.replicate 81920 0) else none

private theorem zlib_air : Zlib packAir unpackAir where
  bound := by
    intro data buffer hpack
    unfold packAir at hpack
    split_ifs at hpack with hdata
    obtain rfl := Option.some.inj hpack
    have hlength : packedAir.length = 102 := by decide
    rw [hlength, hdata, List.length_replicate]
    omega
  inverse := by
    intro data buffer hpack
    unfold packAir at hpack
    split_ifs at hpack with hdata
    obtain rfl := Option.some.inj hpack
    rw [unpackAir, if_pos rfl, hdata]

end Craftd.Survival
