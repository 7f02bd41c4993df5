import Craftd.Library.MirrorTables
import Craftd.Survival.EntityPackets

/-!
# What clients are told about other players

A client that spawns, moves and destroys entities as it is told has, at every moment between
two steps of the players of a world, exactly the other players in the list of its own player,
each with its username and its present position.

Each edge between two players is announced to both when it is made or taken away, and a move
is announced to all that see the player.  An entity is named by its id, so it matters that the
ids of a world are never given twice.
-/

namespace Craftd.Survival

open StepSystem NeighbourLists MirrorTables

/-- What a client shows of an entity. -/
structure Shown where
  name : Option (List Byte)
  position : SVAbsolutePosition
  deriving DecidableEq

/-- A client spawns, moves and destroys entities as it is told; it does not move what it does not
have. -/
def EntityPacket.apply (packet : EntityPacket) (shown : SVEntityId → Option Shown) :
    SVEntityId → Option Shown :=
  match packet with
  | .namedEntitySpawn entity name position => Function.update shown entity (some ⟨name, position⟩)
  | .entityTeleport entity position =>
      Function.update shown entity ((shown entity).map fun entry => { entry with position })
  | .entityDestroy entity => Function.update shown entity none

variable {Client Player World : Type*} [DecidableEq Player]

omit [DecidableEq Player] in
/-- A player as another client is to show it. -/
def Game.shown (self : Game Client Player World) (player : Player) : Shown where
  name := (self.player player).username
  position := precisePositionToAbsolutePosition self.machine (self.player player).position

/-! ## What the clients show -/

/-- What the client of a player shows. -/
def view (player : Player) (sent : List (Player × EntityPacket)) : SVEntityId → Option Shown :=
  heard EntityPacket.apply player sent fun _ => none

/-- The clients of the players that are logged in show the members, as they are in a state. -/
def Shows (state : Game Client Player World) (members : Player → Player → Prop)
    (sent : List (Player × EntityPacket)) : Prop :=
  ∀ player, LoggedIn state player →
    Mirrors (fun other => (state.player other).id) state.shown (members player) (view player sent)

omit [DecidableEq Player] in
/-- No two players that are logged in have the same id. -/
def DistinctIds (state : Game Client Player World) : Prop :=
  ∀ player other, LoggedIn state player → LoggedIn state other →
    (state.player player).id = (state.player other).id → player = other

section Views

variable {state self next : Game Client Player World} {player otherPlayer : Player}
  {sent sent' : List (Player × EntityPacket)} {members members' : Player → Player → Prop}

private theorem view_spawn (self : Game Client Player World) (player otherPlayer vertex : Player) :
    view vertex (sent ++ sendNamedPlayerSpawn self player otherPlayer) =
      if player = vertex then
        Function.update (view vertex sent) (self.player otherPlayer).id
          (some (self.shown otherPlayer))
      else view vertex sent := by
  rw [view, heard_append, ← view, sendNamedPlayerSpawn, heard_cons, heard_cons, heard_nil]
  split_ifs
  · simp [EntityPacket.apply, Game.shown]
  · rfl

private theorem view_destroy (self : Game Client Player World)
    (player otherPlayer vertex : Player) :
    view vertex (sent ++ sendDestroyEntity self player otherPlayer) =
      if player = vertex then Function.update (view vertex sent) (self.player otherPlayer).id none
      else view vertex sent := by
  rw [view, heard_append, ← view, sendDestroyEntity, heard_cons, heard_nil]
  rfl

omit [DecidableEq Player] in
theorem receiver_spawn {message : Player × EntityPacket}
    (h : message ∈ sendNamedPlayerSpawn self player otherPlayer) : message.1 = player := by
  simp only [sendNamedPlayerSpawn, List.mem_cons, List.not_mem_nil, or_false] at h
  rcases h with rfl | rfl <;> rfl

omit [DecidableEq Player] in
theorem receiver_destroy {message : Player × EntityPacket}
    (h : message ∈ sendDestroyEntity self player otherPlayer) : message.1 = player := by
  rw [sendDestroyEntity, List.mem_singleton] at h
  rw [h]

theorem Shows.spawn (h : Shows state members sent) (hids : DistinctIds state)
    (hmembers : ∀ vertex other, members vertex other → LoggedIn state other)
    (hother : LoggedIn state otherPlayer) :
    Shows state (fun vertex other => members vertex other ∨ vertex = player ∧ other = otherPlayer)
      (sent ++ sendNamedPlayerSpawn state player otherPlayer) := by
  intro vertex hvertex
  rw [view_spawn]
  by_cases heq : player = vertex
  · subst heq
    rw [if_pos rfl]
    have hown : ∀ other, members player other →
        (state.player other).id = (state.player otherPlayer).id → other = otherPlayer :=
      fun other hmember => hids other otherPlayer (hmembers player other hmember) hother
    have hinserted := (h player hvertex).insert hown
    exact hinserted.congr (fun other => by simp) (fun _ _ => rfl) fun _ _ => rfl
  · rw [if_neg heq]
    refine (h vertex hvertex).congr (fun other => ?_) (fun _ _ => rfl) fun _ _ => rfl
    exact or_iff_left fun hcase => heq hcase.1.symm

theorem Shows.destroy (h : Shows state members sent) (hids : DistinctIds state)
    (hmembers : ∀ vertex other, members vertex other → LoggedIn state other)
    (hother : LoggedIn state otherPlayer) :
    Shows state
      (fun vertex other => members vertex other ∧ ¬ (vertex = player ∧ other = otherPlayer))
      (sent ++ sendDestroyEntity state player otherPlayer) := by
  intro vertex hvertex
  rw [view_destroy]
  by_cases heq : player = vertex
  · subst heq
    rw [if_pos rfl]
    have hown : ∀ other, members player other →
        (state.player other).id = (state.player otherPlayer).id → other = otherPlayer :=
      fun other hmember => hids other otherPlayer (hmembers player other hmember) hother
    have herased := (h player hvertex).erase hown
    exact herased.congr (fun other => by simp) (fun _ _ => rfl) fun _ _ => rfl
  · rw [if_neg heq]
    refine (h vertex hvertex).congr (fun other => ?_) (fun _ _ => rfl) fun _ _ => rfl
    exact and_iff_left fun hcase => heq hcase.1.symm

/-- Two players are spawned at each other. -/
theorem Shows.link (h : Shows state members sent) (hids : DistinctIds state)
    (hmembers : ∀ vertex other, members vertex other → LoggedIn state other)
    (hplayer : LoggedIn state player) (hother : LoggedIn state otherPlayer) :
    Shows state (fun vertex other => members vertex other ∨ vertex = player ∧ other = otherPlayer ∨
        vertex = otherPlayer ∧ other = player)
      (sent ++ sendNamedPlayerSpawn state player otherPlayer ++
        sendNamedPlayerSpawn state otherPlayer player) := by
  have hfirst : Shows state
      (fun vertex other => members vertex other ∨ vertex = player ∧ other = otherPlayer)
      (sent ++ sendNamedPlayerSpawn state player otherPlayer) := h.spawn hids hmembers hother
  have hboth : ∀ vertex other, members vertex other ∨ vertex = player ∧ other = otherPlayer →
      LoggedIn state other := by
    rintro vertex other (hmember | ⟨-, rfl⟩)
    · exact hmembers vertex other hmember
    · exact hother
  intro vertex hvertex
  exact (hfirst.spawn hids hboth hplayer vertex hvertex).congr (fun other => or_assoc.symm)
    (fun _ _ => rfl) fun _ _ => rfl

/-- Two players are destroyed at each other. -/
theorem Shows.unlink (h : Shows state members sent) (hids : DistinctIds state)
    (hmembers : ∀ vertex other, members vertex other → LoggedIn state other)
    (hplayer : LoggedIn state player) (hother : LoggedIn state otherPlayer) :
    Shows state (fun vertex other => members vertex other ∧
        ¬ (vertex = player ∧ other = otherPlayer) ∧ ¬ (vertex = otherPlayer ∧ other = player))
      (sent ++ sendDestroyEntity state player otherPlayer ++
        sendDestroyEntity state otherPlayer player) := by
  have hfirst : Shows state
      (fun vertex other => members vertex other ∧ ¬ (vertex = player ∧ other = otherPlayer))
      (sent ++ sendDestroyEntity state player otherPlayer) := h.destroy hids hmembers hother
  intro vertex hvertex
  exact (hfirst.destroy hids (fun vertex other hboth => hmembers vertex other hboth.1) hplayer
    vertex hvertex).congr (fun other => and_assoc.symm) (fun _ _ => rfl) fun _ _ => rfl

/-- Where no player changes, only the members have to be looked at. -/
theorem Shows.relist (h : Shows state members sent) (hlists : ListsOnly state next)
    (hmembers : ∀ vertex other, members' vertex other ↔ members vertex other) :
    Shows next members' sent := by
  intro vertex hvertex
  have hbefore : LoggedIn state vertex := by
    rwa [LoggedIn, hlists.isSome_eq] at hvertex
  refine (h vertex hbefore).congr (hmembers vertex) (fun other _ => hlists.id_eq other)
    fun other _ => ?_
  simp only [Game.shown, hlists.username_eq, hlists.position_eq, hlists.machine_eq]

/-! ### The check -/

section Check

variable {coord : SVChunkPosition} {radius : SVInteger} {order : List Player}
  {events : List (Player × EntityPacket)}

private theorem sendNamedPlayerSpawn_setSeen (vertex : Player) (new : Option (List Player)) :
    sendNamedPlayerSpawn (self.setSeen vertex new) player otherPlayer =
      sendNamedPlayerSpawn self player otherPlayer := by
  have hsame := SamePlayers.setSeen self vertex new
  unfold sendNamedPlayerSpawn
  rw [hsame.id_eq, hsame.username_eq, hsame.position_eq]
  rfl

private theorem sendDestroyEntity_setSeen (vertex : Player) (new : Option (List Player)) :
    sendDestroyEntity (self.setSeen vertex new) player otherPlayer =
      sendDestroyEntity self player otherPlayer := by
  unfold sendDestroyEntity
  rw [(SamePlayers.setSeen self vertex new).id_eq]

private theorem checkPlayerSending_sends (hne : otherPlayer ≠ player)
    (hround : checkPlayerSending player coord radius (self, sent) otherPlayer =
      .ok (next, sent')) :
    (InRegion self coord radius otherPlayer → ¬ Sees self.seenLists player otherPlayer →
        sent' = sent ++ sendNamedPlayerSpawn self player otherPlayer ++
          sendNamedPlayerSpawn self otherPlayer player) ∧
      (¬ InRegion self coord radius otherPlayer → Sees self.seenLists player otherPlayer →
        LoggedIn self otherPlayer ∧
        sent' = sent ++ sendDestroyEntity self player otherPlayer ++
          sendDestroyEntity self otherPlayer player) ∧
      ((InRegion self coord radius otherPlayer ↔ Sees self.seenLists player otherPlayer) →
        sent' = sent) := by
  have hkept : ∀ new, ((self.setSeen player new).player otherPlayer).seenPlayers =
      (self.player otherPlayer).seenPlayers := by
    intro new
    simp [Game.setSeen, Game.setPlayer, Function.update_of_ne hne]
  simp only [checkPlayerSending, if_neg hne, hkept] at hround
  cases hseen : (self.player player).seenPlayers with
  | none => simp [hseen] at hround
  | some seen =>
      have hsees : Sees self.seenLists player otherPlayer ↔ otherPlayer ∈ seen :=
        sees_iff_mem hseen
      simp only [hseen, sendNamedPlayerSpawn_setSeen, sendDestroyEntity_setSeen] at hround
      rw [hsees]
      unfold InRegion
      cases hother : (self.player otherPlayer).seenPlayers with
      -- without the list of the other player only rounds that change nothing go through
      | none =>
          simp only [hother] at hround
          split_ifs at hround with hregion hmem hmem
          · cases hround
            simp [hregion, hmem]
          · cases hround
            simp [hregion, hmem]
      | some otherSeen =>
          have hlogged : LoggedIn self otherPlayer := by simp [LoggedIn, Game.seenLists, hother]
          simp only [hother] at hround
          split_ifs at hround with hregion hmem hmem
          · cases hround
            simp [hregion, hmem]
          · cases hround
            simp [hregion, hmem]
          · cases hround
            simp [hregion, hmem, hlogged]
          · cases hround
            simp [hregion, hmem]

/-- The lists, the ids and the clients in the course of a check. -/
structure Announced (before : Game Client Player World) (events : List (Player × EntityPacket))
    (state : Sending Client Player World) : Prop where
  listsOnly : ListsOnly before state.1
  isMutual : Mutual state.1.seenLists
  pictured : Shows state.1 (Sees state.1.seenLists) (events ++ state.2)
  receivers : ∀ message ∈ state.2, LoggedIn before message.1

/-- One round tells both players of their new edge, or of the one that is gone. -/
theorem Announced.round {before : Game Client Player World}
    {state next : Sending Client Player World}
    (h : Announced before events state) (hids : DistinctIds before)
    (hround : checkPlayerSending player coord radius state otherPlayer = .ok next) :
    Announced before events next := by
  obtain ⟨self, sent⟩ := state
  obtain ⟨after, sent'⟩ := next
  have hstate : checkPlayer player coord radius self otherPlayer = .ok after := by
    rw [← checkPlayerSending_state player coord radius (self, sent), hround]
    rfl
  by_cases heq : otherPlayer = player
  · simp only [checkPlayerSending, if_pos heq] at hround
    cases hround
    exact h
  obtain ⟨hlists, hmutual, -, -⟩ := checkPlayer_edge h.isMutual heq hstate
  obtain ⟨hlinks, hunlinks, hstays⟩ := checkPlayerSending_sends heq hround
  obtain ⟨hplayer, hcases⟩ := checkPlayer_cases heq hstate
  have hselfIds : DistinctIds self := by
    intro vertex other hvertex hother hid
    rw [LoggedIn, h.listsOnly.isSome_eq] at hvertex hother
    rw [h.listsOnly.id_eq, h.listsOnly.id_eq] at hid
    exact hids vertex other hvertex hother hid
  have hlogged : ∀ vertex, LoggedIn self vertex → LoggedIn before vertex := by
    intro vertex hvertex
    rwa [LoggedIn, h.listsOnly.isSome_eq] at hvertex
  have hseen : ∀ vertex other, Sees self.seenLists vertex other → LoggedIn self other :=
    fun vertex other hsees => (h.isMutual.symm vertex other hsees).isSome
  rcases hcases with ⟨hregion, hnew, hother, -, hnext⟩ | ⟨hregion, hold, -, hnext⟩ | ⟨hiff, rfl⟩
  -- both are told of the new edge
  · obtain rfl := hlinks hregion hnew
    have hlinked := h.pictured.link hselfIds hseen hplayer hother
    refine ⟨h.listsOnly.trans hlists, hmutual, ?_, ?_⟩
    · rw [← List.append_assoc, ← List.append_assoc]
      refine hlinked.relist hlists fun vertex other => ?_
      rw [hnext, sees_link hplayer hother]
    · simp only [List.forall_mem_append]
      exact ⟨⟨h.receivers, fun message hsent => receiver_spawn hsent ▸ hlogged player hplayer⟩,
        fun message hsent => receiver_spawn hsent ▸ hlogged otherPlayer hother⟩
  -- both are told that the edge is gone
  · obtain ⟨hother, rfl⟩ := hunlinks hregion hold
    have hunlinked := h.pictured.unlink hselfIds hseen hplayer hother
    refine ⟨h.listsOnly.trans hlists, hmutual, ?_, ?_⟩
    · rw [← List.append_assoc, ← List.append_assoc]
      refine hunlinked.relist hlists fun vertex other => ?_
      rw [hnext, sees_unlink]
    · simp only [List.forall_mem_append]
      exact ⟨⟨h.receivers, fun message hsent => receiver_destroy hsent ▸ hlogged player hplayer⟩,
        fun message hsent => receiver_destroy hsent ▸ hlogged otherPlayer hother⟩
  · obtain rfl := hstays hiff
    exact h

/-- **What a check tells the clients.** -/
theorem checkPlayersInRegionSending_announced (hmutual : Mutual self.seenLists)
    (hids : DistinctIds self) (hpictured : Shows self (Sees self.seenLists) events)
    (hcheck : checkPlayersInRegionSending self player coord radius order = .ok (next, sent)) :
    Announced self events (next, sent) := by
  unfold checkPlayersInRegionSending at hcheck
  cases hworld : (self.player player).world with
  | none => simp [hworld] at hcheck
  | some world =>
      simp only [hworld] at hcheck
      have hstart : Announced self events (self, []) :=
        ⟨.refl self, hmutual, by rwa [List.append_nil], by simp⟩
      exact FallibleLoop.keeps_of_ok (fun _ _ _ hkept hround => Announced.round hkept hids hround)
        hstart hcheck

end Check

/-! ### The update of a position -/

/-- Packets to others do not change what a client shows. -/
theorem view_others {events : List (Player × EntityPacket)} {vertex : Player}
    (hothers : ∀ message ∈ sent, message.1 ≠ vertex) :
    view vertex (events ++ sent) = view vertex events := by
  rw [view, heard_append, heard_others _ _ hothers, view]

omit [DecidableEq Player] in
theorem mem_getD_iff (state : Game Client Player World) (player vertex : Player) :
    vertex ∈ (state.player player).seenPlayers.getD [] ↔ Sees state.seenLists player vertex := by
  cases hlist : (state.player player).seenPlayers with
  | none => simp [Sees, Game.seenLists, hlist]
  | some list => simp [Sees, Game.seenLists, hlist]

omit [DecidableEq Player] in
theorem nodup_getD (hnodups : Nodups state.seenLists) (player : Player) :
    ((state.player player).seenPlayers.getD []).Nodup := by
  cases hlist : (state.player player).seenPlayers with
  | none => exact List.nodup_nil
  | some list => exact hnodups player list hlist

theorem Shows.moved {events : List (Player × EntityPacket)} (hmutual : Mutual state.seenLists)
    (hids : DistinctIds state) (hself : ¬ Sees state.seenLists player player)
    (h : Shows state (Sees state.seenLists) events) (position : SVPrecisePosition) :
    Shows (state.setPosition player position) (Sees (state.setPosition player position).seenLists)
      (events ++ sendUpdatePos state player position) := by
  have hsame := SameRegistry.setPosition state player position
  have hothers : ∀ other, other ≠ player →
      (state.setPosition player position).shown other = state.shown other := by
    intro other hne
    simp [Game.shown, Game.setPosition, Game.setPlayer, Function.update_of_ne hne]
  rw [seenLists_setPosition]
  intro vertex hvertex
  have hshows := h vertex ((hsame.loggedIn_iff vertex).mp hvertex)
  have hmem : vertex ∈ ((state.player player).seenPlayers.getD []).filter (· ≠ player) ↔
      Sees state.seenLists vertex player := by
    rw [List.mem_filter, mem_getD_iff, decide_eq_true_eq]
    constructor
    · exact fun hsees => hmutual.symm player vertex hsees.1
    · intro hsees
      refine ⟨hmutual.symm vertex player hsees, ?_⟩
      rintro rfl
      exact hself hsees
  rw [view, heard_append, ← view, sendUpdatePos,
    heard_each _ _ ((nodup_getD hmutual.nodups player).filter _)]
  by_cases hsees : Sees state.seenLists vertex player
  · rw [if_pos (hmem.mpr hsees)]
    -- no other player that it sees has the id of the one that moved
    have hown : ∀ other, Sees state.seenLists vertex other →
        (state.player other).id = (state.player player).id → other = player :=
      fun other hother => hids other player (hmutual.symm vertex other hother).isSome
        (hmutual.symm vertex player hsees).isSome
    let place (entry : Shown) : Shown :=
      { entry with position := precisePositionToAbsolutePosition state.machine position }
    have hplaced : (state.setPosition player position).shown player =
        place (state.shown player) := by
      simp [place, Game.shown, Game.setPosition, Game.setPlayer]
    exact (hshows.change hown hplaced hothers).congr (fun _ => Iff.rfl)
      (fun other _ => hsame.id_eq other) fun _ _ => rfl
  · rw [if_neg (mt hmem.mp hsees)]
    refine hshows.congr (fun _ => Iff.rfl) (fun other _ => hsame.id_eq other) fun other hother => ?_
    refine hothers other ?_
    rintro rfl
    exact hsees hother

end Views

/-! ## The steps -/

/-- The clients of all players show what they are to show, and no id is given twice. -/
structure Told (world : World) (state : Game Client Player World)
    (events : List (Player × EntityPacket)) : Prop where
  visible : Visible world state
  distinct : ∀ player other, (state.player player).world = some world →
    (state.player other).world = some world →
    (state.player player).id = (state.player other).id → player = other
  id_le : ∀ player, (state.player player).world = some world →
    (state.player player).id.toNat ≤ (state.world world).lastGeneratedEntityId.toNat
  unheard : ∀ player, (state.player player).world = none → view player events = fun _ => none
  pictured : Shows state (Sees state.seenLists) events

section Steps

variable {world : World} {state next : Game Client Player World} {player : Player}
  {events sent : List (Player × EntityPacket)} {position : SVPrecisePosition}
  {username : List Byte} {order : List Player}

theorem Told.distinctIds (h : Told world state events) : DistinctIds state := by
  intro player other hplayer hother
  exact h.distinct player other (h.visible.registered player hplayer).1
    (h.visible.registered other hother).1

/-- Only players that are logged in get packets, so the others still show nothing. -/
theorem Told.still_unheard (h : Told world state events)
    (hreceivers : ∀ message ∈ sent, LoggedIn state message.1) (vertex : Player)
    (hout : (state.player vertex).world = none) :
    view vertex (events ++ sent) = fun _ => none := by
  have hothers : ∀ message ∈ sent, message.1 ≠ vertex := by
    rintro message hsent rfl
    have hin := (h.visible.registered message.1 (hreceivers message hsent)).1
    rw [hout] at hin
    cases hin
  rw [view_others hothers, h.unheard vertex hout]

omit [DecidableEq Player] in
/-- What the update of a position sends goes to players that see each other. -/
theorem receivers_updatePos [DecidableEq Player] (hmutual : Mutual state.seenLists) :
    ∀ message ∈ sendUpdatePos state player position, LoggedIn state message.1 := by
  intro message hsent
  obtain ⟨other, hother, rfl⟩ := List.mem_map.mp hsent
  have hsees := (mem_getD_iff state player other).mp (List.mem_of_mem_filter hother)
  exact (hmutual.symm player other hsees).isSome

theorem Told.move (h : Told world state events) (horder : IsOrder state world player order)
    (hsending : playerMoveSending state player position order = .ok (next, sent)) :
    Told world next (events ++ sent) := by
  have hmove : playerMove state player position order = .ok next := by
    rw [← playerMoveSending_state, hsending]
    rfl
  have hvisible := h.visible.move horder hmove
  have hsame := playerMove_same hmove
  have hmutual := h.visible.isMutual
  have hself : ¬ Sees next.seenLists player player :=
    fun hsees => ((hvisible.sees_iff player player).mp hsees).2.2.1 rfl
  -- what was sent went to players that are logged in, and is what they needed
  have hsent : Shows next (Sees next.seenLists) (events ++ sent) ∧
      ∀ message ∈ sent, LoggedIn state message.1 := by
    unfold playerMoveSending at hsending
    dsimp only at hsending
    split_ifs at hsending with hchunk
    · cases hsending
      rw [seenLists_setPosition] at hself
      exact ⟨h.pictured.moved hmutual h.distinctIds hself position, receivers_updatePos hmutual⟩
    · cases hcheck : checkPlayersInRegionSending state player (state.chunkOf position) 5 order with
      | error fault => simp [hcheck] at hsending
      | ok result =>
          obtain ⟨middle, first⟩ := result
          simp only [hcheck, Except.ok.injEq, Prod.mk.injEq] at hsending
          obtain ⟨rfl, rfl⟩ := hsending
          have hannounced :=
            checkPlayersInRegionSending_announced hmutual h.distinctIds h.pictured hcheck
          have hlists := hannounced.listsOnly
          have hids : DistinctIds middle := by
            intro vertex other hvertex hother hid
            rw [LoggedIn, hlists.isSome_eq] at hvertex hother
            rw [hlists.id_eq, hlists.id_eq] at hid
            exact h.distinctIds vertex other hvertex hother hid
          rw [seenLists_setPosition] at hself
          rw [← List.append_assoc]
          refine ⟨hannounced.pictured.moved hannounced.isMutual hids hself position, ?_⟩
          simp only [List.forall_mem_append]
          refine ⟨hannounced.receivers, fun message hmessage => ?_⟩
          have hlogged := receivers_updatePos hannounced.isMutual message hmessage
          rwa [LoggedIn, hlists.isSome_eq] at hlogged
  refine ⟨hvisible, ?_, ?_, ?_, hsent.1⟩
  · intro vertex other hvertex hother hid
    rw [hsame.playerWorld_eq] at hvertex hother
    rw [hsame.id_eq, hsame.id_eq] at hid
    exact h.distinct vertex other hvertex hother hid
  · intro vertex hvertex
    rw [hsame.playerWorld_eq] at hvertex
    rw [hsame.id_eq, hsame.world_eq]
    exact h.id_le vertex hvertex
  · intro vertex hvertex
    rw [hsame.playerWorld_eq] at hvertex
    exact h.still_unheard hsent.2 vertex hvertex

/-! ### Logins and logouts -/

omit [DecidableEq Player] in
private theorem lt_of_generateEntityId {self : SVWorld Player} {id : SVEntityId}
    (hlast : self.lastGeneratedEntityId.toNat ≤ integerMax)
    (hgenerate : generateEntityId self = some id) :
    self.lastGeneratedEntityId.toNat < id.toNat := by
  unfold generateEntityId at hgenerate
  unfold integerMax at hlast hgenerate
  split_ifs at hgenerate with hzero hmax
  · cases hgenerate
    rw [hzero]
    decide
  · cases hgenerate
    rw [BitVec.toNat_add, show (1 : SVEntityId).toNat = 1 from rfl]
    omega

variable [DecidableEq World]

/-- **What a login comes to**, with what it sends. -/
theorem playerLoginSending_cases
    (hlogin : playerLoginSending state world player username order = .ok (next, sent)) :
    (∃ name after, Added state after world player name ∧
        playerPreLoginSending after player order = .ok (next, sent)) ∨
      Refused state next player ∧ sent = [] := by
  unfold playerLoginSending at hlogin
  cases hadd : worldAddPlayer (state.setUsername player username) world player with
  | error fault => simp [hadd] at hlogin
  | ok result =>
      obtain ⟨after, accepted⟩ := result
      obtain ⟨-, hcases⟩ := worldAddPlayer_cases hadd
      rcases hcases with ⟨rfl, name, hadded⟩ | ⟨rfl, -, hafter⟩
      · simp only [hadd] at hlogin
        exact .inl ⟨name, after, hadded.of_setUsername, hlogin⟩
      · simp only [hadd, Except.ok.injEq, Prod.mk.injEq] at hlogin
        obtain ⟨rfl, rfl⟩ := hlogin
        rw [hafter]
        exact .inr ⟨refused_of_setError, rfl⟩

omit [DecidableEq World] in
theorem Told.added {after : Game Client Player World} {name : List Byte}
    (h : Told world state events) (hout : (state.player player).world = none)
    (houter : ¬ LoggedIn state player) (hvisible : Visible world next)
    (hadded : Added state after world player name)
    (hlogin : playerPreLoginSending after player order = .ok (next, sent)) :
    Told world next (events ++ sent) := by
  have hmutual := h.visible.isMutual
  have hlisted := hadded.listed hmutual houter
  have hnew := lt_of_generateEntityId h.visible.last hadded.id_eq
  unfold playerPreLoginSending at hlogin
  generalize hstate : after.setSeen player (some []) = listed at hlogin hlisted
  have hself : listed.player player = { after.player player with seenPlayers := some [] } := by
    rw [← hstate]
    simp [Game.setSeen, Game.setPlayer]
  have hothers := hlisted.others_eq
  have hne : ∀ other, LoggedIn state other → other ≠ player := by
    rintro other hother rfl
    exact houter hother
  -- the id of the player is none of the others'
  have hfresh : ∀ other, other ≠ player → (state.player other).world = some world →
      (listed.player other).id ≠ (listed.player player).id := by
    intro other hother hin heq
    rw [hothers other hother, hself] at heq
    have hle := h.id_le other hin
    rw [heq] at hle
    exact absurd hnew (Nat.not_lt.mpr hle)
  have hdistinct : ∀ vertex other, (listed.player vertex).world = some world →
      (listed.player other).world = some world →
      (listed.player vertex).id = (listed.player other).id → vertex = other := by
    intro vertex other hvertex hother hid
    by_cases hv : vertex = player
    · by_cases ho : other = player
      · rw [hv, ho]
      · rw [hothers other ho] at hother
        exact absurd (hv ▸ hid.symm) (hfresh other ho hother)
    · rw [hothers vertex hv] at hvertex
      by_cases ho : other = player
      · exact absurd (ho ▸ hid) (hfresh vertex hv hvertex)
      · rw [hothers other ho] at hother
        rw [hothers vertex hv, hothers other ho] at hid
        exact h.distinct vertex other hvertex hother hid
  have hin : ∀ vertex, LoggedIn listed vertex → (listed.player vertex).world = some world := by
    intro vertex hvertex
    rcases (hlisted.loggedIn_iff vertex).mp hvertex with rfl | hold
    · rw [hself]
      exact hadded.playerWorld_eq
    · rw [hothers vertex (hne vertex hold)]
      exact (h.visible.registered vertex hold).1
  have hids : DistinctIds listed := fun vertex other hvertex hother =>
    hdistinct vertex other (hin vertex hvertex) (hin other hother)
  -- its client shows nothing yet, and nobody else's shows it
  have hshows : Shows listed (Sees listed.seenLists) events := by
    intro vertex hvertex
    rcases (hlisted.loggedIn_iff vertex).mp hvertex with rfl | hold
    · rw [h.unheard vertex hout]
      exact mirrors_empty fun other hsees =>
        houter ((hlisted.sees_iff vertex other).mp hsees).isSome
    · have hkept : ∀ other, Sees state.seenLists vertex other →
          listed.player other = state.player other := fun other hother =>
        hothers other (hne other (hmutual.symm vertex other hother).isSome)
      have hmachine : listed.machine = state.machine := by
        rw [← hadded.machine_eq, ← hstate]
        rfl
      refine (h.pictured vertex hold).congr (hlisted.sees_iff vertex) (fun other hother => ?_)
        fun other hother => ?_
      · rw [hkept other hother]
      · rw [Game.shown, Game.shown, hkept other hother, hmachine]
  have hannounced := checkPlayersInRegionSending_announced hlisted.isMutual hids hshows hlogin
  have hlists := hannounced.listsOnly
  have hworlds : next.world = after.world := by
    rw [hlists.world_eq, ← hstate]
    rfl
  refine ⟨hvisible, ?_, ?_, ?_, hannounced.pictured⟩
  · intro vertex other hvertex hother hid
    rw [hlists.playerWorld_eq] at hvertex hother
    rw [hlists.id_eq, hlists.id_eq] at hid
    exact hdistinct vertex other hvertex hother hid
  · intro vertex hvertex
    rw [hlists.playerWorld_eq] at hvertex
    rw [hlists.id_eq, hworlds, hadded.last_eq]
    by_cases hv : vertex = player
    · rw [hv, hself]
    · rw [hothers vertex hv] at hvertex ⊢
      exact (h.id_le vertex hvertex).trans hnew.le
  · intro vertex hvertex
    rw [hlists.playerWorld_eq] at hvertex
    have hv : vertex ≠ player := by
      rintro rfl
      rw [hself, hadded.playerWorld_eq] at hvertex
      cases hvertex
    have hnobody : ∀ message ∈ sent, message.1 ≠ vertex := by
      rintro message hmessage rfl
      rw [hin message.1 (hannounced.receivers message hmessage)] at hvertex
      cases hvertex
    rw [hothers vertex hv] at hvertex
    rw [view_others hnobody, h.unheard vertex hvertex]

theorem Told.login (h : Told world state events) (horder : IsOrder state world player order)
    (hsending : playerLoginSending state world player username order = .ok (next, sent)) :
    Told world next (events ++ sent) := by
  have hlogin : playerLogin state world player username order = .ok next := by
    rw [← playerLoginSending_state, hsending]
    rfl
  have hvisible := h.visible.login horder hlogin
  obtain ⟨hout, houter⟩ := h.visible.outside (playerLogin_cases hlogin).1
  rcases playerLoginSending_cases hsending with ⟨name, after, hadded, hpre⟩ | ⟨hrefused, rfl⟩
  · exact h.added hout houter hvisible hadded hpre
  · rw [List.append_nil]
    refine ⟨hvisible, ?_, ?_, ?_, ?_⟩
    · intro vertex other hvertex hother hid
      rw [hrefused.playerWorld_eq] at hvertex hother
      rw [hrefused.id_eq, hrefused.id_eq] at hid
      exact h.distinct vertex other hvertex hother hid
    · intro vertex hvertex
      rw [hrefused.playerWorld_eq] at hvertex
      rw [hrefused.id_eq, hrefused.last_eq]
      exact h.id_le vertex hvertex
    · intro vertex hvertex
      rw [hrefused.playerWorld_eq] at hvertex
      exact h.unheard vertex hvertex
    · intro vertex hvertex
      rw [LoggedIn, hrefused.seenLists_eq] at hvertex
      rw [hrefused.seenLists_eq]
      refine (h.pictured vertex hvertex).congr (fun _ => Iff.rfl)
        (fun other _ => hrefused.id_eq other) fun other hother => ?_
      have hne : other ≠ player := by
        rintro rfl
        exact houter (h.visible.isMutual.symm vertex other hother).isSome
      rw [Game.shown, Game.shown, hrefused.others_eq other hne, hrefused.machine_eq]

omit [DecidableEq World] in
private theorem forget_sends {list : List Player} {last : Sending Client Player World}
    (hloop : list.foldlM (forgetPlayerSending player) (state, []) = .ok last) :
    last.2 = list.map fun other => (other, .entityDestroy (state.player player).id) := by
  let told (done : List Player) (loop : Sending Client Player World) : Prop :=
    SamePlayers state loop.1 ∧
      loop.2 = done.map fun other => (other, .entityDestroy (state.player player).id)
  have hround : ∀ done other loop after, told done loop →
      forgetPlayerSending player loop other = .ok after → told (done ++ [other]) after := by
    rintro done other ⟨self, sent⟩ after ⟨hsame, hsent⟩ hround
    unfold forgetPlayerSending at hround
    dsimp only at hsame hsent hround
    cases hlist : (self.player other).seenPlayers with
    | none => simp [hlist] at hround
    | some otherSeen =>
        simp only [hlist, Except.ok.injEq] at hround
        subst hround
        refine ⟨hsame.trans (SamePlayers.setSeen self other _), ?_⟩
        rw [hsent, sendDestroyEntity, hsame.id_eq, List.map_append]
        rfl
  have hstart : told [] (state, []) := ⟨SamePlayers.refl state, rfl⟩
  exact (FallibleLoop.invariant_of_ok hround hstart hloop).2

theorem playerLogoutSending_sent (hlogout : playerLogoutSending state player = .ok (next, sent)) :
    sent = ((state.player player).seenPlayers.getD []).map fun other =>
      (other, .entityDestroy (state.player player).id) := by
  unfold playerLogoutSending at hlogout
  dsimp only at hlogout
  cases hloop : ((state.player player).seenPlayers.getD []).foldlM (forgetPlayerSending player)
      (state.setSeen player none, []) with
  | error fault => simp [hloop] at hlogout
  | ok result =>
      obtain ⟨middle, told⟩ := result
      have htold := forget_sends hloop
      rw [(SamePlayers.setSeen state player none).id_eq] at htold
      simp only [hloop] at hlogout
      cases hworld : (middle.player player).world with
      | none => simp [hworld] at hlogout
      | some place =>
          simp only [hworld] at hlogout
          cases hremove : worldRemovePlayer middle place player with
          | error fault => simp [hremove, Except.map] at hlogout
          | ok removed =>
              rw [hremove] at hlogout
              cases hlogout
              exact htold

/-- A logout that takes no other player's entry. -/
theorem Told.logout (h : Told world state events) (hown : OwnEntry world state player)
    (hsending : playerLogoutSending state player = .ok (next, sent)) :
    Told world next (events ++ sent) := by
  have hlogout : playerLogout state player = .ok next := by
    rw [← playerLogoutSending_state, hsending]
    rfl
  have hvisible := h.visible.logout hown hlogout
  have hmutual := h.visible.isMutual
  obtain ⟨place, username, -, -, hout⟩ := playerLogout_loggedOut hlogout
  obtain ⟨-, hsees⟩ := sees_of_logout hmutual.nodups hlogout
  have hreceivers : ∀ message ∈ sent, LoggedIn state message.1 := by
    rw [playerLogoutSending_sent hsending]
    intro message hmessage
    obtain ⟨other, hother, rfl⟩ := List.mem_map.mp hmessage
    exact (hmutual.symm player other ((mem_getD_iff state player other).mp hother)).isSome
  have hlast : (next.world world).lastGeneratedEntityId =
      (state.world world).lastGeneratedEntityId := by
    by_cases hplace : world = place
    · rw [hplace, hout.last_eq]
    · rw [hout.worlds_eq world hplace]
  refine ⟨hvisible, ?_, ?_, ?_, ?_⟩
  · intro vertex other hvertex hother hid
    rw [hout.playerWorld_eq] at hvertex hother
    rw [hout.id_eq, hout.id_eq] at hid
    exact h.distinct vertex other hvertex hother hid
  · intro vertex hvertex
    rw [hout.playerWorld_eq] at hvertex
    rw [hout.id_eq, hlast]
    exact h.id_le vertex hvertex
  · intro vertex hvertex
    rw [hout.playerWorld_eq] at hvertex
    exact h.still_unheard hreceivers vertex hvertex
  · intro vertex hvertex
    obtain ⟨hne, hbefore⟩ := (hout.loggedIn_iff vertex).mp hvertex
    have hshows := h.pictured vertex hbefore
    have hshown : ∀ other, next.shown other = state.shown other := by
      intro other
      simp only [Game.shown, hout.username_eq, hout.position_eq, hout.machine_eq]
    rw [playerLogoutSending_sent hsending, view, heard_append, ← view,
      heard_each _ _ (nodup_getD hmutual.nodups player)]
    by_cases hseen : Sees state.seenLists player vertex
    · -- the client loses the entity of the player
      rw [if_pos ((mem_getD_iff state player vertex).mpr hseen)]
      have hback := hmutual.symm player vertex hseen
      have hown : ∀ other, Sees state.seenLists vertex other →
          (state.player other).id = (state.player player).id → other = player :=
        fun other hother => h.distinctIds other player (hmutual.symm vertex other hother).isSome
          (hmutual.symm vertex player hback).isSome
      refine (hshows.erase hown).congr (fun other => ?_) (fun other _ => hout.id_eq other)
        fun other _ => hshown other
      rw [hsees]
      simp [hne, hseen]
    · rw [if_neg (mt (mem_getD_iff state player vertex).mp hseen)]
      refine hshows.congr (fun other => ?_) (fun other _ => hout.id_eq other)
        fun other _ => hshown other
      rw [hsees]
      simp [hne, hseen]

/-- Every proper step keeps what the clients show in step. -/
theorem Told.step (h : Told world state events) {action : VisibilityAction Player}
    (hproper : Proper world state action)
    (hstep : entityStep world state action = some (next, sent)) :
    Told world next (events ++ sent) := by
  obtain ⟨horder, hown⟩ := hproper
  have hok : ∀ {result : Except Fault (Sending Client Player World)},
      result.toOption = some (next, sent) → result = .ok (next, sent) := by
    intro result hsome
    cases result with
    | error fault => cases hsome
    | ok value => exact congrArg Except.ok (Option.some.inj hsome)
  cases action with
  | login player username order => exact h.login horder (hok hstep)
  | move player position order => exact h.move horder (hok hstep)
  | logout player => exact h.logout hown (hok hstep)

end Steps

/-! ## The runs -/

section Runs

variable [DecidableEq World] {start state : Game Client Player World} {world : World}
  {events : List (Player × EntityPacket)}

omit [DecidableEq World] in
theorem Told.initial (hworld : start.world world = createWorld)
    (hplayers : ∀ player, (start.player player).world = none ∧
      (start.player player).seenPlayers = none) : Told world start [] := by
  refine ⟨.initial hworld hplayers, ?_, ?_, fun _ _ => rfl, ?_⟩
  · intro player other hplayer
    rw [(hplayers player).1] at hplayer
    cases hplayer
  · intro player hplayer
    rw [(hplayers player).1] at hplayer
    cases hplayer
  · intro player hplayer
    rw [LoggedIn, Game.seenLists, (hplayers player).2] at hplayer
    cases hplayer

/-- **What the clients show** is what the server has.  In every run of proper steps a client
that spawns, moves and destroys entities as it is told has, while its player is logged in,
exactly the entities of the other players that are logged in and near, each under its own id,
with its username and at its present position; and no other player has the id of its own. -/
theorem clients_show_players (hworld : start.world world = createWorld)
    (hplayers : ∀ player, (start.player player).world = none ∧
      (start.player player).seenPlayers = none)
    (hrun : (entityViews start world).Run (Proper world) events state) (player : Player)
    (hplayer : LoggedIn state player) :
    (∀ id entry, view player events id = some entry ↔
      ∃ other, LoggedIn state other ∧ other ≠ player ∧ Near state player other ∧
        (state.player other).id = id ∧ state.shown other = entry) ∧
    ∀ other, LoggedIn state other → (state.player other).id = (state.player player).id →
      other = player := by
  have htold : Told world state events :=
    System.Run.invariant (I := fun events last => Told world last events)
      (.initial hworld hplayers)
      (fun _ _ _ _ _ hlast hproper hstep => hlast.step hproper hstep) hrun
  refine ⟨fun id entry => ?_, fun other hother => htold.distinctIds other player hother hplayer⟩
  rw [htold.pictured player hplayer id entry]
  constructor
  · rintro ⟨other, hsees, hid, hentry⟩
    obtain ⟨-, hother, hne, hnear⟩ := (htold.visible.sees_iff player other).mp hsees
    exact ⟨other, hother, hne.symm, hnear, hid, hentry⟩
  · rintro ⟨other, hother, hne, hnear, hid, hentry⟩
    exact ⟨other, (htold.visible.sees_iff player other).mpr ⟨hplayer, hother, hne.symm, hnear⟩,
      hid, hentry⟩

end Runs

/-- Two players log in, and the client of the first shows the second. -/
theorem clients_show_players_two :
    ∃ events, view 0 events 11 = some ⟨some [0x63], ⟨0, 0, 0⟩⟩ := by
  let first : VisibilityAction ℕ := .login 0 [0x62] []
  let second : VisibilityAction ℕ := .login 1 [0x63] [0]
  have hproper : Proper () freshGame first :=
    ⟨isOrder_of_keys (fun _ => none) rfl fun other _ => by simp, trivial⟩
  have hfirst : (entityViews freshGame ()).Run (Proper ()) [] (stateAfter [first] freshGame) :=
    .step .start hproper rfl
  have hproper' : Proper () (stateAfter [first] freshGame) second := by
    refine ⟨isOrder_of_keys (Function.update (fun _ => none) [0x62] (some 0)) rfl
      fun other _ => ?_, trivial⟩
    rw [exists_update_iff rfl]
    simp
  have hsecond : (entityViews freshGame ()).Run (Proper ()) _
      (stateAfter [first, second] freshGame) := .step hfirst hproper' rfl
  have hshows := clients_show_players rfl (fun player => ⟨rfl, rfl⟩) hsecond 0 rfl
  have hshown : (stateAfter [first, second] freshGame).shown 1 = ⟨some [0x63], ⟨0, 0, 0⟩⟩ := by
    have hposition : ((stateAfter [first, second] freshGame).player 1).position =
        ⟨.finite 0, .finite 0, .finite 0⟩ := rfl
    rw [Game.shown, hposition]
    simp [precisePositionToAbsolutePosition, SVDouble.times32, SVDouble.toInteger]
    rfl
  exact ⟨_, (hshows.1 11 _).mpr ⟨1, rfl, by decide, by decide, rfl, hshown⟩⟩

end Craftd.Survival
