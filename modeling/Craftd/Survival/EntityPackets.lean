import Craftd.Survival.Positions
import Craftd.Survival.Visibility

/-!
# Packets about other players

The callbacks that keep `Player.seenPlayers` send a packet with each change:
`cdsurvival_SendNamedPlayerSpawn` where a player comes into a list,
`cdsurvival_SendDestroyEntity` where it goes out of one, and `cdsurvival_SendUpdatePos` to all
of a list when its player moves.  Here the callbacks are translated with what they send; what
they do to the state is what they do without it (`entityStep_state`).

The rotation of a player, the slots of its equipment and the message to the other player are
left out.
-/

namespace Craftd.Survival

open StepSystem

/-- The packets about the entity of another player. -/
inductive EntityPacket
  | namedEntitySpawn (entity : SVEntityId) (name : Option (List Byte))
      (position : SVAbsolutePosition)
  | entityTeleport (entity : SVEntityId) (position : SVAbsolutePosition)
  | entityDestroy (entity : SVEntityId)
  deriving DecidableEq

variable {Client Player World : Type*} [DecidableEq Player]

/-! ## What is sent -/

omit [DecidableEq Player] in
/-- `cdsurvival_SendNamedPlayerSpawn`. -/
def sendNamedPlayerSpawn (self : Game Client Player World) (player other : Player) :
    List (Player × EntityPacket) :=
  let entity := (self.player other).id
  let position := precisePositionToAbsolutePosition self.machine (self.player other).position
  [(player, .namedEntitySpawn entity (self.player other).username position),
    (player, .entityTeleport entity position)]

omit [DecidableEq Player] in
/-- `cdsurvival_SendDestroyEntity` with the entity of another player. -/
def sendDestroyEntity (self : Game Client Player World) (player other : Player) :
    List (Player × EntityPacket) :=
  [(player, .entityDestroy (self.player other).id)]

/-- `cdsurvival_SendUpdatePos`, through `cdsurvival_SendPacketToAllInRegion`. -/
def sendUpdatePos (self : Game Client Player World) (player : Player)
    (newPosition : SVPrecisePosition) : List (Player × EntityPacket) :=
  let packet := .entityTeleport (self.player player).id
    (precisePositionToAbsolutePosition self.machine newPosition)
  (((self.player player).seenPlayers.getD []).filter (· ≠ player)).map fun other =>
    (other, packet)

/-! ## The callbacks -/

/-- A state, and what was sent on the way to it. -/
abbrev Sending (Client Player World : Type*) :=
  Game Client Player World × List (Player × EntityPacket)

/-- The body of the loop of `cdsurvival_CheckPlayersInRegion`. -/
def checkPlayerSending (player : Player) (coord : SVChunkPosition) (radius : SVInteger)
    (state : Sending Client Player World) (otherPlayer : Player) :
    Except Fault (Sending Client Player World) :=
  let (self, sent) := state
  if otherPlayer = player then .ok (self, sent)
  else
    let chunkPos := self.chunkOf (self.player otherPlayer).position
    match (self.player player).seenPlayers with
    | none => .error .assertion
    | some seenPlayers =>
        if coordInRadius chunkPos coord radius then
          if otherPlayer ∈ seenPlayers then .ok (self, sent)
          else
            let self := self.setSeen player (some (seenPlayers ++ [otherPlayer]))
            let sent := sent ++ sendNamedPlayerSpawn self player otherPlayer
            match (self.player otherPlayer).seenPlayers with
            | none => .error .assertion
            | some otherSeenPlayers =>
                let self := self.setSeen otherPlayer (some (otherSeenPlayers ++ [player]))
                .ok (self, sent ++ sendNamedPlayerSpawn self otherPlayer player)
        else if otherPlayer ∈ seenPlayers then
          let self := self.setSeen player (some (seenPlayers.filter (· ≠ otherPlayer)))
          match (self.player otherPlayer).seenPlayers with
          | none => .error .undefined
          | some otherSeenPlayers =>
              let self := self.setSeen otherPlayer (some (otherSeenPlayers.filter (· ≠ player)))
              .ok (self, sent ++ sendDestroyEntity self player otherPlayer ++
                sendDestroyEntity self otherPlayer player)
        else .ok (self, sent)

/-- `cdsurvival_CheckPlayersInRegion`. -/
def checkPlayersInRegionSending (self : Game Client Player World) (player : Player)
    (coord : SVChunkPosition) (radius : SVInteger) (order : List Player) :
    Except Fault (Sending Client Player World) :=
  match (self.player player).world with
  | none => .error .missingWorld
  | some _ => order.foldlM (checkPlayerSending player coord radius) (self, [])

/-- `cdsurvival_PlayerPreLogin`. -/
def playerPreLoginSending (self : Game Client Player World) (player : Player)
    (order : List Player) : Except Fault (Sending Client Player World) :=
  let self := self.setSeen player (some [])
  checkPlayersInRegionSending self player (self.chunkOf (self.player player).position) 5 order

/-- What `cdsurvival_ClientProcess` does for a `SVPlayerPosition` or `SVPlayerMoveLook` with a
player. -/
def playerMoveSending (self : Game Client Player World) (player : Player)
    (position : SVPrecisePosition) (order : List Player) :
    Except Fault (Sending Client Player World) :=
  let newChunk := self.chunkOf position
  let curChunk := self.chunkOf (self.player player).position
  if newChunk = curChunk then
    .ok (self.setPosition player position, sendUpdatePos self player position)
  else
    match checkPlayersInRegionSending self player newChunk 5 order with
    | .error fault => .error fault
    | .ok (self, sent) =>
        .ok (self.setPosition player position, sent ++ sendUpdatePos self player position)

/-- The body of the loop of `cdsurvival_PlayerLogout`. -/
def forgetPlayerSending (player : Player) (state : Sending Client Player World) (other : Player) :
    Except Fault (Sending Client Player World) :=
  let (self, sent) := state
  let sent := sent ++ sendDestroyEntity self other player
  match (self.player other).seenPlayers with
  | none => .error .undefined
  | some otherSeenPlayers =>
      .ok (self.setSeen other (some (otherSeenPlayers.filter (· ≠ player))), sent)

section Worlds

variable [DecidableEq World]

/-- `cdsurvival_PlayerLogout`. -/
def playerLogoutSending (self : Game Client Player World) (player : Player) :
    Except Fault (Sending Client Player World) :=
  let seenPlayers := (self.player player).seenPlayers
  let self := self.setSeen player none
  match (seenPlayers.getD []).foldlM (forgetPlayerSending player) (self, []) with
  | .error fault => .error fault
  | .ok (self, sent) =>
      match (self.player player).world with
      | none => .error .assertion
      | some world => (worldRemovePlayer self world player).map fun self => (self, sent)

/-- The login of a player under a username. -/
def playerLoginSending (state : Game Client Player World) (world : World) (player : Player)
    (username : List Byte) (order : List Player) : Except Fault (Sending Client Player World) :=
  match worldAddPlayer (state.setUsername player username) world player with
  | .error fault => .error fault
  | .ok (state, false) => .ok (state, [])
  | .ok (state, true) => playerPreLoginSending state player order

/-- One step, with what it sends. -/
def entityStep (world : World) (state : Game Client Player World) :
    VisibilityAction Player → Option (Sending Client Player World)
  | .login player username order => (playerLoginSending state world player username order).toOption
  | .move player position order => (playerMoveSending state player position order).toOption
  | .logout player => (playerLogoutSending state player).toOption

/-- The steps of the players of a world; the events are the packets. -/
def entityViews (start : Game Client Player World) (world : World) :
    System (Game Client Player World) (VisibilityAction Player) (Player × EntityPacket) where
  init := start
  step := entityStep world

end Worlds

/-! ## The state is what it was without the packets -/

section States

variable {state : Game Client Player World} {player : Player} {coord : SVChunkPosition}
  {radius : SVInteger} {order : List Player}

theorem checkPlayerSending_state (player : Player) (coord : SVChunkPosition) (radius : SVInteger)
    (state : Sending Client Player World) (otherPlayer : Player) :
    (checkPlayerSending player coord radius state otherPlayer).map Prod.fst =
      checkPlayer player coord radius state.1 otherPlayer := by
  obtain ⟨self, sent⟩ := state
  unfold checkPlayerSending checkPlayer
  by_cases heq : otherPlayer = player
  · simp only [if_pos heq]
    rfl
  · have hkept : ∀ new, ((self.setSeen player new).player otherPlayer).seenPlayers =
        (self.player otherPlayer).seenPlayers := by
      intro new
      simp [Game.setSeen, Game.setPlayer, Function.update_of_ne heq]
    cases hseen : (self.player player).seenPlayers with
    | none =>
        simp only [if_neg heq, hseen]
        rfl
    | some seen =>
        simp only [if_neg heq, hseen, hkept]
        cases (self.player otherPlayer).seenPlayers <;> split_ifs <;> rfl

theorem checkPlayersInRegionSending_state (self : Game Client Player World) (player : Player)
    (coord : SVChunkPosition) (radius : SVInteger) (order : List Player) :
    (checkPlayersInRegionSending self player coord radius order).map Prod.fst =
      checkPlayersInRegion self player coord radius order := by
  unfold checkPlayersInRegionSending checkPlayersInRegion
  cases (self.player player).world with
  | none => rfl
  | some world =>
      exact FallibleLoop.map_foldlM (checkPlayerSending_state player coord radius) order (self, [])

theorem playerMoveSending_state (position : SVPrecisePosition) :
    (playerMoveSending state player position order).map Prod.fst =
      playerMove state player position order := by
  unfold playerMoveSending playerMove
  dsimp only
  split_ifs
  · rfl
  · rw [← checkPlayersInRegionSending_state]
    cases checkPlayersInRegionSending state player (state.chunkOf position) 5 order <;> rfl

private theorem forgetPlayerSending_state (player : Player) (state : Sending Client Player World)
    (other : Player) :
    (forgetPlayerSending player state other).map Prod.fst = forgetPlayer player state.1 other := by
  obtain ⟨self, sent⟩ := state
  unfold forgetPlayerSending forgetPlayer
  dsimp only
  cases (self.player other).seenPlayers <;> rfl

variable [DecidableEq World]

theorem playerLogoutSending_state :
    (playerLogoutSending state player).map Prod.fst = playerLogout state player := by
  unfold playerLogoutSending playerLogout
  have hloop := FallibleLoop.map_foldlM (forgetPlayerSending_state player)
    ((state.player player).seenPlayers.getD []) (state.setSeen player none, [])
  dsimp only at hloop ⊢
  rw [← hloop]
  cases ((state.player player).seenPlayers.getD []).foldlM (forgetPlayerSending player)
      (state.setSeen player none, []) with
  | error fault => rfl
  | ok middle =>
      obtain ⟨self, sent⟩ := middle
      simp only [Except.map]
      cases (self.player player).world with
      | none => rfl
      | some world =>
          dsimp only
          cases worldRemovePlayer self world player <;> rfl

theorem playerLoginSending_state (world : World) (username : List Byte) :
    (playerLoginSending state world player username order).map Prod.fst =
      playerLogin state world player username order := by
  unfold playerLoginSending playerLogin
  cases worldAddPlayer (state.setUsername player username) world player with
  | error fault => rfl
  | ok result =>
      obtain ⟨after, _ | _⟩ := result
      · rfl
      · exact checkPlayersInRegionSending_state _ _ _ _ _

/-- **A step with its packets** comes to the state that the step alone comes to, or to none
where that has none. -/
theorem entityStep_state (world : World) (state : Game Client Player World)
    (action : VisibilityAction Player) :
    (entityStep world state action).map Prod.fst =
      (visibilityStep world state action).map Prod.fst := by
  have hmap : ∀ {Value : Type _} (result : Except Fault (Value × List (Player × EntityPacket))),
      result.toOption.map Prod.fst = (result.map Prod.fst).toOption := by
    intro Value result
    cases result <;> rfl
  cases action with
  | login player username order =>
      rw [entityStep, hmap, playerLoginSending_state, visibilityStep]
      cases playerLogin state world player username order <;> rfl
  | move player position order =>
      rw [entityStep, hmap, playerMoveSending_state, visibilityStep]
      cases playerMove state player position order <;> rfl
  | logout player =>
      rw [entityStep, hmap, playerLogoutSending_state, visibilityStep]
      cases playerLogout state player <;> rfl

end States

end Craftd.Survival
