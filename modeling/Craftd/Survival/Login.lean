import Craftd.Survival.Region
import Craftd.Survival.WorldRegistry

/-!
# Logins and logouts

The login of a player, `SV_WorldAddPlayer` followed by `cdsurvival_PlayerPreLogin`,
and what the calls of a login and a logout do to the players and to the worlds,
whatever state they are made in.
-/

namespace Craftd.Survival

open NeighbourLists

variable {Client Player World : Type*}

/-- A player is logged in from its login to its logout. -/
def LoggedIn (state : Game Client Player World) (player : Player) : Prop :=
  (state.seenLists player).isSome

variable [DecidableEq Player] [DecidableEq World]

/-- The login of a player under a username. -/
def playerLogin (state : Game Client Player World) (world : World) (player : Player)
    (username : List Byte) (order : List Player) : Except Fault (Game Client Player World) :=
  match worldAddPlayer (state.setUsername player username) world player with
  | .error fault => .error fault
  | .ok (state, false) => .ok state
  | .ok (state, true) => playerPreLogin state player order

/-! ## A move -/

/-- Two states with the same registry and the same players logged in. -/
structure SameRegistry (before after : Game Client Player World) : Prop where
  world_eq : after.world = before.world
  client_eq : ∀ player, (after.player player).client = (before.player player).client
  id_eq : ∀ player, (after.player player).id = (before.player player).id
  username_eq : ∀ player, (after.player player).username = (before.player player).username
  playerWorld_eq : ∀ player, (after.player player).world = (before.player player).world
  loggedIn_iff : ∀ player, LoggedIn after player ↔ LoggedIn before player

omit [DecidableEq Player] [DecidableEq World] in
theorem SameRegistry.of_listsOnly {before after : Game Client Player World}
    (h : ListsOnly before after) : SameRegistry before after := by
  constructor
  · exact h.world_eq
  · exact h.client_eq
  · exact h.id_eq
  · exact h.username_eq
  · exact h.playerWorld_eq
  · intro player
    unfold LoggedIn
    rw [h.isSome_eq]

omit [DecidableEq Player] [DecidableEq World] in
theorem SameRegistry.trans {before middle after : Game Client Player World}
    (h : SameRegistry before middle) (h' : SameRegistry middle after) :
    SameRegistry before after := by
  constructor
  · exact h'.world_eq.trans h.world_eq
  · exact fun player => (h'.client_eq player).trans (h.client_eq player)
  · exact fun player => (h'.id_eq player).trans (h.id_eq player)
  · exact fun player => (h'.username_eq player).trans (h.username_eq player)
  · exact fun player => (h'.playerWorld_eq player).trans (h.playerWorld_eq player)
  · exact fun player => (h'.loggedIn_iff player).trans (h.loggedIn_iff player)

omit [DecidableEq World] in
theorem SameRegistry.setPosition (state : Game Client Player World) (player : Player)
    (position : SVPrecisePosition) : SameRegistry state (state.setPosition player position) := by
  constructor
  · rfl
  all_goals
    intro other
    by_cases hother : other = player
    · subst hother
      simp [Game.setPosition, Game.setPlayer, LoggedIn, Game.seenLists]
    · simp [Game.setPosition, Game.setPlayer, LoggedIn, Game.seenLists,
        Function.update_of_ne hother]

omit [DecidableEq World] in
theorem seenLists_setPosition (state : Game Client Player World) (player : Player)
    (position : SVPrecisePosition) :
    (state.setPosition player position).seenLists = state.seenLists := by
  funext other
  by_cases hother : other = player
  · subst hother
    simp [Game.setPosition, Game.setPlayer, Game.seenLists]
  · simp [Game.setPosition, Game.setPlayer, Game.seenLists, Function.update_of_ne hother]

variable {world : World} {state next : Game Client Player World} {player : Player}

omit [DecidableEq World] in
/-- **What a move does.**  The players in the region are checked when it comes to another
chunk, and in either case the player is put at the position. -/
theorem playerMove_cases {position : SVPrecisePosition} {order : List Player}
    (hmove : playerMove state player position order = .ok next) :
    (state.chunkOf position = state.chunkOf (state.player player).position ∧
      next = state.setPosition player position) ∨
    ∃ middle, checkPlayersInRegion state player (state.chunkOf position) 5 order = .ok middle ∧
      next = middle.setPosition player position := by
  unfold playerMove at hmove
  by_cases hchunk : state.chunkOf position = state.chunkOf (state.player player).position
  · rw [if_pos hchunk, Except.ok.injEq] at hmove
    exact .inl ⟨hchunk, hmove.symm⟩
  · rw [if_neg hchunk] at hmove
    cases hcheck : checkPlayersInRegion state player (state.chunkOf position) 5 order with
    | error fault => simp [hcheck] at hmove
    | ok middle =>
        simp only [hcheck, Except.ok.injEq] at hmove
        exact .inr ⟨middle, rfl, hmove.symm⟩

omit [DecidableEq World] in
theorem playerMove_same {position : SVPrecisePosition} {order : List Player}
    (hmove : playerMove state player position order = .ok next) : SameRegistry state next := by
  obtain ⟨-, rfl⟩ | ⟨middle, hcheck, rfl⟩ := playerMove_cases hmove
  · exact .setPosition state player position
  · have hlists := checkPlayersInRegion_listsOnly hcheck
    exact (SameRegistry.of_listsOnly hlists).trans (.setPosition middle player position)

omit [DecidableEq World] in
theorem playerMove_mutual {position : SVPrecisePosition} {order : List Player}
    (hmutual : Mutual state.seenLists)
    (hmove : playerMove state player position order = .ok next) : Mutual next.seenLists := by
  obtain ⟨-, rfl⟩ | ⟨middle, hcheck, rfl⟩ := playerMove_cases hmove
  · rw [seenLists_setPosition]
    exact hmutual
  · rw [seenLists_setPosition]
    exact (checkPlayersInRegion_checked hmutual hcheck).isMutual

/-! ## The login -/

omit [DecidableEq World] in
theorem playerPreLogin_same {order : List Player}
    (hcheck : playerPreLogin state player order = .ok next) :
    SamePlayers state next ∧ next.world = state.world := by
  unfold playerPreLogin at hcheck
  have hlists := checkPlayersInRegion_listsOnly hcheck
  exact ⟨(SamePlayers.setSeen state player (some [])).trans hlists.toSamePlayers,
    hlists.world_eq⟩

/-- What an accepted `SV_WorldAddPlayer` does. -/
structure Added (before after : Game Client Player World) (world : World) (player : Player)
    (name : List Byte) : Prop where
  id_eq : generateEntityId (before.world world) = some (after.player player).id
  free : (before.world world).players (stringContent name) = none
  username_eq : (after.player player).username = some name
  playerWorld_eq : (after.player player).world = some world
  client_eq : (after.player player).client = (before.player player).client
  position_eq : (after.player player).position = (before.player player).position
  others_eq : ∀ other, other ≠ player → after.player other = before.player other
  players_eq : (after.world world).players =
    Function.update (before.world world).players (stringContent name) (some player)
  entities_eq : (after.world world).entities =
    Function.update (before.world world).entities (after.player player).id (some player)
  last_eq : (after.world world).lastGeneratedEntityId = (after.player player).id
  worlds_eq : ∀ other, other ≠ world → after.world other = before.world other
  machine_eq : after.machine = before.machine

theorem added_of_putPlayer {before after : Game Client Player World} {name : List Byte}
    {accepted : Bool} (hfree : (before.world world).hasPlayer name = false)
    (hput : putPlayer before world player name = .ok (after, accepted)) :
    accepted = true ∧ Added before after world player name := by
  unfold putPlayer at hput
  cases hid : generateEntityId (before.world world) with
  | none => simp [hid] at hput
  | some id =>
      simp only [hid, Except.ok.injEq, Prod.mk.injEq] at hput
      obtain ⟨rfl, rfl⟩ := hput
      refine ⟨rfl, ?_⟩
      constructor
      · simpa [Game.setPlayer, Game.setWorld] using hid
      · simpa [SVWorld.hasPlayer] using hfree
      · simp [Game.setPlayer, Game.setWorld]
      · simp [Game.setPlayer, Game.setWorld]
      · simp [Game.setPlayer, Game.setWorld]
      · simp [Game.setPlayer, Game.setWorld]
      · intro other hne
        simp [Game.setPlayer, Game.setWorld, Function.update_of_ne hne]
      · simp [Game.setPlayer, Game.setWorld]
      · simp [Game.setPlayer, Game.setWorld]
      · simp [Game.setPlayer, Game.setWorld]
      · intro other hne
        simp [Game.setPlayer, Game.setWorld, Function.update_of_ne hne]
      · rfl

theorem worldAddPlayer_cases {before after : Game Client Player World} {accepted : Bool}
    (hadd : worldAddPlayer before world player = .ok (after, accepted)) :
    (before.player player).id = 0 ∧
      (accepted = true ∧ (∃ name, Added before after world player name) ∨
        accepted = false ∧ before.standard = true ∧
          after = before.setWorld world
            { before.world world with error := some .usernameTaken }) := by
  unfold worldAddPlayer at hadd
  by_cases hid : (before.player player).id = 0
  · refine ⟨hid, ?_⟩
    rw [if_neg (by simp [hid])] at hadd
    cases husername : (before.player player).username with
    | none => simp [husername] at hadd
    | some username =>
        simp only [husername] at hadd
        by_cases htaken : (before.world world).hasPlayer username = true
        · rw [if_pos htaken] at hadd
          by_cases hstandard : before.standard = true
          · rw [if_pos hstandard, Except.ok.injEq, Prod.mk.injEq] at hadd
            exact Or.inr ⟨hadd.2.symm, hstandard, hadd.1.symm⟩
          · rw [if_neg hstandard] at hadd
            cases hloop : renameLoop (before.world world) username (integerMax - 1) 1 with
            | none => simp [hloop] at hadd
            | some name =>
                simp only [hloop] at hadd
                obtain ⟨haccepted, hadded⟩ := added_of_putPlayer (renameLoop_spec hloop).1 hadd
                exact Or.inl ⟨haccepted, name, hadded⟩
        · rw [if_neg htaken] at hadd
          obtain ⟨haccepted, hadded⟩ := added_of_putPlayer (by simpa using htaken) hadd
          exact Or.inl ⟨haccepted, username, hadded⟩
  · rw [if_pos hid] at hadd
    cases hadd

omit [DecidableEq Player] in
/-- A generated id is not zero and no larger than an `SVInteger` can be. -/
theorem generateEntityId_spec {self : SVWorld Player} {id : SVEntityId}
    (hlast : self.lastGeneratedEntityId.toNat ≤ integerMax)
    (hgenerate : generateEntityId self = some id) : id ≠ 0 ∧ id.toNat ≤ integerMax := by
  unfold generateEntityId at hgenerate
  unfold integerMax at hlast hgenerate ⊢
  split_ifs at hgenerate with hzero hmax
  · cases hgenerate
    exact ⟨by decide, by decide⟩
  · cases hgenerate
    have hvalue : (self.lastGeneratedEntityId + 1).toNat =
        self.lastGeneratedEntityId.toNat + 1 := by
      rw [BitVec.toNat_add, show (1 : SVEntityId).toNat = 1 from rfl]
      omega
    refine ⟨?_, by omega⟩
    intro hid
    rw [hid] at hvalue
    simp at hvalue

omit [DecidableEq World] in
theorem Added.of_setUsername {after : Game Client Player World} {username name : List Byte}
    (h : Added (state.setUsername player username) after world player name) :
    Added state after world player name := by
  have hself : (state.setUsername player username).player player =
      { state.player player with username := some username } := by
    simp [Game.setUsername, Game.setPlayer]
  constructor
  · exact h.id_eq
  · exact h.free
  · exact h.username_eq
  · exact h.playerWorld_eq
  · rw [h.client_eq, hself]
  · rw [h.position_eq, hself]
  · intro other hne
    rw [h.others_eq other hne]
    exact Function.update_of_ne hne _ _
  · exact h.players_eq
  · exact h.entities_eq
  · exact h.last_eq
  · exact h.worlds_eq
  · exact h.machine_eq

/-- What a refused login changes is the username of the player and the error of the world. -/
structure Refused (before after : Game Client Player World) (player : Player) : Prop where
  client_eq : ∀ other, (after.player other).client = (before.player other).client
  id_eq : ∀ other, (after.player other).id = (before.player other).id
  playerWorld_eq : ∀ other, (after.player other).world = (before.player other).world
  seenLists_eq : after.seenLists = before.seenLists
  others_eq : ∀ other, other ≠ player → after.player other = before.player other
  players_eq : ∀ world, (after.world world).players = (before.world world).players
  entities_eq : ∀ world, (after.world world).entities = (before.world world).entities
  last_eq : ∀ world,
    (after.world world).lastGeneratedEntityId = (before.world world).lastGeneratedEntityId
  machine_eq : after.machine = before.machine

theorem refused_of_setError {username : List Byte} {error : Option SVWorldError} :
    Refused state ((state.setUsername player username).setWorld world
      { state.world world with error := error }) player := by
  have hplayer : ∀ other, other ≠ player →
      (state.setUsername player username).player other = state.player other := by
    intro other hne
    exact Function.update_of_ne hne _ _
  have hself : (state.setUsername player username).player player =
      { state.player player with username := some username } := by
    simp [Game.setUsername, Game.setPlayer]
  constructor
  iterate 3
    · intro other
      by_cases heq : other = player
      · rw [heq, Game.setWorld, hself]
      · rw [Game.setWorld, hplayer other heq]
  · funext other
    unfold Game.seenLists Game.setWorld
    by_cases heq : other = player
    · rw [heq, hself]
    · rw [hplayer other heq]
  · exact hplayer
  iterate 3
    · intro place
      by_cases hplace : place = world
      · subst hplace
        simp [Game.setWorld]
      · simp [Game.setWorld, Function.update_of_ne hplace, Game.setUsername, Game.setPlayer]
  · rfl

/-- **What a login comes to**: the player had no id, and the world takes it in or refuses it. -/
theorem playerLogin_cases {username : List Byte} {order : List Player}
    (hlogin : playerLogin state world player username order = .ok next) :
    (state.player player).id = 0 ∧
      ((∃ name after, Added state after world player name ∧
          playerPreLogin after player order = .ok next) ∨ Refused state next player) := by
  unfold playerLogin at hlogin
  cases hadd : worldAddPlayer (state.setUsername player username) world player with
  | error fault => simp [hadd] at hlogin
  | ok result =>
      obtain ⟨after, accepted⟩ := result
      obtain ⟨hid, hcases⟩ := worldAddPlayer_cases hadd
      refine ⟨by simpa [Game.setUsername, Game.setPlayer] using hid, ?_⟩
      rcases hcases with ⟨rfl, name, hadded⟩ | ⟨rfl, -, hafter⟩
      · simp only [hadd] at hlogin
        exact Or.inl ⟨name, after, hadded.of_setUsername, hlogin⟩
      · simp only [hadd, Except.ok.injEq] at hlogin
        rw [← hlogin, hafter]
        exact Or.inr refused_of_setError

/-- The state in which a new player has its empty list. -/
structure Listed (before listed : Game Client Player World) (player : Player) : Prop where
  isMutual : Mutual listed.seenLists
  loggedIn_iff : ∀ other, LoggedIn listed other ↔ other = player ∨ LoggedIn before other
  sees_iff : ∀ vertex other, Sees listed.seenLists vertex other ↔
    Sees before.seenLists vertex other
  others_eq : ∀ other, other ≠ player → listed.player other = before.player other

omit [DecidableEq World] in
theorem Added.listed {before added : Game Client Player World} {name : List Byte}
    (hadded : Added before added world player name) (hmutual : Mutual before.seenLists)
    (houter : ¬ LoggedIn before player) :
    Listed before (added.setSeen player (some [])) player := by
  have hself : (added.setSeen player (some [])).seenLists player = some [] := by
    simp [Game.seenLists, Game.setSeen, Game.setPlayer]
  have hplayer : ∀ other, other ≠ player →
      (added.setSeen player (some [])).player other = before.player other := by
    intro other hne
    rw [← hadded.others_eq other hne]
    exact Function.update_of_ne hne _ _
  have hothers : ∀ other, other ≠ player →
      (added.setSeen player (some [])).seenLists other = before.seenLists other := by
    intro other hne
    rw [Game.seenLists, hplayer other hne]
    rfl
  -- the list of the new player is empty, and it had none before
  have hsees : ∀ vertex other, Sees (added.setSeen player (some [])).seenLists vertex other ↔
      Sees before.seenLists vertex other := by
    intro vertex other
    by_cases heq : vertex = player
    · subst heq
      constructor
      · rintro ⟨list, hlist, hmem⟩
        rw [hself] at hlist
        cases hlist
        cases hmem
      · intro hsees
        exact absurd hsees.isSome houter
    · simp [Sees, hothers vertex heq]
  constructor
  · constructor
    · intro vertex list hlist
      by_cases heq : vertex = player
      · rw [heq, hself] at hlist
        cases hlist
        exact List.nodup_nil
      · rw [hothers vertex heq] at hlist
        exact hmutual.nodups vertex list hlist
    · intro vertex other hseen
      rw [hsees] at hseen ⊢
      exact hmutual.symm vertex other hseen
  · intro other
    by_cases heq : other = player
    · simp [heq, LoggedIn, hself]
    · simp [heq, LoggedIn, hothers other heq]
  · exact hsees
  · exact hplayer

omit [DecidableEq World] in
/-- The login of a new player goes through the hash without a fault. -/
theorem Added.exists_preLogin {before added : Game Client Player World} {name : List Byte}
    {order : List Player} (hadded : Added before added world player name)
    (hmutual : Mutual before.seenLists) (houter : ¬ LoggedIn before player)
    (horder : ∀ other, other ∈ order → other ≠ player → LoggedIn before other) :
    ∃ next, playerPreLogin added player order = .ok next := by
  have hlisted := hadded.listed hmutual houter
  apply exists_checkPlayersInRegion hlisted.isMutual
  · simp [Game.setSeen, Game.setPlayer, hadded.playerWorld_eq]
  · exact (hlisted.loggedIn_iff player).mpr (Or.inl rfl)
  · intro other hother
    apply (hlisted.loggedIn_iff other).mpr
    by_cases heq : other = player
    · exact Or.inl heq
    · exact Or.inr (horder other hother heq)

omit [DecidableEq World] in
theorem Added.preLogin_lists {before added : Game Client Player World} {name : List Byte}
    {order : List Player} (hadded : Added before added world player name)
    (hmutual : Mutual before.seenLists) (houter : ¬ LoggedIn before player)
    (hcheck : playerPreLogin added player order = .ok next) :
    Mutual next.seenLists ∧
      ∀ other, LoggedIn next other ↔ other = player ∨ LoggedIn before other := by
  have hlisted := hadded.listed hmutual houter
  have hchecked := checkPlayersInRegion_checked hlisted.isMutual hcheck
  refine ⟨hchecked.isMutual, ?_⟩
  intro other
  rw [← hlisted.loggedIn_iff]
  unfold LoggedIn
  rw [hchecked.listsOnly.isSome_eq]

/-- A player without an id is not what an addition fails an assertion for. -/
theorem worldAddPlayer_fault {fault : Fault} (hid : (state.player player).id = 0)
    (hadd : worldAddPlayer state world player = .error fault) :
    fault = .undefined ∨ fault = .endless := by
  have hput : ∀ username, putPlayer state world player username = .error fault →
      fault = .undefined := by
    intro username hput
    unfold putPlayer at hput
    cases hgenerate : generateEntityId (state.world world) with
    | none =>
        simp only [hgenerate, Except.error.injEq] at hput
        exact hput.symm
    | some id => simp [hgenerate] at hput
  unfold worldAddPlayer at hadd
  rw [if_neg (by simp [hid])] at hadd
  cases husername : (state.player player).username with
  | none =>
      simp only [husername, Except.error.injEq] at hadd
      exact Or.inl hadd.symm
  | some username =>
      simp only [husername] at hadd
      by_cases htaken : (state.world world).hasPlayer username = true
      · rw [if_pos htaken] at hadd
        by_cases hstandard : state.standard = true
        · rw [if_pos hstandard] at hadd
          cases hadd
        · rw [if_neg hstandard] at hadd
          cases hloop : renameLoop (state.world world) username (integerMax - 1) 1 with
          | none =>
              simp only [hloop, Except.error.injEq] at hadd
              exact Or.inr hadd.symm
          | some name =>
              simp only [hloop] at hadd
              exact Or.inl (hput name hadd)
      · rw [if_neg htaken] at hadd
        exact Or.inl (hput username hadd)

/-! ## The logout -/

omit [DecidableEq Player] in
private theorem worldRemovePlayer_removed {before after : Game Client Player World}
    {place : World} (hremove : worldRemovePlayer before place player = .ok after) :
    (before.player player).world = some place ∧
      ∃ username, (before.player player).username = some username ∧
        after = before.setWorld place { before.world place with
          players := Function.update (before.world place).players (stringContent username) none
          entities :=
            Function.update (before.world place).entities (before.player player).id none } := by
  unfold worldRemovePlayer at hremove
  by_cases hplace : (before.player player).world = some place
  · rw [if_neg (by simp [hplace])] at hremove
    cases husername : (before.player player).username with
    | none => simp [husername] at hremove
    | some username =>
        simp only [husername, Except.ok.injEq] at hremove
        exact ⟨hplace, username, rfl, hremove.symm⟩
  · rw [if_pos hplace] at hremove
    cases hremove

/-- What `cdsurvival_PlayerLogout` does to the players and to a world. -/
structure LoggedOut (before after : Game Client Player World) (world : World) (player : Player)
    (username : List Byte) : Prop extends SamePlayers before after where
  loggedIn_iff : ∀ other, LoggedIn after other ↔ other ≠ player ∧ LoggedIn before other
  players_eq : (after.world world).players =
    Function.update (before.world world).players (stringContent username) none
  entities_eq : (after.world world).entities =
    Function.update (before.world world).entities (before.player player).id none
  last_eq : (after.world world).lastGeneratedEntityId =
    (before.world world).lastGeneratedEntityId
  worlds_eq : ∀ other, other ≠ world → after.world other = before.world other
  machine_eq : after.machine = before.machine

/-- The two parts of a logout: the loop and the removal. -/
theorem playerLogout_parts (hlogout : playerLogout state player = .ok next) :
    ∃ middle world username,
      ((state.player player).seenPlayers.getD []).foldlM (forgetPlayer player)
        (state.setSeen player none) = .ok middle ∧
      (middle.player player).world = some world ∧
      (middle.player player).username = some username ∧
      next = middle.setWorld world { middle.world world with
        players := Function.update (middle.world world).players (stringContent username) none
        entities :=
          Function.update (middle.world world).entities (middle.player player).id none } := by
  unfold playerLogout at hlogout
  cases hloop : ((state.player player).seenPlayers.getD []).foldlM (forgetPlayer player)
      (state.setSeen player none) with
  | error fault => simp [hloop] at hlogout
  | ok middle =>
      simp only [hloop] at hlogout
      cases hplace : (middle.player player).world with
      | none => simp [hplace] at hlogout
      | some world =>
          simp only [hplace] at hlogout
          obtain ⟨-, username, husername, hnext⟩ := worldRemovePlayer_removed hlogout
          exact ⟨middle, world, username, rfl, hplace, husername, hnext⟩

/-- **What a logout comes to.** -/
theorem playerLogout_loggedOut (hlogout : playerLogout state player = .ok next) :
    ∃ world username, (state.player player).world = some world ∧
      (state.player player).username = some username ∧
      LoggedOut state next world player username := by
  obtain ⟨middle, world, username, hloop, hplace, husername, hnext⟩ := playerLogout_parts hlogout
  have hlists := forget_listsOnly hloop
  have hplayers := (SamePlayers.setSeen state player none).trans hlists.toSamePlayers
  rw [hplayers.playerWorld_eq] at hplace
  rw [hplayers.username_eq] at husername
  -- the removal writes the world only, so the players are those that the loop left
  have hheap : next.player = middle.player := by
    rw [hnext]
    rfl
  have hworlds : middle.world = state.world := hlists.world_eq
  refine ⟨world, username, hplace, husername, ?_⟩
  constructor
  · constructor <;> intro other <;> rw [hheap]
    · exact hplayers.client_eq other
    · exact hplayers.id_eq other
    · exact hplayers.position_eq other
    · exact hplayers.username_eq other
    · exact hplayers.playerWorld_eq other
  · intro other
    have hsome : LoggedIn next other ↔ LoggedIn (state.setSeen player none) other := by
      unfold LoggedIn
      rw [← hlists.isSome_eq]
      unfold Game.seenLists
      rw [hheap]
    rw [hsome]
    by_cases heq : other = player
    · simp [heq, LoggedIn, Game.seenLists, Game.setSeen, Game.setPlayer]
    · simp [heq, LoggedIn, Game.seenLists, Game.setSeen, Game.setPlayer]
  · rw [hnext]
    simp [Game.setWorld, hworlds]
  · rw [hnext]
    simp [Game.setWorld, hworlds, hplayers.id_eq]
  · rw [hnext]
    simp [Game.setWorld, hworlds]
  · intro other hne
    rw [hnext]
    simp [Game.setWorld, hworlds, Function.update_of_ne hne]
  · rw [hnext]
    exact hlists.machine_eq

/-- What a logout does to the lists: the player is in none of those of the players it saw. -/
theorem sees_of_logout (hnodups : Nodups state.seenLists)
    (hlogout : playerLogout state player = .ok next) :
    Nodups next.seenLists ∧ ∀ vertex other, Sees next.seenLists vertex other ↔
      (vertex ≠ player ∧ Sees state.seenLists vertex other) ∧
        ¬ (Sees state.seenLists player vertex ∧ other = player) := by
  obtain ⟨middle, world, username, hloop, -, -, hnext⟩ := playerLogout_parts hlogout
  have hself : (state.setSeen player none).seenLists player = none := by
    simp [Game.seenLists, Game.setSeen, Game.setPlayer]
  have hothers : ∀ other, other ≠ player →
      (state.setSeen player none).seenLists other = state.seenLists other := by
    intro other hne
    simp [Game.seenLists, Game.setSeen, Game.setPlayer, Function.update_of_ne hne]
  have hlisted : Nodups (state.setSeen player none).seenLists := by
    intro vertex list hlist
    by_cases heq : vertex = player
    · rw [heq, hself] at hlist
      cases hlist
    · rw [hothers vertex heq] at hlist
      exact hnodups vertex list hlist
  have hforgotten := forgotten_of_loop hlisted hloop
  have hmem : ∀ vertex, vertex ∈ (state.player player).seenPlayers.getD [] ↔
      Sees state.seenLists player vertex := by
    intro vertex
    cases hlist : (state.player player).seenPlayers with
    | none => simp [Sees, Game.seenLists, hlist]
    | some list => simp [Sees, Game.seenLists, hlist]
  have hseen : next.seenLists = middle.seenLists := by
    rw [hnext]
    rfl
  rw [hseen]
  refine ⟨hforgotten.nodups, ?_⟩
  intro vertex other
  rw [hforgotten.sees_iff, hmem]
  by_cases heq : vertex = player
  · simp [heq, Sees, hself]
  · simp [heq, Sees, hothers vertex heq]

theorem playerLogout_mutual (hmutual : Mutual state.seenLists)
    (hlogout : playerLogout state player = .ok next) : Mutual next.seenLists := by
  obtain ⟨hnodups, hsees⟩ := sees_of_logout hmutual.nodups hlogout
  constructor
  · exact hnodups
  · intro vertex other hseen
    obtain ⟨⟨hvertex, hseen⟩, hnot⟩ := (hsees vertex other).mp hseen
    have hback := hmutual.symm vertex other hseen
    refine (hsees other vertex).mpr ⟨⟨?_, hback⟩, fun hcase => hvertex hcase.2⟩
    rintro rfl
    exact hnot ⟨hback, rfl⟩

end Craftd.Survival
