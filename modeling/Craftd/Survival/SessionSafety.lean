import Craftd.Survival.Placement
import Craftd.Survival.Session
import Craftd.Survival.Visibility

/-!
# Which packets crash the server

For every packet in every reachable state, whether `cdsurvival_ClientProcess`
follows a missing player or world or fails an assertion.  `Risky` gives the
answer from the link of the client, the world, the id, the position and the list of
its player and the packet alone.  That nothing else can go wrong rests on the
invariant `Sound`: whoever the hash of the world has, has a list.
-/

namespace Craftd.Survival

open StepSystem NeighbourLists
open Containers (CDString)
open Protocol (SVRequest)

/-- A missing player or world is followed, or an assertion fails. -/
def Crashes {Result : Type*} (result : Except Fault Result) : Prop :=
  result = .error .missingPlayer ∨ result = .error .missingWorld ∨ result = .error .assertion

@[simp] theorem not_crashes_ok {Result : Type*} (result : Result) :
    ¬ Crashes (.ok result : Except Fault Result) := by
  simp [Crashes]

@[simp] theorem crashes_error {Result : Type*} (fault : Fault) :
    Crashes (.error fault : Except Fault Result) ↔
      fault = .missingPlayer ∨ fault = .missingWorld ∨ fault = .assertion := by
  simp [Crashes]

variable {Client Player World : Type*}

/-! ## The packets that crash -/

/-- A login that gets to the player of a client without one, or of one that has an id. -/
def LoginRisky (self : Session Client Player World) (player : Option Player)
    (version : Protocol.SVInteger) (username : CDString) : Prop :=
  version = 19 ∧ 1 ≤ username.length ∧
    ∀ newcomer, player = some newcomer → (self.game.player newcomer).id ≠ 0

/-- What the chat plugin takes for the command of a message. -/
def spokenCommand (settings : Settings World) (message : CDString) : Option (List Byte) :=
  if startsWithToken settings message then
    (commandString settings message).bind settings.regexpMatch
  else some settings.defaultCommand

/-- A message of a client without a player, the bare command token, or a `tell` of a player that
is in no world. -/
def ChatRisky (settings : Settings World) (self : Session Client Player World)
    (player : Option Player) (message : CDString) : Prop :=
  ∀ speaker, player = some speaker →
    startsWithToken settings message = true ∧
        message.length ≤ settings.commandToken.length ∨
      (self.game.player speaker).world = none ∧
        ∃ command, spokenCommand settings message = some command ∧
          stringContent command = [0x74, 0x65, 0x6C, 0x6C]

/-- A move of a client without a player, or one to another chunk of a player that is in no world,
or that was logged out while others are in it. -/
def MoveRisky (settings : Settings World) (self : Session Client Player World)
    (player : Option Player) (position : Protocol.SVPrecisePosition) : Prop :=
  ∀ mover, player = some mover →
    self.game.chunkOf (.ofBits position) ≠
        self.game.chunkOf (self.game.player mover).position ∧
      ((self.game.player mover).world = none ∨ ¬ LoggedIn self.game mover ∧
        ∃ other, other ≠ mover ∧ Registered self.game settings.defaultWorld other)

/-- The packets that crash the server. -/
def Risky (settings : Settings World) (self : Session Client Player World) (client : Client) :
    SVRequest → Prop
  | .keepAlive _ | .handshake _ | .onGround _ | .disconnect _ | .listPing => False
  | .login version username _ _ _ _ _ _ =>
      LoginRisky self (self.clientPlayer client) version username
  | .chat message => ChatRisky settings self (self.clientPlayer client) message
  | .playerPosition position _ _ => MoveRisky settings self (self.clientPlayer client) position
  | .playerMoveLook position _ _ _ _ =>
      MoveRisky settings self (self.clientPlayer client) position
  | .playerDigging status _ _ =>
      DigsOrDrops settings (self.worldOf settings (self.clientPlayer client)) status ∧
        self.clientPlayer client = none
  | _ => self.clientPlayer client = none

/-! ## Each arm -/

section Arms

variable [DecidableEq Player] [DecidableEq World]
  {settings : Settings World} {self : Session Client Player World} {player : Option Player}

omit [DecidableEq Player] [DecidableEq World] in
private theorem withPlayer_crashes : Crashes (withPlayer self player) ↔ player = none := by
  cases player <;> simp [withPlayer]

omit [DecidableEq Player] [DecidableEq World] in
theorem chatCommand_crashes {game : Game Client Player World} {speaker : Player}
    {command : List Byte} :
    Crashes (chatCommand game speaker command) ↔
      (game.player speaker).world = none ∧ stringContent command = [0x74, 0x65, 0x6C, 0x6C] := by
  unfold chatCommand
  split_ifs with hcommand
  · simpa [and_comm] using hcommand
  · simp only [not_crashes_ok, false_iff]
    rintro ⟨hworld, htell⟩
    exact hcommand ⟨htell, by simp [hworld]⟩

omit [DecidableEq Player] [DecidableEq World] in
private theorem playerChat_crashes {message : CDString} :
    Crashes (playerChat settings self.game player message) ↔
      ChatRisky settings self player message := by
  cases player with
  | none => simp [playerChat, ChatRisky]
  | some speaker =>
      simp only [playerChat, ChatRisky, Option.some.injEq, forall_eq']
      by_cases htoken : startsWithToken settings message = true
      · simp only [htoken, if_true, true_and, spokenCommand]
        by_cases hlength : message.length ≤ settings.commandToken.length
        · simp [commandString, hlength]
        · have hstring : ∃ text, commandString settings message = some text := by
            unfold commandString
            rw [if_neg hlength]
            exact ⟨_, rfl⟩
          obtain ⟨text, htext⟩ := hstring
          cases hmatch : settings.regexpMatch text with
          | none => simp [htext, hmatch, hlength]
          | some command => simp [htext, hmatch, hlength, chatCommand_crashes]
      · simp [htoken, spokenCommand, chatCommand_crashes]

omit [DecidableEq Player] [DecidableEq World] in
private theorem processChat_crashes {message : CDString} :
    Crashes (processChat settings self player message) ↔
      ChatRisky settings self player message := by
  rw [← playerChat_crashes]
  unfold processChat
  cases playerChat settings self.game player message <;> simp

end Arms

/-! ## The invariant -/

/-- All players are in the one world that there is, those in its hash have lists, and the lists are
mutual. -/
structure Sound (home : World) (known : List Player) (game : Game Client Player World) : Prop
    extends Placed known game where
  one_world : ∀ player place, (game.player player).world = some place → place = home
  listed : ∀ player, Registered game home player → LoggedIn game player
  placed : ∀ player, LoggedIn game player → (game.player player).world ≠ none
  isMutual : Mutual game.seenLists

namespace Sound

variable {home : World} {known : List Player} {game next : Game Client Player World}
  {player : Player} {order : List Player}

theorem initial (hworlds : ∀ world, game.world world = createWorld)
    (hplayers : ∀ player, (game.player player).world = none ∧
      (game.player player).seenPlayers = none) : Sound home known game := by
  have hnone : ∀ player, game.seenLists player = none := fun player => (hplayers player).2
  constructor
  · exact .initial hworlds fun player => (hplayers player).1
  · intro player place hin
    simp [(hplayers player).1] at hin
  · rintro player ⟨name, hkey⟩
    simp [hworlds, createWorld] at hkey
  · intro player hlogged
    simp [LoggedIn, hnone] at hlogged
  · constructor
    · intro vertex list hlist
      simp [hnone] at hlist
    · rintro vertex other ⟨list, hlist, -⟩
      simp [hnone] at hlist

/-- A player without an id has no list. -/
theorem not_loggedIn (h : Sound home known game) (hid : (game.player player).id = 0) :
    ¬ LoggedIn game player :=
  fun hlogged => h.placed player hlogged (h.outside hid)

variable [DecidableEq Player] [DecidableEq World]

omit [DecidableEq World] in
theorem move (h : Sound home known game) {position : SVPrecisePosition}
    (hmove : playerMove game player position order = .ok next) : Sound home known next := by
  have hsame := playerMove_same hmove
  constructor
  · exact h.toPlaced.sameRegistry hsame
  · intro other place hin
    rw [hsame.playerWorld_eq] at hin
    exact h.one_world other place hin
  · intro other hother
    rw [hsame.loggedIn_iff]
    unfold Registered at hother
    rw [hsame.world_eq] at hother
    exact h.listed other hother
  · intro other hother
    rw [hsame.loggedIn_iff] at hother
    rw [hsame.playerWorld_eq]
    exact h.placed other hother
  · exact playerMove_mutual h.isMutual hmove

theorem login (h : Sound home known game) (hknown : player ∈ known) {username : List Byte}
    (hlogin : playerLogin game home player username order = .ok next) : Sound home known next := by
  have hplaced := h.toPlaced.login hknown hlogin
  obtain ⟨hid, ⟨name, after, hadded, hcheck⟩ | hrefused⟩ := playerLogin_cases hlogin
  -- the world takes the player in
  · obtain ⟨hsame, hworld⟩ := playerPreLogin_same hcheck
    obtain ⟨hmutual, hlogged⟩ :=
      hadded.preLogin_lists h.isMutual (h.not_loggedIn hid) hcheck
    have hself : (next.player player).world = some home := by
      rw [hsame.playerWorld_eq, hadded.playerWorld_eq]
    have hothers : ∀ other, other ≠ player →
        (next.player other).world = (game.player other).world := by
      intro other hne
      rw [hsame.playerWorld_eq, hadded.others_eq other hne]
    constructor
    · exact hplaced
    · intro other place hin
      by_cases heq : other = player
      · rw [heq, hself] at hin
        exact (Option.some.inj hin).symm
      · rw [hothers other heq] at hin
        exact h.one_world other place hin
    · rintro other ⟨own, hkey⟩
      rw [hworld] at hkey
      rw [hlogged]
      exact (hadded.key_cases hkey).imp (fun hcase => hcase.2.2)
        (fun hbefore => h.listed other ⟨own, hbefore⟩)
    · intro other hother
      by_cases heq : other = player
      · simp [heq, hself]
      · rw [hothers other heq]
        exact h.placed other (((hlogged other).mp hother).resolve_left heq)
    · exact hmutual
  -- the world refuses the player, and nothing has changed
  · have hlogged : ∀ other, LoggedIn next other ↔ LoggedIn game other := by
      intro other
      rw [LoggedIn, hrefused.seenLists_eq]
      rfl
    constructor
    · exact hplaced
    · intro other place hin
      rw [hrefused.playerWorld_eq] at hin
      exact h.one_world other place hin
    · intro other hother
      unfold Registered at hother
      rw [hrefused.players_eq] at hother
      exact (hlogged other).mpr (h.listed other hother)
    · intro other hother
      rw [hrefused.playerWorld_eq]
      exact h.placed other ((hlogged other).mp hother)
    · rw [hrefused.seenLists_eq]
      exact h.isMutual

theorem logout (h : Sound home known game) (hlogout : playerLogout game player = .ok next) :
    Sound home known next := by
  obtain ⟨world, username, hin, husername, hout⟩ := playerLogout_loggedOut hlogout
  constructor
  · exact h.toPlaced.loggedOut hout
  · intro other place hplace
    rw [hout.playerWorld_eq] at hplace
    exact h.one_world other place hplace
  · rintro other ⟨own, hkey⟩
    refine (hout.loggedIn_iff other).mpr ⟨?_, h.listed other ⟨own, (hout.key_before hkey).1⟩⟩
    rintro rfl
    exact h.not_holds hin husername hout home (Or.inl ⟨own, hkey⟩)
  · intro other hother
    rw [hout.playerWorld_eq]
    exact h.placed other ((hout.loggedIn_iff other).mp hother).2
  · exact playerLogout_mutual h.isMutual hlogout

omit [DecidableEq World] in
theorem create (h : Sound home known game) {fresh : Player} (hfresh : fresh ∉ known)
    (client : Client) :
    Sound home (fresh :: known) (game.setPlayer fresh (createPlayer client)) := by
  have hout := h.unknown hfresh
  have hworlds : ∀ other, ((game.setPlayer fresh (createPlayer client)).player other).world =
      (game.player other).world := by
    intro other
    by_cases heq : other = fresh
    · rw [heq, hout]
      simp [Game.setPlayer, createPlayer]
    · simp [Game.setPlayer, Function.update_of_ne heq]
  have hlists : (game.setPlayer fresh (createPlayer client)).seenLists = game.seenLists := by
    funext other
    by_cases heq : other = fresh
    · have hnone : game.seenLists fresh = none := by
        by_contra hsome
        exact h.placed fresh (Option.isSome_iff_ne_none.mpr hsome) hout
      rw [heq, hnone]
      simp [Game.seenLists, Game.setPlayer, createPlayer]
    · simp [Game.seenLists, Game.setPlayer, Function.update_of_ne heq]
  have hlogged : ∀ other, LoggedIn (game.setPlayer fresh (createPlayer client)) other ↔
      LoggedIn game other := by
    intro other
    rw [LoggedIn, hlists]
    rfl
  constructor
  · exact h.toPlaced.create hfresh client
  · intro other place hin
    rw [hworlds] at hin
    exact h.one_world other place hin
  · intro other hother
    exact (hlogged other).mpr (h.listed other hother)
  · intro other hother
    rw [hworlds]
    exact h.placed other ((hlogged other).mp hother)
  · rw [hlists]
    exact h.isMutual

end Sound

/-! ## The arms that change the game -/

section Changing

variable [DecidableEq Player] [DecidableEq World]
  {home : World} {known : List Player} {game : Game Client Player World}
  {settings : Settings World} {self : Session Client Player World} {order : List Player}

/-- A login crashes exactly if the player has an id. -/
theorem playerLogin_crashes {newcomer : Player} {username : List Byte}
    (h : Sound home known game) (horder : IsOrder game home newcomer order) :
    Crashes (playerLogin game home newcomer username order) ↔ (game.player newcomer).id ≠ 0 := by
  have hnamedId : ((game.setUsername newcomer username).player newcomer).id =
      (game.player newcomer).id := by
    simp [Game.setUsername, Game.setPlayer]
  unfold playerLogin
  by_cases hid : (game.player newcomer).id = 0
  · cases hadd : worldAddPlayer (game.setUsername newcomer username) home newcomer with
    | error fault =>
        rcases worldAddPlayer_fault (hnamedId.trans hid) hadd with rfl | rfl <;> simp [hid]
    | ok result =>
        obtain ⟨after, accepted⟩ := result
        rcases (worldAddPlayer_cases hadd).2 with ⟨rfl, name, hadded⟩ | ⟨rfl, -, -⟩
        · have hlists : ∀ other, other ∈ order → other ≠ newcomer → LoggedIn game other :=
            fun other hother hne => h.listed other ((horder other hne).mp hother)
          obtain ⟨next, hnext⟩ := hadded.of_setUsername.exists_preLogin h.isMutual
            (h.not_loggedIn hid) hlists
          simp [hnext, hid]
        · simp [hid]
  · have hadd : worldAddPlayer (game.setUsername newcomer username) home newcomer =
        .error .assertion := by
      unfold worldAddPlayer
      rw [if_pos (by rwa [hnamedId])]
    rw [hadd]
    exact ⟨fun _ => hid, fun _ => by simp⟩

omit [DecidableEq World] in
/-- A move crashes exactly if it comes to another chunk and the player is in no world, or has no
list while others are in the world. -/
theorem playerMove_crashes {mover : Player} {position : SVPrecisePosition}
    (h : Sound home known game) (horder : IsOrder game home mover order) :
    Crashes (playerMove game mover position order) ↔
      game.chunkOf position ≠ game.chunkOf (game.player mover).position ∧
        ((game.player mover).world = none ∨ ¬ LoggedIn game mover ∧
          ∃ other, other ≠ mover ∧ Registered game home other) := by
  unfold playerMove
  by_cases hchunk : game.chunkOf position = game.chunkOf (game.player mover).position
  · simp [hchunk]
  · rw [if_neg hchunk]
    cases hworld : (game.player mover).world with
    | none => simp [checkPlayersInRegion, hworld, hchunk]
    | some place =>
        by_cases hlogged : LoggedIn game mover
        -- a player with a list can be checked against the others, who all have one
        · have hlists : ∀ other, other ∈ order → (game.seenLists other).isSome := by
            intro other hother
            by_cases heq : other = mover
            · exact heq ▸ hlogged
            · exact h.listed other ((horder other heq).mp hother)
          have hexists : ∃ next, checkPlayersInRegion game mover (game.chunkOf position) 5 order =
              .ok next :=
            exists_checkPlayersInRegion h.isMutual (by simp [hworld]) hlogged hlists
          obtain ⟨next, hnext⟩ := hexists
          simp [hnext, hlogged]
        -- without a list the first other player fails the assertion
        · have hnone : (game.player mover).seenPlayers = none := by
            simpa [LoggedIn, Game.seenLists] using hlogged
          have hothers : (∃ other, other ∈ order ∧ other ≠ mover) ↔
              ∃ other, other ≠ mover ∧ Registered game home other := by
            constructor
            · rintro ⟨other, hother, hne⟩
              exact ⟨other, hne, (horder other hne).mp hother⟩
            · rintro ⟨other, hne, hother⟩
              exact ⟨other, (horder other hne).mpr hother, hne⟩
          simp only [checkPlayersInRegion, hworld, checkPlayers_without_list hnone]
          by_cases hexists : ∃ other, other ∈ order ∧ other ≠ mover
          · rw [if_pos hexists]
            simp [hchunk, hlogged, hothers.mp hexists]
          · rw [if_neg hexists]
            simp [hchunk, hlogged, mt hothers.mpr hexists]

private theorem processLogin_crashes {player : Option Player} {version : Protocol.SVInteger}
    {username : CDString} (h : Sound home known self.game)
    (horder : ∀ newcomer, player = some newcomer → IsOrder self.game home newcomer order) :
    Crashes (processLogin self player home version username order) ↔
      LoginRisky self player version username := by
  unfold processLogin LoginRisky
  by_cases hversion : version = 19
  · rw [if_neg (not_not.mpr hversion)]
    by_cases hname : username.length < 1
    · rw [if_pos hname]
      simp only [not_crashes_ok, false_iff]
      exact fun hcase => absurd hcase.2.1 (by omega)
    · rw [if_neg hname]
      have hlong : 1 ≤ username.length := by omega
      cases player with
      | none => simp [hversion, hlong]
      | some newcomer =>
          have hlogin : Crashes (playerLogin self.game home newcomer username.content order) ↔
              (self.game.player newcomer).id ≠ 0 := playerLogin_crashes h (horder newcomer rfl)
          simp only [hversion, hlong, true_and, Option.some.injEq, forall_eq']
          rw [← hlogin]
          cases playerLogin self.game home newcomer username.content order <;> simp
  · rw [if_pos hversion]
    simp only [not_crashes_ok, false_iff]
    exact fun hcase => hversion hcase.1

omit [DecidableEq World] in
theorem processMove_crashes {player : Option Player} {position : Protocol.SVPrecisePosition}
    (h : Sound settings.defaultWorld known self.game)
    (horder : ∀ mover, player = some mover →
      IsOrder self.game settings.defaultWorld mover order) :
    Crashes (processMove self player position order) ↔ MoveRisky settings self player position := by
  unfold processMove MoveRisky
  cases player with
  | none => simp
  | some mover =>
      have hmove : Crashes (playerMove self.game mover (.ofBits position) order) ↔ _ :=
        playerMove_crashes h (horder mover rfl)
      simp only [Option.some.injEq, forall_eq']
      rw [← hmove]
      cases playerMove self.game mover (.ofBits position) order <;> simp

end Changing

/-! ## A packet -/

section Packet

variable [DecidableEq Client] [DecidableEq Player] [DecidableEq World]
  {settings : Settings World} {state next : Session Client Player World} {client : Client}
  {packet : SVRequest} {fresh : Player} {order : List Player}

/-- The invariant of the sessions: the players of the clients were created. -/
structure SoundSession (settings : Settings World) (state : Session Client Player World) : Prop
    extends Sound settings.defaultWorld state.created state.game where
  owned : ∀ client player, state.clientPlayer client = some player → player ∈ state.created

omit [DecidableEq Client] [DecidableEq Player] [DecidableEq World] in
/-- The world of a packet is the one that there is. -/
theorem SoundSession.worldOf_eq (h : SoundSession settings state) (player : Option Player) :
    state.worldOf settings player = settings.defaultWorld := by
  cases player with
  | none => rfl
  | some player =>
      unfold Session.worldOf
      cases hworld : (state.game.player player).world with
      | none => simp [hworld]
      | some world => simp [hworld, h.one_world player world hworld]

/-- The loop that a packet of a client runs goes through the hash of the world. -/
def GoesThrough (settings : Settings World) (state : Session Client Player World)
    (client : Client) (order : List Player) : Prop :=
  ∀ player, state.clientPlayer client = some player →
    IsOrder state.game settings.defaultWorld player order

/-- **Which packets crash**, in a state with the invariant. -/
theorem SoundSession.process_crashes (h : SoundSession settings state)
    (horder : GoesThrough settings state client order) :
    Crashes (clientProcess settings state client packet fresh order) ↔
      Risky settings state client packet := by
  have hpresent : Crashes (withPlayer state (state.clientPlayer client)) ↔
      state.clientPlayer client = none := withPlayer_crashes
  cases packet with
  | keepAlive | handshake | onGround | disconnect | listPing =>
      exact iff_of_false (not_crashes_ok _) id
  | login version username =>
      have hlogin : Crashes (processLogin state (state.clientPlayer client)
          (state.worldOf settings (state.clientPlayer client)) version username order) ↔
            LoginRisky state (state.clientPlayer client) version username := by
        rw [h.worldOf_eq]
        exact processLogin_crashes h.toSound horder
      exact hlogin
  | chat message => exact processChat_crashes
  | playerPosition position => exact processMove_crashes h.toSound horder
  | playerMoveLook position => exact processMove_crashes h.toSound horder
  | playerDigging status =>
      have hdigging : Crashes (if DigsOrDrops settings
          (state.worldOf settings (state.clientPlayer client)) status
            then withPlayer state (state.clientPlayer client) else .ok state) ↔
          DigsOrDrops settings (state.worldOf settings (state.clientPlayer client)) status ∧
            state.clientPlayer client = none := by
        split_ifs with hdigs
        · simpa [hdigs] using hpresent
        · simp [hdigs]
      exact hdigging
  | _ => exact hpresent

omit [DecidableEq Client] [DecidableEq Player] [DecidableEq World] in
theorem SoundSession.initial (hlinks : ∀ client, state.clientPlayer client = none)
    (hworlds : ∀ world, state.game.world world = createWorld)
    (hplayers : ∀ player, (state.game.player player).world = none ∧
      (state.game.player player).seenPlayers = none) : SoundSession settings state := by
  constructor
  · exact .initial hworlds hplayers
  · intro client player hlink
    simp [hlinks] at hlink

theorem SoundSession.process (h : SoundSession settings state) (hfresh : fresh ∉ state.created)
    (hprocess : clientProcess settings state client packet fresh order = .ok next) :
    SoundSession settings next := by
  rcases clientProcess_cases hprocess with rfl | ⟨player, username, game, hlink, hlogin, rfl⟩ |
    ⟨player, position, game, -, hmove, rfl⟩ | ⟨-, rfl⟩
  · exact h
  · rw [h.worldOf_eq] at hlogin
    exact ⟨h.toSound.login (h.owned client player hlink) hlogin, h.owned⟩
  · exact ⟨h.toSound.move hmove, h.owned⟩
  · refine ⟨h.toSound.create hfresh client, ?_⟩
    intro other player hlink
    rcases handshake_link hlink with ⟨-, rfl⟩ | ⟨-, hbefore⟩
    · exact List.mem_cons_self
    · exact List.mem_cons_of_mem fresh (h.owned other player hbefore)

theorem SoundSession.step (h : SoundSession settings state) {action : SessionAction Client Player}
    {emitted : List Unit} (hstep : sessionStep settings state action = some (next, emitted)) :
    SoundSession settings next := by
  rcases sessionStep_cases hstep with ⟨client, packet, fresh, order, -, hfresh, hprocess⟩ |
    ⟨client, -, hdisconnect⟩
  · exact h.process hfresh hprocess
  · rcases clientDisconnect_cases hdisconnect with ⟨rfl, -⟩ | ⟨player, game, -, hlogout, rfl⟩
    · exact h
    · exact ⟨h.toSound.logout hlogout, h.owned⟩

end Packet

/-! ## The runs -/

section Runs

variable [DecidableEq Client] [DecidableEq Player] [DecidableEq World]
  {settings : Settings World} {start state : Session Client Player World} {events : List Unit}

/-- Every run keeps the invariant. -/
theorem soundSession_of_run (hlinks : ∀ client, start.clientPlayer client = none)
    (hworlds : ∀ world, start.game.world world = createWorld)
    (hplayers : ∀ player, (start.game.player player).world = none ∧
      (start.game.player player).seenPlayers = none)
    (hrun : (sessions settings start).Run (fun _ _ => True) events state) :
    SoundSession settings state :=
  System.Run.invariant (I := fun _ last => SoundSession settings last)
    (.initial hlinks hworlds hplayers)
    (fun _ _ _ _ _ hlast _ hstep => hlast.step hstep) hrun

/-- **Session safety.**  In every state that a run of packets and disconnects of the clients
reaches, a packet crashes the server exactly if it is risky there. -/
theorem session_crashes_iff (hlinks : ∀ client, start.clientPlayer client = none)
    (hworlds : ∀ world, start.game.world world = createWorld)
    (hplayers : ∀ player, (start.game.player player).world = none ∧
      (start.game.player player).seenPlayers = none)
    (hrun : (sessions settings start).Run (fun _ _ => True) events state) (client : Client)
    (packet : SVRequest) (fresh : Player) (order : List Player)
    (horder : GoesThrough settings state client order) :
    Crashes (clientProcess settings state client packet fresh order) ↔
      Risky settings state client packet :=
  (soundSession_of_run hlinks hworlds hplayers hrun).process_crashes horder

/-- A player that has logged in may move. -/
theorem session_crashes_iff_moves :
    ∃ state : Session Unit ℕ Unit, state.clientPlayer () = some 0 ∧
      ¬ Crashes (clientProcess plainSettings state () (.playerPosition ⟨0, 0, 0⟩ 0 0) 1 [0]) := by
  have hexec : ((sessions plainSettings freshSession).exec logsIn freshSession).map
      (fun result => (result.1.clientPlayer (), (result.1.game.world ()).players,
        (result.1.game.player 0).world, (result.1.game.player 0).seenPlayers)) =
      some (some 0, Function.update (fun _ => none) [0x61] (some 0), some (), some []) := by
    rfl
  obtain ⟨⟨state, events⟩, hrun, hseen⟩ := Option.map_eq_some_iff.mp hexec
  simp only [Prod.mk.injEq] at hseen
  obtain ⟨hlink, hkeys, hworld, hlist⟩ := hseen
  have horder : GoesThrough plainSettings state () [0] := by
    intro player hplayer
    rw [hlink] at hplayer
    cases hplayer
    refine isOrder_of_keys _ hkeys ?_
    intro other _
    rw [exists_update_iff rfl]
    simp
  refine ⟨state, hlink, ?_⟩
  rw [session_crashes_iff (fun _ => rfl) (fun _ => rfl) (fun _ => ⟨rfl, rfl⟩)
    (System.Run.exec .start (System.execGuard_true _ _) hrun) () (.playerPosition ⟨0, 0, 0⟩ 0 0) 1
    [0] horder]
  intro hrisky
  rcases (hrisky 0 hlink).2 with houtside | ⟨hout, -⟩
  · rw [hworld] at houtside
    cases houtside
  · exact hout (by simp [LoggedIn, Game.seenLists, hlist])

/-- A login before the handshake follows the missing player, and a second login fails the assertion
on the id. -/
theorem login_crashes :
    clientProcess plainSettings freshSession () (.login 19 letterString 0 0 0 0 0 0) 0 [] =
        .error .missingPlayer ∧
      ∃ state, (sessions plainSettings freshSession).Run (fun _ _ => True) [] state ∧
        clientProcess plainSettings state () (.login 19 letterString 0 0 0 0 0 0) 1 [0] =
          .error .assertion := by
  refine ⟨rfl, ?_⟩
  have hexec : ((sessions plainSettings freshSession).exec logsIn freshSession).map
      (fun result => (result.2, match clientProcess plainSettings result.1 ()
          (.login 19 letterString 0 0 0 0 0 0) 1 [0] with
        | .error fault => some fault
        | .ok _ => none)) = some ([], some .assertion) := by
    rfl
  obtain ⟨⟨state, events⟩, hrun, hseen⟩ := Option.map_eq_some_iff.mp hexec
  simp only [Prod.mk.injEq] at hseen
  obtain ⟨rfl, hfault⟩ := hseen
  refine ⟨state, System.Run.exec .start (System.execGuard_true _ _) hrun, ?_⟩
  cases hresult : clientProcess plainSettings state ()
      (.login 19 letterString 0 0 0 0 0 0) 1 [0] with
  | error fault =>
      rw [hresult] at hfault
      exact congrArg Except.error (Option.some.inj hfault)
  | ok next =>
      rw [hresult] at hfault
      cases hfault

end Runs

end Craftd.Survival
