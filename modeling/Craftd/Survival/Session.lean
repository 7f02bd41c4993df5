import Craftd.Library.System
import Craftd.Protocol.Request
import Craftd.Survival.Login

/-!
# Sessions

A translation of `cdsurvival_ClientProcess` and `cdsurvival_ClientDisconnect`,
with the handlers of the chat plugin, as far as they read or change the players,
the worlds and the link `Client.player`.  Left out are what is sent, the
inventory, and the block that a player digs.  The strings of a chat message are
those of `Craftd.Survival.Chat`, whose `session_playerChat` leads back here.

Players are never freed, so the pointer of a new one is none of those before.
-/

namespace Craftd.Survival

open StepSystem
open Containers (CDString utf8Offset)
open Protocol (SVRequest strncmpEqual)

/-- The value of a `double` by its bits. -/
def SVDouble.ofBits (bits : BitVec 64) : SVDouble :=
  let sign := bits.msb
  let exponent := (bits.extractLsb' 52 11).toNat
  let fraction := (bits.extractLsb' 0 52).toNat
  if exponent = 2047 then
    if fraction = 0 then .infinite sign else .nan
  else
    let magnitude : ℕ :=
      if exponent = 0 then 2 * fraction else (2 ^ 52 + fraction) * 2 ^ exponent
    .finite (mkRat (if sign then -(magnitude : ℤ) else magnitude) (2 ^ 1075))

/-- The position of a packet. -/
def SVPrecisePosition.ofBits (position : Protocol.SVPrecisePosition) : SVPrecisePosition :=
  ⟨.ofBits position.x, .ofBits position.y, .ofBits position.z⟩

/-- `SVWorldMode`. -/
inductive SVWorldMode
  | survival
  | creative
  deriving DecidableEq, Repr

/-- What the server and the chat plugin are set up with: `World.default`, the modes of the worlds,
the configuration of the chat, and the first group of a match of `_ChatCommandRegex`. -/
structure Settings (World : Type*) where
  defaultWorld : World
  mode : World → SVWorldMode
  commandToken : CDString
  defaultCommand : List Byte
  regexpMatch : List Byte → Option (List Byte)

/-- The game, the dynamic properties `Client.player`, and the players that were created. -/
structure Session (Client Player World : Type*) where
  game : Game Client Player World
  clientPlayer : Client → Option Player
  created : List Player

variable {Client Player World : Type*}

/-! ## The chat -/

/-- `svchat_ChatCommand`; the commands other than `tell` look at no world. -/
def chatCommand (self : Game Client Player World) (player : Player) (command : List Byte) :
    Except Fault Unit :=
  if stringContent command = [0x74, 0x65, 0x6C, 0x6C] ∧ (self.player player).world.isNone then
    .error .missingWorld
  else .ok ()

/-- `CD_CreateStringFromOffset` of a message at the length of the command token. -/
def commandString {World : Type*} (settings : Settings World) (message : CDString) :
    Option (List Byte) :=
  if settings.commandToken.length ≥ message.length then none
  else some (stringContent
    (message.content.drop (utf8Offset message.content settings.commandToken.length)))

/-- `CD_StringStartWith` of a message and the command token. -/
def startsWithToken {World : Type*} (settings : Settings World) (message : CDString) : Bool :=
  let token := stringContent settings.commandToken.content
  strncmpEqual token.length message.content token

/-- `svchat_PlayerChat`. -/
def playerChat (settings : Settings World) (self : Game Client Player World)
    (player : Option Player) (message : CDString) : Except Fault Unit :=
  match player with
  | none => .error .assertion
  | some player =>
      if startsWithToken settings message then
        match commandString settings message with
        | none => .error .assertion
        | some commandString =>
            match settings.regexpMatch commandString with
            | none => .ok ()
            | some command => chatCommand self player command
      else chatCommand self player settings.defaultCommand

/-! ## The packets -/

variable [DecidableEq Client] [DecidableEq Player] [DecidableEq World]

/-- What an arm does that only looks at the player. -/
def withPlayer (self : Session Client Player World) (player : Option Player) :
    Except Fault (Session Client Player World) :=
  match player with
  | none => .error .missingPlayer
  | some _ => .ok self

/-- The arm of `SVLogin`, with `CRAFTD_PROTOCOL_VERSION`. -/
def processLogin (self : Session Client Player World) (player : Option Player) (world : World)
    (version : Protocol.SVInteger) (username : CDString) (order : List Player) :
    Except Fault (Session Client Player World) :=
  if version ≠ 19 then .ok self
  else if username.length < 1 then .ok self
  else
    match player with
    | none => .error .missingPlayer
    | some player =>
        match playerLogin self.game world player username.content order with
        | .error fault => .error fault
        | .ok game => .ok { self with game := game }

/-- The arm of `SVHandshake`. -/
def processHandshake (self : Session Client Player World) (client : Client) (fresh : Player) :
    Session Client Player World where
  game := self.game.setPlayer fresh (createPlayer client)
  clientPlayer := Function.update self.clientPlayer client (some fresh)
  created := fresh :: self.created

/-- The arm of `SVChat`. -/
def processChat (settings : Settings World) (self : Session Client Player World)
    (player : Option Player) (message : CDString) : Except Fault (Session Client Player World) :=
  match playerChat settings self.game player message with
  | .error fault => .error fault
  | .ok () => .ok self

/-- The arms of `SVPlayerPosition` and `SVPlayerMoveLook`. -/
def processMove (self : Session Client Player World) (player : Option Player)
    (position : Protocol.SVPrecisePosition) (order : List Player) :
    Except Fault (Session Client Player World) :=
  match player with
  | none => .error .missingPlayer
  | some player =>
      match playerMove self.game player (.ofBits position) order with
      | .error fault => .error fault
      | .ok game => .ok { self with game := game }

/-- The world that `cdsurvival_ClientProcess` works with. -/
def Session.worldOf (self : Session Client Player World) (settings : Settings World)
    (player : Option Player) : World :=
  match player with
  | none => settings.defaultWorld
  | some player => (self.game.player player).world.getD settings.defaultWorld

/-- The arm of `SVPlayerDigging` looks at the player. -/
def DigsOrDrops (settings : Settings World) (world : World) (status : BitVec 32) : Prop :=
  status = 2 ∧ settings.mode world = .survival ∨ status = 0 ∧ settings.mode world = .creative ∨
    status = 4

instance decidableDigsOrDrops (settings : Settings World) (world : World) (status : BitVec 32) :
    Decidable (DigsOrDrops settings world status) :=
  inferInstanceAs (Decidable (_ ∨ _))

/-- `cdsurvival_ClientProcess`; `fresh` is the player that `SV_CreatePlayer` would allocate. -/
def clientProcess (settings : Settings World) (self : Session Client Player World)
    (client : Client) (packet : SVRequest) (fresh : Player) (order : List Player) :
    Except Fault (Session Client Player World) :=
  let player := self.clientPlayer client
  let world := self.worldOf settings player
  match packet with
  | .keepAlive _ => .ok self
  | .login version username _ _ _ _ _ _ => processLogin self player world version username order
  | .handshake _ => .ok (processHandshake self client fresh)
  | .chat message => processChat settings self player message
  | .onGround _ => .ok self
  | .playerPosition position _ _ => processMove self player position order
  | .playerLook _ _ _ => withPlayer self player
  | .playerMoveLook position _ _ _ _ => processMove self player position order
  | .playerDigging status _ _ =>
      if DigsOrDrops settings world status then withPlayer self player else .ok self
  | .disconnect _ => .ok self
  | .listPing => .ok self
  | .holdChange _ => withPlayer self player
  | .creativeInventoryAction _ _ _ _ => withPlayer self player
  -- the `default` arm follows the player whether there is one or not
  | _ => withPlayer self player

/-- `cdsurvival_ClientDisconnect`. -/
def clientDisconnect (self : Session Client Player World) (client : Client) :
    Except Fault (Session Client Player World) :=
  match self.clientPlayer client with
  | none => .ok self
  | some player =>
      match (self.game.player player).world with
      | none => .ok self
      | some _ =>
          match playerLogout self.game player with
          | .error fault => .error fault
          | .ok game => .ok { self with game := game }

/-! ## What a packet can do -/

section Cases

variable {settings : Settings World} {self next : Session Client Player World} {client : Client}
  {packet : SVRequest} {fresh : Player} {order : List Player}

omit [DecidableEq Client] [DecidableEq Player] [DecidableEq World] in
theorem withPlayer_ok {player : Option Player} (hok : withPlayer self player = .ok next) :
    next = self := by
  cases player with
  | none => cases hok
  | some player => exact (Except.ok.inj hok).symm

omit [DecidableEq Client] [DecidableEq World] in
theorem processMove_ok {player : Option Player} {position : Protocol.SVPrecisePosition}
    (hmove : processMove self player position order = .ok next) :
    ∃ mover position game, player = some mover ∧
      playerMove self.game mover position order = .ok game ∧
        next = { self with game := game } := by
  unfold processMove at hmove
  cases player with
  | none => cases hmove
  | some player =>
      cases hgame : playerMove self.game player (.ofBits position) order with
      | error fault => simp [hgame] at hmove
      | ok game =>
          simp only [hgame, Except.ok.injEq] at hmove
          exact ⟨player, .ofBits position, game, rfl, hgame, hmove.symm⟩

omit [DecidableEq Client] in
private theorem processLogin_ok {player : Option Player} {world : World}
    {version : Protocol.SVInteger}
    {username : CDString}
    (hlogin : processLogin self player world version username order = .ok next) :
    next = self ∨ ∃ newcomer game, player = some newcomer ∧
      playerLogin self.game world newcomer username.content order = .ok game ∧
        next = { self with game := game } := by
  unfold processLogin at hlogin
  by_cases hversion : version ≠ 19
  · rw [if_pos hversion, Except.ok.injEq] at hlogin
    exact Or.inl hlogin.symm
  · rw [if_neg hversion] at hlogin
    by_cases hname : username.length < 1
    · rw [if_pos hname, Except.ok.injEq] at hlogin
      exact Or.inl hlogin.symm
    · rw [if_neg hname] at hlogin
      cases player with
      | none => cases hlogin
      | some player =>
          cases hgame : playerLogin self.game world player username.content order with
          | error fault => simp [hgame] at hlogin
          | ok game =>
              simp only [hgame, Except.ok.injEq] at hlogin
              exact Or.inr ⟨player, game, rfl, hgame, hlogin.symm⟩

omit [DecidableEq Client] [DecidableEq Player] [DecidableEq World] in
private theorem processChat_ok {player : Option Player} {message : CDString}
    (hchat : processChat settings self player message = .ok next) : next = self := by
  unfold processChat at hchat
  cases hresult : playerChat settings self.game player message with
  | error fault => simp [hresult] at hchat
  | ok result =>
      simp only [hresult, Except.ok.injEq] at hchat
      exact hchat.symm

omit [DecidableEq Client] [DecidableEq Player] [DecidableEq World] in
private theorem digging_ok {player : Option Player} {world : World} {status : BitVec 32}
    (hdigging : (if DigsOrDrops settings world status then withPlayer self player else .ok self) =
      .ok next) : next = self := by
  split_ifs at hdigging
  · exact withPlayer_ok hdigging
  · exact (Except.ok.inj hdigging).symm

omit [DecidableEq World] in
theorem handshake_link {other : Client} {player : Player}
    (hlink : (processHandshake self client fresh).clientPlayer other = some player) :
    other = client ∧ player = fresh ∨ other ≠ client ∧ self.clientPlayer other = some player := by
  change Function.update self.clientPlayer client (some fresh) other = some player at hlink
  by_cases heq : other = client
  · rw [heq, Function.update_self] at hlink
    exact Or.inl ⟨heq, (Option.some.inj hlink).symm⟩
  · rw [Function.update_of_ne heq] at hlink
    exact Or.inr ⟨heq, hlink⟩

/-- A packet leaves all as it is, logs the player in, moves it, or makes a new one. -/
theorem clientProcess_cases
    (hprocess : clientProcess settings self client packet fresh order = .ok next) :
    next = self ∨
      (∃ player username game, self.clientPlayer client = some player ∧
        playerLogin self.game (self.worldOf settings (self.clientPlayer client)) player username
          order = .ok game ∧ next = { self with game := game }) ∨
      (∃ player position game, self.clientPlayer client = some player ∧
        playerMove self.game player position order = .ok game ∧
          next = { self with game := game }) ∨
      (∃ username, packet = .handshake username) ∧
        next = processHandshake self client fresh := by
  cases packet with
  | login version username =>
      rcases processLogin_ok hprocess with hsame | ⟨player, game, hplayer, hlogin, hnext⟩
      · exact Or.inl hsame
      · exact Or.inr (Or.inl ⟨player, username.content, game, hplayer, hlogin, hnext⟩)
  | handshake username =>
      exact Or.inr (Or.inr (Or.inr ⟨⟨username, rfl⟩, (Except.ok.inj hprocess).symm⟩))
  | chat message => exact Or.inl (processChat_ok hprocess)
  | playerPosition position => exact Or.inr (Or.inr (Or.inl (processMove_ok hprocess)))
  | playerMoveLook position => exact Or.inr (Or.inr (Or.inl (processMove_ok hprocess)))
  | playerDigging status => exact Or.inl (digging_ok hprocess)
  | keepAlive | onGround | disconnect | listPing => exact Or.inl (Except.ok.inj hprocess).symm
  | _ => exact Or.inl (withPlayer_ok hprocess)

omit [DecidableEq Client] in
/-- A disconnect leaves all as it is, or logs the player out. -/
theorem clientDisconnect_cases (hdisconnect : clientDisconnect self client = .ok next) :
    next = self ∧ (∀ player, self.clientPlayer client = some player →
        (self.game.player player).world = none) ∨
      ∃ player game, self.clientPlayer client = some player ∧
        playerLogout self.game player = .ok game ∧ next = { self with game := game } := by
  unfold clientDisconnect at hdisconnect
  cases hplayer : self.clientPlayer client with
  | none =>
      simp only [hplayer, Except.ok.injEq] at hdisconnect
      exact Or.inl ⟨hdisconnect.symm, fun player hlink => by cases hlink⟩
  | some player =>
      simp only [hplayer] at hdisconnect
      cases hworld : (self.game.player player).world with
      | none =>
          simp only [hworld, Except.ok.injEq] at hdisconnect
          refine Or.inl ⟨hdisconnect.symm, ?_⟩
          rintro other ⟨⟩
          exact hworld
      | some world =>
          simp only [hworld] at hdisconnect
          cases hgame : playerLogout self.game player with
          | error fault => simp [hgame] at hdisconnect
          | ok game =>
              simp only [hgame, Except.ok.injEq] at hdisconnect
              exact Or.inr ⟨player, game, rfl, hgame, hdisconnect.symm⟩

end Cases

/-! ## The system -/

/-- What happens to a client. -/
inductive SessionAction (Client Player : Type*)
  | packet (client : Client) (packet : SVRequest) (fresh : Player) (order : List Player)
  | disconnect (client : Client)

/-- One packet or disconnect; a fault has no next state. -/
def sessionStep (settings : Settings World) (state : Session Client Player World) :
    SessionAction Client Player → Option (Session Client Player World × List Unit)
  | .packet client packet fresh order =>
      if fresh ∈ state.created then none
      else
        match clientProcess settings state client packet fresh order with
        | .error _ => none
        | .ok next => some (next, [])
  | .disconnect client =>
      match clientDisconnect state client with
      | .error _ => none
      | .ok next => some (next, [])

/-- The sessions of all clients. -/
def sessions (settings : Settings World) (start : Session Client Player World) :
    System (Session Client Player World) (SessionAction Client Player) Unit where
  init := start
  step := sessionStep settings

/-- What one step is. -/
theorem sessionStep_cases {settings : Settings World} {state next : Session Client Player World}
    {action : SessionAction Client Player} {emitted : List Unit}
    (hstep : sessionStep settings state action = some (next, emitted)) :
    (∃ client packet fresh order, action = .packet client packet fresh order ∧
        fresh ∉ state.created ∧
          clientProcess settings state client packet fresh order = .ok next) ∨
      ∃ client, action = .disconnect client ∧ clientDisconnect state client = .ok next := by
  cases action with
  | packet client packet fresh order =>
      by_cases hfresh : fresh ∈ state.created
      · simp only [sessionStep, if_pos hfresh, reduceCtorEq] at hstep
      · cases hprocess : clientProcess settings state client packet fresh order with
        | error fault => simp [sessionStep, hfresh, hprocess] at hstep
        | ok after =>
            simp only [sessionStep, if_neg hfresh, hprocess, Option.some.injEq,
              Prod.mk.injEq] at hstep
            exact Or.inl ⟨client, packet, fresh, order, rfl, hfresh, hstep.1 ▸ hprocess⟩
  | disconnect client =>
      cases hdisconnect : clientDisconnect state client with
      | error fault => simp [sessionStep, hdisconnect] at hstep
      | ok after =>
          simp only [sessionStep, hdisconnect, Option.some.injEq, Prod.mk.injEq] at hstep
          exact Or.inr ⟨client, rfl, hstep.1 ▸ hdisconnect⟩

/-! ## A small server -/

/-- A server with one client that has just connected. -/
def freshSession : Session Unit ℕ Unit where
  game := freshGame
  clientPlayer := fun _ => none
  created := []

/-- The letter a. -/
def letterString : Containers.CDString := ⟨[0x61], 1, rfl⟩

/-- A survival world, and a chat whose commands begin with a slash. -/
def plainSettings : Settings Unit where
  defaultWorld := ()
  mode := fun _ => .survival
  commandToken := ⟨[0x2F], 1, rfl⟩
  defaultCommand := []
  regexpMatch := fun text => some (text.takeWhile fun byte => 0x61 ≤ byte ∧ byte ≤ 0x7A)

/-- A handshake and a login. -/
def logsIn : List (SessionAction Unit ℕ) :=
  [.packet () (.handshake letterString) 0 [], .packet () (.login 19 letterString 0 0 0 0 0 0) 1 []]

end Craftd.Survival
