import Craftd.Survival.Placement
import Craftd.Survival.Session

/-!
# Ghost players

Whether a world still holds a player of a client that was disconnected.  The
worlds hold their players by name and by id; `cdsurvival_ClientDisconnect` gets to
the player of a client through `Client.player`.  The invariant `Linked` says that
the link of a client leads to every player of it that a world holds.  A handshake
replaces the link, so it must not come while a world holds the player.
-/

namespace Craftd.Survival

open StepSystem

variable {Client Player World : Type*}

/-- A step that is no handshake of the client while a world holds its player. -/
def KeepsLink (client : Client) (state : Session Client Player World) :
    SessionAction Client Player → Prop
  | .packet sender (.handshake _) _ _ => sender = client →
      ∀ player world, state.clientPlayer client = some player → ¬ Holds state.game world player
  | _ => True

/-- Every player of a client that a world holds is the one linked to it. -/
structure Linked (client : Client) (state : Session Client Player World) : Prop
    extends Placed state.created state.game where
  owner : ∀ other player, state.clientPlayer other = some player →
    (state.game.player player).client = other ∧ player ∈ state.created
  linked : ∀ world player, Holds state.game world player →
    (state.game.player player).client = client → state.clientPlayer client = some player

theorem Linked.initial {client : Client} {state : Session Client Player World}
    (hlinks : ∀ client, state.clientPlayer client = none)
    (hworlds : ∀ world, state.game.world world = createWorld)
    (hplayers : ∀ player, (state.game.player player).world = none) : Linked client state := by
  constructor
  · exact .initial hworlds hplayers
  · intro other player hlink
    simp [hlinks] at hlink
  · intro world player hholds
    simp [Holds, hworlds, createWorld] at hholds

/-! ## The steps -/

section Steps

variable [DecidableEq Client] [DecidableEq Player] [DecidableEq World]
  {settings : Settings World} {state next : Session Client Player World}
  {client sender : Client}

omit [DecidableEq Client] [DecidableEq Player] [DecidableEq World] in
/-- A change of the game that leaves the registry alone. -/
theorem Linked.sameRegistry (h : Linked client state) {game : Game Client Player World}
    (hsame : SameRegistry state.game game) : Linked client { state with game := game } := by
  constructor
  · exact h.toPlaced.sameRegistry hsame
  · intro other player hlink
    rw [hsame.client_eq]
    exact h.owner other player hlink
  · intro world player hholds hclient
    have hbefore : Holds state.game world player := by
      simpa only [Holds, hsame.world_eq] using hholds
    rw [hsame.client_eq] at hclient
    exact h.linked world player hbefore hclient

omit [DecidableEq Client] in
theorem Linked.login (h : Linked client state) {player : Player} {world : World}
    {username : List Byte} {order : List Player} {game : Game Client Player World}
    (hlink : state.clientPlayer sender = some player)
    (hlogin : playerLogin state.game world player username order = .ok game) :
    Linked client { state with game := game } := by
  obtain ⟨howner, hcreated⟩ := h.owner sender player hlink
  have hclients := client_of_login hlogin
  constructor
  · exact h.toPlaced.login hcreated hlogin
  · intro sender other hother
    rw [hclients]
    exact h.owner sender other hother
  · intro place other hholds hclient
    rw [hclients] at hclient
    rcases holds_of_login hlogin hholds with rfl | hbefore
    · rw [howner] at hclient
      exact hclient ▸ hlink
    · exact h.linked place other hbefore hclient

omit [DecidableEq World] in
/-- A handshake keeps the invariant, unless it is one of the client while a world holds its
player. -/
theorem Linked.handshake (h : Linked client state) {fresh : Player}
    (hfresh : fresh ∉ state.created)
    (hkeeps : sender = client → ∀ player world, state.clientPlayer client = some player →
      ¬ Holds state.game world player) :
    Linked client (processHandshake state sender fresh) := by
  have hself : (processHandshake state sender fresh).game.player fresh = createPlayer sender := by
    simp [processHandshake, Game.setPlayer]
  have hothers : ∀ other, other ≠ fresh →
      (processHandshake state sender fresh).game.player other = state.game.player other := by
    intro other hne
    exact Function.update_of_ne hne _ _
  constructor
  · exact h.toPlaced.create hfresh sender
  · intro other player hlink
    rcases handshake_link hlink with ⟨rfl, rfl⟩ | ⟨-, hbefore⟩
    · rw [hself]
      exact ⟨rfl, List.mem_cons_self⟩
    · obtain ⟨howner, hcreated⟩ := h.owner other player hbefore
      have hne : player ≠ fresh := fun heq => hfresh (heq ▸ hcreated)
      rw [hothers player hne]
      exact ⟨howner, List.mem_cons_of_mem fresh hcreated⟩
  · intro world player hholds hclient
    have hbefore : Holds state.game world player := hholds
    have hne : player ≠ fresh := by
      rintro rfl
      have hin := h.world_eq hbefore
      rw [h.unknown hfresh] at hin
      cases hin
    rw [hothers player hne] at hclient
    have hlink := h.linked world player hbefore hclient
    have hsender : client ≠ sender := by
      rintro rfl
      exact hkeeps rfl player world hlink hbefore
    exact (Function.update_of_ne hsender _ _).trans hlink

omit [DecidableEq Client] in
/-- A logout keeps the invariant, and no world holds the player afterwards. -/
theorem Linked.logout (h : Linked client state) {player : Player} {game : Game Client Player World}
    (hlogout : playerLogout state.game player = .ok game) :
    Linked client { state with game := game } ∧ ∀ world, ¬ Holds game world player := by
  obtain ⟨world, username, hin, husername, hout⟩ := playerLogout_loggedOut hlogout
  refine ⟨?_, h.not_holds hin husername hout⟩
  constructor
  · exact h.toPlaced.loggedOut hout
  · intro other player hlink
    rw [hout.client_eq]
    exact h.owner other player hlink
  · intro place other hholds hclient
    rw [hout.client_eq] at hclient
    refine h.linked place other ?_ hclient
    rcases hholds with ⟨own, hkey⟩ | ⟨id, hentity⟩
    · exact Or.inl ⟨own, (hout.key_before hkey).1⟩
    · exact Or.inr ⟨id, (hout.entity_before hentity).1⟩

/-- Every packet that keeps the link keeps the invariant. -/
theorem Linked.process (h : Linked client state) {packet : Protocol.SVRequest} {fresh : Player}
    {order : List Player} (hfresh : fresh ∉ state.created)
    (hkeeps : KeepsLink client state (.packet sender packet fresh order))
    (hprocess : clientProcess settings state sender packet fresh order = .ok next) :
    Linked client next := by
  rcases clientProcess_cases hprocess with rfl | ⟨player, username, game, hlink, hlogin, rfl⟩ |
    ⟨player, position, game, -, hmove, rfl⟩ | ⟨⟨username, rfl⟩, rfl⟩
  · exact h
  · exact h.login hlink hlogin
  · exact h.sameRegistry (playerMove_same hmove)
  · exact h.handshake hfresh hkeeps

omit [DecidableEq Client] in
theorem Linked.disconnect (h : Linked client state)
    (hdisconnect : clientDisconnect state sender = .ok next) : Linked client next := by
  rcases clientDisconnect_cases hdisconnect with ⟨rfl, -⟩ | ⟨player, game, -, hlogout, rfl⟩
  · exact h
  · exact (h.logout hlogout).1

omit [DecidableEq Client] in
theorem Linked.not_holds_of_disconnect (h : Linked client state)
    (hdisconnect : clientDisconnect state client = .ok next) (world : World) (player : Player)
    (hclient : (next.game.player player).client = client) : ¬ Holds next.game world player := by
  intro hholds
  rcases clientDisconnect_cases hdisconnect with ⟨rfl, hout⟩ | ⟨other, game, hlink, hlogout, rfl⟩
  · have hlink := h.linked world player hholds hclient
    have hin := h.world_eq hholds
    rw [hout player hlink] at hin
    cases hin
  · obtain ⟨hnext, hgone⟩ := h.logout hlogout
    have hplayer := hnext.linked world player hholds hclient
    have hsame : other = player := Option.some.inj (hlink.symm.trans hplayer)
    exact hgone world (hsame ▸ hholds)

theorem Linked.step (h : Linked client state) {action : SessionAction Client Player}
    (hkeeps : KeepsLink client state action) {emitted : List Unit}
    (hstep : sessionStep settings state action = some (next, emitted)) : Linked client next := by
  rcases sessionStep_cases hstep with ⟨sender, packet, fresh, order, rfl, hfresh, hprocess⟩ |
    ⟨sender, rfl, hdisconnect⟩
  · exact h.process hfresh hkeeps hprocess
  · exact h.disconnect hdisconnect

end Steps

/-! ## The runs -/

section Runs

variable [DecidableEq Client] [DecidableEq Player] [DecidableEq World]
  {settings : Settings World} {start state next : Session Client Player World} {client : Client}
  {events : List Unit}

/-- Every run that keeps the link keeps the invariant. -/
theorem linked_of_run (hlinks : ∀ client, start.clientPlayer client = none)
    (hworlds : ∀ world, start.game.world world = createWorld)
    (hplayers : ∀ player, (start.game.player player).world = none)
    (hrun : (sessions settings start).Run (KeepsLink client) events state) : Linked client state :=
  System.Run.invariant (I := fun _ last => Linked client last) (.initial hlinks hworlds hplayers)
    (fun _ _ _ _ _ hlast hkeeps hstep => hlast.step hkeeps hstep) hrun

/-- **No ghost players.**  After every run without a handshake of a client while a world holds its
player, the disconnect of that client leaves no player of it in any world. -/
theorem no_ghost_players (hlinks : ∀ client, start.clientPlayer client = none)
    (hworlds : ∀ world, start.game.world world = createWorld)
    (hplayers : ∀ player, (start.game.player player).world = none)
    (hrun : (sessions settings start).Run (KeepsLink client) events state)
    (hdisconnect : clientDisconnect state client = .ok next) :
    ∀ world player, (next.game.player player).client = client → ¬ Holds next.game world player :=
  (linked_of_run hlinks hworlds hplayers hrun).not_holds_of_disconnect hdisconnect

theorem no_ghost_players_login :
    ∃ state next, (state.game.world ()).players [0x61] = some 0 ∧
      clientDisconnect state () = .ok next ∧
      ∀ world player, (next.game.player player).client = () → ¬ Holds next.game world player := by
  have hexec : ((sessions plainSettings freshSession).exec logsIn freshSession).map
      (fun result => ((result.1.game.world ()).players [0x61],
        (clientDisconnect result.1 ()).toOption.isSome)) = some (some 0, true) := by
    rfl
  obtain ⟨⟨state, events⟩, hrun, hseen⟩ := Option.map_eq_some_iff.mp hexec
  simp only [Prod.mk.injEq] at hseen
  obtain ⟨hkey, hok⟩ := hseen
  cases hdisconnect : clientDisconnect state () with
  | error fault => simp [hdisconnect, Except.toOption] at hok
  | ok next =>
      have hguard : (sessions plainSettings freshSession).ExecGuard (KeepsLink ()) logsIn
          freshSession := by
        refine ⟨?_, trivial, trivial⟩
        rintro - player world ⟨⟩
      refine ⟨state, next, hkey, hdisconnect, ?_⟩
      exact no_ghost_players (fun _ => rfl) (fun _ => rfl) (fun _ => rfl)
        (System.Run.exec .start hguard hrun) hdisconnect

/-- A second handshake after the login: the disconnect leaves the first player in the world. -/
theorem handshake_leaves_ghost :
    ∃ state next, (sessions plainSettings freshSession).Run (fun _ _ => True) [] state ∧
      clientDisconnect state () = .ok next ∧
      ∃ player, (next.game.player player).client = () ∧ Holds next.game () player := by
  have hexec : ((sessions plainSettings freshSession).exec
      (logsIn ++ [.packet () (.handshake letterString) 1 []]) freshSession).map
      (fun result => (result.2, (clientDisconnect result.1 ()).toOption.map
        fun next => (next.game.world ()).players [0x61])) = some ([], some (some 0)) := by
    rfl
  obtain ⟨⟨state, events⟩, hrun, hseen⟩ := Option.map_eq_some_iff.mp hexec
  simp only [Prod.mk.injEq] at hseen
  obtain ⟨rfl, hkey⟩ := hseen
  cases hdisconnect : clientDisconnect state () with
  | error fault => simp [hdisconnect, Except.toOption] at hkey
  | ok next =>
      simp only [hdisconnect, Except.toOption, Option.map_some, Option.some.injEq] at hkey
      exact ⟨state, next, System.Run.exec .start (System.execGuard_true _ _) hrun, hdisconnect, 0,
        rfl, Or.inl ⟨_, hkey⟩⟩

end Runs

end Craftd.Survival
