import Craftd.Survival.Login

/-!
# The players of the worlds

An invariant of the players and the worlds that holds whatever the clients send and
in whatever order they are disconnected: a world holds a player only under the
player's own username and id, and only while the player is in it.
-/

namespace Craftd.Survival

variable {Client Player World : Type*}

/-- A world holds a player, by its name or by its id. -/
def Holds (self : Game Client Player World) (world : World) (player : Player) : Prop :=
  (∃ name, (self.world world).players name = some player) ∨
    ∃ id, (self.world world).entities id = some player

/-- The players that the worlds hold are those in them, and a player in a world has an id and is
among the created ones. -/
structure Placed (known : List Player) (game : Game Client Player World) : Prop where
  known : ∀ player, (game.player player).world ≠ none → player ∈ known
  key : ∀ world name player, (game.world world).players name = some player →
    (game.player player).world = some world ∧
      ∃ username, (game.player player).username = some username ∧ stringContent username = name
  entity : ∀ world id player, (game.world world).entities id = some player →
    (game.player player).world = some world ∧ (game.player player).id = id
  id_ne_zero : ∀ player, (game.player player).world ≠ none → (game.player player).id ≠ 0
  last : ∀ world, (game.world world).lastGeneratedEntityId.toNat ≤ integerMax

/-! ## What the worlds hold after a login or a logout -/

section Changes

variable {before after : Game Client Player World} {world place : World} {player other : Player}
  {name own : List Byte} {id : SVEntityId}

theorem Added.key_cases (h : Added before after world player name)
    (hkey : (after.world place).players own = some other) :
    place = world ∧ own = stringContent name ∧ other = player ∨
      (before.world place).players own = some other := by
  by_cases hplace : place = world
  · rw [hplace, h.players_eq] at hkey
    by_cases hown : own = stringContent name
    · rw [hown, Function.update_self] at hkey
      exact Or.inl ⟨hplace, hown, (Option.some.inj hkey).symm⟩
    · rw [Function.update_of_ne hown] at hkey
      exact Or.inr (hplace ▸ hkey)
  · rw [h.worlds_eq place hplace] at hkey
    exact Or.inr hkey

theorem Added.entity_cases (h : Added before after world player name)
    (hentity : (after.world place).entities id = some other) :
    place = world ∧ id = (after.player player).id ∧ other = player ∨
      (before.world place).entities id = some other := by
  by_cases hplace : place = world
  · rw [hplace, h.entities_eq] at hentity
    by_cases hid : id = (after.player player).id
    · rw [hid, Function.update_self] at hentity
      exact Or.inl ⟨hplace, hid, (Option.some.inj hentity).symm⟩
    · rw [Function.update_of_ne hid] at hentity
      exact Or.inr (hplace ▸ hentity)
  · rw [h.worlds_eq place hplace] at hentity
    exact Or.inr hentity

theorem LoggedOut.key_before (h : LoggedOut before after world player name)
    (hkey : (after.world place).players own = some other) :
    (before.world place).players own = some other ∧
      ¬ (place = world ∧ own = stringContent name) := by
  by_cases hplace : place = world
  · rw [hplace, h.players_eq] at hkey
    by_cases hown : own = stringContent name
    · rw [hown, Function.update_self] at hkey
      cases hkey
    · rw [Function.update_of_ne hown] at hkey
      exact ⟨hplace ▸ hkey, fun hcase => hown hcase.2⟩
  · rw [h.worlds_eq place hplace] at hkey
    exact ⟨hkey, fun hcase => hplace hcase.1⟩

theorem LoggedOut.entity_before (h : LoggedOut before after world player name)
    (hentity : (after.world place).entities id = some other) :
    (before.world place).entities id = some other ∧
      ¬ (place = world ∧ id = (before.player player).id) := by
  by_cases hplace : place = world
  · rw [hplace, h.entities_eq] at hentity
    by_cases hid : id = (before.player player).id
    · rw [hid, Function.update_self] at hentity
      cases hentity
    · rw [Function.update_of_ne hid] at hentity
      exact ⟨hplace ▸ hentity, fun hcase => hid hcase.2⟩
  · rw [h.worlds_eq place hplace] at hentity
    exact ⟨hentity, fun hcase => hplace hcase.1⟩

variable [DecidableEq Player] [DecidableEq World]

/-- A login lets the worlds hold nobody else than the player. -/
theorem holds_of_login {username : List Byte} {order : List Player}
    (hlogin : playerLogin before world player username order = .ok after)
    (hholds : Holds after place other) : other = player ∨ Holds before place other := by
  obtain ⟨-, ⟨name, middle, hadded, hcheck⟩ | hrefused⟩ := playerLogin_cases hlogin
  · have hworld := (playerPreLogin_same hcheck).2
    rcases hholds with ⟨own, hkey⟩ | ⟨id, hentity⟩
    · rw [hworld] at hkey
      exact (hadded.key_cases hkey).imp (fun hcase => hcase.2.2) (fun hkey => Or.inl ⟨own, hkey⟩)
    · rw [hworld] at hentity
      exact (hadded.entity_cases hentity).imp (fun hcase => hcase.2.2)
        (fun hentity => Or.inr ⟨id, hentity⟩)
  · right
    simpa only [Holds, hrefused.players_eq, hrefused.entities_eq] using hholds

theorem client_of_login {username : List Byte} {order : List Player}
    (hlogin : playerLogin before world player username order = .ok after) (other : Player) :
    (after.player other).client = (before.player other).client := by
  obtain ⟨-, ⟨name, middle, hadded, hcheck⟩ | hrefused⟩ := playerLogin_cases hlogin
  · rw [(playerPreLogin_same hcheck).1.client_eq]
    by_cases heq : other = player
    · rw [heq, hadded.client_eq]
    · rw [hadded.others_eq other heq]
  · exact hrefused.client_eq other

end Changes

/-! ## The invariant -/

namespace Placed

variable {known : List Player} {game next : Game Client Player World} {world : World}
  {player : Player}

theorem world_eq (h : Placed known game) (hholds : Holds game world player) :
    (game.player player).world = some world := by
  rcases hholds with ⟨name, hkey⟩ | ⟨id, hentity⟩
  · exact (h.key world name player hkey).1
  · exact (h.entity world id player hentity).1

/-- A player with the id 0 is in no world. -/
theorem outside (h : Placed known game) (hid : (game.player player).id = 0) :
    (game.player player).world = none := by
  by_contra hin
  exact h.id_ne_zero player hin hid

/-- A player that was not created is in no world. -/
theorem unknown (h : Placed known game) (hnot : player ∉ known) :
    (game.player player).world = none := by
  by_contra hin
  exact hnot (h.known player hin)

theorem initial (hworlds : ∀ world, game.world world = createWorld)
    (hplayers : ∀ player, (game.player player).world = none) : Placed known game := by
  constructor
  · intro player hin
    exact absurd (hplayers player) hin
  · intro world name player hkey
    simp [hworlds, createWorld] at hkey
  · intro world id player hentity
    simp [hworlds, createWorld] at hentity
  · intro player hin
    exact absurd (hplayers player) hin
  · intro world
    simp [hworlds, createWorld]

/-- A change that leaves alone what the worlds hold. -/
theorem frame (h : Placed known game)
    (hid : ∀ player, (next.player player).id = (game.player player).id)
    (hplace : ∀ player, (next.player player).world = (game.player player).world)
    (husername : ∀ player, (game.player player).world ≠ none →
      (next.player player).username = (game.player player).username)
    (hkeys : ∀ world, (next.world world).players = (game.world world).players)
    (hentities : ∀ world, (next.world world).entities = (game.world world).entities)
    (hlast : ∀ world, (next.world world).lastGeneratedEntityId =
      (game.world world).lastGeneratedEntityId) : Placed known next := by
  constructor
  · intro player hin
    rw [hplace] at hin
    exact h.known player hin
  · intro world name player hkey
    rw [hkeys] at hkey
    obtain ⟨hin, hname⟩ := h.key world name player hkey
    rw [hplace, husername player (by simp [hin])]
    exact ⟨hin, hname⟩
  · intro world id player hentity
    rw [hentities] at hentity
    rw [hplace, hid]
    exact h.entity world id player hentity
  · intro player hin
    rw [hplace] at hin
    rw [hid]
    exact h.id_ne_zero player hin
  · intro world
    rw [hlast]
    exact h.last world

theorem sameRegistry (h : Placed known game) (hsame : SameRegistry game next) :
    Placed known next :=
  h.frame hsame.id_eq hsame.playerWorld_eq (fun player _ => hsame.username_eq player)
    (fun world => by rw [hsame.world_eq]) (fun world => by rw [hsame.world_eq])
    (fun world => by rw [hsame.world_eq])

theorem refused (h : Placed known game) (hout : (game.player player).world = none)
    (hrefused : Refused game next player) : Placed known next := by
  refine h.frame hrefused.id_eq hrefused.playerWorld_eq ?_ hrefused.players_eq
    hrefused.entities_eq hrefused.last_eq
  intro other hin
  have hne : other ≠ player := by
    rintro rfl
    exact hin hout
  rw [hrefused.others_eq other hne]

theorem loggedOut (h : Placed known game) {username : List Byte}
    (hout : LoggedOut game next world player username) : Placed known next := by
  constructor
  · intro other hplace
    rw [hout.playerWorld_eq] at hplace
    exact h.known other hplace
  · intro place own other hkey
    rw [hout.playerWorld_eq, hout.username_eq]
    exact h.key place own other (hout.key_before hkey).1
  · intro place id other hentity
    rw [hout.playerWorld_eq, hout.id_eq]
    exact h.entity place id other (hout.entity_before hentity).1
  · intro other hplace
    rw [hout.playerWorld_eq] at hplace
    rw [hout.id_eq]
    exact h.id_ne_zero other hplace
  · intro place
    by_cases hplace : place = world
    · rw [hplace, hout.last_eq]
      exact h.last world
    · rw [hout.worlds_eq place hplace]
      exact h.last place

theorem not_holds (h : Placed known game) {username : List Byte}
    (hin : (game.player player).world = some world)
    (husername : (game.player player).username = some username)
    (hout : LoggedOut game next world player username) (place : World) :
    ¬ Holds next place player := by
  rintro (⟨own, hkey⟩ | ⟨id, hentity⟩)
  · -- its name stands at its own username alone
    obtain ⟨hbefore, hnot⟩ := hout.key_before hkey
    obtain ⟨hplace, own', hown', hcontent⟩ := h.key place own player hbefore
    rw [hin] at hplace
    rw [husername] at hown'
    cases hown'
    exact hnot ⟨(Option.some.inj hplace).symm, hcontent.symm⟩
  · obtain ⟨hbefore, hnot⟩ := hout.entity_before hentity
    obtain ⟨hplace, hid⟩ := h.entity place id player hbefore
    rw [hin] at hplace
    exact hnot ⟨(Option.some.inj hplace).symm, hid.symm⟩

variable [DecidableEq Player] [DecidableEq World]

omit [DecidableEq World] in
theorem added (h : Placed known game) (hknown : player ∈ known)
    (hout : (game.player player).world = none) {name : List Byte}
    {after : Game Client Player World} (hadded : Added game after world player name)
    (hsame : SamePlayers after next) (hworld : next.world = after.world) :
    Placed known next := by
  obtain ⟨hid, hmax⟩ := generateEntityId_spec (h.last world) hadded.id_eq
  have hothers := hadded.others_eq
  -- the player was in no world, so no entry of a world is its
  have hin : ∀ other place, (game.player other).world = some place → other ≠ player := by
    rintro other place hplace rfl
    rw [hout] at hplace
    cases hplace
  constructor
  · intro other hplace
    rw [hsame.playerWorld_eq] at hplace
    by_cases heq : other = player
    · exact heq ▸ hknown
    · rw [hothers other heq] at hplace
      exact h.known other hplace
  · intro place own other hkey
    rw [hworld] at hkey
    rw [hsame.playerWorld_eq, hsame.username_eq]
    rcases hadded.key_cases hkey with ⟨rfl, rfl, rfl⟩ | hbefore
    · exact ⟨hadded.playerWorld_eq, name, hadded.username_eq, rfl⟩
    · have hbefore' := h.key place own other hbefore
      rwa [hothers other (hin other place hbefore'.1)]
  · intro place id other hentity
    rw [hworld] at hentity
    rw [hsame.playerWorld_eq, hsame.id_eq]
    rcases hadded.entity_cases hentity with ⟨rfl, rfl, rfl⟩ | hbefore
    · exact ⟨hadded.playerWorld_eq, rfl⟩
    · have hbefore' := h.entity place id other hbefore
      rwa [hothers other (hin other place hbefore'.1)]
  · intro other hplace
    rw [hsame.playerWorld_eq] at hplace
    rw [hsame.id_eq]
    by_cases heq : other = player
    · exact heq ▸ hid
    · rw [hothers other heq] at hplace ⊢
      exact h.id_ne_zero other hplace
  · intro place
    rw [hworld]
    by_cases hplace : place = world
    · rw [hplace, hadded.last_eq]
      exact hmax
    · rw [hadded.worlds_eq place hplace]
      exact h.last place

theorem login (h : Placed known game) (hknown : player ∈ known) {username : List Byte}
    {order : List Player} (hlogin : playerLogin game world player username order = .ok next) :
    Placed known next := by
  obtain ⟨hid, ⟨name, after, hadded, hcheck⟩ | hrefused⟩ := playerLogin_cases hlogin
  · obtain ⟨hsame, hworld⟩ := playerPreLogin_same hcheck
    exact h.added hknown (h.outside hid) hadded hsame hworld
  · exact h.refused (h.outside hid) hrefused

omit [DecidableEq World] in
theorem create (h : Placed known game) {fresh : Player} (hfresh : fresh ∉ known)
    (client : Client) :
    Placed (fresh :: known) (game.setPlayer fresh (createPlayer client)) := by
  have hself : (game.setPlayer fresh (createPlayer client)).player fresh =
      createPlayer client := by
    simp [Game.setPlayer]
  have hothers : ∀ other, other ≠ fresh →
      (game.setPlayer fresh (createPlayer client)).player other = game.player other := by
    intro other hne
    exact Function.update_of_ne hne _ _
  have hin : ∀ other place, (game.player other).world = some place → other ≠ fresh := by
    rintro other place hplace rfl
    rw [h.unknown hfresh] at hplace
    cases hplace
  constructor
  · intro player hplace
    by_cases heq : player = fresh
    · exact heq ▸ List.mem_cons_self
    · rw [hothers player heq] at hplace
      exact List.mem_cons_of_mem fresh (h.known player hplace)
  · intro world name player hkey
    have hbefore := h.key world name player hkey
    rwa [hothers player (hin player world hbefore.1)]
  · intro world id player hentity
    have hbefore := h.entity world id player hentity
    rwa [hothers player (hin player world hbefore.1)]
  · intro player hplace
    by_cases heq : player = fresh
    · rw [heq, hself] at hplace
      exact absurd rfl hplace
    · rw [hothers player heq] at hplace ⊢
      exact h.id_ne_zero player hplace
  · exact h.last

end Placed

end Craftd.Survival
