import Craftd.Containers.TableMap
import Craftd.Library.System
import Craftd.Survival.Login
import Mathlib.Tactic.Linarith

/-!
# Who sees whom

Logins, moves and logouts of the players of one world, each as one step.  The
invariant says that a player is logged in, that is, has a list
`Player.seenPlayers`, exactly if the hash of the world has it, and that the lists
hold exactly the other logged-in players in the region.

The logout of a player that is logged out already takes the entry of its username
out of the hash, whoever it belongs to.  That player then is no longer found by
`cdsurvival_CheckPlayersInRegion`, so the invariant needs that it does not happen.
-/

namespace Craftd.Survival

open StepSystem NeighbourLists

variable {Client Player World : Type*}

/-! ## What is to hold -/

/-- The chunks of the stored positions differ by at most 5 in both directions. -/
def Near (state : Game Client Player World) (player other : Player) : Prop :=
  let chunk := state.chunkOf (state.player player).position
  let otherChunk := state.chunkOf (state.player other).position
  |chunk.x - otherChunk.x| ≤ 5 ∧ |chunk.z - otherChunk.z| ≤ 5

instance decidableNear (state : Game Client Player World) (player other : Player) :
    Decidable (Near state player other) :=
  inferInstanceAs (Decidable (_ ∧ _))

theorem near_symm {state : Game Client Player World} {player other : Player}
    (h : Near state player other) : Near state other player := by
  obtain ⟨hx, hz⟩ := h
  exact ⟨by rwa [abs_sub_comm], by rwa [abs_sub_comm]⟩

private theorem coordInRadius_iff (coord centerCoord : SVChunkPosition) (radius : SVInteger) :
    coordInRadius coord centerCoord radius = true ↔
      |centerCoord.x - coord.x| ≤ radius ∧ |centerCoord.z - coord.z| ≤ radius := by
  simp only [coordInRadius, Bool.and_eq_true, decide_eq_true_eq, abs_le]
  constructor
  · rintro ⟨⟨⟨hxl, hxu⟩, hzl⟩, hzu⟩
    exact ⟨⟨by linarith, by linarith⟩, by linarith, by linarith⟩
  · rintro ⟨⟨hxu, hxl⟩, hzu, hzl⟩
    exact ⟨⟨⟨by linarith, by linarith⟩, by linarith⟩, by linarith⟩

variable [DecidableEq Player] [DecidableEq World]

/-! ## The steps -/

/-- A step of a player. -/
inductive VisibilityAction (Player : Type*)
  /-- `SV_WorldAddPlayer` and `cdsurvival_PlayerPreLogin` -/
  | login (player : Player) (username : List Byte) (order : List Player)
  /-- a `SVPlayerPosition` or `SVPlayerMoveLook` packet -/
  | move (player : Player) (position : SVPrecisePosition) (order : List Player)
  /-- `cdsurvival_PlayerLogout` -/
  | logout (player : Player)

/-- One step; a fault has no next state. -/
def visibilityStep (world : World) (state : Game Client Player World) :
    VisibilityAction Player → Option (Game Client Player World × List Unit)
  | .login player username order =>
      match playerLogin state world player username order with
      | .error _ => none
      | .ok next => some (next, [])
  | .move player position order =>
      match playerMove state player position order with
      | .error _ => none
      | .ok next => some (next, [])
  | .logout player =>
      match playerLogout state player with
      | .error _ => none
      | .ok next => some (next, [])

/-- The steps of the players of a world. -/
def visibility (start : Game Client Player World) (world : World) :
    System (Game Client Player World) (VisibilityAction Player) Unit where
  init := start
  step := visibilityStep world

/-- An order of the hash of the world: it has all players of it.  The one that looks for the
others is passed over, so its own place does not matter. -/
def IsOrder (state : Game Client Player World) (world : World) (player : Player)
    (order : List Player) : Prop :=
  ∀ other, other ≠ player → (other ∈ order ↔ Registered state world other)

/-- The loops over the hash go through all of it. -/
def Ordered (world : World) (state : Game Client Player World) :
    VisibilityAction Player → Prop
  | .login player _ order => IsOrder state world player order
  | .move player _ order => IsOrder state world player order
  | .logout _ => True

/-- The logout takes no other player's entry out of the hash. -/
def OwnEntry (world : World) (state : Game Client Player World) (player : Player) : Prop :=
  ∀ username other, (state.player player).username = some username →
    (state.world world).players (stringContent username) = some other → other = player

/-- A step that goes through all of the hash and, as a logout, is not one of a player whose
username is now registered by another one. -/
def Proper (world : World) (state : Game Client Player World)
    (action : VisibilityAction Player) : Prop :=
  Ordered world state action ∧
    match action with
    | .logout player => OwnEntry world state player
    | _ => True

omit [DecidableEq Player] [DecidableEq World] in
/-- **`CD_HASH_FOREACH`** goes through an order of the hash where the table of the world's players
has fewer than 16 buckets.  `table` is that table, with or without the one that looks for the
others, and `pointer` is where a player lies. -/
theorem isOrder_of_hashForeach {state : Game Client Player World} {world : World}
    {player : Player} {table : Containers.CDHash} {pointer : Player → Containers.CDPointer}
    {map : Finmap fun _ : List Byte => Containers.CDPointer}
    (hfiled : Containers.Filed Containers.acX31HashString table)
    (hmap : OpenAddressing.Tabulates (Containers.contents table) map)
    (hpointer : Function.Injective pointer)
    (hplayers : ∀ name data, map.lookup name = some data → ∃ other, pointer other = data)
    (hregistered : ∀ other, other ≠ player →
      ((∃ name, map.lookup name = some (pointer other)) ↔ Registered state world other))
    (hfew : table.nBuckets < 16) :
    ∃ visited order, Containers.hashForeach table = some visited ∧
      order.map pointer = visited.map table.vals ∧ IsOrder state world player order := by
  -- every entry is seen, and is the one of a player
  obtain ⟨visited, hvisited, hmem⟩ : ∃ visited, Containers.hashForeach table = some visited ∧
      ∀ x, x ∈ visited ↔ x ∈ Containers.entries table := by
    rcases Finset.eq_empty_or_nonempty (Containers.entries table) with hnone | hsome
    · refine ⟨[], ?_, by simp [hnone]⟩
      have hempty : table.size = 0 := by
        rw [hfiled.sound.counted]
        exact Finset.card_eq_zero.mpr hnone
      rw [Containers.hashForeach, Containers.tableForeach, hempty]
      rfl
    · obtain ⟨visited, hvisited, -, hmem⟩ := (hfiled.sound.foreachComplete_iff hsome).mpr hfew
      exact ⟨visited, hvisited, hmem⟩
  have hentries : ∀ data, (∃ x ∈ visited, table.vals x = data) ↔
      ∃ name, map.lookup name = some data := by
    intro data
    simp only [Containers.lookup_iff hmap, hmem]
    constructor
    · rintro ⟨x, hx, hdata⟩
      exact ⟨table.keys x, x, hx, rfl, hdata⟩
    · rintro ⟨name, x, hx, -, hdata⟩
      exact ⟨x, hx, hdata⟩
  obtain ⟨order, horder⟩ : ∃ order : List Player, order.map pointer = visited.map table.vals := by
    have hrange : visited.map table.vals ∈ Set.range (List.map pointer) := by
      rw [Set.range_list_map]
      intro data hdata
      obtain ⟨name, hname⟩ := (hentries data).mp (List.mem_map.mp hdata)
      exact hplayers name data hname
    exact hrange
  refine ⟨visited, order, hvisited, horder, fun other hne => ?_⟩
  rw [← hregistered other hne, ← hentries]
  have hin : pointer other ∈ visited.map table.vals ↔ other ∈ order := by
    rw [← horder, List.mem_map_of_injective hpointer]
  rw [← hin, List.mem_map]

/-! ## The invariant -/

/-- The world, its players and their lists are in step. -/
structure Visible (world : World) (state : Game Client Player World) : Prop where
  key : ∀ name player, (state.world world).players name = some player →
    LoggedIn state player ∧
      ∃ username, (state.player player).username = some username ∧ stringContent username = name
  registered : ∀ player, LoggedIn state player → (state.player player).world = some world ∧
    ∃ username, (state.player player).username = some username ∧
      (state.world world).players (stringContent username) = some player
  entity : ∀ id player, (state.world world).entities id = some player →
    (state.player player).id = id ∧ LoggedIn state player
  id_ne_zero : ∀ player, (state.player player).world = some world → (state.player player).id ≠ 0
  one_world : ∀ player other, (state.player player).world = some other → other = world
  last : (state.world world).lastGeneratedEntityId.toNat ≤ integerMax
  nodups : Nodups state.seenLists
  sees_iff : ∀ player other, Sees state.seenLists player other ↔
    LoggedIn state player ∧ LoggedIn state other ∧ player ≠ other ∧ Near state player other

namespace Visible

variable {world : World} {state next : Game Client Player World} {player : Player}

omit [DecidableEq Player] [DecidableEq World] in
theorem initial (hworld : state.world world = createWorld)
    (hplayers : ∀ player, (state.player player).world = none ∧
      (state.player player).seenPlayers = none) : Visible world state := by
  have hnone : ∀ player, ¬ LoggedIn state player := by
    intro player
    simp [LoggedIn, Game.seenLists, (hplayers player).2]
  constructor
  · intro name player hkey
    simp [hworld, createWorld] at hkey
  · intro player hlogged
    exact absurd hlogged (hnone player)
  · intro id player hentity
    simp [hworld, createWorld] at hentity
  · intro player hin
    simp [(hplayers player).1] at hin
  · intro player other hin
    simp [(hplayers player).1] at hin
  · simp [hworld, createWorld]
  · intro player list hlist
    simp [Game.seenLists, (hplayers player).2] at hlist
  · intro player other
    constructor
    · intro hsees
      exact absurd hsees.isSome (hnone player)
    · rintro ⟨hlogged, -⟩
      exact absurd hlogged (hnone player)

omit [DecidableEq Player] [DecidableEq World] in
theorem registered_iff (h : Visible world state) (player : Player) :
    Registered state world player ↔ LoggedIn state player := by
  constructor
  · rintro ⟨name, hkey⟩
    exact (h.key name player hkey).1
  · intro hlogged
    obtain ⟨-, username, -, hkey⟩ := h.registered player hlogged
    exact ⟨_, hkey⟩

omit [DecidableEq Player] [DecidableEq World] in
theorem isMutual (h : Visible world state) : Mutual state.seenLists := by
  constructor
  · exact h.nodups
  · intro vertex other hsees
    obtain ⟨hvertex, hother, hne, hnear⟩ := (h.sees_iff vertex other).mp hsees
    exact (h.sees_iff other vertex).mpr ⟨hother, hvertex, hne.symm, near_symm hnear⟩

omit [DecidableEq Player] [DecidableEq World] in
/-- Only what the lists say has to be looked at again. -/
theorem relist (h : Visible world state) (hsame : SameRegistry state next)
    (hnodups : Nodups next.seenLists)
    (hsees : ∀ player other, Sees next.seenLists player other ↔
      LoggedIn next player ∧ LoggedIn next other ∧ player ≠ other ∧ Near next player other) :
    Visible world next := by
  constructor
  · intro name other hkey
    rw [hsame.world_eq] at hkey
    rw [hsame.loggedIn_iff, hsame.username_eq]
    exact h.key name other hkey
  · intro other hlogged
    rw [hsame.loggedIn_iff] at hlogged
    rw [hsame.playerWorld_eq, hsame.username_eq, hsame.world_eq]
    exact h.registered other hlogged
  · intro id other hentity
    rw [hsame.world_eq] at hentity
    rw [hsame.id_eq, hsame.loggedIn_iff]
    exact h.entity id other hentity
  · intro other hin
    rw [hsame.playerWorld_eq] at hin
    rw [hsame.id_eq]
    exact h.id_ne_zero other hin
  · intro other place hin
    rw [hsame.playerWorld_eq] at hin
    exact h.one_world other place hin
  · rw [hsame.world_eq]
    exact h.last
  · exact hnodups
  · exact hsees

omit [DecidableEq Player] [DecidableEq World] in
/-- A player outside the world is of no concern to it. -/
theorem outsider (h : Visible world state) (hbefore : ¬ LoggedIn state player)
    (hafter : ¬ LoggedIn next player) (hworld : (next.player player).world = none)
    (hothers : ∀ other, other ≠ player → next.player other = state.player other)
    (hkeys : (next.world world).players = (state.world world).players)
    (hentities : (next.world world).entities = (state.world world).entities)
    (hlast : (next.world world).lastGeneratedEntityId =
      (state.world world).lastGeneratedEntityId) (hmachine : next.machine = state.machine) :
    Visible world next := by
  have hin : ∀ other, LoggedIn state other → other ≠ player := by
    intro other hother heq
    exact hbefore (heq ▸ hother)
  have hlogged : ∀ other, LoggedIn next other ↔ LoggedIn state other := by
    intro other
    by_cases heq : other = player
    · subst heq
      simp [hbefore, hafter]
    · simp [LoggedIn, Game.seenLists, hothers other heq]
  have hne : ∀ other place, (next.player other).world = some place → other ≠ player := by
    intro other place hplace heq
    rw [heq, hworld] at hplace
    cases hplace
  -- every field speaks of players that are in the world, and those did not change
  constructor
  · intro name other hkey
    rw [hkeys] at hkey
    obtain ⟨hother, husername⟩ := h.key name other hkey
    rw [hlogged, hothers other (hin other hother)]
    exact ⟨hother, husername⟩
  · intro other hother
    rw [hlogged] at hother
    rw [hothers other (hin other hother), hkeys]
    exact h.registered other hother
  · intro id other hentity
    rw [hentities] at hentity
    obtain ⟨hid, hother⟩ := h.entity id other hentity
    rw [hlogged, hothers other (hin other hother)]
    exact ⟨hid, hother⟩
  · intro other hother
    have hothers' := hothers other (hne other world hother)
    rw [hothers'] at hother ⊢
    exact h.id_ne_zero other hother
  · intro other place hother
    rw [hothers other (hne other place hother)] at hother
    exact h.one_world other place hother
  · rw [hlast]
    exact h.last
  · intro other list hlist
    have hsome : LoggedIn next other := by simp [LoggedIn, hlist]
    have heq := hothers other (hin other ((hlogged other).mp hsome))
    apply h.nodups other
    rwa [Game.seenLists, heq] at hlist
  · intro vertex other
    by_cases hvertex : vertex = player
    · subst hvertex
      constructor
      · intro hsees
        exact absurd hsees.isSome hafter
      · rintro ⟨hvertex, -⟩
        exact absurd hvertex hafter
    · have hsees : Sees next.seenLists vertex other ↔ Sees state.seenLists vertex other := by
        simp [Sees, Game.seenLists, hothers vertex hvertex]
      rw [hsees, h.sees_iff, hlogged, hlogged]
      by_cases hother : other = player
      · subst hother
        simp [hbefore]
      · unfold Near Game.chunkOf
        rw [hothers vertex hvertex, hothers other hother, hmachine]

end Visible

/-! ### After a check -/

section AfterCheck

variable {before middle after : Game Client Player World} {player : Player}
  {coord : SVChunkPosition} {order : List Player}

omit [DecidableEq Player] [DecidableEq World] in
/-- A list of the player that was checked and of another logged-in player are as the positions
say, if the player now stands in the chunk of the check. -/
theorem sees_checked (hchecked : Checked before player coord 5 order middle)
    (hlists : after.seenLists = middle.seenLists)
    (hchunk : after.chunkOf (after.player player).position = coord)
    (hothers : ∀ other, other ≠ player → after.chunkOf (after.player other).position =
      before.chunkOf (before.player other).position)
    {other : Player} (hother : other ∈ order) (hne : other ≠ player) :
    Sees after.seenLists player other ↔ Near after player other := by
  rw [hlists, hchecked.sees_self other hother hne]
  unfold InRegion Near
  rw [hchunk, hothers other hne, coordInRadius_iff]

omit [DecidableEq World] in
/-- What the lists say after a check, given what those of the other players said before. -/
theorem sees_iff_of_check (hchecked : Checked before player coord 5 order middle)
    (hlists : after.seenLists = middle.seenLists)
    (hchunk : after.chunkOf (after.player player).position = coord)
    (hothers : ∀ other, other ≠ player → after.chunkOf (after.player other).position =
      before.chunkOf (before.player other).position)
    (horder : ∀ other, other ≠ player → (other ∈ order ↔ LoggedIn before other))
    (hself : ∀ other, Sees before.seenLists player other → LoggedIn before other ∧ other ≠ player)
    (hrest : ∀ vertex other, vertex ≠ player → other ≠ player →
      (Sees before.seenLists vertex other ↔
        LoggedIn before vertex ∧ LoggedIn before other ∧ vertex ≠ other ∧
          Near before vertex other)) (vertex other : Player) :
    Sees after.seenLists vertex other ↔
      LoggedIn after vertex ∧ LoggedIn after other ∧ vertex ≠ other ∧ Near after vertex other := by
  have hlogged : ∀ player, LoggedIn after player ↔ LoggedIn before player := by
    intro player
    unfold LoggedIn
    rw [hlists, hchecked.listsOnly.isSome_eq]
  -- what the player itself sees
  have hplayer : ∀ other, Sees after.seenLists player other ↔
      LoggedIn after player ∧ LoggedIn after other ∧ player ≠ other ∧ Near after player other := by
    intro other
    by_cases hmem : other ∈ order ∧ other ≠ player
    · obtain ⟨hmem, hne⟩ := hmem
      rw [sees_checked hchecked hlists hchunk hothers hmem hne]
      have hpresent : LoggedIn before player := hchecked.present other hmem hne
      simp [hlogged, hpresent, (horder other hne).mp hmem, hne.symm]
    · have hkept : Sees after.seenLists player other ↔ Sees before.seenLists player other := by
        rw [hlists]
        exact hchecked.sees_other player other (fun hcase => hmem hcase.2)
          (fun hcase => hcase.2.2 rfl)
      rw [hkept]
      constructor
      · intro hsees
        obtain ⟨hin, hne⟩ := hself other hsees
        exact absurd ⟨(horder other hne).mpr hin, hne⟩ hmem
      · rintro ⟨-, hin, hne, -⟩
        exact absurd ⟨(horder other hne.symm).mpr ((hlogged other).mp hin), hne.symm⟩ hmem
  by_cases hvertex : vertex = player
  · rw [hvertex]
    exact hplayer other
  · by_cases hother : other = player
    · rw [hother]
      have hswap : Sees after.seenLists vertex player ↔ Sees after.seenLists player vertex := by
        rw [hlists]
        exact ⟨hchecked.isMutual.symm vertex player, hchecked.isMutual.symm player vertex⟩
      rw [hswap, hplayer vertex]
      constructor
      · rintro ⟨hin, hin', hne, hnear⟩
        exact ⟨hin', hin, hne.symm, near_symm hnear⟩
      · rintro ⟨hin, hin', hne, hnear⟩
        exact ⟨hin', hin, hne.symm, near_symm hnear⟩
    · have hkept : Sees after.seenLists vertex other ↔ Sees before.seenLists vertex other := by
        rw [hlists]
        exact hchecked.sees_other vertex other (fun hcase => hvertex hcase.1)
          (fun hcase => hother hcase.1)
      rw [hkept, hrest vertex other hvertex hother, hlogged, hlogged]
      unfold Near
      rw [hothers vertex hvertex, hothers other hother]

end AfterCheck

/-! ### The steps keep it -/

section Steps

variable {world : World} {state next : Game Client Player World} {player : Player}
  {position : SVPrecisePosition} {username : List Byte} {order : List Player}

omit [DecidableEq World] in
theorem Visible.move (h : Visible world state) (horder : IsOrder state world player order)
    (hmove : playerMove state player position order = .ok next) : Visible world next := by
  have hother : ∀ (middle : Game Client Player World) other, other ≠ player →
      (middle.setPosition player position).player other = middle.player other := by
    intro middle other hne
    exact Function.update_of_ne hne _ _
  have hself : ∀ middle : Game Client Player World,
      ((middle.setPosition player position).player player).position = position := by
    intro middle
    simp [Game.setPosition, Game.setPlayer]
  have hsame := playerMove_same hmove
  have hnodups := (playerMove_mutual h.isMutual hmove).nodups
  obtain ⟨hchunk, rfl⟩ | ⟨middle, hcheck, rfl⟩ := playerMove_cases hmove
  · -- within the chunk the region stays what it was
    refine h.relist hsame hnodups ?_
    intro vertex other
    have hchunks : ∀ vertex, (state.setPosition player position).chunkOf
        ((state.setPosition player position).player vertex).position =
          state.chunkOf (state.player vertex).position := by
      intro vertex
      by_cases hvertex : vertex = player
      · rw [hvertex, hself]
        exact hchunk
      · rw [hother state vertex hvertex]
        rfl
    rw [seenLists_setPosition, h.sees_iff, hsame.loggedIn_iff, hsame.loggedIn_iff]
    unfold Near
    rw [hchunks, hchunks]
  · -- in another chunk the check makes the lists right for it
    have hchecked := checkPlayersInRegion_checked h.isMutual hcheck
    have hlists := hchecked.listsOnly
    have hnew := seenLists_setPosition middle player position
    refine h.relist hsame hnodups ?_
    refine sees_iff_of_check hchecked hnew ?_ ?_ ?_ ?_ ?_
    · rw [hself]
      exact hlists.chunkOf_eq position
    · intro other hne
      rw [hother middle other hne, hlists.position_eq]
      exact hlists.chunkOf_eq _
    · intro other hne
      rw [horder other hne, h.registered_iff]
    · intro other hsees
      obtain ⟨-, hin, hne, -⟩ := (h.sees_iff player other).mp hsees
      exact ⟨hin, hne.symm⟩
    · intro vertex other _ _
      exact h.sees_iff vertex other

omit [DecidableEq World] in
theorem Visible.preLogin {before added : Game Client Player World} {name : List Byte}
    (h : Visible world before) (houter : ¬ LoggedIn before player)
    (hadded : Added before added world player name)
    (horder : ∀ other, other ≠ player → (other ∈ order ↔ LoggedIn before other))
    (hcheck : playerPreLogin added player order = .ok next) : Visible world next := by
  have hlisted := hadded.listed h.isMutual houter
  have hlogged' := (hadded.preLogin_lists h.isMutual houter hcheck).2
  unfold playerPreLogin at hcheck
  obtain ⟨hid, hmax⟩ := generateEntityId_spec h.last hadded.id_eq
  generalize hstate : added.setSeen player (some []) = listed at hcheck hlisted
  -- the state in which the check begins
  have hself : listed.player player =
      { added.player player with seenPlayers := some [] } := by
    rw [← hstate]
    simp [Game.setSeen, Game.setPlayer]
  have hothers := hlisted.others_eq
  have hworld : listed.world = added.world := by
    rw [← hstate]
    rfl
  have hmachine : listed.machine = before.machine := by
    rw [← hadded.machine_eq, ← hstate]
    rfl
  have hlogged := hlisted.loggedIn_iff
  have hsees := hlisted.sees_iff
  have hchecked := checkPlayersInRegion_checked hlisted.isMutual hcheck
  have hlists := hchecked.listsOnly
  have hnext : next.world = added.world := hlists.world_eq.trans hworld
  have hne : ∀ other, LoggedIn before other → other ≠ player := by
    intro other hother heq
    exact houter (heq ▸ hother)
  constructor
  · -- the username that was added leads to the player
    intro own other hkey
    rw [hnext, hadded.players_eq] at hkey
    rw [hlogged', hlists.username_eq]
    by_cases hown : own = stringContent name
    · rw [hown, Function.update_self] at hkey
      cases hkey
      exact ⟨Or.inl rfl, name, by rw [hself]; exact hadded.username_eq, hown.symm⟩
    · rw [Function.update_of_ne hown] at hkey
      obtain ⟨hother, husername⟩ := h.key own other hkey
      rw [hothers other (hne other hother)]
      exact ⟨Or.inr hother, husername⟩
  · -- whoever is logged in is under a username, and the new one was free
    intro other hother
    rw [hlists.playerWorld_eq, hlists.username_eq, hnext, hadded.players_eq]
    rcases (hlogged' other).mp hother with heq | hother
    · rw [heq, hself]
      exact ⟨hadded.playerWorld_eq, name, hadded.username_eq, Function.update_self _ _ _⟩
    · obtain ⟨hin, username, husername, hkey⟩ := h.registered other hother
      rw [hothers other (hne other hother)]
      refine ⟨hin, username, husername, ?_⟩
      have hkeys : stringContent username ≠ stringContent name := by
        intro heq
        rw [heq, hadded.free] at hkey
        cases hkey
      rwa [Function.update_of_ne hkeys]
  · -- the entity that was added is the player's
    intro entity other hentity
    rw [hnext, hadded.entities_eq] at hentity
    rw [hlogged', hlists.id_eq]
    by_cases hown : entity = (added.player player).id
    · rw [hown, Function.update_self] at hentity
      cases hentity
      exact ⟨by rw [hself]; exact hown.symm, Or.inl rfl⟩
    · rw [Function.update_of_ne hown] at hentity
      obtain ⟨hother, hin⟩ := h.entity entity other hentity
      rw [hothers other (hne other hin)]
      exact ⟨hother, Or.inr hin⟩
  · intro other hother
    rw [hlists.playerWorld_eq] at hother
    rw [hlists.id_eq]
    by_cases heq : other = player
    · rw [heq, hself]
      exact hid
    · rw [hothers other heq] at hother ⊢
      exact h.id_ne_zero other hother
  · intro other place hother
    rw [hlists.playerWorld_eq] at hother
    by_cases heq : other = player
    · rw [heq, hself, hadded.playerWorld_eq] at hother
      exact (Option.some.inj hother).symm
    · rw [hothers other heq] at hother
      exact h.one_world other place hother
  · rw [hnext, hadded.last_eq]
    exact hmax
  · exact hchecked.isMutual.nodups
  · -- the check gives the player's own list, and mutuality its entries in the other ones
    refine sees_iff_of_check hchecked rfl ?_ ?_ ?_ ?_ ?_
    · rw [hlists.position_eq]
      exact hlists.chunkOf_eq _
    · intro other _
      rw [hlists.position_eq]
      exact hlists.chunkOf_eq _
    · intro other hother
      rw [hlogged, horder other hother]
      simp [hother]
    · intro other hseen
      exact absurd ((hsees player other).mp hseen).isSome houter
    · intro vertex other hvertex hother
      rw [hsees, h.sees_iff, hlogged, hlogged]
      unfold Near Game.chunkOf
      rw [hothers vertex hvertex, hothers other hother, hmachine]
      simp [hvertex, hother]

omit [DecidableEq Player] [DecidableEq World] in
theorem Visible.outside (h : Visible world state) (hid : (state.player player).id = 0) :
    (state.player player).world = none ∧ ¬ LoggedIn state player := by
  have hnot : (state.player player).world ≠ some world :=
    fun hin => h.id_ne_zero player hin hid
  refine ⟨?_, fun hlogged => hnot (h.registered player hlogged).1⟩
  cases hplace : (state.player player).world with
  | none => rfl
  | some place =>
      rw [h.one_world player place hplace] at hplace
      exact absurd hplace hnot

theorem Visible.login (h : Visible world state) (horder : IsOrder state world player order)
    (hlogin : playerLogin state world player username order = .ok next) :
    Visible world next := by
  obtain ⟨hid, ⟨name, after, hadded, hcheck⟩ | hrefused⟩ := playerLogin_cases hlogin
  · refine h.preLogin (h.outside hid).2 hadded ?_ hcheck
    intro other hne
    rw [horder other hne, h.registered_iff]
  · obtain ⟨hworld, hlogged⟩ := h.outside hid
    refine h.outsider hlogged ?_ ?_ hrefused.others_eq (hrefused.players_eq world)
      (hrefused.entities_eq world) (hrefused.last_eq world) hrefused.machine_eq
    · rwa [LoggedIn, hrefused.seenLists_eq]
    · rw [hrefused.playerWorld_eq, hworld]

/-- A logout that takes no other player's entry keeps the invariant. -/
theorem Visible.logout (h : Visible world state) (hown : OwnEntry world state player)
    (hlogout : playerLogout state player = .ok next) : Visible world next := by
  obtain ⟨place, username, hplace, husername, hout⟩ := playerLogout_loggedOut hlogout
  obtain ⟨hnodups, hsees⟩ := sees_of_logout h.nodups hlogout
  obtain rfl := h.one_world player place hplace
  constructor
  · -- the username that leads nowhere now was that of the player
    intro name other hkey
    rw [hout.players_eq] at hkey
    rw [hout.loggedIn_iff, hout.username_eq]
    by_cases hname : name = stringContent username
    · rw [hname, Function.update_self] at hkey
      cases hkey
    · rw [Function.update_of_ne hname] at hkey
      obtain ⟨hin, own, hown', hcontent⟩ := h.key name other hkey
      refine ⟨⟨?_, hin⟩, own, hown', hcontent⟩
      rintro rfl
      rw [husername] at hown'
      cases hown'
      exact hname hcontent.symm
  · intro other hother
    obtain ⟨hne, hin⟩ := (hout.loggedIn_iff other).mp hother
    obtain ⟨hworld, own, hown', hkey⟩ := h.registered other hin
    rw [hout.playerWorld_eq, hout.username_eq, hout.players_eq]
    refine ⟨hworld, own, hown', ?_⟩
    -- the entry that is taken is the player's own, so nobody else loses one
    have hname : stringContent own ≠ stringContent username := by
      intro heq
      rw [heq] at hkey
      exact hne (hown username other husername hkey)
    rwa [Function.update_of_ne hname]
  · intro id other hentity
    rw [hout.entities_eq] at hentity
    rw [hout.id_eq, hout.loggedIn_iff]
    by_cases hid : id = (state.player player).id
    · rw [hid, Function.update_self] at hentity
      cases hentity
    · rw [Function.update_of_ne hid] at hentity
      obtain ⟨hother, hin⟩ := h.entity id other hentity
      refine ⟨hother, ?_, hin⟩
      rintro rfl
      exact hid hother.symm
  · intro other hin
    rw [hout.playerWorld_eq] at hin
    rw [hout.id_eq]
    exact h.id_ne_zero other hin
  · intro other place' hin
    rw [hout.playerWorld_eq] at hin
    exact h.one_world other place' hin
  · rw [hout.last_eq]
    exact h.last
  · exact hnodups
  · -- nobody moves, and only the edges at the player go
    intro vertex other
    have hchunks : Near next vertex other ↔ Near state vertex other := by
      unfold Near Game.chunkOf
      rw [hout.position_eq, hout.position_eq, hout.machine_eq]
    rw [hsees, hout.loggedIn_iff, hout.loggedIn_iff, h.sees_iff, h.sees_iff, hchunks]
    constructor
    · rintro ⟨⟨hvertex, hin, hother, hne, hnear⟩, hnot⟩
      refine ⟨⟨hvertex, hin⟩, ⟨?_, hother⟩, hne, hnear⟩
      rintro rfl
      exact hnot ⟨⟨hother, hin, hne.symm, near_symm hnear⟩, rfl⟩
    · rintro ⟨⟨hvertex, hin⟩, ⟨hotherNe, hother⟩, hne, hnear⟩
      exact ⟨⟨hvertex, hin, hother, hne, hnear⟩, fun hcase => hotherNe hcase.2⟩

theorem Visible.step (h : Visible world state) {action : VisibilityAction Player}
    (hproper : Proper world state action) {emitted : List Unit}
    (hstep : visibilityStep world state action = some (next, emitted)) : Visible world next := by
  obtain ⟨horder, hown⟩ := hproper
  cases action with
  | login player username order =>
      cases hresult : playerLogin state world player username order with
      | error fault => simp [visibilityStep, hresult] at hstep
      | ok after =>
          simp only [visibilityStep, hresult, Option.some.injEq, Prod.mk.injEq] at hstep
          exact hstep.1 ▸ h.login horder hresult
  | move player position order =>
      cases hresult : playerMove state player position order with
      | error fault => simp [visibilityStep, hresult] at hstep
      | ok after =>
          simp only [visibilityStep, hresult, Option.some.injEq, Prod.mk.injEq] at hstep
          exact hstep.1 ▸ h.move horder hresult
  | logout player =>
      cases hresult : playerLogout state player with
      | error fault => simp [visibilityStep, hresult] at hstep
      | ok after =>
          simp only [visibilityStep, hresult, Option.some.injEq, Prod.mk.injEq] at hstep
          exact hstep.1 ▸ h.logout hown hresult

end Steps

/-! ## The runs -/

section Runs

variable {start state : Game Client Player World} {world : World} {events : List Unit}

/-- Every run of proper steps keeps the invariant. -/
theorem visible_of_run (hworld : start.world world = createWorld)
    (hplayers : ∀ player, (start.player player).world = none ∧
      (start.player player).seenPlayers = none)
    (hrun : (visibility start world).Run (Proper world) events state) : Visible world state :=
  System.Run.invariant (I := fun _ last => Visible world last) (.initial hworld hplayers)
    (fun _ _ _ _ _ hlast hproper hstep => hlast.step hproper hstep) hrun

/-- **Who sees whom.**  In every run of proper steps another logged-in player occurs exactly once
in a player's list if it is near, and not at all otherwise; the relation is symmetric and
irreflexive and mentions no logged-out player. -/
theorem visibility_exact (hworld : start.world world = createWorld)
    (hplayers : ∀ player, (start.player player).world = none ∧
      (start.player player).seenPlayers = none)
    (hrun : (visibility start world).Run (Proper world) events state) :
    (∀ player other, LoggedIn state player → LoggedIn state other → player ≠ other →
      ∃ list, (state.player player).seenPlayers = some list ∧
        list.count other = if Near state player other then 1 else 0) ∧
      (∀ player other, Sees state.seenLists player other → Sees state.seenLists other player) ∧
      (∀ player, ¬ Sees state.seenLists player player) ∧
      (∀ player other, Sees state.seenLists player other → LoggedIn state other) ∧
      ∀ player, LoggedIn state player ↔ Registered state world player := by
  have hvisible := visible_of_run hworld hplayers hrun
  refine ⟨?_, hvisible.isMutual.symm, ?_, ?_, fun player => (hvisible.registered_iff player).symm⟩
  · intro player other hplayer hother hne
    obtain ⟨list, hlist⟩ := Option.isSome_iff_exists.mp hplayer
    refine ⟨list, hlist, ?_⟩
    have hmem : other ∈ list ↔ Near state player other := by
      rw [← sees_iff_mem hlist, hvisible.sees_iff]
      simp [hplayer, hother, hne]
    by_cases hnear : Near state player other
    · rw [if_pos hnear]
      exact List.count_eq_one_of_mem (hvisible.nodups player list hlist) (hmem.mpr hnear)
    · rw [if_neg hnear]
      exact List.count_eq_zero_of_not_mem (mt hmem.mp hnear)
  · intro player hsees
    exact ((hvisible.sees_iff player player).mp hsees).2.2.1 rfl
  · intro player other hsees
    exact ((hvisible.sees_iff player other).mp hsees).2.1

end Runs

/-! ## A player that nobody finds -/

/-- The state after some steps from the server whose players are just connected. -/
def stateAfter : List (VisibilityAction ℕ) → Game Unit ℕ Unit → Game Unit ℕ Unit
  | [], state => state
  | action :: rest, state =>
      match visibilityStep () state action with
      | none => state
      | some (next, _) => stateAfter rest next

theorem run_stateAfter (guard : Game Unit ℕ Unit → VisibilityAction ℕ → Prop)
    (done : List (VisibilityAction ℕ)) (action : VisibilityAction ℕ)
    (hrun : (visibility freshGame ()).Run guard [] (stateAfter done freshGame))
    (hguard : guard (stateAfter done freshGame) action)
    (hstep : visibilityStep () (stateAfter done freshGame) action =
      some (stateAfter (done ++ [action]) freshGame, [])) :
    (visibility freshGame ()).Run guard [] (stateAfter (done ++ [action]) freshGame) :=
  .step hrun hguard hstep

/-- A check that an order is one, given the keys of the hash. -/
theorem isOrder_of_keys {state : Game Unit ℕ Unit} {player : ℕ} {order : List ℕ}
    (keys : List Byte → Option ℕ) (hkeys : (state.world ()).players = keys)
    (horder : ∀ other, other ≠ player → (other ∈ order ↔ ∃ name, keys name = some other)) :
    IsOrder state () player order := by
  intro other hne
  unfold Registered
  rw [hkeys]
  exact horder other hne

theorem exists_update_iff {keys : List Byte → Option ℕ} {key : List Byte}
    (hkey : keys key = none) {player other : ℕ} :
    (∃ name, Function.update keys key (some player) name = some other) ↔
      other = player ∨ ∃ name, keys name = some other := by
  constructor
  · rintro ⟨name, hname⟩
    by_cases heq : name = key
    · rw [heq, Function.update_self] at hname
      exact Or.inl (Option.some.inj hname).symm
    · rw [Function.update_of_ne heq] at hname
      exact Or.inr ⟨name, hname⟩
  · rintro (rfl | ⟨name, hname⟩)
    · exact ⟨key, Function.update_self _ _ _⟩
    · have hne : name ≠ key := by
        rintro rfl
        rw [hkey] at hname
        cases hname
      exact ⟨name, by rw [Function.update_of_ne hne, hname]⟩

/-- The first player logs in and out, the second takes over its username, the first is logged out
once more, and the third logs in. -/
theorem visibility_breaks :
    ∃ state : Game Unit ℕ Unit, (visibility freshGame ()).Run (Ordered ()) [] state ∧
      LoggedIn state 2 ∧ LoggedIn state 1 ∧ Near state 2 1 ∧
      (state.player 2).seenPlayers = some [] := by
  have hlogin := run_stateAfter (Ordered ()) [] (.login 0 [0x62] []) .start
    (isOrder_of_keys (fun _ => none) rfl fun other _ => by simp) rfl
  have hlogout := run_stateAfter (Ordered ()) _ (.logout 0) hlogin trivial rfl
  have hsecond := run_stateAfter (Ordered ()) _ (.login 1 [0x62] []) hlogout
    (isOrder_of_keys (Function.update (Function.update (fun _ => none) [0x62] (some 0)) [0x62] none)
      rfl fun other _ => by simp) rfl
  have hagain := run_stateAfter (Ordered ()) _ (.logout 0) hsecond trivial rfl
  have hthird := run_stateAfter (Ordered ()) _ (.login 2 [0x63] []) hagain
    (isOrder_of_keys (Function.update (Function.update (Function.update (Function.update
      (fun _ => none) [0x62] (some 0)) [0x62] none) [0x62] (some 1)) [0x62] none)
      rfl fun other _ => by simp) rfl
  exact ⟨_, hthird, rfl, rfl, by decide, rfl⟩

/-- Two players log in and one of them moves. -/
theorem visibility_exact_moved :
    ∃ state : Game Unit ℕ Unit, (state.player 0).seenPlayers = some [1] ∧
      ∃ list, (state.player 1).seenPlayers = some list ∧
        list.count 0 = if Near state 1 0 then 1 else 0 := by
  have hfirst := run_stateAfter (Proper ()) [] (.login 0 [0x62] []) .start
    ⟨isOrder_of_keys (fun _ => none) rfl fun other _ => by simp, trivial⟩ rfl
  have hsecond := run_stateAfter (Proper ()) _ (.login 1 [0x63] [0]) hfirst
    ⟨isOrder_of_keys (Function.update (fun _ => none) [0x62] (some 0)) rfl fun other _ => by
      rw [exists_update_iff rfl]
      simp, trivial⟩ rfl
  have hmoved := run_stateAfter (Proper ()) _
    (.move 1 ⟨.finite 20, .finite 64, .finite 0⟩ [0]) hsecond
    ⟨isOrder_of_keys (Function.update (Function.update (fun _ => none) [0x62] (some 0)) [0x63]
      (some 1)) rfl fun other hne => by
      rw [exists_update_iff rfl, exists_update_iff rfl]
      simp [hne], trivial⟩ rfl
  have hexact := visibility_exact rfl (fun player => ⟨rfl, rfl⟩) hmoved
  exact ⟨_, rfl, hexact.1 1 0 rfl rfl (by decide)⟩

end Craftd.Survival
