import Craftd.Library.FallibleLoop
import Craftd.Library.NeighbourLists
import Craftd.Survival.World

/-!
# Players in the region

A translation of the callbacks of the survival plugin that keep the lists
`Player.seenPlayers`: `cdsurvival_CheckPlayersInRegion` and its callers, the
login, a move and the logout.

`CD_HASH_FOREACH` goes through the players of a world in an order of its own; the
callbacks get that order as an argument.  What they send is left out.

The second half says what `cdsurvival_CheckPlayersInRegion` does to the relation
"is in the list of": of the edges of the player it is called for it makes those
to players in the region and takes away the others, and leaves the rest alone.
-/

namespace Craftd.Survival

open NeighbourLists

/-- `cdsurvival_CoordInRadius`. -/
def coordInRadius (coord centerCoord : SVChunkPosition) (radius : SVInteger) : Bool :=
  coord.x ≥ centerCoord.x - radius && coord.x ≤ centerCoord.x + radius &&
    coord.z ≥ centerCoord.z - radius && coord.z ≤ centerCoord.z + radius

variable {Client Player World : Type*} [DecidableEq Player]

namespace Game

/-- `CD_DynamicPut` or, with none, `CD_DynamicDelete` of `Player.seenPlayers`. -/
def setSeen (self : Game Client Player World) (player : Player)
    (seenPlayers : Option (List Player)) : Game Client Player World :=
  self.setPlayer player { self.player player with seenPlayers := seenPlayers }

/-- The position of a player is stored. -/
def setPosition (self : Game Client Player World) (player : Player)
    (position : SVPrecisePosition) : Game Client Player World :=
  self.setPlayer player { self.player player with position := position }

omit [DecidableEq Player] in
/-- The chunk of a position. -/
def chunkOf (self : Game Client Player World) (position : SVPrecisePosition) : SVChunkPosition :=
  precisePositionToChunkPosition self.machine position

end Game

/-- The body of the loop of `cdsurvival_CheckPlayersInRegion`. -/
def checkPlayer (player : Player) (coord : SVChunkPosition) (radius : SVInteger)
    (self : Game Client Player World) (otherPlayer : Player) :
    Except Fault (Game Client Player World) :=
  if otherPlayer = player then .ok self
  else
    let chunkPos := self.chunkOf (self.player otherPlayer).position
    match (self.player player).seenPlayers with
    | none => .error .assertion
    | some seenPlayers =>
        if coordInRadius chunkPos coord radius then
          if otherPlayer ∈ seenPlayers then .ok self
          else
            let self := self.setSeen player (some (seenPlayers ++ [otherPlayer]))
            match (self.player otherPlayer).seenPlayers with
            | none => .error .assertion
            | some otherSeenPlayers =>
                .ok (self.setSeen otherPlayer (some (otherSeenPlayers ++ [player])))
        else if otherPlayer ∈ seenPlayers then
          let self := self.setSeen player (some (seenPlayers.filter (· ≠ otherPlayer)))
          match (self.player otherPlayer).seenPlayers with
          | none => .error .undefined
          | some otherSeenPlayers =>
              .ok (self.setSeen otherPlayer (some (otherSeenPlayers.filter (· ≠ player))))
        else .ok self

/-- `cdsurvival_CheckPlayersInRegion`; `order` is the order of the players of the world. -/
def checkPlayersInRegion (self : Game Client Player World) (player : Player)
    (coord : SVChunkPosition) (radius : SVInteger) (order : List Player) :
    Except Fault (Game Client Player World) :=
  match (self.player player).world with
  | none => .error .missingWorld
  | some _ => order.foldlM (checkPlayer player coord radius) self

/-- `cdsurvival_PlayerPreLogin`. -/
def playerPreLogin (self : Game Client Player World) (player : Player) (order : List Player) :
    Except Fault (Game Client Player World) :=
  let self := self.setSeen player (some [])
  checkPlayersInRegion self player (self.chunkOf (self.player player).position) 5 order

/-- What `cdsurvival_ClientProcess` does for a `SVPlayerPosition` or `SVPlayerMoveLook` with a
player. -/
def playerMove (self : Game Client Player World) (player : Player) (position : SVPrecisePosition)
    (order : List Player) : Except Fault (Game Client Player World) :=
  let newChunk := self.chunkOf position
  let curChunk := self.chunkOf (self.player player).position
  if newChunk = curChunk then .ok (self.setPosition player position)
  else
    match checkPlayersInRegion self player newChunk 5 order with
    | .error fault => .error fault
    | .ok self => .ok (self.setPosition player position)

/-- The body of the loop of `cdsurvival_PlayerLogout`. -/
def forgetPlayer (player : Player) (self : Game Client Player World) (other : Player) :
    Except Fault (Game Client Player World) :=
  match (self.player other).seenPlayers with
  | none => .error .undefined
  | some otherSeenPlayers =>
      .ok (self.setSeen other (some (otherSeenPlayers.filter (· ≠ player))))

/-- `cdsurvival_PlayerLogout`. -/
def playerLogout [DecidableEq World] (self : Game Client Player World) (player : Player) :
    Except Fault (Game Client Player World) :=
  let seenPlayers := (self.player player).seenPlayers
  let self := self.setSeen player none
  match (seenPlayers.getD []).foldlM (forgetPlayer player) self with
  | .error fault => .error fault
  | .ok self =>
      match (self.player player).world with
      | none => .error .assertion
      | some world => worldRemovePlayer self world player

/-! ## The lists as a relation -/

omit [DecidableEq Player] in
/-- The lists of all players. -/
def Game.seenLists (self : Game Client Player World) : ListTable Player :=
  fun player => (self.player player).seenPlayers

/-- Two states whose players differ in their lists alone. -/
structure SamePlayers (before after : Game Client Player World) : Prop where
  client_eq : ∀ player, (after.player player).client = (before.player player).client
  id_eq : ∀ player, (after.player player).id = (before.player player).id
  position_eq : ∀ player, (after.player player).position = (before.player player).position
  username_eq : ∀ player, (after.player player).username = (before.player player).username
  playerWorld_eq : ∀ player, (after.player player).world = (before.player player).world

/-- Two states that differ in the lists of the players alone, and in which the same players have
one. -/
structure ListsOnly (before after : Game Client Player World) : Prop
    extends SamePlayers before after where
  world_eq : after.world = before.world
  standard_eq : after.standard = before.standard
  machine_eq : after.machine = before.machine
  isSome_eq : ∀ player, (after.seenLists player).isSome = (before.seenLists player).isSome

namespace SamePlayers

variable {before middle after : Game Client Player World}

omit [DecidableEq Player] in
theorem refl (self : Game Client Player World) : SamePlayers self self := by
  constructor <;> intro player <;> rfl

omit [DecidableEq Player] in
theorem trans (h : SamePlayers before middle) (h' : SamePlayers middle after) :
    SamePlayers before after := by
  constructor
  · exact fun player => (h'.client_eq player).trans (h.client_eq player)
  · exact fun player => (h'.id_eq player).trans (h.id_eq player)
  · exact fun player => (h'.position_eq player).trans (h.position_eq player)
  · exact fun player => (h'.username_eq player).trans (h.username_eq player)
  · exact fun player => (h'.playerWorld_eq player).trans (h.playerWorld_eq player)

theorem setSeen (self : Game Client Player World) (player : Player)
    (new : Option (List Player)) : SamePlayers self (self.setSeen player new) := by
  constructor
  all_goals
    intro other
    by_cases hother : other = player
    · subst hother
      simp [Game.setSeen, Game.setPlayer]
    · simp [Game.setSeen, Game.setPlayer, Function.update_of_ne hother]

end SamePlayers

namespace ListsOnly

variable {before middle after : Game Client Player World}

omit [DecidableEq Player] in
theorem refl (self : Game Client Player World) : ListsOnly self self := by
  constructor
  · exact .refl self
  all_goals intros; rfl

omit [DecidableEq Player] in
theorem chunkOf_eq (h : ListsOnly before after) (position : SVPrecisePosition) :
    after.chunkOf position = before.chunkOf position := by
  unfold Game.chunkOf
  rw [h.machine_eq]

omit [DecidableEq Player] in
theorem trans (h : ListsOnly before middle) (h' : ListsOnly middle after) :
    ListsOnly before after := by
  constructor
  · exact h.toSamePlayers.trans h'.toSamePlayers
  · exact h'.world_eq.trans h.world_eq
  · exact h'.standard_eq.trans h.standard_eq
  · exact h'.machine_eq.trans h.machine_eq
  · exact fun player => (h'.isSome_eq player).trans (h.isSome_eq player)

theorem setSeen (self : Game Client Player World) {player : Player} {list : List Player}
    (new : List Player) (hlist : (self.player player).seenPlayers = some list) :
    ListsOnly self (self.setSeen player (some new)) := by
  constructor
  · exact .setSeen self player (some new)
  · rfl
  · rfl
  · rfl
  · intro other
    by_cases hother : other = player
    · subst hother
      simp [Game.setSeen, Game.setPlayer, Game.seenLists, hlist]
    · simp [Game.setSeen, Game.setPlayer, Game.seenLists, Function.update_of_ne hother]

end ListsOnly

theorem seenLists_setSeen (self : Game Client Player World) (player : Player)
    (new : Option (List Player)) :
    (self.setSeen player new).seenLists = Function.update self.seenLists player new := by
  funext other
  by_cases hother : other = player
  · subst hother
    simp [Game.setSeen, Game.setPlayer, Game.seenLists]
  · simp [Game.setSeen, Game.setPlayer, Game.seenLists, Function.update_of_ne hother]

theorem seenLists_push (self : Game Client Player World) {player : Player} {list : List Player}
    (hlist : (self.player player).seenPlayers = some list) (other : Player) :
    (self.setSeen player (some (list ++ [other]))).seenLists =
      push self.seenLists player other := by
  rw [seenLists_setSeen, push, show self.seenLists player = some list from hlist]
  rfl

theorem seenLists_deleteAll (self : Game Client Player World) {player : Player}
    {list : List Player} (hlist : (self.player player).seenPlayers = some list) (other : Player) :
    (self.setSeen player (some (list.filter (· ≠ other)))).seenLists =
      deleteAll self.seenLists player other := by
  rw [seenLists_setSeen, deleteAll, show self.seenLists player = some list from hlist]
  rfl

/-! ## What the check does -/

/-- The other player is in the region of a chunk. -/
def InRegion (self : Game Client Player World) (coord : SVChunkPosition) (radius : SVInteger)
    (other : Player) : Prop :=
  coordInRadius (self.chunkOf (self.player other).position) coord radius = true

/-- The check of a player has gone through some players: the lists of these and of the player are
as the region says. -/
structure Checked (before : Game Client Player World) (player : Player) (coord : SVChunkPosition)
    (radius : SVInteger) (done : List Player) (after : Game Client Player World) : Prop where
  listsOnly : ListsOnly before after
  isMutual : Mutual after.seenLists
  sees_self : ∀ other, other ∈ done → other ≠ player →
    (Sees after.seenLists player other ↔ InRegion before coord radius other)
  sees_other : ∀ vertex other, ¬ (vertex = player ∧ other ∈ done ∧ other ≠ player) →
    ¬ (other = player ∧ vertex ∈ done ∧ vertex ≠ player) →
    (Sees after.seenLists vertex other ↔ Sees before.seenLists vertex other)
  present : ∀ other, other ∈ done → other ≠ player → (before.seenLists player).isSome

section Check

variable {before self next : Game Client Player World} {player otherPlayer : Player}
  {coord : SVChunkPosition} {radius : SVInteger} {done : List Player}

/-- One round goes on if the two players have lists. -/
theorem exists_checkPlayer (coord : SVChunkPosition) (radius : SVInteger)
    (hplayer : (self.seenLists player).isSome)
    (hother : (self.seenLists otherPlayer).isSome) :
    ∃ next, checkPlayer player coord radius self otherPlayer = .ok next := by
  obtain ⟨seen, hseen⟩ := Option.isSome_iff_exists.mp hplayer
  obtain ⟨otherSeen, hotherSeen⟩ := Option.isSome_iff_exists.mp hother
  have hseen' : (self.player player).seenPlayers = some seen := hseen
  by_cases heq : otherPlayer = player
  · exact ⟨self, by rw [checkPlayer, if_pos heq]⟩
  · have hkept : ∀ new, ((self.setSeen player new).player otherPlayer).seenPlayers =
        some otherSeen := by
      intro new
      rw [← hotherSeen]
      simp [Game.setSeen, Game.setPlayer, Game.seenLists, Function.update_of_ne heq]
    simp only [checkPlayer, if_neg heq, hseen', hkept]
    split_ifs <;> exact ⟨_, rfl⟩

/-- What one round does: it makes or takes away the edge, or leaves all as it is. -/
theorem checkPlayer_cases (hne : otherPlayer ≠ player)
    (hround : checkPlayer player coord radius self otherPlayer = .ok next) :
    (self.seenLists player).isSome ∧
      (InRegion self coord radius otherPlayer ∧ ¬ Sees self.seenLists player otherPlayer ∧
          (self.seenLists otherPlayer).isSome ∧ ListsOnly self next ∧
          next.seenLists = push (push self.seenLists player otherPlayer) otherPlayer player ∨
        ¬ InRegion self coord radius otherPlayer ∧ Sees self.seenLists player otherPlayer ∧
          ListsOnly self next ∧
          next.seenLists =
            deleteAll (deleteAll self.seenLists player otherPlayer) otherPlayer player ∨
        (InRegion self coord radius otherPlayer ↔ Sees self.seenLists player otherPlayer) ∧
          next = self) := by
  unfold checkPlayer at hround
  rw [if_neg hne] at hround
  cases hseen : (self.player player).seenPlayers with
  | none => simp [hseen] at hround
  | some seen =>
      -- writing the first list leaves the list of the other player alone
      have hkept : ∀ new, ((self.setSeen player new).player otherPlayer).seenPlayers =
          (self.player otherPlayer).seenPlayers := by
        intro new
        simp [Game.setSeen, Game.setPlayer, Function.update_of_ne hne]
      have hsees : Sees self.seenLists player otherPlayer ↔ otherPlayer ∈ seen :=
        sees_iff_mem hseen
      simp only [hseen, hkept] at hround
      refine ⟨by simp [Game.seenLists, hseen], ?_⟩
      rw [hsees]
      unfold InRegion
      by_cases hregion : coordInRadius (self.chunkOf (self.player otherPlayer).position) coord
          radius = true
      -- in the region: the edge is made unless it is there
      · rw [if_pos hregion] at hround
        by_cases hmem : otherPlayer ∈ seen
        · rw [if_pos hmem, Except.ok.injEq] at hround
          exact Or.inr (Or.inr ⟨by simp [hregion, hmem], hround.symm⟩)
        · rw [if_neg hmem] at hround
          cases hotherSeen : (self.player otherPlayer).seenPlayers with
          | none => simp [hotherSeen] at hround
          | some otherSeen =>
              simp only [hotherSeen, Except.ok.injEq] at hround
              subst hround
              have hsecond := (hkept (some (seen ++ [otherPlayer]))).trans hotherSeen
              refine Or.inl ⟨hregion, hmem, by simp [Game.seenLists, hotherSeen],
                (ListsOnly.setSeen self _ hseen).trans (ListsOnly.setSeen _ _ hsecond), ?_⟩
              rw [seenLists_push _ hsecond, seenLists_push _ hseen]
      -- out of the region: the edge is taken away if it is there
      · rw [if_neg hregion] at hround
        by_cases hmem : otherPlayer ∈ seen
        · rw [if_pos hmem] at hround
          cases hotherSeen : (self.player otherPlayer).seenPlayers with
          | none => simp [hotherSeen] at hround
          | some otherSeen =>
              simp only [hotherSeen, Except.ok.injEq] at hround
              subst hround
              have hsecond :=
                (hkept (some (seen.filter (· ≠ otherPlayer)))).trans hotherSeen
              refine Or.inr (Or.inl ⟨hregion, hmem,
                (ListsOnly.setSeen self _ hseen).trans (ListsOnly.setSeen _ _ hsecond), ?_⟩)
              rw [seenLists_deleteAll _ hsecond, seenLists_deleteAll _ hseen]
        · rw [if_neg hmem, Except.ok.injEq] at hround
          exact Or.inr (Or.inr ⟨by simp [hregion, hmem], hround.symm⟩)

/-- One round changes the lists alone. -/
theorem checkPlayer_listsOnly
    (hround : checkPlayer player coord radius self otherPlayer = .ok next) :
    ListsOnly self next := by
  by_cases heq : otherPlayer = player
  · rw [checkPlayer, if_pos heq, Except.ok.injEq] at hround
    exact hround ▸ .refl self
  · obtain ⟨-, hcases⟩ := checkPlayer_cases heq hround
    rcases hcases with ⟨-, -, -, hlists, -⟩ | ⟨-, -, hlists, -⟩ | ⟨-, hnext⟩
    · exact hlists
    · exact hlists
    · exact hnext ▸ .refl self

theorem checkPlayersInRegion_listsOnly {order : List Player}
    (hcheck : checkPlayersInRegion self player coord radius order = .ok next) :
    ListsOnly self next := by
  unfold checkPlayersInRegion at hcheck
  cases hworld : (self.player player).world with
  | none => simp [hworld] at hcheck
  | some world =>
      simp only [hworld] at hcheck
      exact FallibleLoop.keeps_of_ok
        (fun _ _ _ hkept hround => ListsOnly.trans hkept (checkPlayer_listsOnly hround))
        (.refl self) hcheck

/-- After one round the edge is as the region says. -/
theorem checkPlayer_edge (hmutual : Mutual self.seenLists) (hne : otherPlayer ≠ player)
    (hround : checkPlayer player coord radius self otherPlayer = .ok next) :
    ListsOnly self next ∧ Mutual next.seenLists ∧ (self.seenLists player).isSome ∧
      (Sees next.seenLists player otherPlayer ↔ InRegion self coord radius otherPlayer) ∧
      ∀ vertex other, ¬ (vertex = player ∧ other = otherPlayer) →
        ¬ (vertex = otherPlayer ∧ other = player) →
        (Sees next.seenLists vertex other ↔ Sees self.seenLists vertex other) := by
  obtain ⟨hplayer, hcases⟩ := checkPlayer_cases hne hround
  rcases hcases with ⟨hregion, hnew, hother, hlists, hnext⟩ | ⟨hregion, hold, hlists, hnext⟩ |
    ⟨hiff, hnext⟩
  · refine ⟨hlists, hnext ▸ mutual_link hmutual hne.symm hplayer hother hnew, hplayer, ?_, ?_⟩
    · rw [hnext, sees_link hplayer hother]
      simp [hregion]
    · intro vertex other hfirst hsecond
      rw [hnext, sees_link hplayer hother]
      simp [hfirst, hsecond]
  · refine ⟨hlists, hnext ▸ mutual_unlink hmutual, hplayer, ?_, ?_⟩
    · rw [hnext, sees_unlink]
      simp [hregion]
    · intro vertex other hfirst hsecond
      rw [hnext, sees_unlink]
      simp [hfirst, hsecond]
  · subst hnext
    exact ⟨.refl _, hmutual, hplayer, hiff.symm, fun _ _ _ _ => Iff.rfl⟩

omit [DecidableEq Player] in
private theorem inRegion_iff (h : ListsOnly before self) :
    InRegion self coord radius otherPlayer ↔ InRegion before coord radius otherPlayer := by
  unfold InRegion
  rw [h.chunkOf_eq, h.position_eq]

omit [DecidableEq Player] in
theorem Checked.initial (hmutual : Mutual before.seenLists) :
    Checked before player coord radius [] before := by
  constructor
  · exact .refl before
  · exact hmutual
  · intro other hother
    cases hother
  · intro vertex other _ _
    rfl
  · intro other hother
    cases hother

theorem Checked.round (h : Checked before player coord radius done self)
    (hround : checkPlayer player coord radius self otherPlayer = .ok next) :
    Checked before player coord radius (done ++ [otherPlayer]) next := by
  by_cases heq : otherPlayer = player
  -- the player itself is passed over
  · rw [checkPlayer, if_pos heq, Except.ok.injEq] at hround
    subst hround
    have hmem : ∀ other, other ≠ player → (other ∈ done ++ [otherPlayer] ↔ other ∈ done) := by
      intro other hne
      simp [heq, hne]
    constructor
    · exact h.listsOnly
    · exact h.isMutual
    · intro other hother hne
      exact h.sees_self other ((hmem other hne).mp hother) hne
    · intro vertex other hfirst hsecond
      apply h.sees_other
      · rintro ⟨hvertex, hother, hne⟩
        exact hfirst ⟨hvertex, (hmem other hne).mpr hother, hne⟩
      · rintro ⟨hother, hvertex, hne⟩
        exact hsecond ⟨hother, (hmem vertex hne).mpr hvertex, hne⟩
    · intro other hother hne
      exact h.present other ((hmem other hne).mp hother) hne
  · obtain ⟨hlists, hmutual, hplayer, hedge, hrest⟩ := checkPlayer_edge h.isMutual heq hround
    constructor
    · exact h.listsOnly.trans hlists
    · exact hmutual
    · intro other hother hne
      -- the edge to the other player is decided in this round, the others were before or come later
      by_cases hsame : other = otherPlayer
      · subst hsame
        exact hedge.trans (inRegion_iff h.listsOnly)
      · have hdone : other ∈ done := by simpa [hsame] using hother
        rw [hrest player other (fun hcase => hsame hcase.2) (fun hcase => hne hcase.2)]
        exact h.sees_self other hdone hne
    · intro vertex other hfirst hsecond
      have hkept := hrest vertex other
        (fun ⟨hvertex, hother⟩ => hfirst ⟨hvertex, by simp [hother], hother ▸ heq⟩)
        (fun ⟨hvertex, hother⟩ => hsecond ⟨hother, by simp [hvertex], hvertex ▸ heq⟩)
      rw [hkept]
      apply h.sees_other
      · rintro ⟨hvertex, hother, hne⟩
        exact hfirst ⟨hvertex, List.mem_append_left _ hother, hne⟩
      · rintro ⟨hother, hvertex, hne⟩
        exact hsecond ⟨hother, List.mem_append_left _ hvertex, hne⟩
    · intro other _ _
      rwa [← h.listsOnly.isSome_eq player]

/-- **What the check of a player does** to the lists, for every order of the players. -/
theorem checkPlayersInRegion_checked {order : List Player} (hmutual : Mutual before.seenLists)
    (hcheck : checkPlayersInRegion before player coord radius order = .ok next) :
    Checked before player coord radius order next := by
  unfold checkPlayersInRegion at hcheck
  cases hworld : (before.player player).world with
  | none => simp [hworld] at hcheck
  | some world =>
      simp only [hworld] at hcheck
      have hdone := FallibleLoop.invariant_of_ok
        (fun _ _ _ _ hself hround => Checked.round hself hround) (Checked.initial hmutual) hcheck
      simpa using hdone

/-- The check of a player in a world comes to an end if all have lists. -/
theorem exists_checkPlayersInRegion {order : List Player} (hmutual : Mutual before.seenLists)
    (hworld : (before.player player).world ≠ none) (hplayer : (before.seenLists player).isSome)
    (horder : ∀ other, other ∈ order → (before.seenLists other).isSome) :
    ∃ next, checkPlayersInRegion before player coord radius order = .ok next := by
  obtain ⟨world, hworld⟩ := Option.ne_none_iff_exists'.mp hworld
  obtain ⟨next, hloop, -⟩ := FallibleLoop.exists_ok
    (P := fun done self => Checked before player coord radius done self)
    (fun done other self hother hself => by
      obtain ⟨next, hround⟩ := exists_checkPlayer coord radius
        (by rwa [hself.listsOnly.isSome_eq]) (by
          rw [hself.listsOnly.isSome_eq]
          exact horder other hother)
      exact ⟨next, hround, hself.round hround⟩)
    (Checked.initial hmutual)
  exact ⟨next, by simpa only [checkPlayersInRegion, hworld] using hloop⟩

/-- A player without a list fails the assertion of `CD_ListContains` at the first other player. -/
theorem checkPlayers_without_list {order : List Player}
    (hnone : (self.player player).seenPlayers = none) :
    order.foldlM (checkPlayer player coord radius) self =
      if ∃ other, other ∈ order ∧ other ≠ player then .error .assertion else .ok self := by
  induction order with
  | nil => simp; rfl
  | cons other rest ih =>
      rw [List.foldlM_cons]
      by_cases heq : other = player
      · rw [checkPlayer, if_pos heq]
        change rest.foldlM (checkPlayer player coord radius) self = _
        rw [ih]
        simp [heq]
      · have hround : checkPlayer player coord radius self other = .error .assertion := by
          simp [checkPlayer, heq, hnone]
        rw [hround, if_pos ⟨other, List.mem_cons_self, heq⟩]
        rfl

/-! ## What the logout does to the lists -/

/-- The logout has gone through some players: the player is in none of their lists. -/
structure Forgotten (before : Game Client Player World) (player : Player) (done : List Player)
    (after : Game Client Player World) : Prop where
  listsOnly : ListsOnly before after
  nodups : Nodups after.seenLists
  sees_iff : ∀ vertex other, Sees after.seenLists vertex other ↔
    Sees before.seenLists vertex other ∧ ¬ (vertex ∈ done ∧ other = player)

/-- One round of the logout changes a list. -/
theorem forgetPlayer_listsOnly (hround : forgetPlayer player self otherPlayer = .ok next) :
    ListsOnly self next := by
  unfold forgetPlayer at hround
  cases hlist : (self.player otherPlayer).seenPlayers with
  | none => simp [hlist] at hround
  | some list =>
      simp only [hlist, Except.ok.injEq] at hround
      exact hround ▸ .setSeen self _ hlist

theorem forget_listsOnly {list : List Player}
    (hloop : list.foldlM (forgetPlayer player) self = .ok next) : ListsOnly self next :=
  FallibleLoop.keeps_of_ok
    (fun _ _ _ hkept hround => ListsOnly.trans hkept (forgetPlayer_listsOnly hround))
    (.refl self) hloop

theorem Forgotten.round (h : Forgotten before player done self)
    (hround : forgetPlayer player self otherPlayer = .ok next) :
    Forgotten before player (done ++ [otherPlayer]) next := by
  have hlists := forgetPlayer_listsOnly hround
  unfold forgetPlayer at hround
  cases hlist : (self.player otherPlayer).seenPlayers with
  | none => simp [hlist] at hround
  | some list =>
      simp only [hlist, Except.ok.injEq] at hround
      subst hround
      have hnext := seenLists_deleteAll self hlist player
      constructor
      · exact h.listsOnly.trans hlists
      · rw [hnext]
        exact nodups_deleteAll h.nodups
      · intro vertex other
        rw [hnext, sees_deleteAll, h.sees_iff]
        simp only [List.mem_append, List.mem_singleton]
        tauto

theorem forgotten_of_loop {list : List Player} (hnodups : Nodups before.seenLists)
    (hloop : list.foldlM (forgetPlayer player) before = .ok next) :
    Forgotten before player list next := by
  have hinitial : Forgotten before player [] before :=
    ⟨.refl before, hnodups, fun vertex other => by simp⟩
  have hdone := FallibleLoop.invariant_of_ok
    (fun _ _ _ _ hself hround => Forgotten.round hself hround) hinitial hloop
  simpa using hdone

end Check

end Craftd.Survival
