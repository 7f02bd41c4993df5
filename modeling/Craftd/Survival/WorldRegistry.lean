import Craftd.Library.System
import Craftd.Survival.UniqueUsername

/-!
# The registry of a world

`SV_WorldAddPlayer` and `SV_WorldRemovePlayer` in any order, on one world that
starts empty.  The invariant keeps the hash of the usernames and the map of the
ids in step: what stands in either is a player this world accepted, at its own
username and at its own id.

Two things break it.  A rename may not come to an end, by `RenameStuck`.  And a
player stays accepted when it is removed, so it can be removed again; if another
player has registered its username meanwhile, that player's entry goes.
-/

namespace Craftd.Survival

open StepSystem

variable {Client Player World : Type*} [DecidableEq Player] [DecidableEq World]

/-- The username of a player is set, as the login does before it adds the player. -/
def Game.setUsername (self : Game Client Player World) (player : Player)
    (username : List Byte) : Game Client Player World :=
  self.setPlayer player { self.player player with username := some username }

/-- A call on the world. -/
inductive RegistryAction (Player : Type*)
  /-- the login of a new player under a username -/
  | addPlayer (player : Player) (username : List Byte)
  | removePlayer (player : Player)

/-- One call on the world, with the id it generates. -/
def registryStep (world : World) (state : Game Client Player World) :
    RegistryAction Player → Option (Game Client Player World × List SVEntityId)
  | .addPlayer player username =>
      if (state.player player).id = 0 ∧ 0 ∉ username then
        match worldAddPlayer (state.setUsername player username) world player with
        | .error _ => none
        | .ok (next, accepted) =>
            some (next, if accepted then [(next.player player).id] else [])
      else none
  | .removePlayer player =>
      if (state.player player).world = some world then
        match worldRemovePlayer state world player with
        | .error _ => none
        | .ok next => some (next, [])
      else none

/-- The calls on a world. -/
def registry (start : Game Client Player World) (world : World) :
    System (Game Client Player World) (RegistryAction Player) SVEntityId where
  init := start
  step := registryStep world

/-! ## What is to hold -/

/-- The player stands in the hash of the world. -/
def Registered (state : Game Client Player World) (world : World) (player : Player) : Prop :=
  ∃ name, (state.world world).players name = some player

/-- The hash and the map are in bijection: a registered player is the value at exactly its own
username and at exactly its own id. -/
structure Bijection (state : Game Client Player World) (world : World) : Prop where
  username_iff : ∀ player, Registered state world player → ∀ name,
    (state.world world).players name = some player ↔ (state.player player).username = some name
  id_iff : ∀ player, Registered state world player → ∀ id,
    (state.world world).entities id = some player ↔ (state.player player).id = id
  registered_of_entity : ∀ id player,
    (state.world world).entities id = some player → Registered state world player
  id_ne_zero : ∀ player, Registered state world player → (state.player player).id ≠ 0
  distinct : ∀ first second, Registered state world first → Registered state world second →
    first ≠ second → (state.player first).username ≠ (state.player second).username ∧
      (state.player first).id ≠ (state.player second).id

/-- An accepted add: the player gets a username and an id that were free, and no other entry
changes. -/
structure Accepted (before after : Game Client Player World) (world : World) (player : Player)
    (name : List Byte) : Prop where
  nul_free : 0 ∉ name
  name_free : (before.world world).players name = none
  id_free : (before.world world).entities (after.player player).id = none
  username_eq : (after.player player).username = some name
  world_eq : (after.player player).world = some world
  players_eq : (after.world world).players =
    Function.update (before.world world).players name (some player)
  entities_eq : (after.world world).entities =
    Function.update (before.world world).entities (after.player player).id (some player)
  id_eq : generateEntityId (before.world world) = some (after.player player).id
  last_eq : (after.world world).lastGeneratedEntityId = (after.player player).id
  standard_eq : after.standard = before.standard
  others_eq : ∀ other, other ≠ player → after.player other = before.player other

/-- A rejected add: the maps and all players are as before. -/
structure Rejected (before after : Game Client Player World) (world : World) : Prop where
  players_eq : (after.world world).players = (before.world world).players
  entities_eq : (after.world world).entities = (before.world world).entities
  last_eq : (after.world world).lastGeneratedEntityId =
    (before.world world).lastGeneratedEntityId
  heap_eq : after.player = before.player

/-- What an add under a username comes to. -/
structure AddOutcome (before : Game Client Player World) (world : World) (player : Player)
    (username : List Byte) : Prop where
  free : (before.world world).players username = none →
    ∃ after, worldAddPlayer before world player = .ok (after, true) ∧
      Accepted before after world player username
  taken : (before.world world).players username ≠ none → before.standard = true →
    ∃ after, worldAddPlayer before world player = .ok (after, false) ∧
      Rejected before after world
  renamed : (before.world world).players username ≠ none → before.standard = false →
    ¬ RenameStuck (before.world world) username →
    ∃ after count, worldAddPlayer before world player = .ok (after, true) ∧
      1 ≤ count ∧ Accepted before after world player (uniqueUsername username count)
  stuck : (before.world world).players username ≠ none → before.standard = false →
    RenameStuck (before.world world) username →
    worldAddPlayer before world player = .error .endless

/-- A call that is in order: a rename that is not stuck, the removal of a player whose username
is not registered by another one. -/
def Orderly (world : World) (state : Game Client Player World) : RegistryAction Player → Prop
  | .addPlayer _ username =>
      (state.world world).players username ≠ none → state.standard = false →
        ¬ RenameStuck (state.world world) username
  | .removePlayer player =>
      ∀ name other, (state.player player).username = some name →
        (state.world world).players name = some other → other = player

/-! ## The invariant -/

/-- The registry of a world after the given number of ids. -/
structure Consistent (world : World) (generated : ℕ) (state : Game Client Player World) :
    Prop where
  key : ∀ name player, (state.world world).players name = some player →
    (state.player player).username = some name ∧ (state.player player).world = some world ∧
      (state.world world).entities (state.player player).id = some player
  entity : ∀ id player, (state.world world).entities id = some player →
    (state.player player).id = id ∧ (state.player player).world = some world ∧
      ∃ name, (state.world world).players name = some player
  nul_free : ∀ player, (state.player player).world = some world →
    ∃ name, (state.player player).username = some name ∧ 0 ∉ name
  range : ∀ player, (state.player player).world = some world →
    10 ≤ (state.player player).id.toNat ∧ (state.player player).id.toNat ≤ 9 + generated
  injective : ∀ first second, (state.player first).world = some world →
    (state.player second).world = some world →
    (state.player first).id = (state.player second).id → first = second
  last : (state.world world).lastGeneratedEntityId.toNat = if generated = 0 then 0
    else 9 + generated

namespace Consistent

variable {world : World} {generated : ℕ} {state : Game Client Player World}

omit [DecidableEq Player] [DecidableEq World] in
theorem initial (hworld : state.world world = createWorld)
    (hplayers : ∀ player, (state.player player).world ≠ some world) :
    Consistent world 0 state := by
  constructor
  · intro name player hkey
    simp [hworld, createWorld] at hkey
  · intro id player hentity
    simp [hworld, createWorld] at hentity
  · intro player haccepted
    exact absurd haccepted (hplayers player)
  · intro player haccepted
    exact absurd haccepted (hplayers player)
  · intro first second hfirst
    exact absurd hfirst (hplayers first)
  · simp [hworld, createWorld]

omit [DecidableEq Player] [DecidableEq World] in
theorem ne_zero (h : Consistent world generated state) {player : Player}
    (haccepted : (state.player player).world = some world) : (state.player player).id ≠ 0 := by
  intro hzero
  have hrange := (h.range player haccepted).1
  rw [hzero] at hrange
  simp at hrange

omit [DecidableEq Player] [DecidableEq World] in
/-- **The hash and the map of a consistent world are in bijection.** -/
theorem bijection (h : Consistent world generated state) : Bijection state world := by
  constructor
  · rintro player ⟨own, hown⟩ name
    constructor
    · intro hname
      exact (h.key name player hname).1
    · intro husername
      have hsame : own = name := Option.some.inj ((h.key own player hown).1.symm.trans husername)
      exact hsame ▸ hown
  · rintro player ⟨own, hown⟩ id
    constructor
    · intro hid
      exact (h.entity id player hid).1
    · intro hid
      exact hid ▸ (h.key own player hown).2.2
  · intro id player hid
    exact (h.entity id player hid).2.2
  · rintro player ⟨own, hown⟩
    exact h.ne_zero (h.key own player hown).2.1
  · rintro first second ⟨firstName, hfirst⟩ ⟨secondName, hsecond⟩ hne
    obtain ⟨hfirstName, hfirstWorld, -⟩ := h.key firstName first hfirst
    obtain ⟨hsecondName, hsecondWorld, -⟩ := h.key secondName second hsecond
    refine ⟨?_, fun hid => hne (h.injective first second hfirstWorld hsecondWorld hid)⟩
    intro husername
    rw [hfirstName, hsecondName] at husername
    rw [Option.some.inj husername, hsecond] at hfirst
    exact hne (Option.some.inj hfirst).symm

/-! ### Adding a player -/

omit [DecidableEq Player] [DecidableEq World] in
/-- The next id is the next number. -/
theorem generateEntityId_eq (h : Consistent world generated state)
    (hgenerated : generated < 2 ^ 31 - 10) :
    ∃ id, generateEntityId (state.world world) = some id ∧ id.toNat = 10 + generated := by
  have hlast := h.last
  unfold generateEntityId
  by_cases hzero : (state.world world).lastGeneratedEntityId = 0
  · rw [if_pos hzero]
    refine ⟨10, rfl, ?_⟩
    rw [hzero, show (0 : SVEntityId).toNat = 0 from rfl] at hlast
    have hten : (10 : SVEntityId).toNat = 10 := rfl
    split_ifs at hlast <;> omega
  · have hgen : generated ≠ 0 := by
      intro hgen
      rw [if_pos hgen] at hlast
      exact hzero (BitVec.eq_of_toNat_eq (by simpa using hlast))
    rw [if_neg hgen] at hlast
    rw [if_neg hzero, if_neg (by unfold integerMax; omega)]
    refine ⟨_, rfl, ?_⟩
    rw [BitVec.toNat_add, hlast, show ((1 : SVEntityId)).toNat = 1 from rfl]
    omega

omit [DecidableEq Player] [DecidableEq World] in
theorem id_free (h : Consistent world generated state) {id : SVEntityId}
    (hid : id.toNat = 10 + generated) : (state.world world).entities id = none := by
  cases hentity : (state.world world).entities id with
  | none => rfl
  | some other =>
      obtain ⟨hown, haccepted, -⟩ := h.entity id other hentity
      have hrange := (h.range other haccepted).2
      rw [hown] at hrange
      omega

omit [DecidableEq World] in
/-- A username of a player that is not in the world is of no concern to it. -/
theorem setUsername (h : Consistent world generated state) {player : Player}
    (hplayer : (state.player player).world ≠ some world) (username : List Byte) :
    Consistent world generated (state.setUsername player username) := by
  have hsame : ∀ other, (state.player other).world = some world →
      (state.setUsername player username).player other = state.player other := by
    intro other hother
    have hne : other ≠ player := by
      intro heq
      rw [heq] at hother
      exact hplayer hother
    exact Function.update_of_ne hne _ _
  have hworld : ∀ other, ((state.setUsername player username).player other).world = some world →
      (state.player other).world = some world := by
    intro other hother
    by_cases heq : other = player
    · subst heq
      simpa [Game.setUsername, Game.setPlayer] using hother
    · simpa [Game.setUsername, Game.setPlayer, Function.update_of_ne heq] using hother
  constructor
  · intro name other hkey
    rw [hsame other (h.key name other hkey).2.1]
    exact h.key name other hkey
  · intro id other hentity
    rw [hsame other (h.entity id other hentity).2.1]
    exact h.entity id other hentity
  · intro other hother
    rw [hsame other (hworld other hother)]
    exact h.nul_free other (hworld other hother)
  · intro other hother
    rw [hsame other (hworld other hother)]
    exact h.range other (hworld other hother)
  · intro first second hfirst hsecond
    rw [hsame first (hworld first hfirst), hsame second (hworld second hsecond)]
    exact h.injective first second (hworld first hfirst) (hworld second hsecond)
  · exact h.last

omit [DecidableEq World] in
/-- The add of a new player keeps the registry consistent. -/
theorem accept {before after : Game Client Player World} {player : Player} {name : List Byte}
    (h : Consistent world generated before) (hgenerated : generated < 2 ^ 31 - 10)
    (hplayer : (before.player player).world ≠ some world)
    (hadd : Accepted before after world player name) :
    Consistent world (generated + 1) after := by
  have hid : (after.player player).id.toNat = 10 + generated := by
    obtain ⟨id, hgenerate, hid⟩ := h.generateEntityId_eq hgenerated
    rw [hadd.id_eq, Option.some.injEq] at hgenerate
    rwa [hgenerate]
  have hsame : ∀ other, (before.player other).world = some world →
      after.player other = before.player other := by
    intro other hother
    exact hadd.others_eq other (fun heq => hplayer (heq ▸ hother))
  have hworld : ∀ other, other ≠ player → (after.player other).world = some world →
      (before.player other).world = some world := by
    intro other hne hother
    rwa [hadd.others_eq other hne] at hother
  have hfresh : ∀ other, (before.player other).world = some world →
      (before.player other).id ≠ (after.player player).id := by
    intro other hother hsameId
    have hrange := (h.range other hother).2
    rw [hsameId] at hrange
    omega
  constructor
  · -- the name leads to the new player, every other name to whom it led before
    intro own other hkey
    rw [hadd.players_eq] at hkey
    by_cases hown : own = name
    · subst hown
      rw [Function.update_self] at hkey
      cases hkey
      refine ⟨hadd.username_eq, hadd.world_eq, ?_⟩
      rw [hadd.entities_eq, Function.update_self]
    · rw [Function.update_of_ne hown] at hkey
      obtain ⟨husername, hother, hentity⟩ := h.key own other hkey
      rw [hsame other hother, hadd.entities_eq, Function.update_of_ne (hfresh other hother)]
      exact ⟨husername, hother, hentity⟩
  · -- and so do the ids, of which the new one is fresh
    intro id other hentity
    rw [hadd.entities_eq] at hentity
    rw [hadd.players_eq]
    by_cases hown : id = (after.player player).id
    · subst hown
      rw [Function.update_self] at hentity
      cases hentity
      exact ⟨rfl, hadd.world_eq, name, Function.update_self _ _ _⟩
    · rw [Function.update_of_ne hown] at hentity
      obtain ⟨hotherId, hother, own, hkey⟩ := h.entity id other hentity
      rw [hsame other hother]
      refine ⟨hotherId, hother, own, ?_⟩
      have hne : own ≠ name := by
        intro heq
        rw [heq, hadd.name_free] at hkey
        cases hkey
      rwa [Function.update_of_ne hne]
  · intro other hother
    by_cases heq : other = player
    · exact ⟨name, heq ▸ hadd.username_eq, hadd.nul_free⟩
    · rw [hadd.others_eq other heq]
      exact h.nul_free other (hworld other heq hother)
  · intro other hother
    by_cases heq : other = player
    · subst heq
      omega
    · rw [hadd.others_eq other heq]
      have hrange := h.range other (hworld other heq hother)
      omega
  · -- two players with one id: neither is the new one, or both are
    intro first second hfirst hsecond hids
    by_cases hfirstEq : first = player
    · by_cases hsecondEq : second = player
      · rw [hfirstEq, hsecondEq]
      · rw [hadd.others_eq second hsecondEq, hfirstEq] at hids
        exact absurd hids.symm (hfresh second (hworld second hsecondEq hsecond))
    · rw [hadd.others_eq first hfirstEq] at hids
      by_cases hsecondEq : second = player
      · rw [hsecondEq] at hids
        exact absurd hids (hfresh first (hworld first hfirstEq hfirst))
      · rw [hadd.others_eq second hsecondEq] at hids
        exact h.injective first second (hworld first hfirstEq hfirst)
          (hworld second hsecondEq hsecond) hids
  · rw [hadd.last_eq, hid, if_neg (by omega)]
    omega

omit [DecidableEq Player] [DecidableEq World] in
/-- A rejected add changes nothing that counts. -/
theorem reject {before after : Game Client Player World} (h : Consistent world generated before)
    (hadd : Rejected before after world) : Consistent world generated after := by
  constructor
  · rw [hadd.players_eq, hadd.entities_eq, hadd.heap_eq]
    exact h.key
  · rw [hadd.players_eq, hadd.entities_eq, hadd.heap_eq]
    exact h.entity
  · rw [hadd.heap_eq]
    exact h.nul_free
  · rw [hadd.heap_eq]
    exact h.range
  · rw [hadd.heap_eq]
    exact h.injective
  · rw [hadd.last_eq]
    exact h.last

/-! ### Removing a player -/

omit [DecidableEq Player] in
/-- The removal of a player whose username no other player has keeps the registry consistent. -/
theorem remove {next : Game Client Player World} {player : Player}
    (h : Consistent world generated state)
    (hplayer : (state.player player).world = some world)
    (horderly : Orderly world state (.removePlayer player))
    (hremove : worldRemovePlayer state world player = .ok next) :
    Consistent world generated next := by
  obtain ⟨name, husername, hname⟩ := h.nul_free player hplayer
  have hnext : next = state.setWorld world { state.world world with
      players := Function.update (state.world world).players name none
      entities := Function.update (state.world world).entities (state.player player).id none } := by
    simp only [worldRemovePlayer, hplayer, ne_eq, not_true_eq_false, if_false, husername,
      stringContent_eq_self hname, Except.ok.injEq] at hremove
    exact hremove.symm
  have hheap : next.player = state.player := by rw [hnext]; rfl
  have hplayers : (next.world world).players =
      Function.update (state.world world).players name none := by
    rw [hnext]
    simp [Game.setWorld]
  have hentities : (next.world world).entities =
      Function.update (state.world world).entities (state.player player).id none := by
    rw [hnext]
    simp [Game.setWorld]
  have hlast : (next.world world).lastGeneratedEntityId =
      (state.world world).lastGeneratedEntityId := by
    rw [hnext]
    simp [Game.setWorld]
  constructor
  · intro own other hkey
    rw [hplayers] at hkey
    rw [hheap, hentities]
    by_cases hown : own = name
    · rw [hown, Function.update_self] at hkey
      cases hkey
    · rw [Function.update_of_ne hown] at hkey
      obtain ⟨hother, haccepted, hentity⟩ := h.key own other hkey
      -- its entity stays, because its id is not the one that is removed
      have hid : (state.player other).id ≠ (state.player player).id := by
        intro hid
        rw [h.injective other player haccepted hplayer hid, husername] at hother
        exact hown (Option.some.inj hother).symm
      rw [Function.update_of_ne hid]
      exact ⟨hother, haccepted, hentity⟩
  · intro id other hentity
    rw [hentities] at hentity
    rw [hheap, hplayers]
    by_cases hid : id = (state.player player).id
    · rw [hid, Function.update_self] at hentity
      cases hentity
    · rw [Function.update_of_ne hid] at hentity
      obtain ⟨hother, haccepted, own, hkey⟩ := h.entity id other hentity
      refine ⟨hother, haccepted, own, ?_⟩
      have hown : own ≠ name := by
        intro hown
        rw [hown] at hkey
        rw [horderly name other husername hkey] at hother
        exact hid hother.symm
      rwa [Function.update_of_ne hown]
  · rw [hheap]
    exact h.nul_free
  · rw [hheap]
    exact h.range
  · rw [hheap]
    exact h.injective
  · rw [hlast]
    exact h.last

end Consistent

/-! ## What an add comes to -/

section Add

variable {world : World} {generated : ℕ} {before : Game Client Player World} {player : Player}

theorem putPlayer_accepted (h : Consistent world generated before)
    (hgenerated : generated < 2 ^ 31 - 10) {name : List Byte} (hname : 0 ∉ name)
    (hfree : (before.world world).players name = none) :
    ∃ after, putPlayer before world player name = .ok (after, true) ∧
      Accepted before after world player name := by
  obtain ⟨id, hgenerate, hid⟩ := h.generateEntityId_eq hgenerated
  unfold putPlayer
  rw [hgenerate]
  refine ⟨_, rfl, ?_⟩
  constructor
  · exact hname
  · exact hfree
  · simpa [Game.setPlayer, Game.setWorld] using h.id_free hid
  · simp [Game.setPlayer, Game.setWorld]
  · simp [Game.setPlayer, Game.setWorld]
  · simp [Game.setPlayer, Game.setWorld, stringContent_eq_self hname]
  · simp [Game.setPlayer, Game.setWorld]
  · simpa [Game.setPlayer, Game.setWorld] using hgenerate
  · simp [Game.setPlayer, Game.setWorld]
  · rfl
  · intro other hne
    simp [Game.setPlayer, Game.setWorld, Function.update_of_ne hne]

omit [DecidableEq Player] [DecidableEq World] in
/-- The registered names have distinct ids in a range, so the rename loop of a consistent world
ends unless it is stuck. -/
theorem Consistent.renameLoop_endless_iff (h : Consistent world generated before)
    (hgenerated : generated < 2 ^ 31 - 10) {username : List Byte} (husername : 0 ∉ username) :
    renameLoop (before.world world) username (integerMax - 1) 1 = none ↔
      RenameStuck (before.world world) username := by
  refine Survival.renameLoop_endless_iff husername (Finset.Icc 10 (9 + generated))
    (fun name => ((before.world world).players name).elim 0
      fun other => (before.player other).id.toNat) ?_ ?_ ?_
  · rw [Nat.card_Icc]
    unfold integerMax
    omega
  · intro name hname
    obtain ⟨other, hother⟩ := Option.isSome_iff_exists.mp hname
    simp only [hother, Option.elim_some]
    exact Finset.mem_Icc.mpr (h.range other (h.key name other hother).2.1)
  · intro name second hname hsecond hsame
    obtain ⟨first, hfirst⟩ := Option.isSome_iff_exists.mp hname
    obtain ⟨other, hother⟩ := Option.isSome_iff_exists.mp hsecond
    simp only [hfirst, hother, Option.elim_some] at hsame
    obtain ⟨hfirstName, hfirstWorld, -⟩ := h.key name first hfirst
    obtain ⟨hotherName, hotherWorld, -⟩ := h.key second other hother
    have heq := h.injective first other hfirstWorld hotherWorld (BitVec.eq_of_toNat_eq hsame)
    rw [heq, hotherName] at hfirstName
    exact (Option.some.inj hfirstName).symm

/-- **Every add comes to what it should**, or is stuck in a rename. -/
theorem addOutcome (h : Consistent world generated before) (hgenerated : generated < 2 ^ 31 - 10)
    (hid : (before.player player).id = 0) {username : List Byte}
    (husername : (before.player player).username = some username) (hname : 0 ∉ username) :
    AddOutcome before world player username := by
  constructor
  · intro hfree
    have hadd : worldAddPlayer before world player = putPlayer before world player username := by
      simp [worldAddPlayer, hid, husername, hasPlayer_eq hname, hfree]
    rw [hadd]
    exact putPlayer_accepted h hgenerated hname hfree
  · intro htaken hstandard
    refine ⟨before.setWorld world { before.world world with error := some .usernameTaken }, ?_, ?_⟩
    · simp [worldAddPlayer, hid, husername, hasPlayer_eq hname, htaken, hstandard,
        Option.isSome_iff_ne_none]
    · constructor <;> simp [Game.setWorld]
  · intro htaken hstandard hstuck
    have hends := mt (h.renameLoop_endless_iff hgenerated hname).mp hstuck
    obtain ⟨name, hloop⟩ := Option.ne_none_iff_exists'.mp hends
    have hadd : worldAddPlayer before world player = putPlayer before world player name := by
      simp [worldAddPlayer, hid, husername, hasPlayer_eq hname, htaken, hstandard, hloop,
        Option.isSome_iff_ne_none]
    obtain ⟨hfree, last, hlast, rfl⟩ := renameLoop_spec hloop
    obtain ⟨after, hput, haccepted⟩ := putPlayer_accepted h hgenerated
      (zero_notMem_uniqueUsername hname last)
      (by simpa [hasPlayer_uniqueUsername hname] using hfree)
    exact ⟨after, last, hadd.trans hput, hlast, haccepted⟩
  · intro htaken hstandard hstuck
    have hendless := (h.renameLoop_endless_iff hgenerated hname).mpr hstuck
    simp [worldAddPlayer, hid, husername, hasPlayer_eq hname, htaken, hstandard, hendless,
      Option.isSome_iff_ne_none]

theorem Consistent.worldAddPlayer (h : Consistent world generated before)
    (hgenerated : generated < 2 ^ 31 - 10) (hid : (before.player player).id = 0)
    {username : List Byte} (husername : (before.player player).username = some username)
    (hname : 0 ∉ username) {after : Game Client Player World} {accepted : Bool}
    (hadd : Survival.worldAddPlayer before world player = .ok (after, accepted)) :
    Consistent world (generated + if accepted then 1 else 0) after := by
  have houtcome := addOutcome h hgenerated hid husername hname
  have hplayer : (before.player player).world ≠ some world := fun hworld => h.ne_zero hworld hid
  by_cases hfree : (before.world world).players username = none
  · obtain ⟨after', hresult, haccepted⟩ := houtcome.free hfree
    rw [hadd] at hresult
    cases hresult
    exact h.accept hgenerated hplayer haccepted
  · cases hstandard : before.standard with
    | true =>
        obtain ⟨after', hresult, hrejected⟩ := houtcome.taken hfree hstandard
        rw [hadd] at hresult
        cases hresult
        exact h.reject hrejected
    | false =>
        by_cases hstuck : RenameStuck (before.world world) username
        · rw [houtcome.stuck hfree hstandard hstuck] at hadd
          cases hadd
        · obtain ⟨after', _, hresult, -, haccepted⟩ := houtcome.renamed hfree hstandard hstuck
          rw [hadd] at hresult
          cases hresult
          exact h.accept hgenerated hplayer haccepted

end Add

/-! ## The runs -/

section Runs

variable {start state : Game Client Player World} {world : World} {ids : List SVEntityId}

theorem Consistent.step (h : Consistent world ids.length state)
    (hids : ids.length < 2 ^ 31 - 10) {action : RegistryAction Player}
    (horderly : Orderly world state action) {next : Game Client Player World}
    {emitted : List SVEntityId} (hstep : registryStep world state action = some (next, emitted)) :
    Consistent world (ids ++ emitted).length next := by
  cases action with
  | addPlayer player username =>
      by_cases hdomain : (state.player player).id = 0 ∧ 0 ∉ username
      · simp only [registryStep, if_pos hdomain] at hstep
        cases hadd : Survival.worldAddPlayer (state.setUsername player username) world player with
        | error fault => simp [hadd] at hstep
        | ok result =>
            obtain ⟨after, accepted⟩ := result
            simp only [hadd, Option.some.injEq, Prod.mk.injEq] at hstep
            obtain ⟨rfl, rfl⟩ := hstep
            have hplayer : (state.player player).world ≠ some world :=
              fun hworld => h.ne_zero hworld hdomain.1
            have hnext := (h.setUsername hplayer username).worldAddPlayer hids
              (by simpa [Game.setUsername, Game.setPlayer] using hdomain.1)
              (by simp [Game.setUsername, Game.setPlayer]) hdomain.2 hadd
            cases accepted <;> simpa using hnext
      · simp only [registryStep, if_neg hdomain, reduceCtorEq] at hstep
  | removePlayer player =>
      by_cases hplayer : (state.player player).world = some world
      · simp only [registryStep, if_pos hplayer] at hstep
        cases hremove : worldRemovePlayer state world player with
        | error fault => simp [hremove] at hstep
        | ok after =>
            simp only [hremove, Option.some.injEq, Prod.mk.injEq] at hstep
            obtain ⟨rfl, rfl⟩ := hstep
            simpa using h.remove hplayer horderly hremove
      · simp only [registryStep, if_neg hplayer, reduceCtorEq] at hstep

/-- Every run of calls in order keeps the registry consistent. -/
theorem consistent_of_run (hworld : start.world world = createWorld)
    (hplayers : ∀ player, (start.player player).world ≠ some world)
    (hrun : (registry start world).Run (Orderly world) ids state)
    (hids : ids.length < 2 ^ 31 - 10) : Consistent world ids.length state := by
  revert hids
  refine System.Run.invariant (I := fun events last =>
    events.length < 2 ^ 31 - 10 → Consistent world events.length last) ?_ ?_ hrun
  · intro _
    exact .initial hworld hplayers
  · intro events last action next emitted hlast horderly hstep hlength
    have hevents : events.length < 2 ^ 31 - 10 := by
      rw [List.length_append] at hlength
      omega
    exact (hlast hevents).step hevents horderly hstep

/-- **The registry of a world.**  In every run of calls in order the hash and the map are in
bijection, and the next add comes to what it should. -/
theorem registry_bijection (hworld : start.world world = createWorld)
    (hplayers : ∀ player, (start.player player).world ≠ some world)
    (hrun : (registry start world).Run (Orderly world) ids state)
    (hids : ids.length < 2 ^ 31 - 10) :
    Bijection state world ∧
      ∀ player username, (state.player player).id = 0 → 0 ∉ username →
        AddOutcome (state.setUsername player username) world player username := by
  have hconsistent := consistent_of_run hworld hplayers hrun hids
  refine ⟨hconsistent.bijection, ?_⟩
  intro player username hid hname
  have hplayer : (state.player player).world ≠ some world :=
    fun hin => hconsistent.ne_zero hin hid
  exact addOutcome (hconsistent.setUsername hplayer username) hids
    (by simpa [Game.setUsername, Game.setPlayer] using hid)
    (by simp [Game.setUsername, Game.setPlayer]) hname

/-- A server in the mode that renames, with players that are just connected and one empty
world. -/
def freshGame : Game Unit ℕ Unit where
  player := fun _ => createPlayer ()
  world := fun _ => createWorld
  standard := false
  machine := fun _ => 0

/-- A check that is enough for a call to be in order. -/
def orderlyCheck (world : World) (state : Game Client Player World) :
    RegistryAction Player → Bool
  | .addPlayer _ username => username.length ≤ 8990
  | .removePlayer player =>
      match (state.player player).username with
      | none => true
      | some name => (state.world world).players name = some player

omit [DecidableEq World] in
private theorem orderly_of_check (world : World) (state : Game Client Player World)
    (action : RegistryAction Player) (hcheck : orderlyCheck world state action = true) :
    Orderly world state action := by
  cases action with
  | addPlayer player username =>
      intro _ _ hstuck
      have hshort : username.length ≤ 8990 := by simpa [orderlyCheck] using hcheck
      exact absurd hstuck.1 (by omega)
  | removePlayer player =>
      intro name other husername hother
      simp only [orderlyCheck, husername, decide_eq_true_eq] at hcheck
      exact Option.some.inj (hother.symm.trans hcheck)

theorem registry_bijection_renamed :
    ∃ state : Game Unit ℕ Unit, (state.world ()).players [0x61, 0x5E, 0x31] = some 1 ∧
      Bijection state () := by
  have hexec : ((registry freshGame ()).exec
      [.addPlayer 0 [0x61], .addPlayer 1 [0x61], .removePlayer 0] freshGame).map (fun result =>
        (result.2, (result.1.world ()).players [0x61, 0x5E, 0x31])) = some ([10, 11], some 1) := by
    rfl
  obtain ⟨⟨state, ids⟩, hrun, hseen⟩ := Option.map_eq_some_iff.mp hexec
  simp only [Prod.mk.injEq] at hseen
  obtain ⟨rfl, hkey⟩ := hseen
  have hguard : (registry freshGame ()).ExecGuard
      (fun before action => orderlyCheck () before action)
      [.addPlayer 0 [0x61], .addPlayer 1 [0x61], .removePlayer 0] freshGame := by
    decide
  have hchecked := System.Run.exec .start hguard hrun
  have horderly := hchecked.mono fun before action => orderly_of_check () before action
  exact ⟨state, hkey, (registry_bijection rfl
    (fun player => by simp [freshGame, createPlayer]) horderly (by simp)).1⟩

end Runs

/-! ## Registries that get out of order -/

section Breaks

/-- An add that takes the player in is a step, to a username that was asked for or is renamed. -/
theorem Consistent.exists_add (start : Game Client Player World) {world : World} {generated : ℕ}
    {state : Game Client Player World} (h : Consistent world generated state)
    (hgenerated : generated < 2 ^ 31 - 10)
    {player : Player} (hid : (state.player player).id = 0) {username : List Byte}
    (hname : 0 ∉ username) (hrename : (state.world world).players username ≠ none →
      state.standard = false ∧ ¬ RenameStuck (state.world world) username) :
    ∃ after name, (registry start world).step state (.addPlayer player username) =
        some (after, [(after.player player).id]) ∧
      Accepted (state.setUsername player username) after world player name ∧
      Consistent world (generated + 1) after ∧
      ((state.world world).players username = none → name = username) ∧
      ((state.world world).players username ≠ none →
        ∃ count, 1 ≤ count ∧ name = uniqueUsername username count) := by
  have hplayer : (state.player player).world ≠ some world := fun hin => h.ne_zero hin hid
  have hnamed := h.setUsername hplayer username
  have hworld : ((state.setUsername player username).player player).world ≠ some world := by
    simpa [Game.setUsername, Game.setPlayer] using hplayer
  have houtcome : AddOutcome (state.setUsername player username) world player username :=
    addOutcome hnamed hgenerated (by simpa [Game.setUsername, Game.setPlayer] using hid)
      (by simp [Game.setUsername, Game.setPlayer]) hname
  by_cases hfree : (state.world world).players username = none
  · obtain ⟨after, hadd, haccepted⟩ := houtcome.free hfree
    refine ⟨after, username, ?_, haccepted, hnamed.accept hgenerated hworld haccepted,
      fun _ => rfl, fun htaken => absurd hfree htaken⟩
    simp only [registry, registryStep, if_pos (And.intro hid hname), hadd, if_true]
  · obtain ⟨hstandard, hstuck⟩ := hrename hfree
    obtain ⟨after, count, hadd, hcount, haccepted⟩ := houtcome.renamed hfree hstandard hstuck
    refine ⟨after, _, ?_, haccepted, hnamed.accept hgenerated hworld haccepted,
      fun hnone => absurd hnone hfree, fun _ => ⟨count, hcount, rfl⟩⟩
    simp only [registry, registryStep, if_pos (And.intro hid hname), hadd, if_true]

/-- A username so long that not even a count of one digit fits behind it. -/
@[irreducible] def longUsername : List Byte := List.replicate 9000 0x61

private theorem zero_notMem_longUsername : 0 ∉ longUsername := by
  intro hzero
  unfold longUsername at hzero
  exact absurd (List.eq_of_mem_replicate hzero) (by decide)

theorem length_longUsername : longUsername.length = 9000 := by
  unfold longUsername
  exact List.length_replicate

/-- Three logins under the long username: the third does not come back. -/
theorem longUsername_endless :
    ∃ ids state, (registry freshGame ()).Run (fun _ _ => True) ids state ∧ ids.length = 2 ∧
      (state.player 2).id = 0 ∧
      worldAddPlayer (state.setUsername 2 longUsername) () 2 = .error .endless := by
  have hname := zero_notMem_longUsername
  have hpos : longUsername ≠ [] := by
    intro hnil
    simpa [hnil] using length_longUsername
  have hfresh : Consistent () 0 freshGame :=
    .initial rfl fun player => by simp [freshGame, createPlayer]
  -- the first takes the username
  obtain ⟨first, name, hstepFirst, hfirst, hconsistent, hsame, -⟩ :=
    hfresh.exists_add freshGame (by omega) (show (freshGame.player 0).id = 0 from rfl) hname
      fun htaken => absurd rfl htaken
  obtain rfl := hsame rfl
  have hone : first.player 1 = createPlayer () := hfirst.others_eq 1 (by decide)
  have htaken : (first.world ()).players longUsername = some 0 := by
    rw [hfirst.players_eq, Function.update_self]
  have hempty : (first.world ()).players [] = none := by
    rw [hfirst.players_eq, Function.update_of_ne hpos.symm]
    rfl
  -- the second is renamed to the empty string
  obtain ⟨second, name, hstepSecond, hsecond, hconsistent, -, hrenamed⟩ :=
    hconsistent.exists_add freshGame (by omega)
      (show (first.player 1).id = 0 by rw [hone]; rfl) hname
      fun _ => ⟨hfirst.standard_eq, fun hstuck => by simpa [hempty] using hstuck.2.1⟩
  have htaken' : (first.world ()).players longUsername ≠ none := by
    rw [htaken]
    exact Option.some_ne_none 0
  obtain ⟨count, hcount, hcandidate⟩ := hrenamed htaken'
  have hnotFits : ¬ Fits longUsername count := by
    unfold Fits
    rw [length_longUsername]
    omega
  rw [hcandidate, uniqueUsername_of_not_fits hname hnotFits] at hsecond
  have htwo : (second.player 2).id = 0 := by
    rw [hsecond.others_eq 2 (by decide)]
    rw [show (first.setUsername 1 longUsername).player 2 = first.player 2 from rfl,
      hfirst.others_eq 2 (by decide)]
    rfl
  have hplayers : (second.world ()).players =
      Function.update (first.world ()).players [] (some 1) := hsecond.players_eq
  have hrunFirst : (registry freshGame ()).Run (fun _ _ => True)
      ([] ++ [(first.player 0).id]) first :=
    .step .start trivial hstepFirst
  have hrunSecond : (registry freshGame ()).Run (fun _ _ => True)
      ([] ++ [(first.player 0).id] ++ [(second.player 1).id]) second :=
    .step hrunFirst trivial hstepSecond
  refine ⟨_, second, hrunSecond, rfl, htwo, ?_⟩
  -- for the third the empty string is taken too
  have hnamed := hconsistent.setUsername (fun hin => hconsistent.ne_zero hin htwo) longUsername
  have houtcome : AddOutcome (second.setUsername 2 longUsername) () 2 longUsername :=
    addOutcome hnamed (by omega) (by simpa [Game.setUsername, Game.setPlayer] using htwo)
      (by simp [Game.setUsername, Game.setPlayer]) hname
  apply houtcome.stuck
  · change (second.world ()).players longUsername ≠ none
    rw [hplayers, Function.update_of_ne hpos, htaken]
    simp
  · exact hsecond.standard_eq.trans hfirst.standard_eq
  · refine ⟨by rw [length_longUsername]; omega, ?_, ?_⟩
    · change ((second.world ()).players []).isSome = true
      rw [hplayers, Function.update_self]
      rfl
    · intro count hlow hhigh
      rw [length_longUsername] at hhigh
      omega

/-- A player that is removed twice, with another login under its username in between. -/
def removedTwice : List (RegistryAction ℕ) :=
  [.addPlayer 0 [0x61], .removePlayer 0, .addPlayer 1 [0x61], .removePlayer 0]

/-- **The registry can break**: a rename does not come to an end, and the entry of another player
is removed from the hash alone. -/
theorem registry_breaks :
    (∃ ids state, (registry freshGame ()).Run (fun _ _ => True) ids state ∧ ids.length = 2 ∧
      (state.player 2).id = 0 ∧
      worldAddPlayer (state.setUsername 2 longUsername) () 2 = .error .endless) ∧
    ∃ ids state, (registry freshGame ()).Run (fun _ _ => True) ids state ∧ ids.length = 2 ∧
      ¬ Bijection state () := by
  refine ⟨longUsername_endless, ?_⟩
  have hexec : ((registry freshGame ()).exec removedTwice freshGame).map (fun result =>
      (result.2, (result.1.world ()).entities 11, (result.1.player 1).username,
        (result.1.world ()).players [0x61])) =
      some ([10, 11], some 1, some [0x61], none) := by
    rfl
  obtain ⟨⟨state, ids⟩, hrun, hseen⟩ := Option.map_eq_some_iff.mp hexec
  simp only [Prod.mk.injEq] at hseen
  obtain ⟨rfl, hentity, husername, hkey⟩ := hseen
  refine ⟨_, state, System.Run.exec .start (System.execGuard_true _ _) hrun, rfl, ?_⟩
  intro hbijection
  have hregistered := hbijection.registered_of_entity 11 1 hentity
  have hvalue := (hbijection.username_iff 1 hregistered [0x61]).mpr husername
  rw [hkey] at hvalue
  cases hvalue

end Breaks

end Craftd.Survival
