import Craftd.Containers.SetAlgebra
import Craftd.Survival.World

/-!
# The chunks around a player

A translation of `cdsurvival_SendChunkRadius`, which sends a client the difference
between the chunks it has and the chunks around the player, and records the latter
in `Player.loadedChunks`.  Of what it sends only the `SVPreChunk` packets are kept;
the chunk data that `cdsurvival_SendChunk` sends after each of them is left out.

The sets hold pointers to positions that the callback allocates and, when it unloads
a chunk, frees.  A `Coord` is such a pointer together with what was stored through
it; `PlayerChunks.coords` says which of them are still allocated, and reading or
freeing another one has no outcome.

Coordinates are integers without a size: where one overflows, nothing is said.  The
products of `SV_HashChunkPosition` overflow much earlier, and what the machine makes
of them then is a parameter.

All sets here have 509 buckets, the size for the hint 400 and for the hint 509.
That is why `CD_SetMinus` is right here.
-/

namespace Craftd.Survival

open Containers

/-- An `int` operation whose result does not fit is up to the machine. -/
def fitInt (machine : ℤ → ℤ) (result : ℤ) : ℤ :=
  if -2 ^ 31 ≤ result ∧ result < 2 ^ 31 then result else machine result

/-- `SV_HashChunkPosition`; `%` rounds towards zero, and a negative remainder is
converted to an `unsigned int`. -/
def hashChunkPosition (machine : ℤ → ℤ) (position : SVChunkPosition) : BitVec 32 :=
  let multiplied := fitInt machine (fitInt machine (position.x * 31) * 31)
  let sum := fitInt machine (multiplied + position.z)
  BitVec.ofInt 32 ((fitInt machine (sum * 31)).tmod 401)

/-- A pointer to an allocated `SVChunkPosition`. -/
structure Coord where
  address : ℕ
  position : SVChunkPosition
  deriving DecidableEq

/-- `SV_CompareChunkPosition` and `SV_HashChunkPosition`. -/
def chunkMethods (machine : ℤ → ℤ) : CDSetMethods Coord where
  cmp := fun a b => a.position.x == b.position.x && a.position.z == b.position.z
  hash := fun coord => hashChunkPosition machine coord.position

/-- `SVPacketPreChunk`. -/
structure SVPacketPreChunk where
  position : SVChunkPosition
  mode : Bool
  deriving DecidableEq

/-- The dynamic property `Player.loadedChunks`, with the positions allocated and the
number of positions ever allocated. -/
structure PlayerChunks where
  loadedChunks : Option (CDSet Coord)
  coords : ℕ → Option SVChunkPosition
  allocated : ℕ

/-- What is read through a pointer: nothing when it was freed. -/
def PlayerChunks.read (self : PlayerChunks) (coord : Coord) : Option SVChunkPosition :=
  (self.coords coord.address).filter (· = coord.position)

/-- `CD_free` of a position. -/
def PlayerChunks.free (self : PlayerChunks) (coord : Coord) : Option PlayerChunks :=
  (self.read coord).map fun _ =>
    { self with coords := Function.update self.coords coord.address none }

/-- The `cmp` and the `hash` of a set read its members. -/
def PlayerChunks.readable (self : PlayerChunks) (set : CDSet Coord) : Option Unit := do
  let members ← setMembers set
  if members.all fun member => (self.read member.2).isSome then some () else none

/-- The values of a loop from `-radius` up to `radius`. -/
def radiusRange (radius : ℤ) : List ℤ :=
  (List.range (2 * radius).toNat).map fun i : ℕ => -radius + (i : ℤ)

/-- The positions that the two loops go through. -/
def radiusPositions (area : SVChunkPosition) (radius : ℤ) : List SVChunkPosition :=
  (radiusRange radius).flatMap fun x =>
    ((radiusRange radius).filter fun z => x * x + z * z ≤ radius * radius).map fun z =>
      ⟨x + area.x, z + area.z⟩

/-- The body of the two loops: allocate a position and put it. -/
def putPositions (machine : ℤ → ℤ) :
    List SVChunkPosition → PlayerChunks × CDSet Coord → Option (PlayerChunks × CDSet Coord)
  | [], state => some state
  | position :: rest, (self, newChunks) => do
      let newChunks ← setPut (chunkMethods machine) newChunks ⟨self.allocated, position⟩
      putPositions machine rest ({ self with
        coords := Function.update self.coords self.allocated (some position)
        allocated := self.allocated + 1 }, newChunks)

/-- `CD_SetMap` of `cdsurvival_ChunkRadiusUnload`. -/
def unloadChunks :
    List (ℕ × Coord) → PlayerChunks → Option (PlayerChunks × List SVPacketPreChunk)
  | [], self => some (self, [])
  | (_, coord) :: rest, self => do
      let position ← self.read coord
      let self ← self.free coord
      let (self, packets) ← unloadChunks rest self
      some (self, ⟨position, false⟩ :: packets)

/-- `CD_SetMap` of `cdsurvival_ChunkRadiusLoad`. -/
def loadChunks (self : PlayerChunks) : List (ℕ × Coord) → Option (List SVPacketPreChunk)
  | [] => some []
  | (_, coord) :: rest => do
      let position ← self.read coord
      let packets ← loadChunks self rest
      some (⟨position, true⟩ :: packets)

/-- `cdsurvival_SendChunkRadius`, with the packets it sends. -/
def sendChunkRadius (machine : ℤ → ℤ) (self : PlayerChunks) (area : SVChunkPosition)
    (radius : ℤ) : Option (PlayerChunks × List SVPacketPreChunk) := do
  let oldChunks := self.loadedChunks
  let newChunks ← createSetWith 400
  let (self, newChunks) ← putPositions machine (radiusPositions area radius) (self, newChunks)
  self.readable newChunks
  match oldChunks with
  | none => some ()
  | some oldChunks => self.readable oldChunks
  let toRemove ← setMinus (chunkMethods machine) oldChunks (some newChunks)
  let toAdd ← setMinus (chunkMethods machine) (some newChunks) oldChunks
  let (self, unloads) ← unloadChunks (← setMembers toRemove) self
  let loads ← loadChunks self (← setMembers toAdd)
  some ({ self with loadedChunks := some newChunks }, unloads ++ loads)

/-- The positions recorded in `Player.loadedChunks`. -/
def PlayerChunks.loaded (self : PlayerChunks) : Option (List SVChunkPosition) :=
  match self.loadedChunks with
  | none => some []
  | some set => (setMembers set).map fun members => members.map fun member => member.2.position

/-- What `Player.loadedChunks` may be when `cdsurvival_SendChunkRadius` is called:
absent, a set created empty as at login, or what an earlier call left. -/
inductive PlayerChunks.Left (machine : ℤ → ℤ) : PlayerChunks → Prop
  | absent {self : PlayerChunks} :
      self.loadedChunks = none →
      (∀ address, self.allocated ≤ address → self.coords address = none) → Left machine self
  | login {self : PlayerChunks} {empty : CDSet Coord} :
      createSetWith 400 = some empty → self.loadedChunks = some empty →
      (∀ address, self.allocated ≤ address → self.coords address = none) → Left machine self
  | sent {self next : PlayerChunks} {area : SVChunkPosition} {radius : ℤ}
      {packets : List SVPacketPreChunk} :
      Left machine self → sendChunkRadius machine self area radius = some (next, packets) →
      Left machine next

/-- The chunks around an area. -/
def InRadius (area : SVChunkPosition) (radius : ℤ) (position : SVChunkPosition) : Prop :=
  ∃ x z, -radius ≤ x ∧ x < radius ∧ -radius ≤ z ∧ z < radius ∧
    x * x + z * z ≤ radius * radius ∧ position = ⟨area.x + x, area.z + z⟩

/-! ## The positions of the loops -/

private theorem mem_radiusRange {radius x : ℤ} :
    x ∈ radiusRange radius ↔ -radius ≤ x ∧ x < radius := by
  rw [radiusRange, List.mem_map]
  constructor
  · intro ⟨i, hi, hx⟩
    rw [List.mem_range] at hi
    omega
  · intro ⟨hlow, hhigh⟩
    refine ⟨(x + radius).toNat, List.mem_range.mpr (by omega), by omega⟩

theorem nodup_radiusRange (radius : ℤ) : (radiusRange radius).Nodup := by
  refine List.nodup_range.map fun i j heq => ?_
  simpa using heq

theorem mem_radiusPositions {area : SVChunkPosition} {radius : ℤ} {position : SVChunkPosition} :
    position ∈ radiusPositions area radius ↔ InRadius area radius position := by
  simp only [radiusPositions, List.mem_flatMap, List.mem_map, List.mem_filter, mem_radiusRange,
    decide_eq_true_eq]
  constructor
  · intro ⟨x, hx, z, ⟨hz, hcircle⟩, heq⟩
    refine ⟨x, z, hx.1, hx.2, hz.1, hz.2, hcircle, ?_⟩
    rw [← heq, add_comm area.x, add_comm area.z]
  · intro ⟨x, z, hlowX, hhighX, hlowZ, hhighZ, hcircle, heq⟩
    refine ⟨x, ⟨hlowX, hhighX⟩, z, ⟨⟨hlowZ, hhighZ⟩, hcircle⟩, ?_⟩
    rw [heq, add_comm area.x, add_comm area.z]

theorem nodup_radiusPositions (area : SVChunkPosition) (radius : ℤ) :
    (radiusPositions area radius).Nodup := by
  apply List.nodup_flatMap.mpr
  refine ⟨fun x _ => ((nodup_radiusRange radius).filter _).map fun z z' heq => ?_, ?_⟩
  · simpa using (SVChunkPosition.mk.inj heq).2
  · refine (nodup_radiusRange radius).imp fun {x x'} hne => ?_
    intro position hfirst hsecond
    obtain ⟨z, -, rfl⟩ := List.mem_map.mp hfirst
    obtain ⟨z', -, heq⟩ := List.mem_map.mp hsecond
    have hx : x' + area.x = x + area.x := (SVChunkPosition.mk.inj heq).1
    exact hne (add_right_cancel hx).symm

/-! ## Pointers to positions -/

variable {machine : ℤ → ℤ} {self next : PlayerChunks}

theorem cmp_iff {a b : Coord} :
    (chunkMethods machine).cmp a b = true ↔ a.position = b.position := by
  obtain ⟨-, x, z⟩ := a
  obtain ⟨-, x', z'⟩ := b
  simp [chunkMethods]

theorem chunkMethods_lawful (machine : ℤ → ℤ) : (chunkMethods machine).Lawful where
  refl _ := cmp_iff.mpr rfl
  symm _ _ hcmp := cmp_iff.mpr (cmp_iff.mp hcmp).symm
  trans _ _ _ hfirst hsecond := cmp_iff.mpr ((cmp_iff.mp hfirst).trans (cmp_iff.mp hsecond))
  hash _ _ hcmp := congrArg (hashChunkPosition machine) (cmp_iff.mp hcmp)

/-- The positions of pointers in a set. -/
theorem holds_iff {values : List Coord} {coord : Coord} :
    Holds (chunkMethods machine) values coord ↔ coord.position ∈ values.map Coord.position := by
  rw [Holds, List.mem_map]
  exact exists_congr fun other => and_congr_right fun _ => cmp_iff.trans eq_comm

private theorem nodup_of_apart {values : List Coord}
    (hapart : Apart (chunkMethods machine) values) :
    (values.map Coord.position).Nodup := by
  refine List.pairwise_map.mpr (hapart.imp fun {a b} hne heq => ?_)
  rw [cmp_iff.mpr heq] at hne
  cases hne

/-- The pointer may be followed. -/
def PlayerChunks.Live (self : PlayerChunks) (coord : Coord) : Prop :=
  self.coords coord.address = some coord.position

theorem PlayerChunks.Live.read {coord : Coord} (hlive : self.Live coord) :
    self.read coord = some coord.position := by
  rw [PlayerChunks.read, hlive]
  simp

/-- A set of 509 buckets that holds the pointers, all of which may be followed. -/
structure Recorded (machine : ℤ → ℤ) (player : PlayerChunks) (set : CDSet Coord)
    (values : List Coord) : Prop where
  represents : Represents (chunkMethods machine) set values
  size : set.size = 509
  live : ∀ coord ∈ values, player.Live coord

/-- What is kept from one call to the next. -/
structure PlayerChunks.Sound (machine : ℤ → ℤ) (player : PlayerChunks) : Prop where
  fresh : ∀ address, player.allocated ≤ address → player.coords address = none
  recorded : ∀ set, player.loadedChunks = some set → ∃ values, Recorded machine player set values

theorem Recorded.readable {set : CDSet Coord} {values : List Coord}
    (hset : Recorded machine self set values) : self.readable set = some () := by
  obtain ⟨members, hmembers, hperm, -⟩ := hset.represents.setMembers
  have hall : (members.all fun member => (self.read member.2).isSome) = true := by
    apply List.all_eq_true.mpr
    intro member hmem
    have hlive := hset.live member.2 (hperm.subset (List.mem_map_of_mem hmem))
    rw [hlive.read]
    rfl
  simp [PlayerChunks.readable, hmembers, hall]

/-- The size for the hint 400, which is also the size for the hint 509. -/
theorem sizeFor_radius : sizeFor 400 = 509 ∧ sizeFor (.ofNat 32 509) = 509 := by decide

/-- **Putting the positions** of the loops: each gets a pointer of its own. -/
theorem putPositions_spec {positions : List SVChunkPosition} {set : CDSet Coord}
    {values : List Coord} (hset : Recorded machine self set values)
    (hfresh : ∀ address, self.allocated ≤ address → self.coords address = none)
    (hnodup : (positions ++ values.map Coord.position).Nodup) :
    ∃ next newSet newValues, putPositions machine positions (self, set) = some (next, newSet) ∧
      Recorded machine next newSet newValues ∧
      (newValues.map Coord.position).Perm (positions ++ values.map Coord.position) ∧
      (∀ address, next.allocated ≤ address → next.coords address = none) ∧
      (∀ coord, self.Live coord → next.Live coord) ∧ next.loadedChunks = self.loadedChunks := by
  induction positions generalizing self set values with
  | nil => exact ⟨self, set, values, rfl, hset, .refl _, hfresh, fun _ hlive => hlive, rfl⟩
  | cons position rest ih =>
      let coord : Coord := ⟨self.allocated, position⟩
      obtain ⟨hposition, hrest⟩ := List.nodup_cons.mp hnodup
      -- no pointer in the set has the position yet
      have hnew : values.find? ((chunkMethods machine).cmp coord) = none := by
        apply List.find?_eq_none.mpr
        intro other hmem hcmp
        apply hposition
        apply List.mem_append_right
        have heq : position = other.position := cmp_iff.mp hcmp
        rw [heq]
        exact List.mem_map_of_mem hmem
      obtain ⟨newSet, hput, hnewSet, hsize⟩ :=
        hset.represents.put_new (chunkMethods_lawful machine) hnew
      -- what was live is not at the address that is handed out now
      have hkept : ∀ other, self.Live other → PlayerChunks.Live { self with
          coords := Function.update self.coords self.allocated (some position)
          allocated := self.allocated + 1 } other := by
        intro other hlive
        have hne : other.address ≠ self.allocated := by
          intro heq
          rw [PlayerChunks.Live, hfresh _ heq.ge] at hlive
          cases hlive
        exact (Function.update_of_ne hne _ _).trans hlive
      have hrecorded : Recorded machine { self with
          coords := Function.update self.coords self.allocated (some position)
          allocated := self.allocated + 1 } newSet (coord :: values) := by
        refine ⟨hnewSet, hsize.trans hset.size, fun other hmem => ?_⟩
        rcases List.mem_cons.mp hmem with rfl | hold
        · exact Function.update_self _ _ _
        · exact hkept other (hset.live other hold)
      obtain ⟨next, lastSet, lastValues, hputs, hlast, hperm, hlastFresh, hlive, hloaded⟩ :=
        ih hrecorded
          (fun address haddress => (Function.update_of_ne (Nat.ne_of_gt haddress) _ _).trans
            (hfresh address (Nat.le_of_succ_le haddress)))
          (List.perm_middle.nodup_iff.mpr hnodup)
      refine ⟨next, lastSet, lastValues, ?_, hlast, hperm.trans List.perm_middle, hlastFresh,
        fun other hother => hlive other (hkept other hother), hloaded⟩
      simp only [putPositions, Option.bind_eq_bind]
      rw [show setPut (chunkMethods machine) set ⟨self.allocated, position⟩ = some newSet from hput]
      exact hputs

/-! ## The differences -/

private theorem positions_of_correct {outcome : Option (CDSet Coord)} {sources : List Coord}
    {wanted : SVChunkPosition → Prop}
    (hcorrect : Correct (chunkMethods machine) outcome sources fun coord =>
      wanted coord.position) :
    ∃ result members, outcome = some result ∧ setMembers result = some members ∧
      (∀ member ∈ members, member.2 ∈ sources) ∧
      (members.map fun member => member.2.position).Nodup ∧
      ∀ position, position ∈ members.map (fun member => member.2.position) ↔ wanted position := by
  obtain ⟨result, members, heq, hmembers, hsources, hapart, hwanted, -⟩ := hcorrect
  have hpositions : (members.map fun member => member.2.position) =
      (members.map Prod.snd).map Coord.position := by
    rw [List.map_map]
    rfl
  refine ⟨result, members, heq, hmembers, hsources, ?_, fun position => ?_⟩
  · rw [hpositions]
    exact nodup_of_apart hapart
  · rw [hpositions]
    exact holds_iff.symm.trans (hwanted ⟨0, position⟩).symm

theorem minus_recorded {a b : CDSet Coord} {as bs : List Coord} (ha : Recorded machine self a as)
    (hb : Recorded machine next b bs) :
    Correct (chunkMethods machine) (setMinus (chunkMethods machine) (some a) (some b)) as
      fun coord => coord.position ∈ as.map Coord.position ∧
        coord.position ∉ bs.map Coord.position := by
  have hsize : min a.size b.size = 509 := by
    rw [ha.size, hb.size, min_self]
  have hminus := (setMinus_correct_iff (chunkMethods_lawful machine) ha.represents hb.represents
    (by rw [hsize]; decide)).mpr fun value _ _ => by
      rw [SameBucket, hsize, ha.size, sizeFor_radius.2]
  simpa only [holds_iff] using hminus

/-- `CD_SetMinus` without a second set clones the first one. -/
theorem minus_absent {a : CDSet Coord} {as : List Coord} (ha : Recorded machine self a as) :
    Correct (chunkMethods machine) (setMinus (chunkMethods machine) (some a) none) as
      fun coord => coord.position ∈ as.map Coord.position := by
  have hclone := (cloneSet_correct_iff (chunkMethods_lawful machine) ha.represents
    (.ofNat 32 509)).mpr ⟨by decide, fun value _ => by
      rw [SameBucket, ha.size, sizeFor_radius.2]⟩
  have hwanted : (fun coord : Coord => coord.position ∈ as.map Coord.position) =
      Holds (chunkMethods machine) as := by
    funext coord
    exact propext holds_iff.symm
  rw [setMinus, ha.size, hwanted]
  exact hclone

/-- `CD_SetMinus` without a first set is empty. -/
theorem absent_minus {b : CDSet Coord} {bs : List Coord} (hb : Recorded machine self b bs) :
    ∃ result, setMinus (chunkMethods machine) none (some b) = some result ∧
      setMembers result = some [] := by
  have hhint : ¬(BitVec.ofNat 32 509).slt 0 := by decide
  obtain ⟨empty, hcreate, -, hempty⟩ := exists_createSetWith (chunkMethods machine) hhint
  obtain ⟨members, hmembers, hperm, -⟩ := hempty.setMembers
  obtain rfl := List.map_eq_nil_iff.mp hperm.eq_nil
  exact ⟨empty, by rw [setMinus, hb.size, hcreate], hmembers⟩

/-- Unloading chunks frees their positions only. -/
theorem unloadChunks_spec {members : List (ℕ × Coord)}
    (hnodup : (members.map fun member => member.2.position).Nodup)
    (hlive : ∀ member ∈ members, self.Live member.2) :
    ∃ next, unloadChunks members self =
        some (next, members.map fun member => ⟨member.2.position, false⟩) ∧
      next.allocated = self.allocated ∧ next.loadedChunks = self.loadedChunks ∧
      (∀ address, self.coords address = none → next.coords address = none) ∧
      ∀ coord, self.Live coord → coord.position ∉ members.map (fun member => member.2.position) →
        next.Live coord := by
  induction members generalizing self with
  | nil => exact ⟨self, rfl, rfl, rfl, fun _ hnone => hnone, fun _ hlive _ => hlive⟩
  | cons member rest ih =>
      obtain ⟨i, coord⟩ := member
      obtain ⟨hcoord, hrest⟩ := List.nodup_cons.mp hnodup
      have hthis := hlive (i, coord) (.head _)
      -- another position lies at another address
      have hkept : ∀ other, self.Live other → other.position ≠ coord.position →
          PlayerChunks.Live { self with
            coords := Function.update self.coords coord.address none } other := by
        intro other hother hne
        refine (Function.update_of_ne (fun heq => hne ?_) _ _).trans hother
        rw [PlayerChunks.Live, heq, hthis] at hother
        exact (Option.some.inj hother).symm
      obtain ⟨next, hunload, hallocated, hloaded, hfreed, hlast⟩ := ih hrest
        (fun member hmem => hkept _ (hlive member (.tail _ hmem)) fun heq =>
          hcoord (List.mem_map.mpr ⟨member, hmem, heq⟩))
      refine ⟨next, ?_, hallocated, hloaded, fun address hnone => hfreed address ?_,
        fun other hother hnot => ?_⟩
      · simp only [unloadChunks, hthis.read, PlayerChunks.free, Option.map_some,
          Option.bind_eq_bind, Option.bind_some, hunload, List.map_cons]
      · by_cases haddress : address = coord.address
        · rw [haddress]
          exact Function.update_self _ _ _
        · exact (Function.update_of_ne haddress _ _).trans hnone
      · rw [List.map_cons, List.mem_cons, not_or] at hnot
        exact hlast other (hkept other hother hnot.1) hnot.2

/-- Loading chunks sends one packet for each. -/
theorem loadChunks_spec {members : List (ℕ × Coord)}
    (hlive : ∀ member ∈ members, self.Live member.2) :
    loadChunks self members = some (members.map fun member => ⟨member.2.position, true⟩) := by
  induction members with
  | nil => rfl
  | cons member rest ih =>
      obtain ⟨i, coord⟩ := member
      have hthis := hlive (i, coord) (.head _)
      have hrest := ih fun member hmem => hlive member (.tail _ hmem)
      simp only [loadChunks, hthis.read, hrest, Option.bind_eq_bind, Option.bind_some,
        List.map_cons]

/-! ## One call -/

/-- A difference, as the members that the callbacks go through. -/
structure Difference (player : PlayerChunks) (outcome : Option (CDSet Coord))
    (members : List (ℕ × Coord)) (wanted : SVChunkPosition → Prop) : Prop where
  met : outcome.bind setMembers = some members
  nodup : (members.map fun member => member.2.position).Nodup
  live : ∀ member ∈ members, player.Live member.2
  mem : ∀ position, position ∈ members.map (fun member => member.2.position) ↔ wanted position

theorem exists_difference (wanted : SVChunkPosition → Prop) {outcome : Option (CDSet Coord)}
    {sources : List Coord}
    (hcorrect : Correct (chunkMethods machine) outcome sources fun coord => wanted coord.position)
    (hlive : ∀ coord ∈ sources, self.Live coord) :
    ∃ members, Difference self outcome members wanted ∧
      ∀ member ∈ members, member.2 ∈ sources := by
  obtain ⟨result, members, rfl, hmembers, hsources, hnodup, hmem⟩ := positions_of_correct hcorrect
  exact ⟨members, ⟨hmembers, hnodup, fun member hmember => hlive _ (hsources member hmember),
    hmem⟩, hsources⟩

private theorem exists_differences (hsound : self.Sound machine)
    (hkept : ∀ coord, self.Live coord → next.Live coord) {newSet : CDSet Coord}
    {newValues : List Coord} (hnew : Recorded machine next newSet newValues) :
    ∃ old removed added, self.loaded = some old ∧
      (∀ set, self.loadedChunks = some set → next.readable set = some ()) ∧
      Difference next (setMinus (chunkMethods machine) self.loadedChunks (some newSet)) removed
        (fun position => position ∈ old ∧ position ∉ newValues.map Coord.position) ∧
      Difference next (setMinus (chunkMethods machine) (some newSet) self.loadedChunks) added
        (fun position => position ∈ newValues.map Coord.position ∧ position ∉ old) ∧
      ∀ member ∈ added, member.2 ∈ newValues := by
  cases hset : self.loadedChunks with
  | none =>
      -- nothing is recorded yet: all new chunks are added
      obtain ⟨result, hminus, hmembers⟩ := absent_minus hnew
      obtain ⟨added, hadded, hsources⟩ :=
        exists_difference (· ∈ newValues.map Coord.position) (minus_absent hnew) hnew.live
      refine ⟨[], [], added, by rw [PlayerChunks.loaded, hset], nofun, ?_, ?_, hsources⟩
      · refine ⟨by rw [hminus, Option.bind_some, hmembers], List.nodup_nil, nofun, ?_⟩
        simp
      · refine ⟨hadded.met, hadded.nodup, hadded.live, fun position => ?_⟩
        rw [hadded.mem]
        simp
  | some set =>
      -- a set is recorded: both differences are taken by position
      obtain ⟨values, hset'⟩ := hsound.recorded set hset
      have hold : Recorded machine next set values :=
        ⟨hset'.represents, hset'.size, fun coord hmem => hkept coord (hset'.live coord hmem)⟩
      obtain ⟨members, hmembers, hperm, -⟩ := hold.represents.setMembers
      have hpositions : ∀ position, position ∈ members.map (fun member => member.2.position) ↔
          position ∈ values.map Coord.position := by
        intro position
        rw [← (hperm.map Coord.position).mem_iff, List.map_map]
        rfl
      obtain ⟨removed, hremoved, -⟩ := exists_difference (fun position =>
        position ∈ values.map Coord.position ∧ position ∉ newValues.map Coord.position)
        (minus_recorded hold hnew) hold.live
      obtain ⟨added, hadded, hsources⟩ := exists_difference (fun position =>
        position ∈ newValues.map Coord.position ∧ position ∉ values.map Coord.position)
        (minus_recorded hnew hold) hnew.live
      refine ⟨members.map fun member => member.2.position, removed, added, ?_, ?_, ?_, ?_, hsources⟩
      · rw [PlayerChunks.loaded, hset]
        simp [hmembers]
      · intro other heq
        obtain rfl := Option.some.inj heq
        exact hold.readable
      · refine ⟨hremoved.met, hremoved.nodup, hremoved.live, fun position => ?_⟩
        rw [hremoved.mem, hpositions]
      · refine ⟨hadded.met, hadded.nodup, hadded.live, fun position => ?_⟩
        rw [hadded.mem, hpositions]

/-- What a call leaves behind. -/
structure Sends (machine : ℤ → ℤ) (player : PlayerChunks) (area : SVChunkPosition) (radius : ℤ)
    (old removed added now : List SVChunkPosition) (after : PlayerChunks) : Prop where
  outcome : sendChunkRadius machine player area radius = some (after,
    removed.map (fun position => ⟨position, false⟩) ++
      added.map fun position => ⟨position, true⟩)
  loaded : player.loaded = some old
  nodup_removed : removed.Nodup
  mem_removed : ∀ position, position ∈ removed ↔ position ∈ old ∧ ¬InRadius area radius position
  nodup_added : added.Nodup
  mem_added : ∀ position, position ∈ added ↔ InRadius area radius position ∧ position ∉ old
  loaded_after : after.loaded = some now
  nodup_now : now.Nodup
  mem_now : ∀ position, position ∈ now ↔ InRadius area radius position
  sound : after.Sound machine

/-- **One call** sends the difference and records the new chunks. -/
theorem sendChunkRadius_sends (hsound : self.Sound machine) (area : SVChunkPosition)
    (radius : ℤ) :
    ∃ old removed added now after, Sends machine self area radius old removed added now after := by
  have hhint : ¬(400 : BitVec 32).slt 0 := by decide
  obtain ⟨empty, hcreate, hsize, hempty⟩ := exists_createSetWith (chunkMethods machine) hhint
  have hrecorded : Recorded machine self empty [] := ⟨hempty, hsize.trans sizeFor_radius.1, nofun⟩
  have hnodup : (radiusPositions area radius ++ ([] : List Coord).map Coord.position).Nodup := by
    simpa using nodup_radiusPositions area radius
  obtain ⟨put, newSet, newValues, hputs, hnew, hperm, hfresh, hkept, hloaded⟩ :=
    putPositions_spec hrecorded hsound.fresh hnodup
  rw [List.map_nil, List.append_nil] at hperm
  have hradius : ∀ position, position ∈ newValues.map Coord.position ↔
      InRadius area radius position := fun position =>
    hperm.mem_iff.trans mem_radiusPositions
  obtain ⟨old, removed, added, hold, hreadable, hremoved, hadded, hsources⟩ :=
    exists_differences hsound hkept hnew
  obtain ⟨unloaded, hunload, hallocated, hunloadedChunks, hfreed, hlive⟩ :=
    unloadChunks_spec hremoved.nodup hremoved.live
  -- the chunks around the player are not among those that were freed
  have hnewLive : ∀ coord ∈ newValues, unloaded.Live coord := by
    intro coord hmem
    apply hlive coord (hnew.live coord hmem)
    rw [hremoved.mem]
    exact fun hboth => hboth.2 (List.mem_map_of_mem hmem)
  have hload := loadChunks_spec fun member hmem => hnewLive _ (hsources member hmem)
  obtain ⟨toRemove, hminusRemoved, hmembersRemoved⟩ := Option.bind_eq_some_iff.mp hremoved.met
  obtain ⟨toAdd, hminusAdded, hmembersAdded⟩ := Option.bind_eq_some_iff.mp hadded.met
  obtain ⟨members, hmembers, hmembersPerm, -⟩ := hnew.represents.setMembers
  have hnow : (members.map fun member => member.2.position).Perm
      (radiusPositions area radius) := by
    have hmap := (hmembersPerm.map Coord.position).trans hperm
    rwa [List.map_map] at hmap
  refine ⟨old, removed.map fun member => member.2.position,
    added.map fun member => member.2.position, members.map fun member => member.2.position,
    { unloaded with loadedChunks := some newSet }, ?_⟩
  refine ⟨?_, hold, hremoved.nodup, fun position => ?_, hadded.nodup, fun position => ?_, ?_,
    hnow.nodup_iff.mpr (nodup_radiusPositions area radius), fun position => ?_, ?_⟩
  · simp only [sendChunkRadius, hcreate, hputs, hnew.readable, hminusRemoved, hminusAdded,
      hmembersRemoved, hmembersAdded, hunload, hload, Option.bind_eq_bind, Option.bind_some,
      List.map_map]
    cases hset : self.loadedChunks with
    | none => rfl
    | some set =>
        simp only [hreadable set hset, Option.bind_some]
        rfl
  · rw [hremoved.mem, hradius]
  · rw [hadded.mem, hradius]
  · simp [PlayerChunks.loaded, hmembers]
  · exact hnow.mem_iff.trans mem_radiusPositions
  · refine ⟨fun address haddress => hfreed address (hfresh address (hallocated ▸ haddress)),
      fun set heq => ?_⟩
    obtain rfl := Option.some.inj heq
    exact ⟨newValues, hnew.represents, hnew.size, hnewLive⟩

/-- What is kept from call to call holds whatever the property was. -/
theorem sound_of_left (hleft : PlayerChunks.Left machine self) : self.Sound machine := by
  induction hleft with
  | absent hnone hfresh => exact ⟨hfresh, fun set heq => by rw [hnone] at heq; cases heq⟩
  | login hcreate hset hfresh =>
      refine ⟨hfresh, fun set heq => ?_⟩
      obtain rfl := Option.some.inj (hset.symm.trans heq)
      have hhint : ¬(400 : BitVec 32).slt 0 := by decide
      obtain ⟨empty, hempty, hsize, hrep⟩ := exists_createSetWith (chunkMethods machine) hhint
      obtain rfl := Option.some.inj (hcreate.symm.trans hempty)
      exact ⟨[], hrep, hsize.trans sizeFor_radius.1, nofun⟩
  | sent _ hsent ih =>
      obtain ⟨old, removed, added, now, after, hsends⟩ := sendChunkRadius_sends ih _ _
      obtain ⟨rfl, -⟩ := Prod.mk.inj (Option.some.inj (hsends.outcome.symm.trans hsent))
      exact hsends.sound

/-- **A move sends exactly the chunk difference**, for every player whose
`Player.loadedChunks` is absent, was created empty as at login or was left by an
earlier call, for every area and every radius: an unload for each chunk recorded that
is not around the area, a load for each chunk around the area that was not recorded,
each once, and the chunks around the area are recorded. -/
theorem chunk_difference_sent (hleft : PlayerChunks.Left machine self) (area : SVChunkPosition)
    (radius : ℤ) :
    ∃ (old removed added now : List SVChunkPosition) (after : PlayerChunks),
      self.loaded = some old ∧
      sendChunkRadius machine self area radius = some (after,
        removed.map (fun position => ⟨position, false⟩) ++
          added.map fun position => ⟨position, true⟩) ∧
      (removed.Nodup ∧ ∀ position, position ∈ removed ↔
        position ∈ old ∧ ¬InRadius area radius position) ∧
      (added.Nodup ∧ ∀ position, position ∈ added ↔
        InRadius area radius position ∧ position ∉ old) ∧
      after.loaded = some now ∧ now.Nodup ∧
      ∀ position, position ∈ now ↔ InRadius area radius position := by
  obtain ⟨old, removed, added, now, after, hsends⟩ :=
    sendChunkRadius_sends (sound_of_left hleft) area radius
  exact ⟨old, removed, added, now, after, hsends.loaded, hsends.outcome,
    ⟨hsends.nodup_removed, hsends.mem_removed⟩, ⟨hsends.nodup_added, hsends.mem_added⟩,
    hsends.loaded_after, hsends.nodup_now, hsends.mem_now⟩

/-- A player who has just logged in. -/
def loggedIn : PlayerChunks where
  loadedChunks := createSetWith 400
  coords := fun _ => none
  allocated := 0

/-- The second of two moves by one chunk. -/
theorem chunk_difference_sent_twice :
    ∃ (after : PlayerChunks) (packets : List SVPacketPreChunk) (old removed : List SVChunkPosition),
      sendChunkRadius id loggedIn ⟨0, 0⟩ 10 = some (after, packets) ∧ after.loaded = some old ∧
      ∀ position, position ∈ removed ↔ position ∈ old ∧ ¬InRadius ⟨1, 0⟩ 10 position := by
  have hempty : PlayerChunks.Left id loggedIn := .login rfl rfl fun _ _ => rfl
  obtain ⟨-, removed, added, now, after, -, hsent, -, -, hloaded, -⟩ :=
    chunk_difference_sent hempty ⟨0, 0⟩ 10
  obtain ⟨old, removed', -, -, -, hold, -, ⟨-, hremoved⟩, -⟩ :=
    chunk_difference_sent (.sent hempty hsent) ⟨1, 0⟩ 10
  exact ⟨after, _, old, removed', hsent, hold, hremoved⟩

end Craftd.Survival
