import Craftd.Survival.Chunk
import Mathlib.Data.List.FinRange
import Mathlib.Data.List.ProdSigma
import Mathlib.Data.Rat.Floor

/-!
# The classic map generator

A translation of `helpers.c` and of `cdclassic_GenerateChunk`.  Each pass goes through the
columns of a chunk, and what it does to a column depends on that column and on the noise.
The values of the noise are arbitrary (`Noise`).

A pass is described by what it makes of one column (`Land`, `Topped`):

```text
fill        a dry column of stone up to its height
caves       digs below the height, then lowers it onto the first block
erosion     the same from level 65 on
minerals    one block for another
sediments   lays blocks on top and raises the height by as many
flood       replaces air by water from level 64 downwards
bedrock     one block for another
sky light   the nibbles from the height on
```

The blocks below level 16 are never air, so every loop that goes down ends above them.
-/

namespace Craftd.Survival

open LocalTriple

/-- What the noise functions and the arithmetic on their results give in one chunk: the byte
stored as a height, the `result` of a block in the two digging passes, and `snoise4` for a
block and a mineral. -/
structure Noise where
  height : Place → Byte
  cave : Place → ℕ → ℚ
  erosion : Place → ℕ → ℚ
  mineral : Place → ℕ → Byte → ℚ

/-! ## The passes -/

/-- The columns in the order of the two loops around each pass. -/
def places : List Place := List.finRange 16 ×ˢ List.finRange 16

/-- A pass. -/
def forColumns (pass : Place → SVChunk → Option SVChunk) (chunk : SVChunk) : Option SVChunk :=
  places.foldlM (fun chunk place => pass place chunk) chunk

variable (noise : Noise) (place : Place)

/-- The column of `cdclassic_GenerateHeightMap`. -/
def generateHeight (chunk : SVChunk) : Option SVChunk :=
  chunk.writeHeight place (noise.height place).toNat

/-- The column of `cdclassic_GenerateFilledChunk`. -/
def fillColumn (blockType : Byte) (chunk : SVChunk) : Option SVChunk := do
  let height ← chunk.readHeight place
  (List.range (min height 128)).foldlM (fun chunk (y : ℕ) => chunk.writeBlock place y blockType)
    chunk

/-- The loop that updates the height map, from `y` on. -/
def lowerHeight : ℕ → SVChunk → Option SVChunk
  | 0, chunk => some chunk
  | y + 1, chunk => do
      let type ← chunk.readBlock place (y + 1 : ℕ)
      if type = air then do
        let chunk ← chunk.writeHeight place (y + 1 : ℕ)
        lowerHeight y chunk
      else some chunk

/-- The column of `cdclassic_DigCaves`. -/
def digColumn (chunk : SVChunk) : Option SVChunk := do
  let chunk ← (List.range 54).foldlM (fun chunk (y : ℕ) =>
    if 0.35 < noise.cave place y then chunk.writeBlock place y (if y < 16 then lava else air)
    else some chunk) chunk
  let height ← chunk.readHeight place
  let chunk ← (List.range' 54 (height - 4 - 54)).foldlM (fun chunk (y : ℕ) =>
    if 0.45 < noise.cave place y then chunk.writeBlock place y air else some chunk) chunk
  lowerHeight place height chunk

/-- The column of `cdclassic_ErodeLandscape`. -/
def erodeColumn (chunk : SVChunk) : Option SVChunk := do
  let height ← chunk.readHeight place
  let chunk ← (List.range' 65 (height - 65)).foldlM (fun chunk (y : ℕ) =>
    if 0.50 < noise.erosion place y then chunk.writeBlock place y air else some chunk) chunk
  lowerHeight place height chunk

/-- `cdclassic_AddMineral`. -/
def addMineral (y : ℕ) (chunk : SVChunk) (mineral : Byte × ℚ) : Option SVChunk :=
  let (blockType, probability) := mineral
  if noise.mineral place y blockType + 1 ≤ 0.25 * probability then
    chunk.writeBlock place y blockType
  else some chunk

/-- The minerals that are tried for a block, with their probabilities. -/
def minerals (height y : ℕ) : List (Byte × ℚ) :=
  [(coalOre, 1.3), (dirt, 2.5), (gravel, 2.5)] ++
    (if y + 5 < height then [(ironOre, 1.15)] else []) ++
    (if y < 40 then [(lapisLazuliOre, 0.80), (goldOre, 0.85)] else []) ++
    if y < 20 then [(diamondOre, 0.80), (redstoneOre, 1.2)] else []

/-- The column of `cdclassic_AddMinerals`. -/
def mineralColumn (chunk : SVChunk) : Option SVChunk := do
  let height ← chunk.readHeight place
  (List.range' 2 (height - 2)).foldlM (fun chunk (y : ℕ) => do
    let type ← chunk.readBlock place y
    if type = air then some chunk
    else (minerals height y).foldlM (addMineral noise place y) chunk) chunk

/-- The loop that lays the dirt, with the sediment height that it leaves. -/
def layDirt (y i sedimentHeight : ℤ) (chunk : SVChunk) : Option (SVChunk × ℤ) :=
  if i < sedimentHeight - 1 then do
    let chunk ← chunk.writeBlock place (y + i) dirt
    layDirt y (i + 1) (sedimentHeight - 1) chunk
  else some (chunk, sedimentHeight)
termination_by (sedimentHeight - i).toNat

/-- The column of `cdclassic_AddSediments`. -/
def sedimentColumn (chunk : SVChunk) : Option SVChunk := do
  let y ← chunk.readHeight place
  let sedimentHeight : ℤ := (128 - y : ℤ).tdiv 21
  if y < 64 then do
    let chunk ← (List.range sedimentHeight.toNat).foldlM (fun chunk (i : ℕ) =>
      chunk.writeBlock place (y + i) sand) chunk
    chunk.writeHeight place (y + sedimentHeight)
  else if 0 < sedimentHeight then do
    let (chunk, sedimentHeight) ← layDirt place y 0 sedimentHeight chunk
    let chunk ← chunk.writeBlock place (y + sedimentHeight - 1) grass
    chunk.writeHeight place (y + sedimentHeight)
  else chunk.writeHeight place (y + sedimentHeight)

/-- The loop of `cdclassic_FloodWithWater` over a column, for a number of rounds. -/
def floodColumn : ℕ → ℤ → SVChunk → Option SVChunk
  | 0, _, _ => none
  | rounds + 1, y, chunk => do
      let type ← chunk.readBlock place y
      if type = air then do
        let chunk ← chunk.writeBlock place y water
        floodColumn rounds (y - 1) chunk
      else some chunk

/-- The column of `cdclassic_BedrockGround`. -/
def bedrockColumn (chunk : SVChunk) : Option SVChunk := do
  let chunk ← chunk.writeBlock place (0 : ℕ) bedrock
  let chunk ← chunk.writeBlock place (1 : ℕ) bedrock
  let height ← chunk.readHeight place
  chunk.writeHeight place (max height 2 : ℕ)

/-- The column of `cdclassic_GenerateSkyLight`. -/
def skyLightColumn (chunk : SVChunk) : Option SVChunk := do
  let height ← chunk.readHeight place
  (List.range' height (128 - height)).foldlM (fun chunk (y : ℕ) =>
    chunk.orSkyLight place y (if y % 2 = 1 then 0xF0 else 0x0F)) chunk

/-- A chunk after the `memset`. -/
def blankChunk : SVChunk where
  heightMap := fun _ => 0
  blocks := fun _ => 0
  data := fun _ => 0
  blockLight := fun _ => 0
  skyLight := fun _ => 0

/-- `cdclassic_GenerateChunk`, where a flood takes at most so many rounds. -/
def generateChunk (rounds : ℕ) : Option SVChunk := do
  let chunk ← forColumns (generateHeight noise) blankChunk
  let chunk ← forColumns (fillColumn · stone) chunk
  let chunk ← forColumns (digColumn noise) chunk
  let chunk ← forColumns (erodeColumn noise) chunk
  let chunk ← forColumns (mineralColumn noise) chunk
  let chunk ← forColumns sedimentColumn chunk
  let chunk ← forColumns (floodColumn · rounds 64) chunk
  let chunk ← forColumns bedrockColumn chunk
  forColumns skyLightColumn chunk

/-! ## What a column looks like between the passes -/

/-- A column whose height lies between 16 and 127, with `laid` blocks on top that the height
does not count yet: no air below level 16 nor in what is laid, nothing but `above` over it, and no
light. -/
structure Land (laid : ℕ) (above : Byte → Prop) (column : Column) : Prop where
  low : 16 ≤ column.height
  high : column.height + laid ≤ 127
  floor : ∀ y < 16, column.block y ≠ air
  solid : ∀ y, column.height ≤ y → y < column.height + laid → column.block y ≠ air
  above : ∀ y, column.height + laid ≤ y → y < 128 → above (column.block y)
  dark : ∀ k, column.light k = 0

/-- The block just below the height is not air. -/
def Topped (column : Column) : Prop := column.block (column.height - 1) ≠ air

/-- Nothing but air over the land. -/
abbrev Dry (laid : ℕ) (column : Column) : Prop := Land laid (· = air) column

/-- Air or water over the land. -/
abbrev Wet (column : Column) : Prop := Land 0 (fun type => type = air ∨ type = water) column

/-- A column with another block. -/
def Column.setBlock (self : Column) (y : ℕ) (type : Byte) : Column :=
  { self with block := Function.update self.block y type }

/-- A column with another height. -/
def Column.setHeight (self : Column) (height : ℕ) : Column := { self with height := height }

variable {noise : Noise} {place : Place} {laid y : ℕ} {above : Byte → Prop} {column : Column}
  {type : Byte}

@[simp] theorem Column.setBlock_height : (column.setBlock y type).height = column.height := rfl

@[simp] theorem Column.setBlock_light : (column.setBlock y type).light = column.light := rfl

theorem Column.setBlock_block (y' : ℕ) :
    (column.setBlock y type).block y' = if y' = y then type else column.block y' :=
  Function.update_apply ..

/-- A block that keeps the land: nothing is dug below level 16 or out of what is laid, and over
the land comes what may be there. -/
theorem Land.setBlock (hland : Land laid above column)
    (hair : type = air → 16 ≤ y ∧ (y < column.height ∨ column.height + laid ≤ y))
    (habove : column.height + laid ≤ y → above type) :
    Land laid above (column.setBlock y type) where
  low := hland.low
  high := hland.high
  floor y' hy' := by
    rw [Column.setBlock_block]
    split_ifs with heq
    · exact fun htype => absurd (hair htype).1 (by omega)
    · exact hland.floor y' hy'
  solid y' hlow hhigh := by
    rw [Column.setBlock_height] at hlow hhigh
    rw [Column.setBlock_block]
    split_ifs with heq
    · exact fun htype => absurd (hair htype).2 (by omega)
    · exact hland.solid y' hlow hhigh
  above y' hlow hhigh := by
    rw [Column.setBlock_height] at hlow
    rw [Column.setBlock_block]
    split_ifs with heq
    · exact habove (heq ▸ hlow)
    · exact hland.above y' hlow hhigh
  dark := hland.dark

/-- What may be over the land may be allowed more. -/
theorem Land.mono {more : Byte → Prop} (hland : Land laid above column)
    (himp : ∀ type, above type → more type) : Land laid more column where
  low := hland.low
  high := hland.high
  floor := hland.floor
  solid := hland.solid
  above y hlow hhigh := himp _ (hland.above y hlow hhigh)
  dark := hland.dark

theorem Topped.setBlock (htopped : Topped column) (htype : type ≠ air) :
    Topped (column.setBlock y type) := by
  unfold Topped
  rw [Column.setBlock_height, Column.setBlock_block]
  split_ifs
  · exact htype
  · exact htopped

/-! ## The steps of a pass -/

theorem writeBlock_triple {P Q : Column → Prop} (hy : y < 128)
    (hpost : ∀ column, P column → Q (column.setBlock y type)) :
    Triple SVChunk.column place P (fun chunk => chunk.writeBlock place y type) Q :=
  Triple.assign (·.setBlock y type) (fun chunk _ => writeBlock_spec chunk place hy type) hpost

theorem writeHeight_triple {P Q : Column → Prop} {height : ℕ} (hheight : height < 256)
    (hpost : ∀ column, P column → Q (column.setHeight height)) :
    Triple SVChunk.column place P (fun chunk => chunk.writeHeight place height) Q :=
  Triple.assign (·.setHeight height) (fun chunk _ => writeHeight_spec chunk place hheight) hpost

theorem readHeight_triple {P Q : Column → Prop} {body : ℕ → SVChunk → Option SVChunk}
    (hbody : ∀ height, Triple SVChunk.column place
      (fun column => P column ∧ column.height = height) (body height) Q) :
    Triple SVChunk.column place P
      (fun chunk => chunk.readHeight place >>= fun height => body height chunk) Q :=
  Triple.read Column.height (fun chunk _ => readHeight_eq chunk place) hbody

/-- A loop that digs somewhere between level 16 and the top. -/
theorem dig_triple {test : ℕ → Prop} [DecidablePred test] {first number height : ℕ}
    (hfirst : 16 ≤ first) (hlast : first + number ≤ 128) :
    Triple SVChunk.column place (fun column => Dry 0 column ∧ column.height = height)
      (fun chunk => (List.range' first number).foldlM (fun chunk (y : ℕ) =>
        if test y then chunk.writeBlock place y air else some chunk) chunk)
      (fun column => Dry 0 column ∧ column.height = height) := by
  refine Triple.loop_keeps fun y hy => Triple.ite (fun _ => ?_) fun _ => Triple.skip fun _ h => h
  have hrange := List.mem_range'_1.mp hy
  refine writeBlock_triple (by omega) fun column hcolumn => ⟨?_, hcolumn.2⟩
  exact hcolumn.1.setBlock (fun _ => ⟨by omega, by omega⟩) fun _ => rfl

/-- **The height map** goes down to the first block that is not air. -/
theorem lowerHeight_triple (y : ℕ) (hy : y ≤ 127) :
    Triple SVChunk.column place (fun column => Dry 0 column ∧
        (column.height = y ∨ column.height = y + 1))
      (lowerHeight place y) (fun column => Dry 0 column ∧ Topped column) := by
  induction y with
  | zero =>
      refine Triple.skip fun column hcolumn => ?_
      have hlow := hcolumn.1.low
      omega
  | succ y ih =>
      refine Triple.read (fun column => column.block (y + 1))
        (fun chunk _ => readBlock_eq chunk place (by omega)) fun found => Triple.ite
          (fun hfound => ?_) fun hfound => Triple.skip ?_
      · -- the block is air, so it lies above the floor and the height comes down to it
        refine Triple.seq (writeHeight_triple (by omega) ?_) (ih (by omega))
        intro column ⟨⟨hland, hheight⟩, hblock⟩
        have hhigh := hland.high
        have hfloor : 16 ≤ y + 1 := not_lt.mp fun hlt =>
          hland.floor (y + 1) hlt (hblock.trans hfound)
        refine ⟨⟨hfloor, by simp only [Column.setHeight]; omega, hland.floor, ?_, ?_, hland.dark⟩,
          .inr rfl⟩
        · intro other hlow hlt
          exact absurd (hlow.trans_lt hlt) (by simp)
        · intro other hlow hlt
          simp only [Column.setHeight, Nat.add_zero] at hlow
          by_cases heq : other = y + 1
          · rw [heq]
            exact hblock.trans hfound
          · exact hland.above other (by omega) hlt
      · -- the block is not air, so it is the one below the height
        intro column ⟨⟨hland, hheight⟩, hblock⟩
        refine ⟨hland, ?_⟩
        have hne : column.height ≠ y + 1 := fun heq =>
          hfound (hblock.symm.trans (hland.above (y + 1) (by omega) (by omega)))
        have habove : column.height = y + 1 + 1 := hheight.resolve_left hne
        rw [Topped, habove, Nat.add_sub_cancel, hblock]
        exact hfound

theorem lowerHeight_read {height : ℕ} :
    Triple SVChunk.column place (fun column => Dry 0 column ∧ column.height = height)
      (lowerHeight place height) (fun column => Dry 0 column ∧ Topped column) := by
  refine Triple.lift (fun column hcolumn => (?_ : height ≤ 127)) fun hle =>
    (lowerHeight_triple height hle).conseq (fun column h => ⟨h.1, .inl h.2⟩) fun _ h => h
  have hhigh := hcolumn.1.high
  omega

/-! ## The passes -/

/-- The levels below `n` are filled, and those from `n` on are air. -/
structure Filling (n : ℕ) (column : Column) : Prop where
  low : 16 ≤ column.height
  high : column.height ≤ 127
  filled : ∀ y < n, column.block y ≠ air
  empty : ∀ y, n ≤ y → y < 128 → column.block y = air
  dark : ∀ k, column.light k = 0

private theorem fillColumn_triple (htype : type ≠ air) :
    Triple SVChunk.column place (Filling 0) (fillColumn place type)
      (fun column => Dry 0 column ∧ Topped column) := by
  refine readHeight_triple fun height => ?_
  have hloop : Triple SVChunk.column place
      (fun column => Filling 0 column ∧ column.height = height)
      (fun chunk => (List.range (min height 128)).foldlM
        (fun chunk (y : ℕ) => chunk.writeBlock place y type) chunk)
      (fun column => Filling (List.range (min height 128)).length column ∧
        column.height = height) := by
    refine Triple.loop (fun done column => Filling done.length column ∧ column.height = height)
      fun done y hbefore => ?_
    rw [List.range_eq_range'] at hbefore
    obtain ⟨hy, hlt⟩ := FallibleLoop.item_of_prefix_range' hbefore
    rw [Nat.zero_add] at hy
    subst hy
    refine writeBlock_triple (by omega) fun column ⟨hfilling, hheight⟩ => ⟨?_, hheight⟩
    rw [List.length_append, List.length_singleton]
    refine ⟨hfilling.low, hfilling.high, fun y hy => ?_, fun y hy hlt => ?_, hfilling.dark⟩
    · rw [Column.setBlock_block]
      split_ifs with heq
      · exact htype
      · exact hfilling.filled y (by omega)
    · rw [Column.setBlock_block, if_neg (by omega)]
      exact hfilling.empty y (by omega) hlt
  refine hloop.conseq (fun _ h => h) fun column ⟨hfilling, hheight⟩ => ?_
  have hlow := hfilling.low
  have hhigh := hfilling.high
  rw [List.length_range, min_eq_left (by omega), ← hheight] at hfilling
  refine ⟨⟨hlow, by omega, fun y hy => hfilling.filled y (by omega), fun y hge hlt => ?_,
    fun y hge hlt => hfilling.empty y (by omega) hlt, hfilling.dark⟩,
    hfilling.filled _ (by omega)⟩
  omega

/-- What digs and then lowers the height leaves the land dry and topped. -/
theorem digColumn_triple (noise : Noise) :
    Triple SVChunk.column place (fun column => Dry 0 column ∧ Topped column)
      (digColumn noise place) (fun column => Dry 0 column ∧ Topped column) := by
  have hcaves : Triple SVChunk.column place (Dry 0) (fun chunk =>
      (List.range 54).foldlM (fun chunk (y : ℕ) =>
        if 0.35 < noise.cave place y then
          chunk.writeBlock place y (if y < 16 then lava else air)
        else some chunk) chunk) (Dry 0) := by
    refine Triple.loop_keeps fun y hy => Triple.ite (fun _ => ?_) fun _ => Triple.skip fun _ h => h
    have hlt := List.mem_range.mp hy
    refine writeBlock_triple (by omega) fun column hland => ?_
    have hlow := hland.low
    by_cases hlava : y < 16
    · rw [if_pos hlava]
      exact hland.setBlock (fun hair => absurd hair (by decide)) fun hle => absurd hle (by omega)
    · rw [if_neg hlava]
      exact hland.setBlock (fun _ => ⟨by omega, by omega⟩) fun _ => rfl
  refine (hcaves.conseq (fun _ h => h.1) fun _ h => h).seq ?_
  refine readHeight_triple fun height => Triple.lift (fun column h => (?_ : height ≤ 127)) ?_
  · have hhigh := h.1.high
    omega
  · exact fun hle => (dig_triple (by decide) (by omega)).seq lowerHeight_read

private theorem erodeColumn_triple (noise : Noise) :
    Triple SVChunk.column place (fun column => Dry 0 column ∧ Topped column)
      (erodeColumn noise place) (fun column => Dry 0 column ∧ Topped column) := by
  refine readHeight_triple fun height => Triple.lift (fun column h => (?_ : height ≤ 127)) ?_
  · have hhigh := h.1.1.high
    omega
  · refine fun hle => Triple.seq ?_ lowerHeight_read
    exact (dig_triple (by decide) (by omega)).conseq (fun _ h => ⟨h.1.1, h.2⟩) fun _ h => h

private theorem ne_air_of_mem_minerals (height y : ℕ) :
    ∀ mineral ∈ minerals height y, mineral.1 ≠ air := by
  unfold minerals
  split_ifs <;> decide

private theorem mineralColumn_triple (noise : Noise) :
    Triple SVChunk.column place (fun column => Dry 0 column ∧ Topped column)
      (mineralColumn noise place) (fun column => Dry 0 column ∧ Topped column) := by
  refine readHeight_triple fun height => Triple.lift (fun column h => (?_ : height ≤ 127)) ?_
  · have hhigh := h.1.1.high
    omega
  intro hle
  have hloop : Triple SVChunk.column place
      (fun column => (Dry 0 column ∧ Topped column) ∧ column.height = height)
      (fun chunk => (List.range' 2 (height - 2)).foldlM (fun chunk (y : ℕ) => do
        let type ← chunk.readBlock place y
        if type = air then some chunk
        else (minerals height y).foldlM (addMineral noise place y) chunk) chunk)
      (fun column => (Dry 0 column ∧ Topped column) ∧ column.height = height) := by
    refine Triple.loop_keeps fun y hy => ?_
    have hrange := List.mem_range'_1.mp hy
    refine Triple.read (fun column => column.block y)
      (fun chunk _ => readBlock_eq chunk place (by omega)) fun found => ?_
    refine Triple.ite (fun _ => Triple.skip fun _ h => h.1) fun _ => ?_
    refine Triple.conseq (Triple.loop_keeps fun mineral hmineral => ?_) (fun _ h => h.1)
      fun _ h => h
    refine Triple.ite (fun _ => ?_) fun _ => Triple.skip fun _ h => h
    have htype := ne_air_of_mem_minerals height y mineral hmineral
    refine writeBlock_triple (by omega) fun column ⟨⟨hland, htopped⟩, hheight⟩ =>
      ⟨⟨hland.setBlock (fun hair => absurd hair htype) fun hle => ?_, htopped.setBlock htype⟩,
        hheight⟩
    omega
  exact hloop.conseq (fun _ h => h) fun _ h => h.1

/-! ### Sediments -/

/-- A block on top of what is laid, or again on one of these. -/
theorem Land.lay (hland : Dry laid column) {i : ℕ} (hi : i ≤ laid)
    (hhigh : column.height + i < 127) (htype : type ≠ air) :
    Dry (max laid (i + 1)) (column.setBlock (column.height + i) type) where
  low := hland.low
  high := by
    have := hland.high
    rw [Column.setBlock_height]
    omega
  floor y hy := by
    have hlow := hland.low
    rw [Column.setBlock_block, if_neg (by omega)]
    exact hland.floor y hy
  solid y hlow hlt := by
    rw [Column.setBlock_height] at hlow hlt
    rw [Column.setBlock_block]
    split_ifs with heq
    · exact htype
    · exact hland.solid y hlow (by omega)
  above y hge hlt := by
    rw [Column.setBlock_height] at hge
    rw [Column.setBlock_block, if_neg (by omega)]
    exact hland.above y (by omega) hlt
  dark := hland.dark

theorem Land.count (hland : Dry laid column) (htopped : Topped column) :
    Dry 0 (column.setHeight (column.height + laid)) ∧
      Topped (column.setHeight (column.height + laid)) := by
  have hlow := hland.low
  refine ⟨⟨?_, hland.high, hland.floor, fun y hge hlt => absurd (hge.trans_lt hlt) (by simp),
    hland.above, hland.dark⟩, ?_⟩
  · simp only [Column.setHeight]
    omega
  · simp only [Topped, Column.setHeight]
    by_cases hlaid : laid = 0
    · rw [hlaid]
      exact htopped
    · exact hland.solid _ (by omega) (by omega)

/-- Dry land with so many blocks laid on top of a height. -/
def Laid (height laid : ℕ) (column : Column) : Prop :=
  Dry laid column ∧ Topped column ∧ column.height = height

theorem lay_triple {height i : ℕ} {index : ℤ} (hindex : index = (height + i : ℕ)) (hi : i ≤ laid)
    (hhigh : height + i < 127) (htype : type ≠ air) :
    Triple SVChunk.column place (Laid height laid)
      (fun chunk => chunk.writeBlock place index type) (Laid height (max laid (i + 1))) := by
  subst hindex
  refine writeBlock_triple (by omega) fun column ⟨hland, htopped, hheight⟩ => ?_
  subst hheight
  exact ⟨hland.lay hi hhigh htype, htopped.setBlock htype, rfl⟩

theorem count_triple {height : ℕ} {index : ℤ} (hindex : index = (height + laid : ℕ))
    (hhigh : height + laid ≤ 127) :
    Triple SVChunk.column place (Laid height laid) (fun chunk => chunk.writeHeight place index)
      (fun column => Dry 0 column ∧ Topped column) := by
  subst hindex
  refine writeHeight_triple (by omega) fun column ⟨hland, htopped, hheight⟩ => ?_
  subst hheight
  exact hland.count htopped

/-- The dirt that is laid is one block short of the sediment height that is left, or as high. -/
theorem layDirt_triple {Q : Column → Prop} (rest : ℤ → SVChunk → Option SVChunk)
    (height i sedimentHeight : ℕ) (hi : i ≤ sedimentHeight) (hpos : 0 < sedimentHeight)
    (hhigh : height + sedimentHeight ≤ 127)
    (hrest : ∀ i left : ℕ, i ≤ left → left ≤ i + 1 → 0 < left → left ≤ sedimentHeight →
      Triple SVChunk.column place (Laid height i) (rest left) Q) :
    Triple SVChunk.column place (Laid height i) (fun chunk =>
      layDirt place height i sedimentHeight chunk >>= fun result => rest result.2 result.1) Q := by
  induction hsize : sedimentHeight - i using Nat.strong_induction_on
    generalizing i sedimentHeight with
  | h size ih =>
      by_cases hmore : i + 1 < sedimentHeight
      · have hstep : (fun chunk => layDirt place height i sedimentHeight chunk >>=
              fun result => rest result.2 result.1) =
            fun chunk => chunk.writeBlock place (height + i) dirt >>= fun chunk =>
              layDirt place height (i + 1 : ℕ) (sedimentHeight - 1 : ℕ) chunk >>=
                fun result => rest result.2 result.1 := by
          have hnext : (i : ℤ) + 1 = (i + 1 : ℕ) := rfl
          have hleft : (sedimentHeight : ℤ) - 1 = (sedimentHeight - 1 : ℕ) := by omega
          funext chunk
          rw [layDirt, if_pos (by omega), hnext, hleft]
          exact Option.bind_assoc ..
        rw [hstep]
        refine Triple.seq (lay_triple (i := i) rfl le_rfl (by omega) (by decide)) ?_
        rw [max_eq_right (by omega)]
        exact ih _ (by omega) (i + 1) (sedimentHeight - 1) (by omega) (by omega) (by omega)
          (fun j left h₁ h₂ h₃ h₄ => hrest j left h₁ h₂ h₃ (by omega)) rfl
      · have hdone : (fun chunk => layDirt place height i sedimentHeight chunk >>=
            fun result => rest result.2 result.1) = rest sedimentHeight := by
          funext chunk
          rw [layDirt, if_neg (by omega)]
          rfl
        rw [hdone]
        exact hrest i sedimentHeight hi (by omega) hpos le_rfl

private theorem sedimentColumn_triple :
    Triple SVChunk.column place (fun column => Dry 0 column ∧ Topped column)
      (sedimentColumn place) (fun column => Dry 0 column ∧ Topped column) := by
  refine readHeight_triple fun height => Triple.lift (P := fun column =>
    (Dry 0 column ∧ Topped column) ∧ column.height = height) (fun column h =>
      (?_ : 16 ≤ height ∧ height ≤ 127)) ?_
  · have hlow := h.1.1.low
    have hhigh := h.1.1.high
    omega
  intro ⟨hlow, hhigh⟩
  have hsediment : (128 - height : ℤ).tdiv 21 = ((128 - height) / 21 : ℕ) := by
    rw [Int.tdiv_eq_ediv_of_nonneg (by omega)]
    omega
  simp only [hsediment, Int.toNat_natCast]
  refine Triple.conseq (P := Laid height 0) ?_ (fun column h => ⟨h.1.1, h.1.2, h.2⟩) fun _ h => h
  refine Triple.ite (fun hlake => ?_) fun hhill => Triple.ite (fun hpos => ?_) fun hnone => ?_
  · -- sand, as many blocks as the sediment is high
    refine Triple.seq (Q := Laid height ((128 - height) / 21)) ?_ (count_triple rfl (by omega))
    have hloop : Triple SVChunk.column place (Laid height 0)
        (fun chunk => (List.range ((128 - height) / 21)).foldlM (fun chunk (i : ℕ) =>
          chunk.writeBlock place (height + i) sand) chunk)
        (Laid height (List.range ((128 - height) / 21)).length) := by
      refine Triple.loop (fun done => Laid height done.length) fun done i hbefore => ?_
      rw [List.range_eq_range'] at hbefore
      obtain ⟨hi, hlt⟩ := FallibleLoop.item_of_prefix_range' hbefore
      rw [Nat.zero_add] at hi
      subst hi
      refine (lay_triple rfl le_rfl (by omega) (by decide)).conseq (fun _ h => h) fun column h => ?_
      rw [max_eq_right (by omega)] at h
      rwa [List.length_append]
    rwa [List.length_range] at hloop
  · -- dirt and then grass, which may take the place of the last dirt
    let finish := fun (left : ℤ) (chunk : SVChunk) =>
      chunk.writeBlock place (height + left - 1) grass >>= fun chunk =>
        chunk.writeHeight place (height + left)
    refine layDirt_triple finish height 0 ((128 - height) / 21) (by omega) (by omega) (by omega)
      fun i left hi hle hleft hmost => ?_
    refine Triple.seq (Q := Laid height left) ?_ (count_triple rfl (by omega))
    have hgrass : Triple SVChunk.column place (Laid height i)
        (fun chunk => chunk.writeBlock place (height + left - 1) grass)
        (Laid height (max i (left - 1 + 1))) :=
      lay_triple (by omega) (by omega) (by omega) (by decide)
    rwa [max_eq_right (by omega), Nat.sub_add_cancel hleft] at hgrass
  · have hzero : (128 - height) / 21 = 0 := by omega
    rw [hzero]
    exact count_triple rfl (by omega)

/-! ### Water and bedrock -/

/-- **The flood** ends above the floor, after at most one round for each level. -/
theorem floodColumn_triple (rounds y : ℕ) (hlow : 15 ≤ y) (hhigh : y < 128) (hrounds : y < rounds) :
    Triple SVChunk.column place (fun column => Wet column ∧ Topped column)
      (floodColumn place rounds y) (fun column => Wet column ∧ Topped column) := by
  induction rounds generalizing y with
  | zero => omega
  | succ rounds ih =>
      refine Triple.read (fun column => column.block y)
        (fun chunk _ => readBlock_eq chunk place hhigh) fun found => Triple.ite (fun hfound => ?_)
          fun _ => Triple.skip fun _ h => h.1
      refine Triple.lift (fun column h => (?_ : 16 ≤ y)) fun hfloor => ?_
      · exact not_lt.mp fun hlt => h.1.1.floor y hlt (h.2.trans hfound)
      · have hnext : (y : ℤ) - 1 = (y - 1 : ℕ) := by omega
        rw [hnext]
        refine Triple.seq (writeBlock_triple hhigh ?_) (ih (y - 1) (by omega) (by omega) (by omega))
        intro column ⟨⟨hland, htopped⟩, _⟩
        exact ⟨hland.setBlock (fun hair => absurd hair (by decide)) fun _ => .inr rfl,
          htopped.setBlock (by decide)⟩

private theorem bedrockColumn_triple :
    Triple SVChunk.column place (fun column => Wet column ∧ Topped column)
      (bedrockColumn place) (fun column => Wet column ∧ Topped column) := by
  have hbedrock : ∀ y < 16, Triple SVChunk.column place (fun column => Wet column ∧ Topped column)
      (fun chunk => chunk.writeBlock place (y : ℕ) bedrock)
      (fun column => Wet column ∧ Topped column) := by
    intro y hy
    refine writeBlock_triple (by omega) fun column ⟨hland, htopped⟩ => ⟨?_, ?_⟩
    · have hlow := hland.low
      exact hland.setBlock (fun hair => absurd hair (by decide)) fun hle => absurd hle (by omega)
    · exact htopped.setBlock (by decide)
  refine (hbedrock 0 (by decide)).seq ((hbedrock 1 (by decide)).seq ?_)
  refine readHeight_triple fun height => Triple.lift (fun column h =>
    (?_ : 16 ≤ height ∧ height ≤ 127)) fun hrange => ?_
  · have hlow := h.1.1.low
    have hhigh := h.1.1.high
    omega
  · rw [max_eq_left (by omega)]
    refine writeHeight_triple (by omega) fun column ⟨hcolumn, hheight⟩ => ?_
    subst hheight
    exact hcolumn

/-! ### Sky light -/

/-- The light of a block, added to its byte. -/
def Column.addLight (self : Column) (y : ℕ) : Column :=
  { self with
    light := Function.update self.light (y / 2)
      (self.light (y / 2) ||| if y % 2 = 1 then 0xF0 else 0x0F) }

private theorem nibbles_or (byte : Byte) :
    (byte ||| 0xF0) >>> 4 = 0x0F ∧ (byte ||| 0xF0) &&& 0x0F = byte &&& 0x0F ∧
      (byte ||| 0x0F) >>> 4 = byte >>> 4 ∧ (byte ||| 0x0F) &&& 0x0F = 0x0F := by
  revert byte
  decide +kernel

/-- The other block of the byte keeps its light. -/
theorem Column.skyLight_addLight (y' : ℕ) :
    (column.addLight y).skyLight y' = if y' = y then 0x0F else column.skyLight y' := by
  have hnibbles := nibbles_or (column.light (y / 2))
  unfold Column.skyLight Column.addLight
  by_cases hbyte : y' / 2 = y / 2
  · rw [hbyte]
    simp only [Function.update_self]
    split_ifs <;> first | omega | simp only [hnibbles]
  · have hne : y' ≠ y := fun heq => hbyte (congrArg (· / 2) heq)
    simp only [Function.update_of_ne hbyte, if_neg hne]

/-- What a generated column is: the block below its height is there, over it is air or water, and
the blocks from the height on are lit. -/
structure Column.Consistent (column : Column) : Prop where
  low : 1 ≤ column.height
  high : column.height ≤ 127
  topped : column.block (column.height - 1) ≠ air
  above : ∀ y, column.height ≤ y → y < 128 → column.block y = air ∨ column.block y = water
  lit : ∀ y < 128, column.skyLight y = if column.height ≤ y then 0x0F else 0

private theorem skyLightColumn_triple :
    Triple SVChunk.column place (fun column => Wet column ∧ Topped column)
      (skyLightColumn place) Column.Consistent := by
  refine readHeight_triple fun height => Triple.lift (fun column h =>
    (?_ : height ≤ 127)) fun hhigh => ?_
  · have hhigh := h.1.1.high
    omega
  -- the blocks lit so far
  let Lit := fun (number : ℕ) (column : Column) =>
    (1 ≤ column.height ∧ Topped column ∧
      ∀ y, column.height ≤ y → y < 128 → column.block y = air ∨ column.block y = water) ∧
    column.height = height ∧
    ∀ y < 128, column.skyLight y = if height ≤ y ∧ y < height + number then 0x0F else 0
  have hloop : Triple SVChunk.column place (Lit 0)
      (fun chunk => (List.range' height (128 - height)).foldlM (fun chunk (y : ℕ) =>
        chunk.orSkyLight place y (if y % 2 = 1 then 0xF0 else 0x0F)) chunk)
      (Lit (List.range' height (128 - height)).length) := by
    refine Triple.loop (fun done => Lit done.length) fun done y hbefore => ?_
    obtain ⟨hy, hlt⟩ := FallibleLoop.item_of_prefix_range' hbefore
    refine Triple.assign (·.addLight y) (fun chunk _ => orSkyLight_spec chunk place (by omega) _)
      fun column ⟨hkept, hheight, hlit⟩ => ⟨hkept, hheight, fun y' hy' => ?_⟩
    rw [Column.skyLight_addLight, hlit y' hy', List.length_append, List.length_singleton]
    split_ifs <;> first | rfl | omega
  refine hloop.conseq (fun column ⟨⟨hland, htopped⟩, hheight⟩ => ?_)
    fun column ⟨⟨hlow, htopped, habove⟩, hheight, hlit⟩ => ?_
  · have hlow := hland.low
    refine ⟨⟨by omega, htopped, hland.above⟩, hheight, fun y hy => ?_⟩
    rw [if_neg (by omega), Column.skyLight, hland.dark]
    split_ifs <;> rfl
  · refine ⟨hlow, by omega, htopped, habove, fun y hy => ?_⟩
    rw [hlit y hy, List.length_range', hheight]
    split_ifs <;> first | rfl | omega

/-! ## The chunk -/

theorem forColumns_spec {P Q : Column → Prop} {pass : Place → SVChunk → Option SVChunk}
    (hpass : ∀ place, Triple SVChunk.column place P (pass place) Q) {chunk : SVChunk}
    (hchunk : ∀ place, P (chunk.column place)) :
    ∃ next, forColumns pass chunk = some next ∧ ∀ place, Q (next.column place) := by
  have hplaces : ∀ place : Place, place ∈ places := fun place =>
    List.mem_product.mpr ⟨List.mem_finRange _, List.mem_finRange _⟩
  have hnodup : places.Nodup := (List.nodup_finRange 16).product (List.nodup_finRange 16)
  obtain ⟨next, hnext, hparts⟩ :=
    exists_each hnodup (fun place _ => hpass place) fun place _ => hchunk place
  exact ⟨next, hnext, fun place => hparts place (hplaces place)⟩

/-- **Generated terrain is consistent.**  From heights between 16 and 127 and any noise, the
generator comes to its end inside its arrays, and every column of the chunk is consistent. -/
theorem generated_terrain_consistent (noise : Noise)
    (hheights : ∀ place, 16 ≤ (noise.height place).toNat ∧ (noise.height place).toNat ≤ 127)
    (rounds : ℕ) (hrounds : 64 < rounds) :
    ∃ chunk, generateChunk noise rounds = some chunk ∧
      ∀ place, (chunk.column place).Consistent := by
  have hheight : ∀ place, Triple SVChunk.column place
      (fun column => ∀ y, column.block y = air ∧ column.light y = 0)
      (generateHeight noise place) (Filling 0) := fun place =>
    writeHeight_triple (by have := hheights place; omega) fun column hblank =>
      ⟨(hheights place).1, (hheights place).2, fun y hy => absurd hy (Nat.not_lt_zero y),
        fun y _ _ => (hblank y).1, fun k => (hblank k).2⟩
  have hblank : ∀ place y, (blankChunk.column place).block y = air ∧
      (blankChunk.column place).light y = 0 := by
    intro place y
    simp only [SVChunk.column, blankChunk]
    split_ifs <;> exact ⟨rfl, rfl⟩
  have hstone : stone ≠ air := by decide
  -- pass by pass, each from what the one before has left
  obtain ⟨raised, hraised, hcolumns⟩ := forColumns_spec hheight hblank
  obtain ⟨filled, hfilled, hcolumns⟩ :=
    forColumns_spec (fun _ => fillColumn_triple hstone) hcolumns
  obtain ⟨dug, hdug, hcolumns⟩ :=
    forColumns_spec (fun _ => digColumn_triple noise) hcolumns
  obtain ⟨eroded, heroded, hcolumns⟩ :=
    forColumns_spec (fun _ => erodeColumn_triple noise) hcolumns
  obtain ⟨mined, hmined, hcolumns⟩ :=
    forColumns_spec (fun _ => mineralColumn_triple noise) hcolumns
  obtain ⟨laid, hlaid, hcolumns⟩ := forColumns_spec (fun _ => sedimentColumn_triple) hcolumns
  have hwet : ∀ place, Wet (laid.column place) ∧ Topped (laid.column place) := fun place =>
    ⟨(hcolumns place).1.mono fun _ => .inl, (hcolumns place).2⟩
  obtain ⟨flooded, hflooded, hcolumns⟩ := forColumns_spec
    (fun _ => floodColumn_triple rounds 64 (by decide) (by decide) hrounds) hwet
  obtain ⟨based, hbased, hcolumns⟩ := forColumns_spec (fun _ => bedrockColumn_triple) hcolumns
  obtain ⟨lit, hlit, hcolumns⟩ := forColumns_spec (fun _ => skyLightColumn_triple) hcolumns
  -- the flood is over after more rounds than there are levels
  have hwater : forColumns (floodColumn · rounds 64) laid = some flooded := hflooded
  refine ⟨lit, ?_, hcolumns⟩
  rw [generateChunk, bind_of_some hraised, bind_of_some hfilled, bind_of_some hdug,
    bind_of_some heroded, bind_of_some hmined, bind_of_some hlaid, bind_of_some hwater,
    bind_of_some hbased, hlit]

/-- A slope from the west to the east, dug out wherever that is allowed. -/
theorem generated_terrain_consistent_slope :
    ∃ chunk, generateChunk ⟨fun place => BitVec.ofNat 8 (56 + place.1), fun _ _ => 1, fun _ _ => 1,
        fun _ _ _ => -1⟩ 65 = some chunk ∧ ∀ place, (chunk.column place).Consistent :=
  generated_terrain_consistent _
    (fun place => by simp only [BitVec.toNat_ofNat]; omega) 65 (by decide)

end Craftd.Survival
