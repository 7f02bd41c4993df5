import Craftd.Survival.World
import Craftd.Library.BoundedArray
import Craftd.Library.LocalTriple

/-!
# Chunks

The arrays of an `SVChunk`.  The blocks of a chunk lie column by column: the index of a block
is its height, and 128 for each column before its own.  Two blocks share a byte of light.

A `Column` is what the arrays hold of one column.  A write to a column succeeds up to its
height, and leaves the other columns alone.
-/

namespace Craftd.Survival

open BoundedArray

/-! ## Blocks -/

/-- `SVAir`. -/
def air : Byte := 0x00
/-- `SVStone`. -/
def stone : Byte := 0x01
/-- `SVGrass`. -/
def grass : Byte := 0x02
/-- `SVDirt`. -/
def dirt : Byte := 0x03
/-- `SVBedrock`. -/
def bedrock : Byte := 0x07
/-- `SVWater`. -/
def water : Byte := 0x08
/-- `SVLava`. -/
def lava : Byte := 0x0A
/-- `SVSand`. -/
def sand : Byte := 0x0C
/-- `SVGravel`. -/
def gravel : Byte := 0x0D
/-- `SVGoldOre`. -/
def goldOre : Byte := 0x0E
/-- `SVIronOre`. -/
def ironOre : Byte := 0x0F
/-- `SVCoalOre`. -/
def coalOre : Byte := 0x10
/-- `SVLapisLazuliOre`. -/
def lapisLazuliOre : Byte := 0x15
/-- `SVDiamondOre`. -/
def diamondOre : Byte := 0x38
/-- `SVRedstoneOre`. -/
def redstoneOre : Byte := 0x49

/-! ## The arrays -/

/-- `SVChunk`, without its position. -/
structure SVChunk where
  heightMap : Cells Byte 256
  blocks : Cells Byte 32768
  data : Cells Byte 16384
  blockLight : Cells Byte 16384
  skyLight : Cells Byte 16384

/-- The `x` and `z` of a column. -/
abbrev Place := Fin 16 × Fin 16

namespace SVChunk

variable (self : SVChunk) (place : Place)

/-- `chunk->heightMap[x + (z * 16)]`. -/
def readHeight : Option ℕ :=
  (readAt self.heightMap (place.1 + place.2 * 16)).map BitVec.toNat

/-- `chunk->heightMap[x + (z * 16)] = height`; the byte takes the height modulo 256. -/
def writeHeight (height : ℤ) : Option SVChunk :=
  (writeAt self.heightMap (place.1 + place.2 * 16) (BitVec.ofInt 8 height)).map fun heightMap =>
    { self with heightMap := heightMap }

/-- `chunk->blocks[y + (z * 128) + (x * 128 * 16)]`. -/
def readBlock (y : ℤ) : Option Byte :=
  readAt self.blocks (y + place.2 * 128 + place.1 * 128 * 16)

/-- `chunk->blocks[y + (z * 128) + (x * 128 * 16)] = type`. -/
def writeBlock (y : ℤ) (type : Byte) : Option SVChunk :=
  (writeAt self.blocks (y + place.2 * 128 + place.1 * 128 * 16) type).map fun blocks =>
    { self with blocks := blocks }

/-- `chunk->skyLight[((z * 128) + (x * 128 * 16) + y) / 2] |= light`. -/
def orSkyLight (y : ℤ) (light : Byte) : Option SVChunk :=
  let index := (place.2 * 128 + place.1 * 128 * 16 + y).tdiv 2
  (readAt self.skyLight index).bind fun old =>
    (writeAt self.skyLight index (old ||| light)).map fun skyLight =>
      { self with skyLight := skyLight }

end SVChunk

/-! ## Columns -/

/-- What a chunk holds of a column: its height, its 128 blocks, and the light of two blocks in
each of 64 bytes. -/
@[ext] structure Column where
  height : ℕ
  block : ℕ → Byte
  light : ℕ → Byte

/-- The light of a block. -/
def Column.skyLight (self : Column) (y : ℕ) : Byte :=
  if y % 2 = 1 then self.light (y / 2) >>> 4 else self.light (y / 2) &&& 0x0F

/-- The index of a height. -/
def heightCell (place : Place) : Fin 256 := ⟨place.1 + place.2 * 16, by omega⟩

/-- The index of a block. -/
def blockCell (place : Place) {y : ℕ} (hy : y < 128) : Fin 32768 :=
  ⟨y + place.2 * 128 + place.1 * 128 * 16, by omega⟩

/-- The index of two blocks' light. -/
def lightCell (place : Place) {k : ℕ} (hk : k < 64) : Fin 16384 :=
  ⟨k + place.2 * 64 + place.1 * 64 * 16, by omega⟩

/-- The column at a place. -/
def SVChunk.column (self : SVChunk) (place : Place) : Column where
  height := (self.heightMap (heightCell place)).toNat
  block y := if hy : y < 128 then self.blocks (blockCell place hy) else 0
  light k := if hk : k < 64 then self.skyLight (lightCell place hk) else 0

variable {self : SVChunk} {place other : Place} {y k : ℕ}

theorem heightCell_index (place : Place) :
    (place.1 + place.2 * 16 : ℤ) = (heightCell place).val := by
  simp [heightCell]

theorem blockCell_index (place : Place) (hy : y < 128) :
    (y + place.2 * 128 + place.1 * 128 * 16 : ℤ) = (blockCell place hy).val := by
  simp [blockCell]

private theorem heightCell_injective (h : heightCell other = heightCell place) : other = place := by
  have hindex := congrArg Fin.val h
  simp only [heightCell] at hindex
  exact Prod.ext (Fin.ext (by omega)) (Fin.ext (by omega))

theorem blockCell_injective {y' : ℕ} {hy' : y' < 128} {hy : y < 128}
    (h : blockCell other hy' = blockCell place hy) : other = place ∧ y' = y := by
  have hindex := congrArg Fin.val h
  simp only [blockCell] at hindex
  exact ⟨Prod.ext (Fin.ext (by omega)) (Fin.ext (by omega)), by omega⟩

theorem lightCell_injective {k' : ℕ} {hk' : k' < 64} {hk : k < 64}
    (h : lightCell other hk' = lightCell place hk) : other = place ∧ k' = k := by
  have hindex := congrArg Fin.val h
  simp only [lightCell] at hindex
  exact ⟨Prod.ext (Fin.ext (by omega)) (Fin.ext (by omega)), by omega⟩

/-! ## Reads and writes of a column -/

theorem readHeight_eq (self : SVChunk) (place : Place) :
    self.readHeight place = some (self.column place).height := by
  have hread := readAt_cell self.heightMap (heightCell_index place)
  rw [SVChunk.readHeight, hread]
  rfl

theorem readBlock_eq (self : SVChunk) (place : Place) (hy : y < 128) :
    self.readBlock place y = some ((self.column place).block y) := by
  have hread := readAt_cell self.blocks (blockCell_index place hy)
  rw [SVChunk.readBlock, hread, SVChunk.column]
  simp only [dif_pos hy]

theorem writeHeight_spec (self : SVChunk) (place : Place) {height : ℕ} (hheight : height < 256) :
    ∃ next, self.writeHeight place height = some next ∧
      next.column place = { self.column place with height := height } ∧
        ∀ other, other ≠ place → next.column other = self.column other := by
  have hwrite := writeAt_cell self.heightMap (heightCell_index place) (BitVec.ofInt 8 height)
  refine ⟨_, by rw [SVChunk.writeHeight, hwrite, Option.map_some], ?_, fun other hother => ?_⟩
  · simp only [SVChunk.column, Function.update_self, Column.mk.injEq, and_true]
    simpa using hheight
  · have hne : heightCell other ≠ heightCell place := fun heq =>
      hother (heightCell_injective heq)
    simp only [SVChunk.column, Function.update_of_ne hne]

theorem writeBlock_spec (self : SVChunk) (place : Place) (hy : y < 128) (type : Byte) :
    ∃ next, self.writeBlock place y type = some next ∧
      next.column place =
          { self.column place with block := Function.update (self.column place).block y type } ∧
        ∀ other, other ≠ place → next.column other = self.column other := by
  have hwrite := writeAt_cell self.blocks (blockCell_index place hy) type
  refine ⟨_, by rw [SVChunk.writeBlock, hwrite, Option.map_some], ?_, fun other hother => ?_⟩
  · simp only [SVChunk.column, Column.mk.injEq, true_and, and_true]
    funext y'
    by_cases heq : y' = y
    · subst heq
      simp only [dif_pos hy, Function.update_self]
    · rw [Function.update_of_ne heq]
      split_ifs with hy'
      · exact Function.update_of_ne (fun hcell => heq (blockCell_injective hcell).2) ..
      · rfl
  · simp only [SVChunk.column, Column.mk.injEq, true_and, and_true]
    funext y'
    split_ifs with hy'
    · exact Function.update_of_ne (fun hcell => hother (blockCell_injective hcell).1) ..
    · rfl

theorem orSkyLight_spec (self : SVChunk) (place : Place) (hy : y < 128) (light : Byte) :
    ∃ next, self.orSkyLight place y light = some next ∧
      next.column place =
          { self.column place with
            light := Function.update (self.column place).light (y / 2)
              ((self.column place).light (y / 2) ||| light) } ∧
        ∀ other, other ≠ place → next.column other = self.column other := by
  have hk : y / 2 < 64 := by omega
  have hindex : (place.2 * 128 + place.1 * 128 * 16 + y : ℤ).tdiv 2 = (lightCell place hk).val := by
    rw [Int.tdiv_eq_ediv_of_nonneg (by omega)]
    simp only [lightCell]
    omega
  have hread := readAt_cell self.skyLight hindex
  have hwrite := writeAt_cell self.skyLight hindex (self.skyLight (lightCell place hk) ||| light)
  refine ⟨_, by rw [SVChunk.orSkyLight, hread, Option.bind_some, hwrite, Option.map_some], ?_,
    fun other hother => ?_⟩
  · simp only [SVChunk.column, Column.mk.injEq, true_and, dif_pos hk]
    funext k'
    by_cases heq : k' = y / 2
    · subst heq
      simp only [dif_pos hk, Function.update_self]
    · rw [Function.update_of_ne heq]
      split_ifs with hk'
      · exact Function.update_of_ne (fun hcell => heq (lightCell_injective hcell).2) ..
      · rfl
  · simp only [SVChunk.column, Column.mk.injEq, true_and]
    funext k'
    split_ifs with hk'
    · exact Function.update_of_ne (fun hcell => hother (lightCell_injective hcell).1) ..
    · rfl

end Craftd.Survival
