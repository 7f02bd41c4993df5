import Craftd.Survival.ClientChunks
import Mathlib.Data.Rat.Lemmas
import Mathlib.Tactic.NormNum

/-!
# The systems of coordinates

A translation of the conversions between precise, absolute, block and chunk positions, and
of `SV_IsDistanceGreater` and `SV_RelativeMove`.

A cast of a double goes towards zero, a shift towards minus infinity.  So the two ways from
a precise position to its block agree on the half of the world with positive coordinates,
and on the other half only where a coordinate is whole (`positions_commute_iff`).
-/

namespace Craftd.Survival

/-- `SVAbsolutePosition`. -/
structure SVAbsolutePosition where
  x : SVInteger
  y : SVInteger
  z : SVInteger
  deriving DecidableEq, Repr

/-- `SVRelativePosition`; each coordinate is an `SVByte`. -/
structure SVRelativePosition where
  x : BitVec 8
  y : BitVec 8
  z : BitVec 8
  deriving DecidableEq, Repr

/-- The conversion of an `int` to an `SVByte`. -/
def signedByte (value : SVInteger) : SVInteger := (BitVec.ofInt 8 value).toInt

namespace SVDouble

/-- A double times 32.0; a power of two never rounds. -/
def times32 : SVDouble → SVDouble
  | .finite value => .finite (value * 32)
  | value => value

/-- The difference of two doubles, which the machine rounds. -/
def sub (round : ℚ → SVDouble) : SVDouble → SVDouble → SVDouble
  | .finite a, .finite b => round (a - b)
  | .infinite a, .infinite b => if a = b then .nan else .infinite a
  | .infinite a, .finite _ => .infinite a
  | .finite _, .infinite b => .infinite !b
  | _, _ => .nan

end SVDouble

/-! ## Conversions -/

/-- `SV_BlockPositionToPrecisePosition`. -/
def blockPositionToPrecisePosition (position : SVBlockPosition) : SVPrecisePosition :=
  ⟨.finite position.x, .finite position.y, .finite position.z⟩

/-- `SV_AbsolutePositionToChunkPosition`. -/
def absolutePositionToChunkPosition (position : SVAbsolutePosition) : SVChunkPosition :=
  ⟨position.x >>> 9, position.z >>> 9⟩

/-- `SV_AbsolutePositionToBlockPosition`. -/
def absolutePositionToBlockPosition (position : SVAbsolutePosition) : SVBlockPosition :=
  ⟨position.x >>> 5, signedByte (position.y >>> 5), position.z >>> 5⟩

variable (machine : SVDouble → SVInteger)

/-- `SV_PrecisePositionToBlockPosition`. -/
def precisePositionToBlockPosition (position : SVPrecisePosition) : SVBlockPosition :=
  { x := SVDouble.toInteger machine position.x
    y := signedByte (SVDouble.toInteger machine position.y)
    z := SVDouble.toInteger machine position.z }

/-- `SV_PrecisePositionToAbsolutePosition`. -/
def precisePositionToAbsolutePosition (position : SVPrecisePosition) : SVAbsolutePosition :=
  { x := SVDouble.toInteger machine position.x.times32
    y := SVDouble.toInteger machine position.y.times32
    z := SVDouble.toInteger machine position.z.times32 }

/-- `abs`, which takes an `int`; the negation of the least one wraps. -/
def integerAbs (value : SVInteger) : SVInteger :=
  if value < 0 then (BitVec.ofInt 32 (-value)).toInt else value

/-- `SV_IsDistanceGreater`. -/
def isDistanceGreater (round : ℚ → SVDouble) (a b : SVPrecisePosition) (maxDistance : ℤ) : Bool :=
  let distance := fun a b => integerAbs (SVDouble.toInteger machine (SVDouble.sub round a b))
  maxDistance < distance a.x b.x || maxDistance < distance a.y b.y ||
    maxDistance < distance a.z b.z

/-- `SV_RelativeMove`. -/
def relativeMove (a b : SVPrecisePosition) : SVRelativePosition :=
  let absoluteA := precisePositionToAbsolutePosition machine a
  let absoluteB := precisePositionToAbsolutePosition machine b
  { x := BitVec.ofInt 8 (absoluteA.x - absoluteB.x)
    y := BitVec.ofInt 8 (absoluteA.y - absoluteB.y)
    z := BitVec.ofInt 8 (absoluteA.z - absoluteB.z) }

/-! ## Coordinates on the grid of the absolute positions -/

/-- The coordinate of `k` steps of a 32nd. -/
def gridDouble (k : ℤ) : SVDouble := .finite (k / 32)

/-- The cast of a quotient divides the numerator, towards zero. -/
theorem num_tdiv_den (k : ℤ) {n : ℤ} (hn : 0 < n) :
    (k / n : ℚ).num.tdiv (k / n : ℚ).den = k.tdiv n := by
  obtain ⟨c, hk, hden⟩ := Rat.exists_eq_mul_div_num_and_eq_mul_div_den k hn.ne'
  have hc : 0 < c := by
    refine pos_of_mul_pos_left ?_ (Int.natCast_nonneg (k / n : ℚ).den)
    rw [← hden]
    exact hn
  calc (k / n : ℚ).num.tdiv (k / n : ℚ).den
      = (c * (k / n : ℚ).num).tdiv (c * (k / n : ℚ).den) := (Int.mul_tdiv_mul_of_pos _ _ hc).symm
    _ = k.tdiv n := by rw [← hk, ← hden]

variable {machine : SVDouble → SVInteger} {k : ℤ}

theorem toInteger_times32_grid (hk : -2 ^ 31 ≤ k ∧ k < 2 ^ 31) :
    SVDouble.toInteger machine (gridDouble k).times32 = k := by
  have hvalue : (k : ℚ) / 32 * 32 = (k : ℚ) := div_mul_cancel₀ _ (by norm_num)
  simp only [gridDouble, SVDouble.times32, hvalue, SVDouble.toInteger, Rat.num_intCast,
    Rat.den_intCast, Nat.cast_one, Int.tdiv_one, if_pos hk]

theorem toInteger_grid (hk : -2 ^ 31 ≤ k ∧ k < 2 ^ 31) :
    SVDouble.toInteger machine (gridDouble k) = k.tdiv 32 := by
  have hvalue : (k / 32 : ℚ).num.tdiv (k / 32 : ℚ).den = k.tdiv 32 := num_tdiv_den k (by decide)
  have hrange : -2 ^ 31 ≤ k.tdiv 32 ∧ k.tdiv 32 < 2 ^ 31 := by
    have hsign : Int.sign 32 = 1 := rfl
    rw [Int.tdiv_eq_ediv, hsign]
    split_ifs <;> omega
  simp only [gridDouble, SVDouble.toInteger, hvalue, if_pos hrange]

theorem tdiv_eq_shiftRight_iff : k.tdiv 32 = k >>> 5 ↔ 0 ≤ k ∨ 32 ∣ k := by
  have hshift : k >>> 5 = k / 32 :=
    (Int.shiftRight_natCast_right k 5).trans (Int.shiftRight_eq_div_pow k 5)
  rw [hshift, Int.tdiv_eq_ediv]
  split_ifs with hcase
  · exact iff_of_true (Int.add_zero _) hcase
  · exact iff_of_false (by simp) hcase

/-- A chunk is 16 blocks wide, in either system. -/
theorem shiftRight_nine (k : ℤ) : k >>> 9 = k >>> 5 >>> 4 := Int.shiftRight_add' k 5 4

/-! ## Do the systems commute? -/

/-- Both ways from a precise position to the chunk and to the block end at the same place. -/
def Commutes (machine : SVDouble → SVInteger) (position : SVPrecisePosition) : Prop :=
  let absolute := precisePositionToAbsolutePosition machine position
  precisePositionToChunkPosition machine position = absolutePositionToChunkPosition absolute ∧
    (precisePositionToBlockPosition machine position).x =
      (absolutePositionToBlockPosition absolute).x ∧
    (precisePositionToBlockPosition machine position).z =
      (absolutePositionToBlockPosition absolute).z

/-- **The systems of coordinates commute** at a position on the grid of the absolute positions
exactly when its coordinates are not both negative and broken. -/
theorem positions_commute_iff (machine : SVDouble → SVInteger) (x z : ℤ) (y : SVDouble)
    (hx : -2 ^ 31 ≤ x ∧ x < 2 ^ 31) (hz : -2 ^ 31 ≤ z ∧ z < 2 ^ 31) :
    Commutes machine ⟨gridDouble x, y, gridDouble z⟩ ↔ (0 ≤ x ∨ 32 ∣ x) ∧ (0 ≤ z ∨ 32 ∣ z) := by
  unfold Commutes
  simp only [precisePositionToChunkPosition, precisePositionToBlockPosition,
    precisePositionToAbsolutePosition, absolutePositionToChunkPosition,
    absolutePositionToBlockPosition, toInteger_grid hx, toInteger_grid hz,
    toInteger_times32_grid hx, toInteger_times32_grid hz, SVChunkPosition.mk.injEq,
    shiftRight_nine, tdiv_eq_shiftRight_iff]
  refine and_iff_right_of_imp fun ⟨hwholeX, hwholeZ⟩ => ?_
  rw [tdiv_eq_shiftRight_iff.mpr hwholeX, tdiv_eq_shiftRight_iff.mpr hwholeZ]
  exact ⟨rfl, rfl⟩

/-- A whole negative coordinate and a broken positive one. -/
theorem positions_commute_iff_mixed :
    Commutes (fun _ => 0) ⟨gridDouble (-64), .finite 64, gridDouble 49⟩ :=
  (positions_commute_iff _ (-64) 49 _ (by decide) (by decide)).mpr
    ⟨.inr (by decide), .inl (by decide)⟩

/-- Half a block to the west of the origin is in chunk 0 for one way and in chunk -1 for the
other. -/
theorem positions_differ :
    ¬ ∀ (machine : SVDouble → SVInteger) (x z : ℤ) (y : SVDouble),
      -2 ^ 31 ≤ x ∧ x < 2 ^ 31 → -2 ^ 31 ≤ z ∧ z < 2 ^ 31 →
        Commutes machine ⟨gridDouble x, y, gridDouble z⟩ := by
  intro hclaim
  have hchunk := (hclaim (fun _ => 0) (-16) 0 (.finite 0) (by decide) (by decide)).1
  exact absurd hchunk (by decide +kernel)

/-! ## Relative moves -/

/-- A client that adds the relative move to the absolute position of `a` stands at that of `b`. -/
def Lands (machine : SVDouble → SVInteger) (a b : SVPrecisePosition) : Prop :=
  let old := precisePositionToAbsolutePosition machine a
  let new := precisePositionToAbsolutePosition machine b
  let move := relativeMove machine a b
  old.x + move.x.toInt = new.x ∧ old.y + move.y.toInt = new.y ∧ old.z + move.z.toInt = new.z

/-- A coordinate that stays or falls by four blocks. -/
def StaysOrFallsFour (old new : SVInteger) : Prop := new = old ∨ new = old - 4 * 32

/-- The byte is the difference the wrong way round, so it fits only where it is its own negative. -/
theorem lands_axis_iff (old new : SVInteger) :
    old + (BitVec.ofInt 8 (old - new)).toInt = new ↔ StaysOrFallsFour old new := by
  have hsize : ((2 ^ 8 : ℕ) : ℤ) = 256 := rfl
  rw [BitVec.toInt_ofInt, Int.bmod_def, hsize]
  unfold StaysOrFallsFour SVInteger at *
  split_ifs <;> omega

/-- **A relative move lands where a teleport would** exactly when each absolute coordinate stays
or falls by four blocks. -/
theorem relative_move_lands_iff (machine : SVDouble → SVInteger) (a b : SVPrecisePosition) :
    Lands machine a b ↔
      StaysOrFallsFour (precisePositionToAbsolutePosition machine a).x
          (precisePositionToAbsolutePosition machine b).x ∧
        StaysOrFallsFour (precisePositionToAbsolutePosition machine a).y
          (precisePositionToAbsolutePosition machine b).y ∧
        StaysOrFallsFour (precisePositionToAbsolutePosition machine a).z
          (precisePositionToAbsolutePosition machine b).z := by
  unfold Lands relativeMove
  simp only [lands_axis_iff]

/-- The position of whole numbers of steps. -/
def gridPosition (x y z : ℤ) : SVPrecisePosition := ⟨gridDouble x, gridDouble y, gridDouble z⟩

/-- A step of a 32nd to the east is sent as one to the west. -/
theorem relative_move_backwards :
    ¬ ∀ (machine : SVDouble → SVInteger) (x y z x' y' z' : ℤ),
      (∀ k ∈ [x, y, z, x', y', z'], -2 ^ 31 ≤ k ∧ k < 2 ^ 31) →
        isDistanceGreater machine .finite (gridPosition x y z) (gridPosition x' y' z') 4 = false →
          Lands machine (gridPosition x y z) (gridPosition x' y' z') := by
  intro hclaim
  have hland := (hclaim (fun _ => 0) 0 2048 0 1 2048 0 (by decide) (by decide +kernel)).1
  exact absurd hland (by decide +kernel)

end Craftd.Survival
