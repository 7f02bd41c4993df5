import Craftd.Survival.ClientChunks
import Craftd.Library.CountingLoop

/-!
# The square and the spiral of a login

`cdsurvival_PlayerLogin` announces the square around the spawn chunk row by row, and then
sends its chunks in rings from the inside out.  The four sides of a ring hand their two
variables on to one another past their end.

The ring of radius `r` is what lies at Chebyshev distance `r` (`mem_ring`), each chunk once
(`nodup_ring`): each side leaves out the corner that the one before it ended with, and the
last one also the corner that the first began with.
-/

namespace Craftd.Survival

open CountingLoop

/-- A call of `cdsurvival_SendPreChunk` or of `cdsurvival_SendChunk`. -/
inductive LoginSend
  | preChunk (coords : SVChunkPosition)
  | chunk (coords : SVChunkPosition)
  deriving DecidableEq

/-- The calls so far; a login that goes on, or one that has returned `false`. -/
abbrev LoginSends := Except (List LoginSend) (List LoginSend)

variable (sends : LoginSend → Bool)

/-- A call, and the return where it fails. -/
def loginSend (calls : List LoginSend) (call : LoginSend) : LoginSends :=
  if sends call then .ok (calls ++ [call]) else .error (calls ++ [call])

/-- The two loops that announce the chunks. -/
def announceSquare (spawnChunk : SVChunkPosition) (radius : ℤ) (calls : List LoginSend) :
    LoginSends := do
  let row := fun calls i => do
    let (_, calls) ← up (fun calls j => loginSend sends calls
      (.preChunk ⟨spawnChunk.x + i, spawnChunk.z + j⟩)) radius (-radius) calls
    pure calls
  let (_, calls) ← up row radius (-radius) calls
  pure calls

/-- The body of the loop over `r`. -/
def sendRing (spawnChunk : SVChunkPosition) (calls : List LoginSend) (r : ℤ) : LoginSends := do
  let send := fun calls j k => loginSend sends calls (.chunk ⟨spawnChunk.x + j, spawnChunk.z + k⟩)
  let k := -r
  let (_, calls) ← up (fun calls j => send calls j k) r (-r) calls
  let j := r
  let (_, calls) ← up (fun calls k => send calls j k) r (k + 1) calls
  let k := r
  let (_, calls) ← down (fun calls j => send calls j k) (-r) (j - 1) calls
  let j := -r
  -- the only strict bound: the corner was sent first
  let (_, calls) ← down (fun calls k => send calls j k) (-r + 1) (k - 1) calls
  pure calls

/-- The chunk of the spawn position and the rings around it. -/
def sendSpiral (spawnChunk : SVChunkPosition) (radius : ℤ) (calls : List LoginSend) :
    LoginSends := do
  let calls ← loginSend sends calls (.chunk spawnChunk)
  let (_, calls) ← up (sendRing sends spawnChunk) radius 1 calls
  pure calls

/-- `cdsurvival_PlayerLogin` for any `maxRadius`, without the position packet between its two
parts. -/
def loginSends (spawnPosition : SVBlockPosition) (radius : ℤ) (status : Bool) : LoginSends :=
  if status then do
    let spawnChunk := blockPositionToChunkPosition spawnPosition
    let calls ← announceSquare sends spawnChunk radius []
    sendSpiral sends spawnChunk radius calls
  else .ok []

/-- The chunks announced. -/
def announced (calls : List LoginSend) : List SVChunkPosition :=
  calls.filterMap fun
    | .preChunk coords => some coords
    | .chunk _ => none

/-- The chunks sent. -/
def delivered (calls : List LoginSend) : List SVChunkPosition :=
  calls.filterMap fun
    | .preChunk _ => none
    | .chunk coords => some coords

/-! ## The square and the rings -/

/-- Chunks that differ in `x` alone. -/
def row (spawnChunk : SVChunkPosition) (k : ℤ) (values : List ℤ) : List SVChunkPosition :=
  values.map fun j => ⟨spawnChunk.x + j, spawnChunk.z + k⟩

/-- Chunks that differ in `z` alone. -/
def column (spawnChunk : SVChunkPosition) (j : ℤ) (values : List ℤ) : List SVChunkPosition :=
  values.map fun k => ⟨spawnChunk.x + j, spawnChunk.z + k⟩

/-- The square, column by column. -/
def square (spawnChunk : SVChunkPosition) (radius : ℤ) : List SVChunkPosition :=
  (Int.range (-radius) (radius + 1)).flatMap fun i =>
    column spawnChunk i (Int.range (-radius) (radius + 1))

/-- The four sides of a ring. -/
def ring (spawnChunk : SVChunkPosition) (r : ℤ) : List SVChunkPosition :=
  row spawnChunk (-r) (Int.range (-r) (r + 1)) ++ column spawnChunk r (Int.range (-r + 1) (r + 1))
    ++ row spawnChunk r (Int.range (-r) r).reverse
    ++ column spawnChunk (-r) (Int.range (-r + 1) r).reverse

/-- The rings from the inside out; the innermost one is the chunk of the spawn position. -/
def spiral (spawnChunk : SVChunkPosition) (radius : ℤ) : List SVChunkPosition :=
  (Int.range 0 (radius + 1)).flatMap (ring spawnChunk)

/-- The Chebyshev distance. -/
def ringOf (spawnChunk position : SVChunkPosition) : ℤ :=
  max |position.x - spawnChunk.x| |position.z - spawnChunk.z|

variable {sends : LoginSend → Bool} {spawnChunk position : SVChunkPosition} {radius r : ℤ}

theorem mem_row {k : ℤ} {values : List ℤ} :
    position ∈ row spawnChunk k values ↔
      position.x - spawnChunk.x ∈ values ∧ position.z - spawnChunk.z = k := by
  rw [row, List.mem_map]
  refine ⟨?_, fun ⟨hmem, hk⟩ => ⟨_, hmem, ?_⟩⟩
  · intro ⟨j, hmem, heq⟩
    subst heq
    simpa using hmem
  · rw [← hk]
    simp

theorem mem_column {j : ℤ} {values : List ℤ} :
    position ∈ column spawnChunk j values ↔
      position.x - spawnChunk.x = j ∧ position.z - spawnChunk.z ∈ values := by
  rw [column, List.mem_map]
  refine ⟨?_, fun ⟨hj, hmem⟩ => ⟨_, hmem, ?_⟩⟩
  · intro ⟨k, hmem, heq⟩
    subst heq
    simpa using hmem
  · rw [← hj]
    simp

theorem nodup_row {k : ℤ} {values : List ℤ} (h : values.Nodup) : (row spawnChunk k values).Nodup :=
  h.map fun _ _ heq => Int.add_left_cancel (congrArg SVChunkPosition.x heq)

theorem nodup_column {j : ℤ} {values : List ℤ} (h : values.Nodup) :
    (column spawnChunk j values).Nodup :=
  h.map fun _ _ heq => Int.add_left_cancel (congrArg SVChunkPosition.z heq)

theorem mem_ring (hr : 0 ≤ r) : position ∈ ring spawnChunk r ↔ ringOf spawnChunk position = r := by
  simp only [ring, ringOf, List.mem_append, mem_row, mem_column, List.mem_reverse,
    Int.mem_range_iff, abs_eq_max_neg]
  unfold SVInteger
  omega

/-- No two sides of a ring meet. -/
theorem nodup_ring (spawnChunk : SVChunkPosition) (r : ℤ) : (ring spawnChunk r).Nodup := by
  have hvalues := CountingLoop.nodup_range
  refine List.nodup_append'.mpr ⟨List.nodup_append'.mpr ⟨List.nodup_append'.mpr
    ⟨nodup_row (hvalues _ _), nodup_column (hvalues _ _), ?_⟩,
      nodup_row (List.nodup_reverse.mpr (hvalues _ _)), ?_⟩,
      nodup_column (List.nodup_reverse.mpr (hvalues _ _)), ?_⟩
  all_goals
    intro position hearlier hlater
    simp only [List.mem_append, mem_row, mem_column, List.mem_reverse, Int.mem_range_iff]
      at hearlier hlater
    unfold SVInteger at *
    omega

/-- The spawn chunk is the innermost ring. -/
theorem spiral_eq_cons (hradius : 0 ≤ radius) :
    spiral spawnChunk radius =
      spawnChunk :: (Int.range 1 (radius + 1)).flatMap (ring spawnChunk) := by
  have hcentre : ring spawnChunk 0 = [spawnChunk] := by simp [ring, row, column, Int.range]
  rw [spiral, range_cons (by omega), List.flatMap_cons, hcentre]
  rfl

theorem mem_spiral :
    position ∈ spiral spawnChunk radius ↔ ringOf spawnChunk position ≤ radius := by
  have hnonneg : 0 ≤ ringOf spawnChunk position := le_max_of_le_left (abs_nonneg _)
  rw [spiral, List.mem_flatMap]
  refine ⟨?_, fun hle => ?_⟩
  · intro ⟨r, hr, hmem⟩
    have hbounds := Int.mem_range_iff.mp hr
    have hring := (mem_ring hbounds.1).mp hmem
    omega
  · exact ⟨_, Int.mem_range_iff.mpr ⟨hnonneg, by omega⟩, (mem_ring hnonneg).mpr rfl⟩

theorem mem_square :
    position ∈ square spawnChunk radius ↔ ringOf spawnChunk position ≤ radius := by
  simp only [square, ringOf, List.mem_flatMap, mem_column, Int.mem_range_iff, abs_eq_max_neg]
  refine ⟨?_, fun hle => ⟨_, ?_, rfl, ?_⟩⟩
  · intro ⟨i, hi, heq, hk⟩
    unfold SVInteger at heq
    omega
  all_goals omega

theorem nodup_spiral (spawnChunk : SVChunkPosition) (radius : ℤ) :
    (spiral spawnChunk radius).Nodup := by
  refine List.nodup_flatMap.mpr ⟨fun r _ => nodup_ring spawnChunk r, ?_⟩
  refine (CountingLoop.nodup_range 0 (radius + 1)).pairwise_of_forall_ne fun r hr s hs hne => ?_
  intro position hposition hother
  have hringR := (mem_ring (Int.mem_range_iff.mp hr).1).mp hposition
  have hringS := (mem_ring (Int.mem_range_iff.mp hs).1).mp hother
  exact hne (hringR.symm.trans hringS)

private theorem spiral_ordered (spawnChunk : SVChunkPosition) (radius : ℤ) :
    (spiral spawnChunk radius).Pairwise fun earlier later =>
      ringOf spawnChunk earlier ≤ ringOf spawnChunk later := by
  have hrange : (Int.range 0 (radius + 1)).Pairwise (· < ·) :=
    List.pairwise_lt_range.map _ fun a b hlt => by omega
  refine List.pairwise_flatMap.mpr ⟨fun r hr => ?_, ?_⟩
  · have hring := fun position => @mem_ring spawnChunk position r (Int.mem_range_iff.mp hr).1
    refine List.pairwise_of_forall_mem_list fun a ha b hb => ?_
    rw [(hring a).mp ha, (hring b).mp hb]
  · refine hrange.imp_of_mem fun hr hs hlt a ha b hb => ?_
    rw [(mem_ring (Int.mem_range_iff.mp hr).1).mp ha, (mem_ring (Int.mem_range_iff.mp hs).1).mp hb]
    exact hlt.le

/-! ## What a login sends -/

variable (hsends : ∀ call, sends call = true)

include hsends

theorem loginSend_eq (calls : List LoginSend) (call : LoginSend) :
    loginSend sends calls call = .ok (calls ++ [call]) := if_pos (hsends call)

/-- A side of a ring, or a column of the square, walked upwards. -/
theorem up_sends (call : ℤ → LoginSend) (first last : ℤ) (calls : List LoginSend) :
    up (fun calls i => loginSend sends calls (call i)) last first calls =
      .ok (max first (last + 1), calls ++ (Int.range first (last + 1)).map call) := by
  rw [up_append (fun i => [call i]) fun i _ _ calls => loginSend_eq hsends calls (call i),
    ← List.map_eq_flatMap]

private theorem down_sends (call : ℤ → LoginSend) (first last : ℤ) (calls : List LoginSend) :
    down (fun calls i => loginSend sends calls (call i)) last first calls =
      .ok (min first (last - 1), calls ++ (Int.range last (first + 1)).reverse.map call) := by
  rw [down_append (fun i => [call i]) fun i _ _ calls =>
    loginSend_eq hsends calls (call i), ← List.map_eq_flatMap]

private theorem announceSquare_eq (calls : List LoginSend) :
    announceSquare sends spawnChunk radius calls =
      .ok (calls ++ (square spawnChunk radius).map .preChunk) := by
  unfold announceSquare
  simp only [up_sends hsends]
  rw [up_append fun i => (column spawnChunk i (Int.range (-radius) (radius + 1))).map .preChunk]
  · rw [square, List.map_flatMap]
    rfl
  · intro i _ _ calls
    rw [column, List.map_map]
    rfl

private theorem sendRing_eq (calls : List LoginSend) :
    sendRing sends spawnChunk calls r = .ok (calls ++ (ring spawnChunk r).map .chunk) := by
  unfold sendRing
  simp only [up_sends hsends, down_sends hsends]
  simp only [ring, row, column, List.map_append, List.map_map, ← List.append_assoc,
    Int.sub_add_cancel]
  rfl

private theorem sendSpiral_eq (hradius : 0 ≤ radius) (calls : List LoginSend) :
    sendSpiral sends spawnChunk radius calls =
      .ok (calls ++ (spiral spawnChunk radius).map .chunk) := by
  have hrings : up (sendRing sends spawnChunk) radius 1 (calls ++ [.chunk spawnChunk]) =
      .ok (max 1 (radius + 1), calls ++ [.chunk spawnChunk] ++
        (Int.range 1 (radius + 1)).flatMap fun r => (ring spawnChunk r).map .chunk) :=
    up_append _ (fun _ _ _ => sendRing_eq hsends) _
  unfold sendSpiral
  simp only [loginSend_eq hsends]
  change (up (sendRing sends spawnChunk) radius 1 (calls ++ [.chunk spawnChunk]) >>=
    fun result => pure result.2) = _
  rw [hrings, spiral_eq_cons hradius, List.map_cons, List.map_flatMap, List.append_assoc]
  rfl

private theorem loginSends_eq (hradius : 0 ≤ radius) (spawnPosition : SVBlockPosition) :
    loginSends sends spawnPosition radius true =
      .ok ((square (blockPositionToChunkPosition spawnPosition) radius).map .preChunk ++
        (spiral (blockPositionToChunkPosition spawnPosition) radius).map .chunk) := by
  unfold loginSends
  simp only [if_true, announceSquare_eq hsends]
  exact sendSpiral_eq hsends hradius _

omit hsends

private theorem announced_append (squared spiralled : List SVChunkPosition) :
    announced (squared.map .preChunk ++ spiralled.map .chunk) = squared := by
  simp [announced, List.filterMap_append, List.filterMap_map]

private theorem delivered_append (squared spiralled : List SVChunkPosition) :
    delivered (squared.map .preChunk ++ spiralled.map .chunk) = spiralled := by
  simp [delivered, List.filterMap_append, List.filterMap_map]

/-- **The spiral covers the square.**  A login whose sends all succeed sends the spawn chunk
first, each chunk of the square once and no other, ring after ring, and just what it announced. -/
theorem login_spiral_covers (sends : LoginSend → Bool) (spawnPosition : SVBlockPosition)
    (radius : ℤ) (hradius : 0 ≤ radius) (hsends : ∀ call, sends call = true) :
    let spawnChunk := blockPositionToChunkPosition spawnPosition
    ∃ calls, loginSends sends spawnPosition radius true = .ok calls ∧
      (delivered calls).head? = some spawnChunk ∧ (delivered calls).Nodup ∧
      (∀ position, position ∈ delivered calls ↔
        |position.x - spawnChunk.x| ≤ radius ∧ |position.z - spawnChunk.z| ≤ radius) ∧
      (delivered calls).Pairwise (fun earlier later =>
        ringOf spawnChunk earlier ≤ ringOf spawnChunk later) ∧
      ∀ position, position ∈ delivered calls ↔ position ∈ announced calls := by
  refine ⟨_, loginSends_eq hsends hradius spawnPosition, ?_⟩
  rw [delivered_append, announced_append]
  refine ⟨?_, nodup_spiral _ _, fun position => ?_, spiral_ordered _ _, fun position => ?_⟩
  · rw [spiral_eq_cons hradius, List.head?_cons]
  · rw [mem_spiral, ringOf, max_le_iff]
  · rw [mem_spiral, mem_square]

/-- The radius of the code, around a chunk with negative coordinates. -/
theorem login_spiral_covers_default :
    ∃ calls, loginSends (fun _ => true) ⟨-100, 64, 7⟩ 10 true = .ok calls ∧
      (delivered calls).head? = some ⟨-7, 0⟩ :=
  have ⟨calls, hcalls, hhead, _⟩ :=
    login_spiral_covers (fun _ => true) ⟨-100, 64, 7⟩ 10 (by decide) fun _ => rfl
  ⟨calls, hcalls, hhead⟩

end Craftd.Survival
