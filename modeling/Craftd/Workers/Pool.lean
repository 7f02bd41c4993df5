import Craftd.Library.System
import Mathlib.Data.List.Nodup
import Mathlib.Data.List.TakeDrop

/-!
# The workers of a pool

`CD_SpawnWorkers`, `CD_KillWorkers` and `CD_KillWorkersAvoid` of `Workers.c`.  A worker is
named by its id, which no two of them share.  A run is any sequence of these calls, and its
events are the workers spawned, stopped and destroyed.

The loops of a kill go from the last index down to 1, whatever the number: they stop and
destroy all workers but the one at index 0, and only then the number says how many entries
go (`killWorkers_eq`, `killWorkersAvoid_eq`).  So a kill is right exactly when it is one of
all workers but one (`kill_right_iff`).
-/

namespace Craftd.Workers.Pool

open StepSystem

/-- The difference of two `size_t`. -/
@[irreducible] def sizeSub (a b : ℕ) : ℕ := (a + 2 ^ 64 - b) % 2 ^ 64

/-- What `CDWorkers` holds beside its jobs; the array has room for as many entries as `item`. -/
structure CDWorkers where
  last : ℕ
  length : ℕ
  item : List ℕ
  deriving DecidableEq

/-- What happens to a worker. -/
inductive WorkerEvent
  | spawned (worker : ℕ)
  | stopped (worker : ℕ)
  | destroyed (worker : ℕ)
  deriving DecidableEq

/-- `CD_CreateWorkers`. -/
def createWorkers : CDWorkers := ⟨0, 0, []⟩

/-- `CD_SpawnWorkers`, which hands the new workers to `CD_ConcatWorkers`; no array is so large
that its size is not a `size_t`. -/
def spawnWorkers (self : CDWorkers) (number : ℕ) : Option (CDWorkers × List WorkerEvent) :=
  if 8 * (self.length + number + 1) < 2 ^ 64 then
    let result := (List.range number).map fun i => self.last + 1 + i
    some ({ last := self.last + number, length := self.length + number,
            item := self.item ++ result }, result.map .spawned)
  else none

/-- `for (; (self->length - i) < self->length; i--)` from an index on.  The test never holds of
index 0. -/
def killLoop {State : Type*} (length : ℕ) (body : State → ℕ → Option State) :
    ℕ → State → Option State
  | 0, state => some state
  | i + 1, state =>
      if sizeSub length (i + 1) < length then do
        let next ← body state (i + 1)
        killLoop length body i next
      else some state

/-- `CD_StopWorker` at an index. -/
def stopWorker (item : List ℕ) (events : List WorkerEvent) (i : ℕ) : Option (List WorkerEvent) := do
  let worker ← item[i]?
  some (events ++ [.stopped worker])

/-- `CD_DestroyWorker` at an index. -/
def destroyWorker (item : List ℕ) (events : List WorkerEvent) (i : ℕ) :
    Option (List WorkerEvent) := do
  let worker ← item[i]?
  some (events ++ [.destroyed worker])

/-- The second half of a kill: the workers are destroyed and the array is cut. -/
def destroyWorkers (self : CDWorkers) (number : ℕ) (events : List WorkerEvent) :
    Option (CDWorkers × List WorkerEvent) := do
  let number := if self.length ≤ number then sizeSub self.length 1 else number
  let events ← killLoop self.length (destroyWorker self.item) (sizeSub self.length 1) events
  let length := sizeSub self.length number
  some ({ self with length := length, item := self.item.take length }, events)

/-- `CD_KillWorkers`. -/
def killWorkers (self : CDWorkers) (number : ℕ) : Option (CDWorkers × List WorkerEvent) := do
  let events ← killLoop self.length (stopWorker self.item) (sizeSub self.length 1) []
  destroyWorkers self number events

/-- The array, the variable `worker` and what was stopped. -/
structure Avoiding where
  item : List ℕ
  worker : ℕ
  events : List WorkerEvent

/-- The body of the first loop of `CD_KillWorkersAvoid`. -/
def avoidWorker (self : Avoiding) (i : ℕ) : Option Avoiding := do
  let current ← self.item[i]?
  let first ← self.item[0]?
  let self :=
    if current = self.worker then
      { self with item := (self.item.set 0 current).set i first, worker := first }
    else self
  let events ← stopWorker self.item self.events i
  some { self with events := events }

/-- `CD_KillWorkersAvoid`. -/
def killWorkersAvoid (self : CDWorkers) (number worker : ℕ) :
    Option (CDWorkers × List WorkerEvent) := do
  let avoiding ← killLoop self.length avoidWorker (sizeSub self.length 1) ⟨self.item, worker, []⟩
  destroyWorkers { self with item := avoiding.item } number avoiding.events

/-- A call. -/
inductive Action
  | spawn (number : ℕ)
  | kill (number : ℕ)
  | killAvoid (number worker : ℕ)

/-- The calls as a step system. -/
def system : System CDWorkers Action WorkerEvent where
  init := createWorkers
  step self
    | .spawn number => spawnWorkers self number
    | .kill number => killWorkers self number
    | .killAvoid number worker => killWorkersAvoid self number worker

/-! ## The loops -/

variable {self next : CDWorkers} {number worker : ℕ} {events emitted : List WorkerEvent}

theorem sizeSub_of_le {a b : ℕ} (hle : b ≤ a) (ha : a < 2 ^ 64) : sizeSub a b = a - b := by
  have hsplit : a + 2 ^ 64 - b = a - b + 2 ^ 64 := by omega
  rw [sizeSub, hsplit, Nat.add_mod_right, Nat.mod_eq_of_lt (by omega)]

theorem killLoop_succ {State : Type*} {length i : ℕ} {body : State → ℕ → Option State}
    {state : State} (hi : i + 1 < length) (hlength : length < 2 ^ 64) :
    killLoop length body (i + 1) state = (body state (i + 1)).bind (killLoop length body i) := by
  have hguard : sizeSub length (i + 1) < length := by
    rw [sizeSub_of_le hi.le hlength]
    omega
  rw [killLoop, if_pos hguard]
  rfl

theorem reverse_take_tail {item : List ℕ} {i : ℕ} (hi : i + 1 < item.length) :
    (item.tail.take (i + 1)).reverse = item[i + 1] :: (item.tail.take i).reverse := by
  have hentry : item.tail[i]? = some item[i + 1] := by
    rw [List.getElem?_tail, List.getElem?_eq_getElem hi]
  rw [List.take_add_one, hentry, Option.toList_some, List.reverse_append, List.reverse_singleton,
    List.singleton_append]

/-- A loop that reads the array visits the entries behind the first, the last one first. -/
theorem killLoop_reads (item : List ℕ) (event : ℕ → WorkerEvent)
    {body : List WorkerEvent → ℕ → Option (List WorkerEvent)}
    (hbody : ∀ events i, body events i = item[i]?.map fun worker => events ++ [event worker])
    (hlength : item.length < 2 ^ 64) {i : ℕ} (hi : i < item.length) (events : List WorkerEvent) :
    killLoop item.length body i events =
      some (events ++ (item.tail.take i).reverse.map event) := by
  induction i generalizing events with
  | zero => rw [killLoop, List.take_zero, List.reverse_nil, List.map_nil, List.append_nil]
  | succ i ih =>
      rw [killLoop_succ hi hlength, hbody, List.getElem?_eq_getElem hi, Option.map_some,
        Option.bind_some, ih (by omega), reverse_take_tail hi, List.map_cons, List.append_assoc]
      rfl

private theorem stopWorker_eq (item : List ℕ) (events : List WorkerEvent) (i : ℕ) :
    stopWorker item events i = item[i]?.map fun worker => events ++ [.stopped worker] := by
  cases hentry : item[i]? <;> simp [stopWorker, hentry]

private theorem destroyWorker_eq (item : List ℕ) (events : List WorkerEvent) (i : ℕ) :
    destroyWorker item events i = item[i]?.map fun worker => events ++ [.destroyed worker] := by
  cases hentry : item[i]? <;> simp [destroyWorker, hentry]

/-- The loop of `CD_KillWorkersAvoid` as long as it does not meet the worker. -/
theorem killLoop_avoids {item : List ℕ} (hlength : item.length < 2 ^ 64) {i : ℕ}
    (hi : i < item.length) (hother : worker ∉ item.tail.take i) (events : List WorkerEvent) :
    killLoop item.length avoidWorker i ⟨item, worker, events⟩ =
      some ⟨item, worker, events ++ (item.tail.take i).reverse.map .stopped⟩ := by
  induction i generalizing events with
  | zero => rw [killLoop, List.take_zero, List.reverse_nil, List.map_nil, List.append_nil]
  | succ i ih =>
      have hvisited := reverse_take_tail hi
      have hmem : ∀ other, other ∈ item.tail.take (i + 1) ↔
          other = item[i + 1] ∨ other ∈ item.tail.take i := fun other => by
        rw [← List.mem_reverse, hvisited, List.mem_cons, List.mem_reverse]
      have hne : item[i + 1] ≠ worker := fun heq => hother ((hmem _).mpr (.inl heq.symm))
      have hstep : avoidWorker ⟨item, worker, events⟩ (i + 1) =
          some ⟨item, worker, events ++ [.stopped item[i + 1]]⟩ := by
        simp only [avoidWorker, stopWorker, List.getElem?_eq_getElem hi,
          List.getElem?_eq_getElem (Nat.zero_lt_of_lt hi), bind, Option.bind_some, if_neg hne]
      rw [killLoop_succ hi hlength, hstep, Option.bind_some,
        ih (by omega) (fun hmem' => hother ((hmem _).mpr (.inr hmem'))), hvisited, List.map_cons,
        List.append_assoc]
      rfl

private theorem killLoop_swaps {first : ℕ} {before after : List ℕ}
    (hnodup : (first :: (before ++ worker :: after)).Nodup)
    (hlength : (first :: (before ++ worker :: after)).length < 2 ^ 64) {m : ℕ}
    (hm : m ≤ after.length) (events : List WorkerEvent) :
    killLoop (first :: (before ++ worker :: after)).length avoidWorker (before.length + 1 + m)
        ⟨first :: (before ++ worker :: after), worker, events⟩ =
      some ⟨worker :: (before ++ first :: after), first,
        events ++ (before ++ first :: after.take m).reverse.map .stopped⟩ := by
  have hfirst : first ∉ before := fun hmem =>
    (List.nodup_cons.mp hnodup).1 (List.mem_append_left _ hmem)
  have hsize : (first :: (before ++ worker :: after)).length =
      before.length + after.length + 2 := by
    simp only [List.length_cons, List.length_append]
    omega
  induction m generalizing events with
  -- the worker itself: the two change places, and the entries in front are not the first worker
  | zero =>
      have hswap : ((first :: (before ++ worker :: after)).set 0 worker).set (before.length + 1)
          first = worker :: (before ++ first :: after) := by
        simp
      have hstep : avoidWorker ⟨first :: (before ++ worker :: after), worker, events⟩
          (before.length + 1) =
            some ⟨worker :: (before ++ first :: after), first, events ++ [.stopped first]⟩ := by
        have hcurrent : (first :: (before ++ worker :: after))[before.length + 1]? =
            some worker := by simp
        have hnow : (worker :: (before ++ first :: after))[before.length + 1]? = some first := by
          simp
        simp only [avoidWorker, stopWorker, hcurrent, List.getElem?_cons_zero, bind,
          Option.bind_some, if_true, hswap, hnow]
      have hlengths : (first :: (before ++ worker :: after)).length =
          (worker :: (before ++ first :: after)).length := by
        simp only [List.length_cons, List.length_append]
      have hindex : before.length < (worker :: (before ++ first :: after)).length := by
        rw [← hlengths]
        omega
      have hothers : first ∉ (worker :: (before ++ first :: after)).tail.take before.length := by
        rwa [List.tail_cons, List.take_left]
      rw [Nat.add_zero, killLoop_succ (by omega) hlength, hstep, Option.bind_some, hlengths,
        killLoop_avoids (by omega) hindex hothers]
      simp
  | succ m ih =>
      -- an entry behind the worker is visited and stopped first
      have hentry : (first :: (before ++ worker :: after))[before.length + 1 + m + 1]? =
          some after[m] := by
        rw [List.getElem?_cons_succ, List.getElem?_append_right (by omega)]
        have hindex : before.length + 1 + m - before.length = m + 1 := by omega
        rw [hindex, List.getElem?_cons_succ, List.getElem?_eq_getElem (by omega)]
      have hne : after[m] ≠ worker := by
        intro heq
        have htail := (List.nodup_append.mp (List.nodup_cons.mp hnodup).2).2.1
        exact (List.nodup_cons.mp htail).1 (heq ▸ List.getElem_mem _)
      have hstep : avoidWorker ⟨first :: (before ++ worker :: after), worker, events⟩
          (before.length + 1 + m + 1) =
            some ⟨first :: (before ++ worker :: after), worker,
              events ++ [.stopped after[m]]⟩ := by
        simp only [avoidWorker, stopWorker, hentry, List.getElem?_cons_zero, bind,
          Option.bind_some, if_neg hne]
      rw [← Nat.add_assoc, killLoop_succ (by omega) hlength, hstep, Option.bind_some,
        ih (by omega)]
      have hafter : after.take (m + 1) = after.take m ++ [after[m]] := by
        rw [List.take_add_one, List.getElem?_eq_getElem (by omega), Option.toList_some]
      have hvisited : (before ++ first :: after.take (m + 1)).reverse =
          after[m] :: (before ++ first :: after.take m).reverse := by
        rw [hafter, ← List.cons_append, ← List.append_assoc, List.reverse_append]
        rfl
      rw [hvisited, List.map_cons, List.append_assoc]
      rfl

theorem killLoop_all {kept : ℕ} {rest : List ℕ} (hitem : self.item = kept :: rest)
    (hlength : self.length = self.item.length) (hsize : self.length < 2 ^ 64)
    (event : ℕ → WorkerEvent) {body : List WorkerEvent → ℕ → Option (List WorkerEvent)}
    (hbody : ∀ events i, body events i = self.item[i]?.map fun worker => events ++ [event worker])
    (events : List WorkerEvent) :
    killLoop self.length body (sizeSub self.length 1) events =
      some (events ++ rest.reverse.map event) := by
  have hrest : self.item.length = rest.length + 1 := by rw [hitem, List.length_cons]
  have hlast : sizeSub self.length 1 = rest.length := by
    rw [sizeSub_of_le (by omega) hsize]
    omega
  have hbelow : rest.length < self.item.length := by omega
  have hloop := killLoop_reads self.item event hbody (hlength ▸ hsize) hbelow events
  rw [hlast, hlength, hloop, hitem, List.tail_cons, List.take_length]

/-- The second half of a kill of the workers behind the first. -/
theorem destroyWorkers_eq {kept : ℕ} {rest : List ℕ} (hitem : self.item = kept :: rest)
    (hlength : self.length = self.item.length) (hsize : self.length < 2 ^ 64) (number : ℕ)
    (events : List WorkerEvent) :
    destroyWorkers self number events =
      let length := self.length - min number (self.length - 1)
      some ({ self with length := length, item := (kept :: rest).take length },
        events ++ rest.reverse.map .destroyed) := by
  have hrest : self.length = rest.length + 1 := by rw [hlength, hitem, List.length_cons]
  have hone : sizeSub self.length 1 = self.length - 1 := sizeSub_of_le (by omega) hsize
  have hnumber : (if self.length ≤ number then sizeSub self.length 1 else number) =
      min number (self.length - 1) := by
    rw [hone]
    split_ifs <;> omega
  have hcut : sizeSub self.length (min number (self.length - 1)) =
      self.length - min number (self.length - 1) := sizeSub_of_le (by omega) hsize
  have hloop := killLoop_all hitem hlength hsize .destroyed (destroyWorker_eq self.item) events
  simp only [destroyWorkers, hnumber, hloop, bind, Option.bind_some, hcut]
  rw [hitem]

/-- What a kill does that keeps one worker: the others are stopped and destroyed, and the array
is cut. -/
def Kills (self : CDWorkers) (number kept : ℕ)
    (result : Option (CDWorkers × List WorkerEvent)) : Prop :=
  ∃ rest, self.item.Perm (kept :: rest) ∧
    let length := self.length - min number (self.length - 1)
    result = some ({ self with length := length, item := (kept :: rest).take length },
      rest.reverse.map .stopped ++ rest.reverse.map .destroyed)

private theorem killWorkers_def (self : CDWorkers) (number : ℕ) :
    killWorkers self number =
      (killLoop self.length (stopWorker self.item) (sizeSub self.length 1) []).bind
        (destroyWorkers self number) := rfl

private theorem killWorkersAvoid_def (self : CDWorkers) (number worker : ℕ) :
    killWorkersAvoid self number worker =
      (killLoop self.length avoidWorker (sizeSub self.length 1) ⟨self.item, worker, []⟩).bind
        fun avoiding =>
          destroyWorkers { self with item := avoiding.item } number avoiding.events := rfl

/-- **`CD_KillWorkers`** keeps the first worker, whatever the number. -/
theorem killWorkers_eq {kept : ℕ} {rest : List ℕ} (hitem : self.item = kept :: rest)
    (hlength : self.length = self.item.length) (hsize : self.length < 2 ^ 64) (number : ℕ) :
    Kills self number kept (killWorkers self number) := by
  have hloop := killLoop_all hitem hlength hsize .stopped (stopWorker_eq self.item) []
  refine ⟨rest, .of_eq hitem, ?_⟩
  rw [killWorkers_def, hloop, Option.bind_some, destroyWorkers_eq hitem hlength hsize]
  rfl

/-- What the first loop leaves in the array is kept and destroyed by the second. -/
theorem kills_of_avoiding (other : ℕ) {rest : List ℕ} (hperm : self.item.Perm (worker :: rest))
    (hlength : self.length = self.item.length) (hsize : self.length < 2 ^ 64)
    (hloop : killLoop self.length avoidWorker (sizeSub self.length 1) ⟨self.item, worker, []⟩ =
      some ⟨worker :: rest, other, rest.reverse.map .stopped⟩) (number : ℕ) :
    Kills self number worker (killWorkersAvoid self number worker) := by
  have hnow : ({ self with item := worker :: rest } : CDWorkers).length =
      (worker :: rest).length := hlength.trans hperm.length_eq
  refine ⟨rest, hperm, ?_⟩
  rw [killWorkersAvoid_def, hloop, Option.bind_some, destroyWorkers_eq rfl hnow hsize]

/-- **`CD_KillWorkersAvoid`** keeps the given worker, wherever it stands. -/
theorem killWorkersAvoid_eq (hmem : worker ∈ self.item) (hnodup : self.item.Nodup)
    (hlength : self.length = self.item.length) (hsize : self.length < 2 ^ 64) (number : ℕ) :
    Kills self number worker (killWorkersAvoid self number worker) := by
  obtain ⟨first, rest, hitem⟩ := List.exists_cons_of_ne_nil (List.ne_nil_of_mem hmem)
  have hrest : self.item.length = rest.length + 1 := by rw [hitem, List.length_cons]
  have hlast : sizeSub self.length 1 = rest.length := by
    rw [sizeSub_of_le (by omega) hsize]
    omega
  have hbound : (first :: rest).length < 2 ^ 64 := by rwa [← hitem, ← hlength]
  rw [hitem] at hmem hnodup
  by_cases hfirst : worker = first
  · -- the worker is the one that is never visited
    subst hfirst
    have hother : worker ∉ (worker :: rest).tail.take rest.length := by
      rw [List.tail_cons, List.take_length]
      exact (List.nodup_cons.mp hnodup).1
    have hloop := killLoop_avoids hbound (Nat.lt_succ_self rest.length) hother []
    rw [List.tail_cons, List.take_length, List.nil_append] at hloop
    refine kills_of_avoiding worker (.of_eq hitem) hlength hsize ?_ number
    rw [hlast, hlength, hitem]
    exact hloop
  · obtain ⟨before, after, rfl⟩ := List.append_of_mem (List.mem_of_ne_of_mem hfirst hmem)
    have hperm : (first :: (before ++ worker :: after)).Perm
        (worker :: (before ++ first :: after)) := by
      refine ((List.perm_middle).cons first).trans ((List.Perm.swap ..).trans ?_)
      exact (List.perm_middle.symm).cons worker
    have hindex : (before ++ worker :: after).length = before.length + 1 + after.length := by
      rw [List.length_append, List.length_cons]
      omega
    have hloop := killLoop_swaps hnodup hbound le_rfl []
    rw [List.take_length, List.nil_append] at hloop
    refine kills_of_avoiding first (hitem ▸ hperm) hlength hsize ?_ number
    rw [hlast, hlength, hitem, hindex]
    exact hloop

/-! ## Right kills -/

def spawnedWorkers (events : List WorkerEvent) : List ℕ :=
  events.filterMap fun
    | .spawned worker => some worker
    | _ => none

def stoppedWorkers (events : List WorkerEvent) : List ℕ :=
  events.filterMap fun
    | .stopped worker => some worker
    | _ => none

def destroyedWorkers (events : List WorkerEvent) : List ℕ :=
  events.filterMap fun
    | .destroyed worker => some worker
    | _ => none

/-- A worker that was spawned and not destroyed. -/
def Live (history : List WorkerEvent) (worker : ℕ) : Prop :=
  worker ∈ spawnedWorkers history ∧ worker ∉ destroyedWorkers history

/-- The entries of the array are the live workers, and none was stopped or destroyed twice. -/
structure Sound (history : List WorkerEvent) (pool : CDWorkers) : Prop where
  length : pool.length = pool.item.length
  size : pool.length < 2 ^ 64
  nodup : pool.item.Nodup
  live : ∀ worker, worker ∈ pool.item ↔ Live history worker
  stoppedOnce : (stoppedWorkers history).Nodup
  destroyedOnce : (destroyedWorkers history).Nodup
  stopped : ∀ worker ∈ stoppedWorkers history, worker ∈ destroyedWorkers history
  destroyed : ∀ worker ∈ destroyedWorkers history, worker ∈ spawnedWorkers history
  named : ∀ worker ∈ spawnedWorkers history, worker ≤ pool.last

/-- A kill stops and destroys the number asked for, but not all workers and not the one spared,
and leaves the pool sound. -/
def KillRight (history : List WorkerEvent) (pool : CDWorkers) (number : ℕ) (spared : Option ℕ)
    (result : Option (CDWorkers × List WorkerEvent)) : Prop :=
  ∃ next emitted, result = some (next, emitted) ∧
    (stoppedWorkers emitted).length = min number (pool.length - 1) ∧
    (destroyedWorkers emitted).length = min number (pool.length - 1) ∧
    (∀ worker ∈ spared, worker ∉ stoppedWorkers emitted ∧ worker ∉ destroyedWorkers emitted) ∧
    Sound (history ++ emitted) next

section Events

variable (history : List WorkerEvent) (workers : List ℕ)

theorem spawnedWorkers_kill :
    spawnedWorkers (history ++ (workers.map .stopped ++ workers.map .destroyed)) =
      spawnedWorkers history := by
  simp [spawnedWorkers, List.filterMap_append, List.filterMap_map]

theorem stoppedWorkers_kill :
    stoppedWorkers (history ++ (workers.map .stopped ++ workers.map .destroyed)) =
      stoppedWorkers history ++ workers := by
  simp [stoppedWorkers, List.filterMap_append, List.filterMap_map]

theorem destroyedWorkers_kill :
    destroyedWorkers (history ++ (workers.map .stopped ++ workers.map .destroyed)) =
      destroyedWorkers history ++ workers := by
  simp [destroyedWorkers, List.filterMap_append, List.filterMap_map]

theorem spawnedWorkers_spawn :
    spawnedWorkers (history ++ workers.map .spawned) = spawnedWorkers history ++ workers := by
  simp [spawnedWorkers, List.filterMap_append, List.filterMap_map]

theorem stoppedWorkers_spawn :
    stoppedWorkers (history ++ workers.map .spawned) = stoppedWorkers history := by
  simp [stoppedWorkers, List.filterMap_append, List.filterMap_map]

theorem destroyedWorkers_spawn :
    destroyedWorkers (history ++ workers.map .spawned) = destroyedWorkers history := by
  simp [destroyedWorkers, List.filterMap_append, List.filterMap_map]

end Events

/-! ## A pool stays sound -/

variable {history : List WorkerEvent} {pool : CDWorkers}

private theorem createWorkers_sound : Sound [] createWorkers where
  length := rfl
  size := by decide
  nodup := .nil
  live worker := by simp [createWorkers, Live, spawnedWorkers]
  stoppedOnce := .nil
  destroyedOnce := .nil
  stopped := by simp [stoppedWorkers]
  destroyed := by simp [destroyedWorkers]
  named := by simp [spawnedWorkers]

/-- New workers have new ids. -/
theorem Sound.spawn (hsound : Sound history pool)
    (hspawn : spawnWorkers pool number = some (next, emitted)) :
    Sound (history ++ emitted) next := by
  unfold spawnWorkers at hspawn
  split_ifs at hspawn with hfits
  cases hspawn
  -- the new ids lie behind the last one
  have hnew : ∀ worker, worker ∈ (List.range number).map (fun i => pool.last + 1 + i) ↔
      pool.last < worker ∧ worker ≤ pool.last + number := by
    intro worker
    rw [List.mem_map]
    refine ⟨fun ⟨i, hi, heq⟩ => ?_, fun hrange => ⟨worker - pool.last - 1, ?_, by omega⟩⟩
    · have := List.mem_range.mp hi
      omega
    · exact List.mem_range.mpr (by omega)
  have hold : ∀ worker ∈ pool.item, worker ≤ pool.last := fun worker hworker =>
    hsound.named worker ((hsound.live worker).mp hworker).1
  constructor
  case length => simp [hsound.length]
  case size =>
    have hsize := hsound.size
    dsimp only
    omega
  case nodup =>
    refine List.nodup_append.mpr ⟨hsound.nodup, ?_, fun a ha b hb => ?_⟩
    · exact List.nodup_range.map fun i j heq => Nat.add_left_cancel heq
    · have hlow := ((hnew b).mp hb).1
      have hhigh := hold a ha
      omega
  case live =>
    intro worker
    rw [List.mem_append, hsound.live, Live, Live, spawnedWorkers_spawn, destroyedWorkers_spawn,
      List.mem_append]
    refine ⟨?_, fun ⟨hspawned, hleft⟩ => hspawned.imp_left fun hspawned => ⟨hspawned, hleft⟩⟩
    intro hcase
    cases hcase with
    | inl hlive => exact ⟨.inl hlive.1, hlive.2⟩
    | inr hfresh =>
        -- nobody behind the last id was destroyed yet
        refine ⟨.inr hfresh, fun hdestroyed => ?_⟩
        have hhigh := hsound.named worker (hsound.destroyed worker hdestroyed)
        have hlow := ((hnew worker).mp hfresh).1
        omega
  case stoppedOnce =>
    rw [stoppedWorkers_spawn]
    exact hsound.stoppedOnce
  case destroyedOnce =>
    rw [destroyedWorkers_spawn]
    exact hsound.destroyedOnce
  case stopped =>
    rw [stoppedWorkers_spawn, destroyedWorkers_spawn]
    exact hsound.stopped
  case destroyed =>
    rw [spawnedWorkers_spawn, destroyedWorkers_spawn]
    exact fun worker hworker => List.mem_append_left _ (hsound.destroyed worker hworker)
  case named =>
    rw [spawnedWorkers_spawn]
    intro worker hworker
    cases List.mem_append.mp hworker with
    | inl hspawned => exact (hsound.named worker hspawned).trans (Nat.le_add_right _ _)
    | inr hfresh => exact ((hnew worker).mp hfresh).2

theorem Sound.kill {kept : ℕ} {rest : List ℕ} (hsound : Sound history pool)
    (hperm : pool.item.Perm (kept :: rest)) :
    Sound (history ++ (rest.reverse.map .stopped ++ rest.reverse.map .destroyed))
      { pool with length := 1, item := [kept] } := by
  have hnodup := hperm.nodup_iff.mp hsound.nodup
  -- the workers in the array are the live ones
  have hmem : ∀ worker, worker ∈ kept :: rest ↔ Live history worker := fun worker =>
    hperm.mem_iff.symm.trans (hsound.live worker)
  have hnew : ∀ worker ∈ rest.reverse, Live history worker := fun worker hworker =>
    (hmem worker).mp (List.mem_cons_of_mem kept (List.mem_reverse.mp hworker))
  have hreverse := List.nodup_reverse.mpr (List.nodup_cons.mp hnodup).2
  constructor
  case length => rfl
  case size => exact Nat.one_lt_two_pow (by decide)
  case nodup => exact List.nodup_singleton kept
  case live =>
    intro worker
    rw [Live, spawnedWorkers_kill, destroyedWorkers_kill, List.mem_append, not_or, ← and_assoc,
      ← Live, ← hmem, List.mem_reverse, List.mem_singleton, List.mem_cons]
    refine ⟨fun heq => ⟨.inl heq, ?_⟩, fun ⟨hcase, hother⟩ => hcase.resolve_right hother⟩
    rw [heq]
    exact (List.nodup_cons.mp hnodup).1
  case stoppedOnce =>
    rw [stoppedWorkers_kill]
    refine List.nodup_append.mpr ⟨hsound.stoppedOnce, hreverse, fun a ha b hb heq => ?_⟩
    exact (hnew b hb).2 (heq ▸ hsound.stopped a ha)
  case destroyedOnce =>
    rw [destroyedWorkers_kill]
    refine List.nodup_append.mpr ⟨hsound.destroyedOnce, hreverse, fun a ha b hb heq => ?_⟩
    exact (hnew b hb).2 (heq ▸ ha)
  case stopped =>
    rw [stoppedWorkers_kill, destroyedWorkers_kill]
    intro worker hworker
    rw [List.mem_append] at hworker ⊢
    exact hworker.imp_left (hsound.stopped worker)
  case destroyed =>
    rw [spawnedWorkers_kill, destroyedWorkers_kill]
    intro worker hworker
    cases List.mem_append.mp hworker with
    | inl hdestroyed => exact hsound.destroyed worker hdestroyed
    | inr hfresh => exact (hnew worker hfresh).1
  case named =>
    rw [spawnedWorkers_kill]
    exact hsound.named

/-- **A kill is right** exactly when it is one of all workers but one. -/
theorem Kills.right_iff {kept : ℕ} {result : Option (CDWorkers × List WorkerEvent)}
    (hkills : Kills pool number kept result) (hsound : Sound history pool) (spared : Option ℕ)
    (hspared : ∀ worker ∈ spared, worker = kept) :
    KillRight history pool number spared result ↔ pool.length - 1 ≤ number := by
  obtain ⟨rest, hperm, hresult⟩ := hkills
  have hrest : pool.length = rest.length + 1 := hsound.length.trans hperm.length_eq
  have hstopped : stoppedWorkers (rest.reverse.map .stopped ++ rest.reverse.map .destroyed) =
      rest.reverse := stoppedWorkers_kill [] rest.reverse
  have hdestroyed : destroyedWorkers (rest.reverse.map .stopped ++ rest.reverse.map .destroyed) =
      rest.reverse := destroyedWorkers_kill [] rest.reverse
  refine ⟨?_, fun hall => ⟨_, _, hresult, ?_, ?_, ?_, ?_⟩⟩
  · -- the loops stop all but one, so that many must have been asked for
    intro ⟨next, emitted, hnext, hstops, _⟩
    cases hnext.symm.trans hresult
    rw [hstopped, List.length_reverse] at hstops
    omega
  · rw [hstopped, List.length_reverse]
    omega
  · rw [hdestroyed, List.length_reverse]
    omega
  · intro worker hworker
    rw [hstopped, hdestroyed, hspared worker hworker, List.mem_reverse]
    have hkept := (List.nodup_cons.mp (hperm.nodup_iff.mp hsound.nodup)).1
    exact ⟨hkept, hkept⟩
  · have hone : pool.length - min number (pool.length - 1) = 1 := by omega
    rw [hone]
    exact hsound.kill hperm

/-! ## Runs -/

theorem Sound.exists_cons (hsound : Sound history pool) (hlength : 1 ≤ pool.length) :
    ∃ kept rest, pool.item = kept :: rest :=
  List.exists_cons_of_length_pos (hsound.length ▸ hlength)

/-- The calls of a run: on a pool with a worker, and about a worker of the pool. -/
def Allowed (pool : CDWorkers) : Action → Prop
  | .spawn _ => True
  | .kill _ => 1 ≤ pool.length
  | .killAvoid _ worker => worker ∈ pool.item

/-- A kill is one of all workers but one. -/
def KillsAllButOne (pool : CDWorkers) : Action → Prop
  | .spawn _ => True
  | .kill number | .killAvoid number _ => pool.length - 1 ≤ number

instance (pool : CDWorkers) : (action : Action) →
    Decidable (Allowed pool action ∧ KillsAllButOne pool action)
  | .spawn _ => isTrue ⟨trivial, trivial⟩
  | .kill number => inferInstanceAs (Decidable (1 ≤ pool.length ∧ pool.length - 1 ≤ number))
  | .killAvoid number worker =>
      inferInstanceAs (Decidable (worker ∈ pool.item ∧ pool.length - 1 ≤ number))

/-- **Any run** whose kills are of all workers but one leaves the pool sound. -/
theorem sound_of_run (hrun : system.Run (fun pool action => Allowed pool action ∧
    KillsAllButOne pool action) history pool) : Sound history pool := by
  refine System.Run.invariant (I := fun history pool => Sound history pool) createWorkers_sound
    ?_ hrun
  intro history pool action next emitted hsound hguard hstep
  cases action with
  | spawn number => exact hsound.spawn hstep
  | kill number =>
      obtain ⟨kept, rest, hitem⟩ := hsound.exists_cons hguard.1
      have hkills := killWorkers_eq hitem hsound.length hsound.size number
      obtain ⟨_, _, hresult, _, _, _, hnext⟩ :=
        (hkills.right_iff hsound none (by simp)).mpr hguard.2
      cases hstep.symm.trans hresult
      exact hnext
  | killAvoid number worker =>
      have hkills := killWorkersAvoid_eq hguard.1 hsound.nodup hsound.length hsound.size number
      obtain ⟨_, _, hresult, _, _, _, hnext⟩ :=
        (hkills.right_iff hsound none (by simp)).mpr hguard.2
      cases hstep.symm.trans hresult
      exact hnext

/-- **Kills remove the right workers** in every run of spawns and kills whose kills are of all
workers but one; and the next kill does so exactly if it is one, too. -/
theorem kill_right_iff (history : List WorkerEvent) (pool : CDWorkers)
    (hrun : system.Run (fun pool action => Allowed pool action ∧ KillsAllButOne pool action)
      history pool) :
    Sound history pool ∧
      (∀ number, 1 ≤ pool.length →
        (KillRight history pool number none (killWorkers pool number) ↔
          pool.length - 1 ≤ number)) ∧
      ∀ number worker, worker ∈ pool.item →
        (KillRight history pool number (some worker) (killWorkersAvoid pool number worker) ↔
          pool.length - 1 ≤ number) := by
  have hsound := sound_of_run hrun
  refine ⟨hsound, fun number hlength => ?_, fun number worker hmem => ?_⟩
  · obtain ⟨kept, rest, hitem⟩ := hsound.exists_cons hlength
    exact (killWorkers_eq hitem hsound.length hsound.size number).right_iff hsound none (by simp)
  · have hkills := killWorkersAvoid_eq hmem hsound.nodup hsound.length hsound.size number
    exact hkills.right_iff hsound _ fun other hother => (Option.mem_some.mp hother).symm

/-- Three workers, a kill that spares the second, and two more workers. -/
theorem kill_right_iff_spared :
    KillRight [.spawned 1, .spawned 2, .spawned 3, .stopped 3, .stopped 1, .destroyed 3,
        .destroyed 1, .spawned 4, .spawned 5] ⟨5, 3, [2, 4, 5]⟩ 2 (some 4)
      (killWorkersAvoid ⟨5, 3, [2, 4, 5]⟩ 2 4) :=
  have hrun := System.Run.start.exec
    (show system.ExecGuard (fun pool action => Allowed pool action ∧ KillsAllButOne pool action)
      [.spawn 3, .killAvoid 2 2, .spawn 2] createWorkers by decide +kernel)
    (show system.exec [.spawn 3, .killAvoid 2 2, .spawn 2] createWorkers = some (⟨5, 3, [2, 4, 5]⟩,
      [.spawned 1, .spawned 2, .spawned 3, .stopped 3, .stopped 1, .destroyed 3, .destroyed 1,
        .spawned 4, .spawned 5]) by decide +kernel)
  ((kill_right_iff _ _ hrun).2.2 2 4 (by decide)).mpr (by decide)

/-- A kill of one of three workers stops two of them. -/
theorem kill_stops_more :
    ¬ ∀ history pool, system.Run Allowed history pool → ∀ number, 1 ≤ pool.length →
      KillRight history pool number none (killWorkers pool number) := by
  intro hclaim
  have hspawn : system.step createWorkers (.spawn 3) =
      some (⟨3, 3, [1, 2, 3]⟩, [.spawned 1, .spawned 2, .spawned 3]) := by decide +kernel
  have hrun := System.Run.step .start (show Allowed createWorkers (.spawn 3) from trivial) hspawn
  obtain ⟨next, emitted, hresult, hstops, _⟩ := hclaim _ _ hrun 1 (by decide)
  have hboth : killWorkers ⟨3, 3, [1, 2, 3]⟩ 1 =
      some (⟨3, 2, [1, 2]⟩, [.stopped 3, .stopped 2, .destroyed 3, .destroyed 2]) := by
    decide +kernel
  cases hboth.symm.trans hresult
  exact absurd hstops (by decide)

end Craftd.Workers.Pool
