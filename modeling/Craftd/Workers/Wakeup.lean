import Craftd.Library.System
import Mathlib.Data.Fintype.Basic

/-!
# Waiting for jobs

The worker pool of `Worker.c` and `Workers.c` at the grain of its locks: the
queue has the lock of its list, and the mutex with its condition is another
one.  `CD_RunWorker` tests the queue under the first, and then takes the second
to wait.  A `CD_AddJob` that falls between the two finds nobody to signal.

One action is one atomic step: the test of `CD_HasJobs`, taking the mutex, the
wait with its release of the mutex, a `CD_NextJob`, a whole `CD_AddJob`, and of
`CD_StopWorker` the store to `working` and the broadcast under the mutex.  Any
number of threads may be inside `CD_AddJob` or `CD_StopWorker`.
-/

namespace Craftd.Workers

open StepSystem

variable {Job W : Type*}

/-! ## The pool -/

/-- Where a worker stands in the loop of `CD_RunWorker`. -/
inductive Place (Job : Type*)
  /-- before `while (self->working)` -/
  | looping
  /-- before `CD_HasJobs` -/
  | testing
  /-- no job was found, the mutex is not yet taken -/
  | tested
  /-- the mutex is held, the wait has not yet begun -/
  | locked
  /-- in `pthread_cond_wait` -/
  | waiting
  /-- still in `pthread_cond_wait`, woken but without the mutex -/
  | signalled
  /-- back from the wait, with the mutex -/
  | woken
  /-- before `if (!self->working)` -/
  | checking
  /-- before `CD_NextJob` -/
  | popping
  /-- a job was popped -/
  | running (job : Job)
  /-- the loop was left -/
  | stopped
  deriving DecidableEq, Repr

/-- `CDWorker`: its flag and its thread's place. -/
structure CDWorker (Job : Type*) where
  working : Bool
  place : Place Job
  deriving DecidableEq, Repr

/-- `CDWorkers`, with the calls of `CD_StopWorker` that have cleared `working`
and not yet made their broadcast. -/
structure CDWorkers (Job W : Type*) where
  jobs : List Job
  mutex : Option W
  workers : W → CDWorker Job
  stopping : List W

/-- The pool after `CD_SpawnWorkers`. -/
def createWorkers : CDWorkers Job W :=
  { jobs := [], mutex := none, workers := fun _ => ⟨true, .looping⟩, stopping := [] }

/-- `CD_HasJobs`. -/
def hasJobs (self : CDWorkers Job W) : Bool :=
  decide (0 < self.jobs.length)

/-- `pthread_cond_broadcast`: whoever waits is woken. -/
def condBroadcast (self : CDWorkers Job W) : CDWorkers Job W :=
  { self with workers := fun worker =>
      match (self.workers worker).place with
      | .waiting => { self.workers worker with place := .signalled }
      | _ => self.workers worker }

section Steps

variable [DecidableEq W]

/-- The worker's thread goes to another place. -/
def CDWorkers.setPlace (self : CDWorkers Job W) (worker : W) (place : Place Job) :
    CDWorkers Job W :=
  { self with
    workers := Function.update self.workers worker { self.workers worker with place } }

/-- The next step of `CD_RunWorker`. -/
def runWorker (self : CDWorkers Job W) (worker : W) : Option (CDWorkers Job W) :=
  match (self.workers worker).place with
  | .looping =>
      if (self.workers worker).working then some (self.setPlace worker .testing)
      else some (self.setPlace worker .stopped)
  | .testing =>
      if hasJobs self then some (self.setPlace worker .checking)
      else some (self.setPlace worker .tested)
  | .tested =>
      if self.mutex = none then some { self.setPlace worker .locked with mutex := some worker }
      else none
  | .locked => some { self.setPlace worker .waiting with mutex := none }
  | .waiting => none
  | .signalled =>
      if self.mutex = none then some { self.setPlace worker .woken with mutex := some worker }
      else none
  | .woken => some { self.setPlace worker .checking with mutex := none }
  | .checking =>
      if (self.workers worker).working then some (self.setPlace worker .popping)
      else some (self.setPlace worker .stopped)
  | .popping =>
      match self.jobs with
      | [] => some (self.setPlace worker .looping)
      | job :: rest => some { self.setPlace worker (.running job) with jobs := rest }
  | .running _ => some (self.setPlace worker .looping)
  | .stopped => none

/-- `pthread_cond_signal` may wake this waiter, or nobody where nobody waits. -/
def Wakes (self : CDWorkers Job W) : Option W → Prop
  | some waiter => (self.workers waiter).place = .waiting
  | none => ∀ worker, (self.workers worker).place ≠ .waiting

/-- `pthread_cond_signal`, for the waiter that the scheduler picks. -/
def condSignal (self : CDWorkers Job W) : Option W → CDWorkers Job W
  | some waiter => self.setPlace waiter .signalled
  | none => self

/-- `CD_AddJob`. -/
def addJob (self : CDWorkers Job W) (job : Job) (waiter : Option W) : CDWorkers Job W :=
  condSignal { self with jobs := self.jobs ++ [job] } waiter

/-- The store to `working` in `CD_StopWorker`. -/
def stopWorker (self : CDWorkers Job W) (worker : W) : CDWorkers Job W :=
  { self with
    workers := Function.update self.workers worker { self.workers worker with working := false }
    stopping := worker :: self.stopping }

/-- The steps of the threads.  `killBroadcast` is the further broadcast of
`CD_KillWorkers`; `spurious` is a wait that returns without a signal. -/
inductive Action (Job W : Type*)
  | work (worker : W)
  | addJob (job : Job) (waiter : Option W)
  | stopWorker (worker : W)
  | stopBroadcast (worker : W)
  | killBroadcast
  | spurious (worker : W)
  deriving DecidableEq, Repr

variable [Fintype W] [DecidableEq Job]

instance (self : CDWorkers Job W) : (waiter : Option W) → Decidable (Wakes self waiter)
  | some waiter => inferInstanceAs (Decidable ((self.workers waiter).place = .waiting))
  | none => inferInstanceAs (Decidable (∀ worker, (self.workers worker).place ≠ .waiting))

/-- One atomic step. -/
def step (self : CDWorkers Job W) : Action Job W → Option (CDWorkers Job W)
  | .work worker => runWorker self worker
  | .addJob job waiter =>
      if self.mutex = none ∧ Wakes self waiter then some (addJob self job waiter) else none
  | .stopWorker worker => some (stopWorker self worker)
  | .stopBroadcast worker =>
      if self.mutex = none ∧ worker ∈ self.stopping then
        some { condBroadcast self with stopping := self.stopping.erase worker }
      else none
  | .killBroadcast => if self.mutex = none then some (condBroadcast self) else none
  | .spurious worker =>
      if (self.workers worker).place = .waiting then some (self.setPlace worker .signalled)
      else none

/-- The pool as a step system; nothing outside it sees its steps. -/
def system : System (CDWorkers Job W) (Action Job W) Empty where
  init := createWorkers
  step self action := (step self action).map fun next => (next, [])

end Steps

/-! ## What must not happen, and the steps that bring it about -/

/-- In `pthread_cond_wait`. -/
def Place.Blocked : Place Job → Prop
  | .waiting | .signalled => True
  | _ => False

/-- Past the test of the queue, with the wait still to come. -/
def Place.MissesSignal : Place Job → Prop
  | .tested | .locked => True
  | _ => False

/-- Past `while (self->working)`, with the wait still to come. -/
def Place.MissesStop : Place Job → Prop
  | .testing | .tested | .locked => True
  | _ => False

instance : (place : Place Job) → Decidable place.MissesSignal
  | .tested | .locked => isTrue trivial
  | .looping | .testing | .waiting | .signalled | .woken | .checking | .popping | .running _
  | .stopped => isFalse id

instance : (place : Place Job) → Decidable place.MissesStop
  | .testing | .tested | .locked => isTrue trivial
  | .looping | .waiting | .signalled | .woken | .checking | .popping | .running _ | .stopped =>
      isFalse id

/-- A waiter has still to take up a signal, or a `CD_StopWorker` has still to
send one. -/
def SignalPending (self : CDWorkers Job W) : Prop :=
  (∃ worker, (self.workers worker).place = .signalled) ∨ self.stopping ≠ []

/-- Jobs are queued, every worker still working is blocked, and no signal is
pending. -/
def LostWakeup (self : CDWorkers Job W) : Prop :=
  self.jobs ≠ [] ∧ (∃ worker, (self.workers worker).working = true) ∧
    (∀ worker, (self.workers worker).working = true → (self.workers worker).place.Blocked) ∧
    ¬ SignalPending self

/-- Every worker still working has tested the queue and not yet begun to wait. -/
def NobodyHears (self : CDWorkers Job W) : Prop :=
  (∃ worker, (self.workers worker).working = true) ∧
    ∀ worker, (self.workers worker).working = true → (self.workers worker).place.MissesSignal

/-- The steps that signal while the one to be signalled stands between its test
and its wait: a push that nobody hears, the last broadcast over a queue that
nobody has seen, and the broadcast for a worker that has not yet begun to wait. -/
def LosesWakeup (self : CDWorkers Job W) : Action Job W → Prop
  | .addJob _ _ => NobodyHears self ∧ self.stopping = []
  | .stopBroadcast worker =>
      (self.workers worker).place.MissesStop ∨
        (NobodyHears self ∧ self.stopping = [worker] ∧ self.jobs ≠ [])
  | _ => False

instance [Fintype W] (self : CDWorkers Job W) : Decidable (NobodyHears self) :=
  inferInstanceAs (Decidable ((∃ worker, (self.workers worker).working = true) ∧
    ∀ worker, (self.workers worker).working = true → (self.workers worker).place.MissesSignal))

instance [Fintype W] [DecidableEq W] [DecidableEq Job] (self : CDWorkers Job W) :
    (action : Action Job W) → Decidable (LosesWakeup self action)
  | .addJob _ _ => inferInstanceAs (Decidable (NobodyHears self ∧ self.stopping = []))
  | .stopBroadcast worker =>
      inferInstanceAs (Decidable ((self.workers worker).place.MissesStop ∨
        (NobodyHears self ∧ self.stopping = [worker] ∧ self.jobs ≠ [])))
  | .work _ | .stopWorker _ | .killBroadcast | .spurious _ => isFalse id

/-! ## What a step of a worker leaves alone -/

section Invariant

variable [DecidableEq W]

@[simp] theorem workers_setPlace (self : CDWorkers Job W) (worker other : W) (place : Place Job) :
    (self.setPlace worker place).workers other =
      if other = worker then { self.workers worker with place } else self.workers other := by
  by_cases hother : other = worker
  · subst hother
    simp [CDWorkers.setPlace]
  · simp [CDWorkers.setPlace, hother]

@[simp] theorem jobs_setPlace (self : CDWorkers Job W) (worker : W) (place : Place Job) :
    (self.setPlace worker place).jobs = self.jobs := rfl

@[simp] theorem stopping_setPlace (self : CDWorkers Job W) (worker : W) (place : Place Job) :
    (self.setPlace worker place).stopping = self.stopping := rfl

/-- What a step of one worker's thread keeps, and where it can lead. -/
structure Moved (pool next : CDWorkers Job W) (worker : W) : Prop where
  stopping : next.stopping = pool.stopping
  others : ∀ other, other ≠ worker → next.workers other = pool.workers other
  working : (next.workers worker).working = (pool.workers worker).working
  jobs : next.jobs ≠ [] → pool.jobs ≠ []
  parked : (next.workers worker).place.MissesSignal ∨ (next.workers worker).place = .waiting →
    (pool.workers worker).place.MissesSignal ∨ next.jobs = []
  entered : (next.workers worker).place.MissesStop ∨ (next.workers worker).place = .waiting →
    (pool.workers worker).working = true ∨ (pool.workers worker).place.MissesStop
  left : (next.workers worker).place = .stopped → (pool.workers worker).working = false

/-- A worker that only changes its place, and perhaps the mutex, moves. -/
theorem moved_setPlace (self : CDWorkers Job W) (worker : W) (place : Place Job)
    (mutex : Option W)
    (hparked : place.MissesSignal ∨ place = .waiting →
      (self.workers worker).place.MissesSignal ∨ self.jobs = [])
    (hentered : place.MissesStop ∨ place = .waiting →
      (self.workers worker).working = true ∨ (self.workers worker).place.MissesStop)
    (hleft : place = .stopped → (self.workers worker).working = false) :
    Moved self { self.setPlace worker place with mutex := mutex } worker := by
  constructor
  · rfl
  · intro other hother
    exact (workers_setPlace self worker other place).trans (if_neg hother)
  · simp
  · exact id
  · simpa using hparked
  · simpa using hentered
  · simpa using hleft

/-- **What one step of `CD_RunWorker` does.** -/
theorem runWorker_moved {self next : CDWorkers Job W} {worker : W}
    (hrun : runWorker self worker = some next) : Moved self next worker := by
  unfold runWorker at hrun
  cases hplace : (self.workers worker).place with
  | looping =>
      simp only [hplace] at hrun
      by_cases hworking : (self.workers worker).working = true
      · rw [if_pos hworking] at hrun
        cases hrun
        refine moved_setPlace self worker .testing self.mutex ?_ ?_ ?_
        · simp [Place.MissesSignal]
        · exact fun _ => .inl hworking
        · simp
      · -- the loop is left for good, and only by a worker that was stopped
        rw [if_neg hworking] at hrun
        cases hrun
        refine moved_setPlace self worker .stopped self.mutex ?_ ?_ ?_
        · simp [Place.MissesSignal]
        · simp [Place.MissesStop]
        · simpa using hworking
  | testing =>
      simp only [hplace] at hrun
      by_cases hjobs : hasJobs self = true
      · rw [if_pos hjobs] at hrun
        cases hrun
        refine moved_setPlace self worker .checking self.mutex ?_ ?_ ?_ <;>
          simp [Place.MissesSignal, Place.MissesStop]
      · -- from here to the wait a signal is missed, and the queue is empty now
        rw [if_neg hjobs] at hrun
        cases hrun
        have hempty : self.jobs = [] := by simpa [hasJobs] using hjobs
        refine moved_setPlace self worker .tested self.mutex ?_ ?_ ?_
        · exact fun _ => .inr hempty
        · simp [hplace, Place.MissesStop]
        · simp
  | tested =>
      simp only [hplace] at hrun
      split_ifs at hrun
      cases hrun
      refine moved_setPlace self worker .locked (some worker) ?_ ?_ ?_ <;>
        simp [hplace, Place.MissesSignal, Place.MissesStop]
  | locked =>
      simp only [hplace] at hrun
      cases hrun
      refine moved_setPlace self worker .waiting none ?_ ?_ ?_ <;>
        simp [hplace, Place.MissesSignal, Place.MissesStop]
  | waiting | stopped => simp [hplace] at hrun
  | signalled =>
      simp only [hplace] at hrun
      split_ifs at hrun
      cases hrun
      refine moved_setPlace self worker .woken (some worker) ?_ ?_ ?_ <;>
        simp [Place.MissesSignal, Place.MissesStop]
  | woken =>
      simp only [hplace] at hrun
      cases hrun
      refine moved_setPlace self worker .checking none ?_ ?_ ?_ <;>
        simp [Place.MissesSignal, Place.MissesStop]
  | checking =>
      simp only [hplace] at hrun
      by_cases hworking : (self.workers worker).working = true
      · rw [if_pos hworking] at hrun
        cases hrun
        refine moved_setPlace self worker .popping self.mutex ?_ ?_ ?_ <;>
          simp [Place.MissesSignal, Place.MissesStop]
      · rw [if_neg hworking] at hrun
        cases hrun
        refine moved_setPlace self worker .stopped self.mutex ?_ ?_ ?_
        · simp [Place.MissesSignal]
        · simp [Place.MissesStop]
        · simpa using hworking
  | popping =>
      simp only [hplace] at hrun
      cases hjobs : self.jobs with
      | nil =>
          simp only [hjobs] at hrun
          cases hrun
          refine moved_setPlace self worker .looping self.mutex ?_ ?_ ?_ <;>
            simp [Place.MissesSignal, Place.MissesStop]
      | cons job rest =>
          simp only [hjobs] at hrun
          cases hrun
          constructor <;> simp [hjobs, Place.MissesSignal, Place.MissesStop]
          intro other hother hsame
          exact absurd hsame hother
  | running job =>
      simp only [hplace] at hrun
      cases hrun
      refine moved_setPlace self worker .looping self.mutex ?_ ?_ ?_ <;>
        simp [Place.MissesSignal, Place.MissesStop]

/-! ## The invariant -/

/-- A stopped worker that may still go to sleep has its broadcast to come, and
where jobs are queued and no broadcast is to come, a working worker will look at
the queue before it waits. -/
structure Heard (pool : CDWorkers Job W) : Prop where
  owed : ∀ worker, (pool.workers worker).working = false →
    (pool.workers worker).place.MissesStop ∨ (pool.workers worker).place = .waiting →
    worker ∈ pool.stopping
  left : ∀ worker, (pool.workers worker).place = .stopped → (pool.workers worker).working = false
  served : pool.jobs ≠ [] → pool.stopping = [] → (∃ worker, (pool.workers worker).working = true) →
    ∃ worker, (pool.workers worker).working = true ∧
      ¬ ((pool.workers worker).place.MissesSignal ∨ (pool.workers worker).place = .waiting)

omit [DecidableEq W] in
private theorem createWorkers_heard : Heard (createWorkers : CDWorkers Job W) := by
  constructor <;> simp [createWorkers]

omit [DecidableEq W] in
theorem moved_heard {self next : CDWorkers Job W} {worker : W} (hmoved : Moved self next worker)
    (hheard : Heard self) : Heard next := by
  constructor
  · intro other hworking hplace
    rw [hmoved.stopping]
    by_cases hother : other = worker
    · subst hother
      rw [hmoved.working] at hworking
      -- whoever enters the window is working, and so was the worker before
      rcases hmoved.entered hplace with hstill | hwindow
      · rw [hworking] at hstill
        cases hstill
      · exact hheard.owed other hworking (.inl hwindow)
    · rw [hmoved.others other hother] at hworking hplace
      exact hheard.owed other hworking hplace
  · intro other hstopped
    by_cases hother : other = worker
    · subst hother
      rw [hmoved.working]
      exact hmoved.left hstopped
    · rw [hmoved.others other hother] at hstopped ⊢
      exact hheard.left other hstopped
  · intro hjobs hstopping hsome
    rw [hmoved.stopping] at hstopping
    have hworking : ∀ other, (next.workers other).working = (self.workers other).working := by
      intro other
      by_cases hother : other = worker
      · subst hother
        exact hmoved.working
      · rw [hmoved.others other hother]
    simp only [hworking] at hsome ⊢
    -- the one that serves the jobs goes on doing so
    obtain ⟨server, hserver, hawake⟩ := hheard.served (hmoved.jobs hjobs) hstopping hsome
    refine ⟨server, hserver, fun hparked => hawake ?_⟩
    by_cases hother : server = worker
    · subst hother
      exact .inl ((hmoved.parked hparked).resolve_right hjobs)
    · rwa [hmoved.others server hother] at hparked

omit [DecidableEq W] in
@[simp] theorem working_condBroadcast (self : CDWorkers Job W) (worker : W) :
    ((condBroadcast self).workers worker).working = (self.workers worker).working := by
  simp only [condBroadcast]
  split <;> rfl

omit [DecidableEq W] in
theorem place_condBroadcast (self : CDWorkers Job W) (worker : W) :
    ((condBroadcast self).workers worker).place = .signalled ∧
        (self.workers worker).place = .waiting ∨
      ((condBroadcast self).workers worker).place = (self.workers worker).place ∧
        (self.workers worker).place ≠ .waiting := by
  simp only [condBroadcast]
  cases hplace : (self.workers worker).place <;> simp [hplace]

theorem signalled_heard {self : CDWorkers Job W} (hheard : Heard self) (waiter : W) :
    Heard (self.setPlace waiter .signalled) := by
  refine moved_heard (?_ : Moved self _ waiter) hheard
  refine moved_setPlace self waiter .signalled self.mutex ?_ ?_ ?_ <;>
    simp [Place.MissesSignal, Place.MissesStop]

omit [DecidableEq W] in
/-- A broadcast wakes every waiter; whoever sleeps afterwards has not yet begun
to wait. -/
theorem condBroadcast_heard {self : CDWorkers Job W} (hheard : Heard self) :
    Heard (condBroadcast self) := by
  constructor
  · intro worker hworking hplace
    rw [working_condBroadcast] at hworking
    rcases place_condBroadcast self worker with ⟨hsignalled, -⟩ | ⟨hsame, -⟩
    · simp [hsignalled, Place.MissesStop] at hplace
    · rw [hsame] at hplace
      exact hheard.owed worker hworking hplace
  · intro worker hstopped
    rw [working_condBroadcast]
    rcases place_condBroadcast self worker with ⟨hsignalled, -⟩ | ⟨hsame, -⟩
    · simp [hsignalled] at hstopped
    · rw [hsame] at hstopped
      exact hheard.left worker hstopped
  · intro hjobs hstopping hsome
    simp only [working_condBroadcast] at hsome ⊢
    obtain ⟨worker, hworking, hawake⟩ := hheard.served hjobs hstopping hsome
    refine ⟨worker, hworking, ?_⟩
    rcases place_condBroadcast self worker with ⟨hsignalled, -⟩ | ⟨hsame, -⟩
    · simp [hsignalled, Place.MissesSignal]
    · rwa [hsame]

/-- A stopped worker owes nothing while its broadcast is to come. -/
theorem stopWorker_heard {self : CDWorkers Job W} (hheard : Heard self) (worker : W) :
    Heard (stopWorker self worker) := by
  have hplace : ∀ other,
      ((stopWorker self worker).workers other).place = (self.workers other).place := by
    intro other
    by_cases hother : other = worker
    · subst hother
      simp [stopWorker]
    · simp [stopWorker, hother]
  have hstill : ∀ other, other ≠ worker →
      ((stopWorker self worker).workers other).working = (self.workers other).working := by
    intro other hother
    simp [stopWorker, hother]
  constructor
  · intro other hworking hwindow
    by_cases hother : other = worker
    · subst hother
      exact List.mem_cons_self
    · rw [hstill other hother] at hworking
      rw [hplace] at hwindow
      exact List.mem_cons_of_mem _ (hheard.owed other hworking hwindow)
  · intro other hstopped
    by_cases hother : other = worker
    · subst hother
      simp [stopWorker]
    · rw [hplace] at hstopped
      rw [hstill other hother]
      exact hheard.left other hstopped
  · intro _ hstopping
    cases hstopping

/-- A push signals a waiter that will look at the queue, or finds a worker that
has still to test it. -/
theorem addJob_heard {self : CDWorkers Job W} (hheard : Heard self) {job : Job}
    {waiter : Option W} (hwakes : Wakes self waiter)
    (hguard : ¬ (NobodyHears self ∧ self.stopping = [])) : Heard (addJob self job waiter) := by
  cases waiter with
  | none =>
      refine ⟨hheard.owed, hheard.left, fun _ hstopping hsome => ?_⟩
      by_contra hparked
      refine hguard ⟨⟨hsome, fun worker hworking => ?_⟩, hstopping⟩
      by_contra hhears
      refine hparked ⟨worker, hworking, ?_⟩
      rintro (hmisses | hwaiting)
      · exact hhears hmisses
      · exact hwakes worker hwaiting
  | some waiter =>
      have hsignalled := signalled_heard hheard waiter
      refine ⟨hsignalled.owed, hsignalled.left, fun _ hstopping _ => ?_⟩
      cases hworking : (self.workers waiter).working with
      | true => exact ⟨waiter, by simp [addJob, condSignal, hworking, Place.MissesSignal]⟩
      | false =>
          -- a stopped waiter is woken by the broadcast that is still to come
          have howed : waiter ∈ self.stopping := hheard.owed waiter hworking (.inr hwakes)
          have hnone : self.stopping = [] := hstopping
          rw [hnone] at howed
          cases howed

/-- The broadcast of `CD_StopWorker` leaves nobody asleep who was waiting. -/
theorem stopBroadcast_heard {self : CDWorkers Job W} (hheard : Heard self) {worker : W}
    (howed : worker ∈ self.stopping) (hguard : ¬ LosesWakeup self (.stopBroadcast worker)) :
    Heard { condBroadcast self with stopping := self.stopping.erase worker } := by
  have hwoken := condBroadcast_heard hheard
  have hentered : ¬ (self.workers worker).place.MissesStop := fun h => hguard (.inl h)
  constructor
  · intro other hworking hwindow
    -- the worker that is stopped hears of it by this broadcast
    by_cases hother : other = worker
    · subst hother
      rcases place_condBroadcast self other with ⟨hsignalled, -⟩ | ⟨hsame, hwaiting⟩
      · simp [hsignalled, Place.MissesStop] at hwindow
      · have hplace : ((condBroadcast self).workers other).place.MissesStop ∨
            ((condBroadcast self).workers other).place = .waiting := hwindow
        rw [hsame] at hplace
        rcases hplace with hstill | hblocked
        · exact absurd hstill hentered
        · exact absurd hblocked hwaiting
    · exact (List.mem_erase_of_ne hother).mpr (hwoken.owed other hworking hwindow)
  · exact hwoken.left
  · intro hjobs hstopping hsome
    -- it was the last one that owed a broadcast
    have hlast : self.stopping = [worker] := by
      have hempty : self.stopping.erase worker = [] := hstopping
      have hlength := List.length_erase_of_mem howed
      rw [hempty, List.length_nil] at hlength
      have hpos := List.length_pos_of_mem howed
      obtain ⟨only, honly⟩ := List.length_eq_one_iff.mp (by omega : self.stopping.length = 1)
      rw [honly] at howed ⊢
      rw [List.mem_singleton.mp howed]
    simp only [working_condBroadcast] at hsome ⊢
    by_contra hparked
    refine hguard (.inr ⟨⟨hsome, fun other hworking => ?_⟩, hlast, hjobs⟩)
    by_contra hhears
    -- whoever waited is woken, and looks at the jobs again
    refine hparked ⟨other, hworking, ?_⟩
    rcases place_condBroadcast self other with ⟨hsignalled, -⟩ | ⟨hsame, hwaiting⟩
    · simp [hsignalled, Place.MissesSignal]
    · rw [hsame]
      rintro (hmisses | hblocked)
      · exact hhears hmisses
      · exact hwaiting hblocked

variable [Fintype W] [DecidableEq Job]

/-- **One step keeps the invariant unless it loses a wakeup.** -/
theorem step_heard {self next : CDWorkers Job W} {action : Action Job W} (hheard : Heard self)
    (hguard : ¬ LosesWakeup self action) (hstep : step self action = some next) :
    Heard next := by
  cases action with
  | work worker => exact moved_heard (runWorker_moved hstep) hheard
  | addJob job waiter =>
      obtain ⟨⟨-, hwakes⟩, rfl⟩ := by simpa [step] using hstep
      exact addJob_heard hheard hwakes hguard
  | stopWorker worker =>
      obtain rfl := by simpa [step] using hstep
      exact stopWorker_heard hheard worker
  | stopBroadcast worker =>
      obtain ⟨⟨-, howed⟩, rfl⟩ := by simpa [step] using hstep
      exact stopBroadcast_heard hheard howed hguard
  | killBroadcast =>
      obtain ⟨-, rfl⟩ := by simpa [step] using hstep
      exact condBroadcast_heard hheard
  | spurious worker =>
      obtain ⟨-, rfl⟩ := by simpa [step] using hstep
      exact signalled_heard hheard worker

private theorem run_heard {events : List Empty} {state : CDWorkers Job W}
    (hrun : system.Run (fun self action => ¬ LosesWakeup self action) events state) :
    Heard state := by
  refine System.Run.invariant (I := fun _ state => Heard state) createWorkers_heard ?_ hrun
  intro _ self action next _ hheard hguard hstep
  obtain ⟨hnext, -⟩ := by simpa [system] using hstep
  exact step_heard hheard hguard hnext

omit [DecidableEq W] [Fintype W] [DecidableEq Job] in
/-- Where the invariant holds no wakeup is lost. -/
theorem Heard.awake {self : CDWorkers Job W} (hheard : Heard self) : ¬ LostWakeup self := by
  rintro ⟨hjobs, hsome, hblocked, hsilent⟩
  have hstopping : self.stopping = [] := by
    by_contra hstopping
    exact hsilent (.inr hstopping)
  obtain ⟨worker, hworking, hawake⟩ := hheard.served hjobs hstopping hsome
  have hplace := hblocked worker hworking
  have hsignalled : (self.workers worker).place ≠ .signalled :=
    fun h => hsilent (.inl ⟨worker, h⟩)
  cases h : (self.workers worker).place <;> simp_all [Place.Blocked]

end Invariant

/-! ## Every run -/

section Runs

variable [DecidableEq W] [Fintype W] [DecidableEq Job]

/-- **No wakeup is lost in a run whose signals all fall outside the gap between
a worker's test and its wait.** -/
theorem no_lost_wakeup {events : List Empty} {state : CDWorkers Job W}
    (hrun : system.Run (fun self action => ¬ LosesWakeup self action) events state) :
    ¬ LostWakeup state :=
  (run_heard hrun).awake

end Runs

/-- One worker waits, and a push signals it. -/
def pushedWhileWaiting : List (Action ℕ (Fin 1)) :=
  [.work 0, .work 0, .work 0, .work 0, .addJob 7 (some 0)]

theorem no_lost_wakeup_waiting :
    ∃ state events, system.exec pushedWhileWaiting createWorkers = some (state, events) ∧
      state.jobs = [7] ∧ ¬ LostWakeup state := by
  have hpushed : (system.exec pushedWhileWaiting createWorkers).map
      (fun result => result.1.jobs) = some [7] := by
    decide
  obtain ⟨⟨state, events⟩, hexec, hjobs⟩ := Option.map_eq_some_iff.mp hpushed
  exact ⟨state, events, hexec, hjobs,
    no_lost_wakeup (System.Run.exec .start (by decide) hexec)⟩

/-- The same push, between the test and the wait. -/
def pushedBeforeWaiting : List (Action ℕ (Fin 1)) :=
  [.work 0, .work 0, .addJob 7 none, .work 0, .work 0]

/-- The push finds nobody to signal, and the worker waits beside its job. -/
theorem lost_wakeup :
    ∃ events state, system.Run (fun _ _ => True) events (state : CDWorkers ℕ (Fin 1)) ∧
      LostWakeup state := by
  have hpushed : (system.exec pushedBeforeWaiting createWorkers).map
      (fun result => (result.1.jobs, result.1.workers 0, result.1.stopping)) =
        some ([7], ⟨true, .waiting⟩, []) := by
    decide
  obtain ⟨⟨state, events⟩, hexec, hstate⟩ := Option.map_eq_some_iff.mp hpushed
  simp only [Prod.mk.injEq] at hstate
  obtain ⟨hjobs, hworker, hstopping⟩ := hstate
  have hworkers : ∀ worker, state.workers worker = ⟨true, .waiting⟩ := by
    intro worker
    rw [Subsingleton.elim worker 0, hworker]
  refine ⟨events, state, System.Run.exec .start (System.execGuard_true _ _) hexec, ?_⟩
  refine ⟨by simp [hjobs], ⟨0, by simp [hworker]⟩, ?_, ?_⟩
  · intro worker _
    simp [hworkers, Place.Blocked]
  · simp [SignalPending, hworkers, hstopping]

end Craftd.Workers
