import Craftd.Containers.ListLinks

/-!
# The order of the jobs

`CD_AddJob` and `CD_NextJob` of `Workers.c` over the linked list that holds the jobs.
Any number of threads add jobs and take them: an action is one step of one thread, and
`CD_ListPush`, `CD_ListShift` and `CD_ListLength` are each one step, under the lock of
the list.  `CD_AddJob` takes the mutex in front of its push and gives it back behind it;
`CD_NextJob` and `CD_HasJobs` do not take it.

The events of a run are the jobs in the order in which they were added and handed out.
What the queue holds is what was added and not yet handed out (`Queued`), whatever the
addresses that `CD_malloc` returns, and as often as the queue drains.
-/

namespace Craftd.Workers.JobQueue

open Containers StepSystem

variable {Addr Thread : Type*}

/-! ## The threads -/

/-- Where a thread stands in `CD_AddJob`. -/
inductive Place
  /-- not in the call, or before the mutex -/
  | outside
  /-- the mutex is held, the job is not yet pushed -/
  | locked
  /-- the job is pushed, the mutex is still held -/
  | pushed
  deriving DecidableEq, Repr

/-- What the threads share of `CDWorkers`, and where they are. -/
structure CDWorkers (Addr Thread : Type*) where
  jobs : CDList Addr
  mutex : Option Thread
  place : Thread → Place

/-- `CD_CreateWorkers`. -/
def createWorkers : CDWorkers Addr Thread where
  jobs := createList
  mutex := none
  place := fun _ => .outside

/-- A step of a thread.  A push names the address that `CD_malloc` returned. -/
inductive Action (Addr Thread : Type*)
  | lock (thread : Thread)
  | push (thread : Thread) (address : Addr) (job : CDPointer)
  | unlock (thread : Thread)
  | hasJobs (thread : Thread)
  | nextJob (thread : Thread)

/-- A job that a thread added, or what `CD_NextJob` returned to a thread. -/
inductive JobEvent (Thread : Type*)
  | added (thread : Thread) (job : CDPointer)
  | handed (thread : Thread) (job : CDPointer)

/-- The jobs added, in their order. -/
def addedJobs (events : List (JobEvent Thread)) : List CDPointer :=
  events.filterMap fun
    | .added _ job => some job
    | .handed _ _ => none

/-- The jobs handed out, in their order, without the NULL of an empty queue. -/
def handedJobs (events : List (JobEvent Thread)) : List CDPointer :=
  events.filterMap fun
    | .added _ _ => none
    | .handed _ job => if job = cdNull then none else some job

section Steps

variable [DecidableEq Addr] [DecidableEq Thread]

/-- The thread goes to another place. -/
def CDWorkers.setPlace (self : CDWorkers Addr Thread) (thread : Thread) (place : Place) :
    CDWorkers Addr Thread :=
  { self with place := Function.update self.place thread place }

/-- `CD_HasJobs`. -/
def hasJobs (self : CDWorkers Addr Thread) : Option (CDWorkers Addr Thread × Bool) :=
  (listLength self.jobs).map fun (jobs, length) =>
    ({ self with jobs := jobs }, decide (0 < length))

/-- `CD_NextJob`. -/
def nextJob (self : CDWorkers Addr Thread) : Option (CDWorkers Addr Thread × CDPointer) :=
  (listShift self.jobs).map fun (jobs, job) => ({ self with jobs := jobs }, job)

/-- The step of a thread.  There is none where the thread is not at that place, where it
waits for the mutex, and where the list is read or written through a pointer that leads
nowhere. -/
def step (self : CDWorkers Addr Thread) :
    Action Addr Thread → Option (CDWorkers Addr Thread × List (JobEvent Thread))
  | .lock thread =>
      if self.place thread = .outside ∧ self.mutex = none then
        some ({ self.setPlace thread .locked with mutex := some thread }, [])
      else none
  | .push thread address job =>
      if self.place thread = .locked then
        (listPush self.jobs address job).map fun jobs =>
          ({ self.setPlace thread .pushed with jobs := jobs }, [.added thread job])
      else none
  | .unlock thread =>
      if self.place thread = .pushed then
        some ({ self.setPlace thread .outside with mutex := none }, [])
      else none
  | .hasJobs _ => (hasJobs self).map fun (next, _) => (next, [])
  | .nextJob thread => (nextJob self).map fun (next, job) => (next, [.handed thread job])

/-- The pool as a step system. -/
def system : System (CDWorkers Addr Thread) (Action Addr Thread) (JobEvent Thread) where
  init := createWorkers
  step := step

/-- What `CD_malloc` and the callers of `CD_AddJob` promise: a new node's address is not
allocated, and a job is not NULL. -/
def Possible (self : CDWorkers Addr Thread) : Action Addr Thread → Prop
  | .push _ address job => self.jobs.heap address = none ∧ job ≠ cdNull
  | _ => True

instance (self : CDWorkers Addr Thread) : (action : Action Addr Thread) →
    Decidable (Possible self action)
  | .push _ _ _ => inferInstanceAs (Decidable (_ ∧ _))
  | .lock _ | .unlock _ | .hasJobs _ | .nextJob _ => isTrue trivial

/-! ## What the queue holds -/

/-- The queue holds the jobs that were added and not yet handed out. -/
structure Queued (events : List (JobEvent Thread)) (workers : CDWorkers Addr Thread)
    (values : List CDPointer) : Prop where
  linked : WellLinked workers.jobs values
  history : addedJobs events = handedJobs events ++ values
  given : ∀ job ∈ values, job ≠ cdNull

variable {events : List (JobEvent Thread)} {self : CDWorkers Addr Thread}
  {values : List CDPointer}

omit [DecidableEq Addr] [DecidableEq Thread] in
theorem addedJobs_append (events later : List (JobEvent Thread)) :
    addedJobs (events ++ later) = addedJobs events ++ addedJobs later :=
  List.filterMap_append

omit [DecidableEq Addr] [DecidableEq Thread] in
theorem handedJobs_append (events later : List (JobEvent Thread)) :
    handedJobs (events ++ later) = handedJobs events ++ handedJobs later :=
  List.filterMap_append

private theorem push_queued (hqueued : Queued events self values) {address : Addr} {job : CDPointer}
    (hfresh : self.jobs.heap address = none) (hjob : job ≠ cdNull) (thread : Thread) :
    ∃ jobs, listPush self.jobs address job = some jobs ∧
      Queued (events ++ [.added thread job])
        { self.setPlace thread .pushed with jobs := jobs } (values ++ [job]) := by
  obtain ⟨jobs, hpush, hlinked⟩ := hqueued.linked.push hfresh job
  refine ⟨jobs, hpush, hlinked, ?_, ?_⟩
  · calc addedJobs (events ++ [.added thread job])
        = addedJobs events ++ [job] := addedJobs_append events _
      _ = handedJobs events ++ (values ++ [job]) := by
          rw [hqueued.history, List.append_assoc]
      _ = handedJobs (events ++ [.added thread job]) ++ (values ++ [job]) := by
          rw [handedJobs_append]
          simp [handedJobs]
  · intro other hother
    cases List.mem_append.mp hother with
    | inl hold => exact hqueued.given other hold
    | inr hnew => exact List.mem_singleton.mp hnew ▸ hjob

omit [DecidableEq Thread] in
/-- `CD_NextJob` hands out the job that waits longest, or NULL where none does. -/
theorem nextJob_queued (hqueued : Queued events self values) (thread : Thread) :
    ∃ next, nextJob self = some (next, values.headD cdNull) ∧
      Queued (events ++ [.handed thread (values.headD cdNull)]) next values.tail := by
  obtain ⟨jobs, hshift, hlinked⟩ := hqueued.linked.shift
  refine ⟨{ self with jobs := jobs }, by simp [nextJob, hshift], hlinked, ?_, ?_⟩
  · rw [addedJobs_append, handedJobs_append, hqueued.history]
    cases values with
    | nil => simp [addedJobs, handedJobs]
    | cons job rest =>
        have hjob := hqueued.given job (.head _)
        simp [addedJobs, handedJobs, hjob]
  · intro job hjob
    exact hqueued.given job (List.mem_of_mem_tail hjob)

omit [DecidableEq Addr] [DecidableEq Thread] in
theorem hasJobs_queued (hqueued : Queued events self values) :
    ∃ next, hasJobs self = some (next, decide (values ≠ [])) ∧ Queued events next values := by
  obtain ⟨jobs, hlength, hlinked⟩ := hqueued.linked.listLength
  refine ⟨{ self with jobs := jobs }, ?_, hlinked, hqueued.history, hqueued.given⟩
  simp [hasJobs, hlength, List.length_pos_iff]

/-- **One step of one thread** keeps what the queue holds. -/
theorem step_queued (hqueued : Queued events self values) {action : Action Addr Thread}
    (hpossible : Possible self action) {next : CDWorkers Addr Thread}
    {emitted : List (JobEvent Thread)} (hstep : step self action = some (next, emitted)) :
    ∃ later, Queued (events ++ emitted) next later := by
  cases action with
  | lock thread =>
      simp only [step, Option.ite_none_right_eq_some, Option.some.injEq, Prod.mk.injEq] at hstep
      obtain ⟨-, rfl, rfl⟩ := hstep
      rw [List.append_nil]
      exact ⟨values, hqueued.linked, hqueued.history, hqueued.given⟩
  | push thread address job =>
      obtain ⟨hfresh, hjob⟩ := hpossible
      obtain ⟨jobs, hpush, hpushed⟩ := push_queued hqueued hfresh hjob thread
      simp only [step, hpush, Option.map_some, Option.ite_none_right_eq_some,
        Option.some.injEq, Prod.mk.injEq] at hstep
      obtain ⟨-, rfl, rfl⟩ := hstep
      exact ⟨_, hpushed⟩
  | unlock thread =>
      simp only [step, Option.ite_none_right_eq_some, Option.some.injEq, Prod.mk.injEq] at hstep
      obtain ⟨-, rfl, rfl⟩ := hstep
      rw [List.append_nil]
      exact ⟨values, hqueued.linked, hqueued.history, hqueued.given⟩
  | hasJobs thread =>
      obtain ⟨looked, hlook, hlooked⟩ := hasJobs_queued hqueued
      simp only [step, hlook, Option.map_some, Option.some.injEq, Prod.mk.injEq] at hstep
      obtain ⟨rfl, rfl⟩ := hstep
      rw [List.append_nil]
      exact ⟨values, hlooked⟩
  | nextJob thread =>
      obtain ⟨taken, htake, htaken⟩ := nextJob_queued hqueued thread
      simp only [step, htake, Option.map_some, Option.some.injEq, Prod.mk.injEq] at hstep
      obtain ⟨rfl, rfl⟩ := hstep
      exact ⟨_, htaken⟩

/-! ## Every interleaving -/

/-- **Jobs are handed out in the order in which they were added**, each once: in every
interleaving the jobs handed out are a prefix of those added, and they are all of them
once the queue is empty.  No further push and no further shift leaves the list's memory. -/
theorem jobs_in_order (hrun : system.Run Possible events self) :
    handedJobs events <+: addedJobs events ∧
      (self.jobs.head = none → handedJobs events = addedJobs events) ∧
      (∀ next, hasJobs self = some (next, false) → handedJobs events = addedJobs events) ∧
      (∀ address job, self.jobs.heap address = none →
        ∃ jobs, listPush self.jobs address job = some jobs) ∧
      ∃ result, nextJob self = some result := by
  have hqueued : ∃ values, Queued events self values := by
    refine System.Run.invariant (I := fun events self => ∃ values, Queued events self values)
      ⟨[], .create, rfl, nofun⟩ ?_ hrun
    intro events self action next emitted ⟨values, hqueued⟩ hpossible hstep
    exact step_queued hqueued hpossible hstep
  obtain ⟨values, hqueued⟩ := hqueued
  have hall : values = [] → handedJobs events = addedJobs events := by
    intro hvalues
    rw [hqueued.history, hvalues, List.append_nil]
  refine ⟨⟨values, hqueued.history.symm⟩, fun hhead => hall ?_, fun next hlook => hall ?_,
    fun address job hfresh => ?_, ?_⟩
  · obtain ⟨nodes, hnodes, rfl, -⟩ := hqueued.linked
    have hstart := hnodes.chain.start_eq
    rw [hhead] at hstart
    cases nodes with
    | nil => rfl
    | cons node rest => simp at hstart
  · obtain ⟨looked, hlooked, -⟩ := hasJobs_queued hqueued
    rw [hlook, Option.some.injEq, Prod.mk.injEq] at hlooked
    simpa using hlooked.2
  · obtain ⟨jobs, hpush, -⟩ := hqueued.linked.push hfresh job
    exact ⟨jobs, hpush⟩
  · obtain ⟨jobs, hshift, -⟩ := hqueued.linked.shift
    exact ⟨_, by rw [nextJob, hshift]; rfl⟩

end Steps

/-- Two threads add one job three times, the queue drains in between, and the second
thread's node has the address that was freed. -/
def drainedBetween : List (Action ℕ ℕ) :=
  [.lock 1, .push 1 100 7, .nextJob 5, .nextJob 6, .unlock 1, .lock 2, .push 2 100 7,
    .unlock 2, .lock 1, .push 1 101 7, .hasJobs 5, .nextJob 6]

theorem jobs_in_order_drained :
    ∃ events self, system.exec drainedBetween createWorkers = some (self, events) ∧
      addedJobs events = [7, 7, 7] ∧ handedJobs events = [7, 7] ∧
      handedJobs events <+: addedJobs events ∧ ∃ result, nextJob self = some result := by
  have hjobs : (system.exec drainedBetween createWorkers).map (fun result =>
      (addedJobs result.2, handedJobs result.2)) = some ([7, 7, 7], [7, 7]) := by
    decide
  obtain ⟨⟨self, events⟩, hexec, hresult⟩ := Option.map_eq_some_iff.mp hjobs
  obtain ⟨hadded, hhanded⟩ := Prod.mk.inj hresult
  obtain ⟨hordered, -, -, -, hnext⟩ := jobs_in_order (System.Run.exec .start (by decide) hexec)
  exact ⟨events, self, hexec, hadded, hhanded, hordered, hnext⟩

end Craftd.Workers.JobQueue
