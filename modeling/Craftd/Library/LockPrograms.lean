import Craftd.Library.System
import Mathlib.Data.Fintype.Basic

/-!
# Threads that take locks

A `Program` is what a thread still does: take a lock, and go on as the shared data says
that it then finds, or give a lock back, after it wrote that data.  A lock is taken to
read or to write; a thread that takes one again counts, where the lock is recursive, and
otherwise is refused (if it holds the lock to write) or waits for itself.

What holds at every point of every call, whatever the thread finds in the shared data
(`Always`), holds of every thread in every run (`run_follows`), and no two threads hold
one lock in modes that exclude each other (`run_exclusive`).  Two threads are opposed when
each holds a lock and waits for the one of the other; where they block each other, they do
so for ever (`blocked_forever`).
-/

namespace LockPrograms

open StepSystem

/-- How a lock is taken. -/
inductive Mode
  | read
  | write
  deriving DecidableEq, Repr

/-- Two threads may hold a lock at once if both read. -/
def Mode.compatible : Mode → Mode → Bool
  | .read, .read => true
  | _, _ => false

@[simp] theorem Mode.not_compatible_write (mode : Mode) :
    mode.compatible .write = false := by
  cases mode <;> rfl

theorem Mode.compatible_comm (mode held : Mode) :
    mode.compatible held = held.compatible mode := by
  cases mode <;> cases held <;> rfl

/-- What a thread still does. -/
inductive Program (Lock Shared : Type*)
  | done
  | take (lock : Lock) (mode : Mode) (next : Shared → Program Lock Shared)
  | give (lock : Lock) (write : Shared → Shared) (next : Program Lock Shared)

/-- The program has nothing left to do. -/
def Program.isDone {Lock Shared : Type*} : Program Lock Shared → Bool
  | .done => true
  | _ => false

/-- The lock that the program takes next, and how. -/
def Program.wants {Lock Shared : Type*} : Program Lock Shared → Option (Lock × Mode)
  | .take lock mode _ => some (lock, mode)
  | _ => none

@[simp] theorem Program.wants_done {Lock Shared : Type*} :
    (Program.done : Program Lock Shared).wants = none := rfl

@[simp] theorem Program.wants_take {Lock Shared : Type*} (lock : Lock) (mode : Mode)
    (next : Shared → Program Lock Shared) :
    (Program.take lock mode next).wants = some (lock, mode) := rfl

@[simp] theorem Program.wants_give {Lock Shared : Type*} (lock : Lock)
    (write : Shared → Shared) (next : Program Lock Shared) :
    (Program.give lock write next).wants = none := rfl

/-- The data the threads share, and for each thread the modes in which it holds each lock,
the call it was started for last and what is left of it. -/
structure State (Thread Lock Shared Call : Type*) where
  shared : Shared
  owns : Thread → Lock → List Mode
  call : Thread → Option Call
  code : Thread → Program Lock Shared

/-- What the threads may call, and which locks are recursive. -/
structure Rules (Lock Shared Call : Type*) where
  recursive : Lock → Bool
  code : Call → Program Lock Shared

/-- A thread starts a call, or takes the next step of the one it is in. -/
inductive Action (Thread Call : Type*)
  | start (thread : Thread) (call : Call)
  | run (thread : Thread)

variable {Thread Lock Shared Call : Type*}

/-- The modes in which a thread holds a lock that it takes, from those in which it holds
it already; none where it waits for itself. -/
def takeAgain (recursive : Bool) (mode : Mode) (own : List Mode) : Option (List Mode) :=
  if recursive ∨ own = [] then some (mode :: own)
  -- a lock that is not recursive refuses whoever holds it to write
  else if Mode.write ∈ own then some own
  else if mode = .read then some (mode :: own)
  else none

@[simp] theorem takeAgain_nil (recursive : Bool) (mode : Mode) :
    takeAgain recursive mode [] = some [mode] := by
  simp [takeAgain]

@[simp] theorem takeAgain_recursive (mode : Mode) (own : List Mode) :
    takeAgain true mode own = some (mode :: own) := by
  simp [takeAgain]

@[simp] theorem takeAgain_refused (mode : Mode) :
    takeAgain false mode [.write] = some [.write] := by
  simp [takeAgain]

theorem takeAgain_ne_nil {recursive : Bool} {mode : Mode} {own modes : List Mode}
    (htake : takeAgain recursive mode own = some modes) : modes ≠ [] := by
  unfold takeAgain at htake
  split_ifs at htake with hfree hwrite <;> cases htake
  · exact List.cons_ne_nil _ _
  · exact List.ne_nil_of_mem hwrite
  · exact List.cons_ne_nil _ _

/-- A lock is held in the mode that it was taken in, and as it was held before. -/
theorem mem_of_takeAgain {recursive : Bool} {mode held : Mode} {own modes : List Mode}
    (htake : takeAgain recursive mode own = some modes) (hheld : held ∈ modes) :
    held = mode ∨ held ∈ own := by
  unfold takeAgain at htake
  split_ifs at htake <;> cases htake
  · exact List.mem_cons.mp hheld
  · exact .inr hheld
  · exact List.mem_cons.mp hheld

section Steps

variable [DecidableEq Lock]

/-- What the next step of a program does to the shared data, to what its thread holds and
to the program itself. -/
def threadStep (recursive : Lock → Bool) (shared : Shared) (own : Lock → List Mode) :
    Program Lock Shared → Option (Shared × (Lock → List Mode) × Program Lock Shared)
  | .done => none
  | .take lock mode next =>
      (takeAgain (recursive lock) mode (own lock)).map fun modes =>
        (shared, Function.update own lock modes, next shared)
  | .give lock write next =>
      some (write shared, Function.update own lock (own lock).tail, next)

/-- Whoever takes a lock goes on as the shared data says. -/
theorem threadStep_take {recursive : Lock → Bool} {shared : Shared} {own : Lock → List Mode}
    {lock : Lock} {mode : Mode} {next : Shared → Program Lock Shared}
    {result : Shared × (Lock → List Mode) × Program Lock Shared}
    (hstep : threadStep recursive shared own (.take lock mode next) = some result) :
    ∃ modes, takeAgain (recursive lock) mode (own lock) = some modes ∧
      result = (shared, Function.update own lock modes, next shared) := by
  obtain ⟨modes, hmodes, hresult⟩ := Option.map_eq_some_iff.mp hstep
  exact ⟨modes, hmodes, hresult.symm⟩

variable [DecidableEq Thread]

/-- No other thread holds the lock in a mode that excludes this one. -/
def Available (state : State Thread Lock Shared Call) (thread : Thread) (lock : Lock)
    (mode : Mode) : Prop :=
  ∀ other, other ≠ thread → ∀ held ∈ state.owns other lock, mode.compatible held = true

/-- The next step of the thread is not a lock that others hold. -/
def MayRun (state : State Thread Lock Shared Call) (thread : Thread) : Prop :=
  ∀ wanted ∈ (state.code thread).wants, Available state thread wanted.1 wanted.2

/-- The thread has begun a call. -/
def State.startCall (state : State Thread Lock Shared Call) (thread : Thread) (call : Call)
    (code : Program Lock Shared) : State Thread Lock Shared Call :=
  { state with
    call := Function.update state.call thread (some call)
    code := Function.update state.code thread code }

/-- The thread has another program. -/
def State.setThread (state : State Thread Lock Shared Call) (thread : Thread)
    (result : Shared × (Lock → List Mode) × Program Lock Shared) :
    State Thread Lock Shared Call where
  shared := result.1
  owns := Function.update state.owns thread result.2.1
  call := state.call
  code := Function.update state.code thread result.2.2

section Fields

variable {state : State Thread Lock Shared Call} {thread other : Thread} {call : Call}
  {code : Program Lock Shared} {result : Shared × (Lock → List Mode) × Program Lock Shared}

omit [DecidableEq Lock] in
@[simp] theorem owns_startCall : (state.startCall thread call code).owns = state.owns := rfl

omit [DecidableEq Lock] in
@[simp] theorem call_startCall_self :
    (state.startCall thread call code).call thread = some call :=
  Function.update_self ..

omit [DecidableEq Lock] in
@[simp] theorem code_startCall_self : (state.startCall thread call code).code thread = code :=
  Function.update_self ..

omit [DecidableEq Lock] in
theorem call_startCall_of_ne (hother : other ≠ thread) :
    (state.startCall thread call code).call other = state.call other :=
  Function.update_of_ne hother ..

omit [DecidableEq Lock] in
theorem code_startCall_of_ne (hother : other ≠ thread) :
    (state.startCall thread call code).code other = state.code other :=
  Function.update_of_ne hother ..

omit [DecidableEq Lock] in
@[simp] theorem call_setThread : (state.setThread thread result).call = state.call := rfl

omit [DecidableEq Lock] in
@[simp] theorem owns_setThread_self :
    (state.setThread thread result).owns thread = result.2.1 :=
  Function.update_self ..

omit [DecidableEq Lock] in
@[simp] theorem code_setThread_self :
    (state.setThread thread result).code thread = result.2.2 :=
  Function.update_self ..

omit [DecidableEq Lock] in
theorem owns_setThread_of_ne (hother : other ≠ thread) :
    (state.setThread thread result).owns other = state.owns other :=
  Function.update_of_ne hother ..

omit [DecidableEq Lock] in
theorem code_setThread_of_ne (hother : other ≠ thread) :
    (state.setThread thread result).code other = state.code other :=
  Function.update_of_ne hother ..

end Fields

/-- What an action leads to; nothing where it cannot be taken, and where the thread would wait
for itself. -/
def advance (rules : Rules Lock Shared Call) (state : State Thread Lock Shared Call) :
    Action Thread Call → Option (State Thread Lock Shared Call)
  | .start thread call =>
      if (state.code thread).isDone then some (state.startCall thread call (rules.code call))
      else none
  | .run thread =>
      (threadStep rules.recursive state.shared (state.owns thread) (state.code thread)).map
        (state.setThread thread)

/-- The thread whose action it is. -/
def Action.thread : Action Thread Call → Thread
  | .start thread _ | .run thread => thread

instance [Fintype Thread] (state : State Thread Lock Shared Call) (thread : Thread)
    (lock : Lock) (mode : Mode) : Decidable (Available state thread lock mode) :=
  inferInstanceAs (Decidable (∀ _, _ → _))

instance [Fintype Thread] (state : State Thread Lock Shared Call) (thread : Thread) :
    Decidable (MayRun state thread) :=
  inferInstanceAs (Decidable (∀ _ ∈ (state.code thread).wants, _))

/-- The threads as a step system, from given shared data and with no lock taken. -/
def system [Fintype Thread] (rules : Rules Lock Shared Call) (shared : Shared) :
    System (State Thread Lock Shared Call) (Action Thread Call) Empty where
  init :=
    { shared := shared, owns := fun _ _ => [], call := fun _ => none, code := fun _ => .done }
  step state action :=
    if MayRun state action.thread then
      (advance rules state action).map fun next => (next, [])
    else none

/-! ## The points of a program -/

/-- A property of what a thread holds and what it still does that is true here and at every
later point of the program, whatever the thread finds in the shared data. -/
def Always (recursive : Lock → Bool)
    (P : (Lock → List Mode) → Program Lock Shared → Prop) :
    (Lock → List Mode) → Program Lock Shared → Prop
  | own, .done => P own .done
  | own, .take lock mode next =>
      P own (.take lock mode next) ∧
        ∀ modes ∈ takeAgain (recursive lock) mode (own lock), ∀ shared,
          Always recursive P (Function.update own lock modes) (next shared)
  | own, .give lock write next =>
      P own (.give lock write next) ∧
        Always recursive P (Function.update own lock (own lock).tail) next

namespace Always

variable {recursive : Lock → Bool} {P : (Lock → List Mode) → Program Lock Shared → Prop}
  {own : Lock → List Mode} {code : Program Lock Shared}

theorem here (halways : Always recursive P own code) : P own code := by
  cases code with
  | done => exact halways
  | take | give => exact halways.1

theorem step (halways : Always recursive P own code) {shared : Shared}
    {result : Shared × (Lock → List Mode) × Program Lock Shared}
    (hstep : threadStep recursive shared own code = some result) :
    Always recursive P result.2.1 result.2.2 := by
  cases code with
  | done => cases hstep
  | take lock mode next =>
      obtain ⟨modes, hmodes, rfl⟩ := threadStep_take hstep
      exact halways.2 modes hmodes shared
  | give lock write next =>
      cases hstep
      exact halways.2

end Always

/-- The thread was not started, or is at a point of the call it is in. -/
inductive Follows (rules : Rules Lock Shared Call)
    (P : Call → (Lock → List Mode) → Program Lock Shared → Prop)
    (state : State Thread Lock Shared Call) (thread : Thread) : Prop
  | idle (hown : state.owns thread = fun _ => []) (hcode : state.code thread = .done)
  | within (call : Call) (hcall : state.call thread = some call)
      (halways : Always rules.recursive (P call) (state.owns thread) (state.code thread))

/-! ## Waiting -/

/-- The thread's next step is to take the lock, which others hold. -/
def Waits (state : State Thread Lock Shared Call) (thread : Thread) (lock : Lock) : Prop :=
  ∃ mode, (state.code thread).wants = some (lock, mode) ∧ ¬Available state thread lock mode

/-- One thread holds the first lock and waits for the second, and another holds the second
and waits for the first. -/
def Opposed (state : State Thread Lock Shared Call) (first second : Lock) : Prop :=
  ∃ thread other, thread ≠ other ∧
    state.owns thread first ≠ [] ∧ Waits state thread second ∧
    state.owns other second ≠ [] ∧ Waits state other first

/-- The thread's next step is to take a lock that the other one holds and excludes it from. -/
def BlockedBy (state : State Thread Lock Shared Call) (thread other : Thread) (lock : Lock) :
    Prop :=
  ∃ mode, (state.code thread).wants = some (lock, mode) ∧
    ∃ held ∈ state.owns other lock, mode.compatible held = false

/-- No two threads hold one lock in modes that exclude each other. -/
def Exclusive (state : State Thread Lock Shared Call) : Prop :=
  ∀ thread other, thread ≠ other → ∀ lock, ∀ mode ∈ state.owns thread lock,
    ∀ held ∈ state.owns other lock, mode.compatible held = true

variable {rules : Rules Lock Shared Call} {state next : State Thread Lock Shared Call}

omit [DecidableEq Lock] [DecidableEq Thread] in
theorem Exclusive.unheld (hexclusive : Exclusive state) {thread other : Thread}
    (hne : thread ≠ other) {lock : Lock} (hwrite : .write ∈ state.owns other lock) :
    state.owns thread lock = [] := by
  rw [List.eq_nil_iff_forall_not_mem]
  intro mode hmode
  have hcompatible := hexclusive thread other hne lock mode hmode .write hwrite
  rw [Mode.not_compatible_write] at hcompatible
  cases hcompatible

omit [DecidableEq Lock] [DecidableEq Thread] in
/-- A thread that takes a lock to write is blocked by whoever holds it. -/
theorem blockedBy_of_holds {thread other : Thread} {lock : Lock}
    (hwants : (state.code thread).wants = some (lock, .write))
    (hheld : state.owns other lock ≠ []) : BlockedBy state thread other lock := by
  obtain ⟨held, hmem⟩ := List.exists_mem_of_ne_nil _ hheld
  refine ⟨.write, hwants, held, hmem, ?_⟩
  rw [Mode.compatible_comm, Mode.not_compatible_write]

section Fintype

variable [Fintype Thread] {shared : Shared} {events emitted : List Empty}
  {action : Action Thread Call}

/-- **What a step does**: a thread that has nothing to do begins a call, or a thread takes the
next step of its own. -/
theorem step_cases (hstep : (system rules shared).step state action = some (next, emitted)) :
    (∃ thread call, action = .start thread call ∧ state.code thread = .done ∧
      next = state.startCall thread call (rules.code call)) ∨
    ∃ thread result, action = .run thread ∧ MayRun state thread ∧
      threadStep rules.recursive state.shared (state.owns thread) (state.code thread) =
        some result ∧ next = state.setThread thread result := by
  simp only [system, Option.ite_none_right_eq_some, Option.map_eq_some_iff,
    Prod.mk.injEq] at hstep
  obtain ⟨hmay, after, hadvance, rfl, -⟩ := hstep
  cases action with
  | start thread call =>
      simp only [advance, Option.ite_none_right_eq_some, Option.some.injEq] at hadvance
      obtain ⟨hdone, rfl⟩ := hadvance
      refine .inl ⟨thread, call, rfl, ?_, rfl⟩
      cases hcode : state.code thread with
      | done => rfl
      | take | give => simp [hcode, Program.isDone] at hdone
  | run thread =>
      obtain ⟨result, hresult, rfl⟩ := Option.map_eq_some_iff.mp hadvance
      exact .inr ⟨thread, result, rfl, hmay, hresult, rfl⟩

/-- The thread that takes a step holds what it held and what the others let it take. -/
theorem Exclusive.step (hexclusive : Exclusive state)
    (hstep : (system rules shared).step state action = some (next, emitted)) :
    Exclusive next := by
  rcases step_cases hstep with ⟨thread, call, -, -, rfl⟩ |
    ⟨thread, result, -, hmay, hresult, rfl⟩
  · exact hexclusive
  -- what the thread holds afterwards goes with what each other thread holds
  have hmine : ∀ other, other ≠ thread → ∀ lock, ∀ mode ∈ result.2.1 lock,
      ∀ held ∈ state.owns other lock, mode.compatible held = true := by
    intro other hother lock mode hmode held hheld
    have hbefore := hexclusive thread other hother.symm lock
    cases hcode : state.code thread with
    | done =>
        rw [hcode] at hresult
        cases hresult
    | take taken taking after =>
        rw [hcode] at hresult
        obtain ⟨modes, hmodes, rfl⟩ := threadStep_take hresult
        by_cases hlock : lock = taken
        · subst hlock
          simp only [Function.update_self] at hmode
          rcases mem_of_takeAgain hmodes hmode with rfl | hheld'
          · exact hmay (lock, mode) (by simp [hcode]) other hother held hheld
          · exact hbefore mode hheld' held hheld
        · simp only [Function.update_of_ne hlock] at hmode
          exact hbefore mode hmode held hheld
    | give given write after =>
        rw [hcode] at hresult
        cases hresult
        by_cases hlock : lock = given
        · subst hlock
          simp only [Function.update_self] at hmode
          exact hbefore mode (List.mem_of_mem_tail hmode) held hheld
        · simp only [Function.update_of_ne hlock] at hmode
          exact hbefore mode hmode held hheld
  intro one other hne lock mode hmode held hheld
  by_cases hone : one = thread
  · subst hone
    rw [owns_setThread_self] at hmode
    rw [owns_setThread_of_ne hne.symm] at hheld
    exact hmine other hne.symm lock mode hmode held hheld
  · rw [owns_setThread_of_ne hone] at hmode
    by_cases hother : other = thread
    · subst hother
      rw [owns_setThread_self] at hheld
      rw [Mode.compatible_comm]
      exact hmine one hone lock held hheld mode hmode
    · rw [owns_setThread_of_ne hother] at hheld
      exact hexclusive one other hne lock mode hmode held hheld

/-- **No two threads of a run** hold one lock in modes that exclude each other. -/
theorem run_exclusive {guard : State Thread Lock Shared Call → Action Thread Call → Prop}
    (hrun : (system rules shared).Run guard events state) : Exclusive state := by
  refine System.Run.invariant (I := fun _ state => Exclusive state) ?_ ?_ hrun
  · intro thread other _ lock mode hmode
    cases hmode
  · intro _ state action next _ hexclusive _ hstep
    exact hexclusive.step hstep

/-- **Every thread of a run** is at a point of the call it is in. -/
theorem run_follows {P : Call → (Lock → List Mode) → Program Lock Shared → Prop}
    (hcalls : ∀ call, Always rules.recursive (P call) (fun _ => []) (rules.code call))
    (hdone : ∀ call own, P call own .done → own = fun _ => [])
    {guard : State Thread Lock Shared Call → Action Thread Call → Prop}
    (hrun : (system rules shared).Run guard events state) (thread : Thread) :
    Follows rules P state thread := by
  have hall : ∀ thread, Follows rules P state thread := by
    refine System.Run.invariant (I := fun _ state => ∀ thread, Follows rules P state thread)
      ?_ ?_ hrun
    · exact fun _ => .idle rfl rfl
    · intro _ state action next _ hall _ hstep thread
      rcases step_cases hstep with ⟨started, call, -, hcode, rfl⟩ |
        ⟨moved, result, -, -, hresult, rfl⟩
      · by_cases hthread : thread = started
        · subst hthread
          -- a thread that is done holds nothing
          have hown : state.owns thread = fun _ => [] := by
            cases hall thread with
            | idle hown => exact hown
            | within call hcall halways => exact hdone call _ (hcode ▸ halways.here)
          refine .within call call_startCall_self ?_
          rw [owns_startCall, code_startCall_self, hown]
          exact hcalls call
        · cases hall thread with
          | idle hown hcode' =>
              exact .idle hown ((code_startCall_of_ne hthread).trans hcode')
          | within called hcall halways =>
              refine .within called ((call_startCall_of_ne hthread).trans hcall) ?_
              rwa [owns_startCall, code_startCall_of_ne hthread]
      · by_cases hthread : thread = moved
        · subst hthread
          cases hall thread with
          | idle hown hcode =>
              rw [hcode] at hresult
              cases hresult
          | within call hcall halways =>
              refine .within call hcall ?_
              rw [owns_setThread_self, code_setThread_self]
              exact halways.step hresult
        · cases hall thread with
          | idle hown hcode =>
              exact .idle ((owns_setThread_of_ne hthread).trans hown)
                ((code_setThread_of_ne hthread).trans hcode)
          | within call hcall halways =>
              refine .within call hcall ?_
              rwa [owns_setThread_of_ne hthread, code_setThread_of_ne hthread]
  exact hall thread

end Fintype

omit [DecidableEq Lock] [DecidableEq Thread] in
theorem BlockedBy.not_mayRun {thread other : Thread} {lock : Lock} (hne : other ≠ thread)
    (hblocked : BlockedBy state thread other lock) : ¬MayRun state thread := by
  obtain ⟨mode, hwants, held, hheld, hexcluded⟩ := hblocked
  intro hmay
  have hcompatible := hmay _ hwants other hne held hheld
  rw [hexcluded] at hcompatible
  cases hcompatible

omit [DecidableEq Lock] [DecidableEq Thread] in
theorem BlockedBy.opposed {thread other : Thread} {first second : Lock} (hne : thread ≠ other)
    (hblocked : BlockedBy state thread other second)
    (hblocked' : BlockedBy state other thread first) : Opposed state first second := by
  have hwaits : ∀ {thread other : Thread} {lock : Lock}, other ≠ thread →
      BlockedBy state thread other lock → Waits state thread lock := by
    intro thread other lock hne ⟨mode, hwants, held, hheld, hexcluded⟩
    refine ⟨mode, hwants, fun havailable => ?_⟩
    rw [havailable other hne held hheld] at hexcluded
    cases hexcluded
  have hholds : ∀ {thread other : Thread} {lock : Lock}, BlockedBy state thread other lock →
      state.owns other lock ≠ [] := by
    intro thread other lock ⟨_, _, _, hheld, _⟩
    exact List.ne_nil_of_mem hheld
  exact ⟨thread, other, hne, hholds hblocked', hwaits hne.symm hblocked, hholds hblocked,
    hwaits hne hblocked'⟩

/-- **Two threads that block each other do so for ever.** -/
theorem blocked_forever [Fintype Thread] {shared : Shared} {thread other : Thread}
    {first second : Lock} (hne : thread ≠ other) {later : State Thread Lock Shared Call}
    (hleads : (system rules shared).Leads state later)
    (hblocked : BlockedBy state thread other second ∧ BlockedBy state other thread first) :
    BlockedBy later thread other second ∧ BlockedBy later other thread first := by
  let P (state : State Thread Lock Shared Call) : Prop :=
    BlockedBy state thread other second ∧ BlockedBy state other thread first
  refine hleads.keeps (P := P) ?_ hblocked
  intro state next ⟨⟨mode, hwants, held, hheld, hexcluded⟩,
    ⟨mode', hwants', held', hheld', hexcluded'⟩⟩ ⟨action, emitted, hstep⟩
  rcases step_cases hstep with ⟨started, call, -, hcode, rfl⟩ |
    ⟨moved, result, -, hmay, -, rfl⟩
  · -- whoever waits has something to do
    have hthread : thread ≠ started := by
      intro heq
      simp [heq, hcode] at hwants
    have hother : other ≠ started := by
      intro heq
      simp [heq, hcode] at hwants'
    exact ⟨⟨mode, by rwa [code_startCall_of_ne hthread], held, hheld, hexcluded⟩,
      ⟨mode', by rwa [code_startCall_of_ne hother], held', hheld', hexcluded'⟩⟩
  · -- the step is neither the one's nor the other's
    have hthread : thread ≠ moved := by
      intro heq
      exact BlockedBy.not_mayRun hne.symm ⟨mode, hwants, held, hheld, hexcluded⟩ (heq ▸ hmay)
    have hother : other ≠ moved := by
      intro heq
      exact BlockedBy.not_mayRun hne ⟨mode', hwants', held', hheld', hexcluded'⟩ (heq ▸ hmay)
    refine ⟨⟨mode, ?_, held, ?_, hexcluded⟩, ⟨mode', ?_, held', ?_, hexcluded'⟩⟩
    · rwa [code_setThread_of_ne hthread]
    · rwa [owns_setThread_of_ne hother]
    · rwa [code_setThread_of_ne hother]
    · rwa [owns_setThread_of_ne hthread]

end Steps

/-! ## One lock along one program -/

/-- What a program does with one lock: the modes in which its thread holds the lock at each
of its requests, and those in which it does at the end, if it gets there. -/
structure Trace where
  requests : List (List Mode)
  left : Option (List Mode)
  deriving DecidableEq

/-- The trace of a program that finds `found n` in the shared data when it takes its `n`th
lock, and waits for no other thread. -/
def Program.trace [DecidableEq Lock] (recursive : Bool) (lock : Lock) :
    Program Lock Shared → List Mode → (ℕ → Shared) → Trace
  | .done, own, _ => ⟨[], some own⟩
  | .take other mode next, own, found =>
      let later := fun index => found (index + 1)
      if other = lock then
        match takeAgain recursive mode own with
        | none => ⟨[own], none⟩
        | some modes =>
            let rest := (next (found 0)).trace recursive lock modes later
            ⟨own :: rest.requests, rest.left⟩
      else (next (found 0)).trace recursive lock own later
  | .give other _ next, own, found =>
      next.trace recursive lock (if other = lock then own.tail else own) found

/-- The lock is requested once, not while it is held, and given back. -/
structure TakenOnce (trace : Trace) : Prop where
  once : trace.requests.length = 1
  unheld : ∀ held ∈ trace.requests, held = []
  released : trace.left = some []

/-- What comes before the rest of a program has nothing to do with the lock. -/
def Passes [DecidableEq Lock] (recursive : Bool) (lock : Lock)
    (before : Program Lock Shared → Program Lock Shared) : Prop :=
  ∀ next own found, ∃ later,
    (before next).trace recursive lock own found = next.trace recursive lock own later

namespace Passes

variable [DecidableEq Lock] {recursive : Bool} {lock : Lock}
  {before after : Program Lock Shared → Program Lock Shared}

theorem refl : Passes recursive lock (id : Program Lock Shared → Program Lock Shared) :=
  fun _ _ found => ⟨found, rfl⟩

theorem comp (hbefore : Passes recursive lock before) (hafter : Passes recursive lock after) :
    Passes recursive lock fun next => before (after next) := by
  intro next own found
  obtain ⟨later, hfirst⟩ := hbefore (after next) own found
  obtain ⟨last, hsecond⟩ := hafter next own later
  exact ⟨last, hfirst.trans hsecond⟩

theorem takeGive {other : Lock} (hother : other ≠ lock) (mode : Mode) (write : Shared → Shared) :
    Passes recursive lock fun next => .take other mode fun _ => .give other write next := by
  intro next own found
  refine ⟨fun index => found (index + 1), ?_⟩
  rw [Program.trace, if_neg hother, Program.trace, if_neg hother]

end Passes

end LockPrograms
