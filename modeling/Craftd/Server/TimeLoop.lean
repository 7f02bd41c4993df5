import Craftd.Library.System
import Mathlib.Data.BitVec
import Mathlib.Logic.Function.Basic

/-!
# The ids of timers

A translation of `CD_CreateTimeLoop` and of the four functions of `TimeLoop.c` that set and
clear timers.  A run is any sequence of their calls, of any length, with timers that fire in
between; whether libevent takes a timer is an input of each call.

The counter is raised over the id -1 where it should be raised over 0, so the call that
finds it at -1 returns 0.  A call that finds it at the id of a live timer, which takes a
counter that has gone round, gives this id to two timers.  Every other call is right
(`setRight_iff`), and as long as all calls are, the map and the timers agree (`sound_of_run`).
-/

namespace Craftd.Server.TimeLoop

open StepSystem

/-- An event of libevent, by its number among those that were made. -/
structure Timer where
  number : ℕ
  persist : Bool
  deriving DecidableEq, Repr

/-- `CDTimeLoop`, with the number of events made so far, and with the timers that are pending and
the ids that they were given. -/
structure CDTimeLoop where
  last : BitVec 32
  callbacks : BitVec 32 → Option Timer
  created : ℕ
  live : Timer → Option (BitVec 32)

/-- The counter of a call that sets a timer, after its test. -/
def takeLast (self : CDTimeLoop) : BitVec 32 :=
  if self.last + 1 = 0 then self.last + 1 else self.last

/-- What `CD_SetTimeout` and `CD_SetInterval` share; `added` says whether libevent takes the timer.
The result of a call is beside the state. -/
def setTimer (persist added : Bool) (self : CDTimeLoop) : CDTimeLoop × BitVec 32 :=
  let timer : Timer := ⟨self.created, persist⟩
  let self := { self with created := self.created + 1 }
  if added then
    let result := takeLast self
    ({ self with
        last := result + 1
        callbacks := Function.update self.callbacks result (some timer)
        live := Function.update self.live timer (some result) }, result)
  else (self, 0)

/-- `CD_SetTimeout`. -/
def setTimeout (added : Bool) (self : CDTimeLoop) : CDTimeLoop × BitVec 32 :=
  setTimer false added self

/-- `CD_SetInterval`. -/
def setInterval (added : Bool) (self : CDTimeLoop) : CDTimeLoop × BitVec 32 :=
  setTimer true added self

/-- `CD_ClearTimeout`, and `CD_ClearInterval`. -/
def clearTimeout (id : BitVec 32) (self : CDTimeLoop) : CDTimeLoop :=
  match self.callbacks id with
  | none => self
  | some timer => { self with
      callbacks := Function.update self.callbacks id none
      live := Function.update self.live timer none }

/-- `CD_ClearInterval`. -/
def clearInterval (id : BitVec 32) (self : CDTimeLoop) : CDTimeLoop := clearTimeout id self

/-- A timer fires; a timeout is not pending any more. -/
def fire (timer : Timer) (self : CDTimeLoop) : CDTimeLoop :=
  if timer.persist then self else { self with live := Function.update self.live timer none }

/-- The fields that `CD_CreateTimeLoop` sets. -/
def newTimeLoop : CDTimeLoop where
  last := BitVec.intMin 32
  callbacks := fun _ => none
  created := 0
  live := fun _ => none

/-- `CD_CreateTimeLoop`, with the interval that keeps the loop alive. -/
def createTimeLoop (added : Bool) : CDTimeLoop := (setInterval added newTimeLoop).1

inductive TimerAction
  | setTimeout (added : Bool)
  | setInterval (added : Bool)
  | clearTimeout (id : BitVec 32)
  | clearInterval (id : BitVec 32)
  | fire (timer : Timer)
  deriving DecidableEq, Repr

/-- The result of a call that sets a timer. -/
inductive TimerEvent
  | returned (result : BitVec 32)
  deriving DecidableEq, Repr

/-- One call, or a timer that fires. -/
def step (self : CDTimeLoop) : TimerAction → CDTimeLoop × List TimerEvent
  | .setTimeout added =>
      let (self, result) := setTimeout added self
      (self, [.returned result])
  | .setInterval added =>
      let (self, result) := setInterval added self
      (self, [.returned result])
  | .clearTimeout id => (clearTimeout id self, [])
  | .clearInterval id => (clearInterval id self, [])
  | .fire timer => (fire timer self, [])

/-- The calls on a time loop. -/
def system (added : Bool) : System CDTimeLoop TimerAction TimerEvent where
  init := createTimeLoop added
  step self action := some (step self action)

/-! ## What is right -/

/-- The result of a call that has set a timer is valid and no live timer's. -/
def SetRight (self : CDTimeLoop) (result : BitVec 32) : Prop :=
  result ≠ 0 ∧ ∀ timer, self.live timer ≠ some result

/-- What a call with an id clears is the timer that it was given for, if it is live. -/
def ClearRight (self : CDTimeLoop) (id : BitVec 32) : Prop :=
  (∀ timer, self.live timer = some id → self.callbacks id = some timer) ∧
    ∀ timer, self.callbacks id = some timer → ∀ given, self.live timer = some given → given = id

/-- The counter is not at -1, and not at the id of a live timer. -/
def FreshLast (self : CDTimeLoop) : Prop :=
  self.last ≠ -1 ∧ ∀ timer, self.live timer ≠ some self.last

/-- A timer is set only with a counter like that. -/
def SetsFresh (self : CDTimeLoop) : TimerAction → Prop
  | .setTimeout true | .setInterval true => FreshLast self
  | _ => True

/-! ## What every step keeps -/

variable {self : CDTimeLoop}

theorem add_one_eq_zero_iff (last : BitVec 32) : last + 1 = 0 ↔ last = -1 := by
  bv_omega

private theorem takeLast_add_one_ne_zero (self : CDTimeLoop) : takeLast self + 1 ≠ 0 := by
  unfold takeLast
  split_ifs with hlast
  · rw [hlast]
    decide
  · exact hlast

theorem setTimer_added (persist : Bool) (self : CDTimeLoop) :
    setTimer persist true self =
      ({ last := takeLast self + 1
         callbacks := Function.update self.callbacks (takeLast self) (some ⟨self.created, persist⟩)
         created := self.created + 1
         live := Function.update self.live ⟨self.created, persist⟩ (some (takeLast self)) },
        takeLast self) := rfl

/-- The counter is not 0, and what the map and the live timers name was made, and is under one id
in the map. -/
structure Tidy (loop : CDTimeLoop) : Prop where
  last : loop.last ≠ 0
  mapped : ∀ id timer, loop.callbacks id = some timer → timer.number < loop.created
  live : ∀ timer id, loop.live timer = some id → timer.number < loop.created
  keyed : ∀ id other timer, loop.callbacks id = some timer → loop.callbacks other = some timer →
    id = other

theorem Tidy.setTimer (h : Tidy self) (persist added : Bool) :
    Tidy (setTimer persist added self).1 := by
  cases added with
  | false =>
      exact ⟨h.last, fun id timer hid => (h.mapped id timer hid).trans (Nat.lt_succ_self _),
        fun timer id hlive => (h.live timer id hlive).trans (Nat.lt_succ_self _), h.keyed⟩
  | true =>
      have hnew : ∀ id, self.callbacks id ≠ some ⟨self.created, persist⟩ :=
        fun id hid => lt_irrefl _ (h.mapped id _ hid)
      refine ⟨takeLast_add_one_ne_zero self, fun id timer hid => ?_, fun timer id hlive => ?_,
        fun id other timer hid hother => ?_⟩
      · simp only [setTimer_added, Function.update_apply] at hid ⊢
        split_ifs at hid
        · cases hid
          exact Nat.lt_succ_self _
        · exact (h.mapped id timer hid).trans (Nat.lt_succ_self _)
      · simp only [setTimer_added, Function.update_apply] at hlive ⊢
        split_ifs at hlive with htimer
        · rw [htimer]
          exact Nat.lt_succ_self _
        · exact (h.live timer id hlive).trans (Nat.lt_succ_self _)
      · simp only [setTimer_added, Function.update_apply] at hid hother
        split_ifs at hid hother with hid' hother' hother'
        · rw [hid', hother']
        · cases hid
          exact absurd hother (hnew other)
        · cases hother
          exact absurd hid (hnew id)
        · exact h.keyed id other timer hid hother

/-- A clear leaves nothing but what was there. -/
theorem clearTimeout_callbacks {id other : BitVec 32} {timer : Timer}
    (h : (clearTimeout id self).callbacks other = some timer) :
    self.callbacks other = some timer := by
  unfold clearTimeout at h
  split at h
  · exact h
  · simp only [Function.update_apply] at h
    split_ifs at h
    exact h

private theorem clearTimeout_live {id given : BitVec 32} {timer : Timer}
    (h : (clearTimeout id self).live timer = some given) : self.live timer = some given := by
  unfold clearTimeout at h
  split at h
  · exact h
  · simp only [Function.update_apply] at h
    split_ifs at h
    exact h

private theorem clearTimeout_counters (id : BitVec 32) (self : CDTimeLoop) :
    (clearTimeout id self).last = self.last ∧ (clearTimeout id self).created = self.created := by
  unfold clearTimeout
  split <;> exact ⟨rfl, rfl⟩

theorem Tidy.clearTimeout (h : Tidy self) (id : BitVec 32) : Tidy (clearTimeout id self) := by
  obtain ⟨hlast, hcreated⟩ := clearTimeout_counters id self
  refine ⟨hlast ▸ h.last, fun other timer hother => ?_, fun timer given hlive => ?_,
    fun first second timer hfirst hsecond =>
      h.keyed first second timer (clearTimeout_callbacks hfirst) (clearTimeout_callbacks hsecond)⟩
  · rw [hcreated]
    exact h.mapped other timer (clearTimeout_callbacks hother)
  · rw [hcreated]
    exact h.live timer given (clearTimeout_live hlive)

theorem fire_live {timer other : Timer} {given : BitVec 32}
    (h : (fire timer self).live other = some given) : self.live other = some given := by
  unfold fire at h
  split_ifs at h
  · exact h
  · simp only [Function.update_apply] at h
    split_ifs at h
    exact h

theorem fire_rest (timer : Timer) (self : CDTimeLoop) :
    (fire timer self).last = self.last ∧ (fire timer self).created = self.created ∧
      (fire timer self).callbacks = self.callbacks := by
  unfold fire
  split_ifs <;> exact ⟨rfl, rfl, rfl⟩

theorem Tidy.fire (h : Tidy self) (timer : Timer) : Tidy (fire timer self) := by
  obtain ⟨hlast, hcreated, hcallbacks⟩ := fire_rest timer self
  refine ⟨hlast ▸ h.last, ?_, fun other given hlive => ?_, ?_⟩
  · rw [hcreated, hcallbacks]
    exact h.mapped
  · rw [hcreated]
    exact h.live other given (fire_live hlive)
  · rw [hcallbacks]
    exact h.keyed

theorem Tidy.step (h : Tidy self) (action : TimerAction) : Tidy (step self action).1 := by
  cases action with
  | setTimeout added => exact h.setTimer false added
  | setInterval added => exact h.setTimer true added
  | clearTimeout id => exact h.clearTimeout id
  | clearInterval id => exact h.clearTimeout id
  | fire timer => exact h.fire timer

theorem newTimeLoop_tidy : Tidy newTimeLoop := by
  refine ⟨by decide, fun id timer h => ?_, fun timer id h => ?_, fun id other timer h => ?_⟩
  · cases h
  · cases h
  · cases h

/-- **Any run** leaves the time loop tidy. -/
theorem tidy_of_run {added : Bool} {guard : CDTimeLoop → TimerAction → Prop}
    {history : List TimerEvent} (hrun : (system added).Run guard history self) : Tidy self := by
  refine System.Run.invariant (I := fun _ loop => Tidy loop)
    (newTimeLoop_tidy.setTimer true added) ?_ hrun
  intro history loop action next emitted htidy hguard hstep
  have hnext : (step loop action).1 = next := congrArg Prod.fst (Option.some.inj hstep)
  exact hnext ▸ htidy.step action

/-- The next call that sets a timer is right exactly if the counter is neither at -1 nor at the id
of a live timer. -/
theorem Tidy.setRight_iff (h : Tidy self) (persist : Bool) :
    SetRight self (TimeLoop.setTimer persist true self).2 ↔ FreshLast self := by
  have hresult : (TimeLoop.setTimer persist true self).2 = takeLast self := rfl
  rw [hresult, takeLast]
  split_ifs with hlast
  · rw [hlast]
    refine iff_of_false (fun hright => hright.1 rfl) fun hfresh => ?_
    exact hfresh.1 ((add_one_eq_zero_iff self.last).mp hlast)
  · have hne : self.last ≠ -1 := fun heq => hlast ((add_one_eq_zero_iff self.last).mpr heq)
    exact ⟨fun hright => ⟨hne, hright.2⟩, fun hfresh => ⟨h.last, hfresh.2⟩⟩

/-! ## Runs whose calls are right -/

/-- The map has each live timer under its id. -/
structure Sound (loop : CDTimeLoop) : Prop where
  tidy : Tidy loop
  held : ∀ timer id, loop.live timer = some id → loop.callbacks id = some timer

theorem Sound.setTimer (h : Sound self) (persist added : Bool)
    (hfresh : added = true → FreshLast self) : Sound (setTimer persist added self).1 := by
  refine ⟨h.tidy.setTimer persist added, fun timer id hlive => ?_⟩
  cases added with
  | false => exact h.held timer id hlive
  | true =>
      have hright := (h.tidy.setRight_iff persist).mpr (hfresh rfl)
      simp only [setTimer_added, Function.update_apply] at hlive hright ⊢
      split_ifs at hlive with htimer
      · rw [Option.some.inj hlive, if_pos rfl, htimer]
      · have hid : id ≠ takeLast self := fun heq => hright.2 timer (heq ▸ hlive)
        rw [if_neg hid]
        exact h.held timer id hlive

theorem Sound.clearTimeout (h : Sound self) (id : BitVec 32) : Sound (clearTimeout id self) := by
  refine ⟨h.tidy.clearTimeout id, fun timer given hlive => ?_⟩
  unfold TimeLoop.clearTimeout at hlive ⊢
  cases hid : self.callbacks id with
  | none =>
      rw [hid] at hlive
      exact h.held timer given hlive
  | some cleared =>
      rw [hid] at hlive
      simp only [Function.update_apply] at hlive ⊢
      split_ifs at hlive with htimer
      have hgiven : given ≠ id := by
        intro heq
        have hheld := h.held timer given hlive
        rw [heq, hid] at hheld
        exact htimer (Option.some.inj hheld).symm
      rw [if_neg hgiven]
      exact h.held timer given hlive

theorem Sound.fire (h : Sound self) (timer : Timer) : Sound (fire timer self) := by
  refine ⟨h.tidy.fire timer, fun other given hlive => ?_⟩
  rw [(fire_rest timer self).2.2]
  exact h.held other given (fire_live hlive)

theorem Sound.step (h : Sound self) {action : TimerAction} (hfresh : SetsFresh self action) :
    Sound (step self action).1 := by
  cases action with
  | setTimeout added =>
      refine h.setTimer false added fun hadded => ?_
      subst hadded
      exact hfresh
  | setInterval added =>
      refine h.setTimer true added fun hadded => ?_
      subst hadded
      exact hfresh
  | clearTimeout id => exact h.clearTimeout id
  | clearInterval id => exact h.clearTimeout id
  | fire timer => exact h.fire timer

private theorem createTimeLoop_sound (added : Bool) : Sound (createTimeLoop added) := by
  have hnew : Sound newTimeLoop := ⟨newTimeLoop_tidy, fun timer id h => by cases h⟩
  exact hnew.setTimer true added fun _ => ⟨by decide, fun timer h => by cases h⟩

/-- **Any run** whose calls find a fresh counter leaves the time loop sound. -/
theorem sound_of_run {added : Bool} {history : List TimerEvent}
    (hrun : (system added).Run SetsFresh history self) : Sound self := by
  refine System.Run.invariant (I := fun _ loop => Sound loop) (createTimeLoop_sound added) ?_ hrun
  intro history loop action next emitted hsound hguard hstep
  have hnext : (step loop action).1 = next := congrArg Prod.fst (Option.some.inj hstep)
  exact hnext ▸ hsound.step hguard

theorem Sound.clearRight (h : Sound self) (id : BitVec 32) : ClearRight self id := by
  refine ⟨fun timer hlive => h.held timer id hlive, fun timer hid given hlive => ?_⟩
  exact h.tidy.keyed given id timer (h.held timer given hlive) hid

/-- **Timer ids are valid and unique** in every run whose calls find the counter neither at -1 nor
at the id of a live timer, so that a clear cancels the timer that it was given for; and in every
run at all the next call is right exactly if it finds the counter so. -/
theorem timer_ids_right_iff (added : Bool) (history : List TimerEvent) (self : CDTimeLoop) :
    ((system added).Run SetsFresh history self → ∀ id, ClearRight self id) ∧
      ((system added).Run (fun _ _ => True) history self → ∀ persist,
        SetRight self (setTimer persist true self).2 ↔ FreshLast self) :=
  ⟨fun hrun => (sound_of_run hrun).clearRight, fun hrun => (tidy_of_run hrun).setRight_iff⟩

/-- The first timeout of a time loop, beside the interval that keeps it alive. -/
theorem timer_ids_right_iff_first :
    SetRight (createTimeLoop true) (setTimer false true (createTimeLoop true)).2 := by
  have hfresh : FreshLast (createTimeLoop true) := by
    refine ⟨by decide, fun timer hlive => ?_⟩
    simp only [createTimeLoop, setInterval, setTimer_added, Function.update_apply] at hlive
    split_ifs at hlive
    · exact absurd hlive (by decide)
    · cases hlive
  exact ((timer_ids_right_iff true [] (createTimeLoop true)).2 .start false).mpr hfresh

/-- The counter goes up to -1 one by one. -/
theorem exists_run_last (count : ℕ) (hcount : count ≤ 2 ^ 31 - 2) :
    ∃ history self, (system true).Run (fun _ _ => True) history self ∧
      self.last.toNat = 2 ^ 31 + 1 + count := by
  induction count with
  | zero => exact ⟨[], createTimeLoop true, .start, by decide⟩
  | succ count ih =>
      obtain ⟨history, self, hrun, hlast⟩ := ih (by omega)
      have hstep : (system true).step self (.setTimeout true) =
          some (step self (.setTimeout true)) := rfl
      refine ⟨_, _, hrun.step trivial hstep, ?_⟩
      have hne : self.last + 1 ≠ 0 := by
        intro hzero
        have hnat := congrArg BitVec.toNat hzero
        have hzeroNat : (self.last.toNat + 1) % 2 ^ 32 = 0 := hnat
        omega
      have hnext : (takeLast self + 1).toNat = (self.last.toNat + 1) % 2 ^ 32 := by
        rw [takeLast, if_neg hne]
        rfl
      calc (takeLast self + 1).toNat
          = (self.last.toNat + 1) % 2 ^ 32 := hnext
        _ = 2 ^ 31 + 1 + (count + 1) := by omega

/-- The call that finds the counter at -1 returns 0. -/
theorem setTimeout_returns_zero :
    ¬∀ added history self, (system added).Run (fun _ _ => True) history self →
      ∀ persist, SetRight self (setTimer persist true self).2 := by
  intro hclaim
  obtain ⟨history, self, hrun, hlast⟩ := exists_run_last (2 ^ 31 - 2) le_rfl
  have hminus : self.last = -1 := BitVec.eq_of_toNat_eq hlast
  refine (hclaim true history self hrun false).1 ?_
  show takeLast self = 0
  rw [takeLast, if_pos ((add_one_eq_zero_iff self.last).mpr hminus), hminus]
  decide

end Craftd.Server.TimeLoop
