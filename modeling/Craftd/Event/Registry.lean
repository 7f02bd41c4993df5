import Craftd.Library.System
import Mathlib.Data.BitVec
import Mathlib.Data.List.Sort

/-!
# The event registry

A translation of the parts of `Event.c` and `Event.h` that register, unregister
and dispatch: `server->event.callbacks` maps a name to a list that the registry
creates, and that `CD_EventUnregister` destroys when it has emptied it.  The
mapping is not taken out of the hash, so the name keeps a list that is gone.

A list is named by the number of lists created before it, so that a list whose
address `CD_malloc` gives out once more is still the list it was.  Reading or
writing a destroyed list has no outcome (`none`).  A call to a callback does not
touch the registry; a callback that registers or unregisters is a further step.
-/

namespace Craftd.Event

open StepSystem

variable {Callback : Type*}

/-! ## The operations -/

/-- `CDEventCallback`. -/
structure CDEventCallback (Callback : Type*) where
  function : Callback
  priority : BitVec 32
  deriving DecidableEq, Repr

/-- A list of callbacks, and whether it was passed to `CD_DestroyList`. -/
structure CDCallbackList (Callback : Type*) where
  items : List (CDEventCallback Callback)
  destroyed : Bool
  deriving DecidableEq, Repr

/-- What a dispatch and the registration share of `CDServer`: the hash, and the
lists that were created. -/
structure CDRegistry (Callback : Type*) where
  callbacks : String → Option ℕ
  lists : ℕ → CDCallbackList Callback
  created : ℕ

/-- The registry of a new server. -/
def createRegistry : CDRegistry Callback :=
  { callbacks := fun _ => none, lists := fun _ => ⟨[], false⟩, created := 0 }

/-- `cd_EventIsEqual`: zero where the callback is the one asked for. -/
def eventIsEqual [DecidableEq Callback] (a : Callback) (b : CDEventCallback Callback) : BitVec 8 :=
  if a = b.function then 0 else 1

/-- `cd_EventCompare`. -/
def eventCompare (a b : CDEventCallback Callback) : BitVec 8 :=
  if b.priority.slt a.priority then 1 else if a.priority.slt b.priority then -1 else 0

/-- The items of a list that was not destroyed. -/
def CDRegistry.items (self : CDRegistry Callback) (callbacks : ℕ) :
    Option (List (CDEventCallback Callback)) :=
  if (self.lists callbacks).destroyed then none else some (self.lists callbacks).items

/-- Store the items of a list. -/
def CDRegistry.setItems (self : CDRegistry Callback) (callbacks : ℕ)
    (items : List (CDEventCallback Callback)) : CDRegistry Callback :=
  { self with
    lists := Function.update self.lists callbacks { self.lists callbacks with items } }

/-- `CD_DestroyList`. -/
def destroyList (self : CDRegistry Callback) (callbacks : ℕ) : CDRegistry Callback :=
  { self with lists := Function.update self.lists callbacks ⟨[], true⟩ }

/-- `CD_ListSortedPush` with `cd_EventCompare`. -/
def listSortedPush (callback : CDEventCallback Callback) :
    List (CDEventCallback Callback) → List (CDEventCallback Callback) :=
  List.orderedInsert (fun a b => (eventCompare a b).toInt ≤ 0) callback

/-- The list of an event; where there is none, `CD_CreateList` and `CD_HashPut`. -/
def callbacksOf (self : CDRegistry Callback) (eventName : String) :
    CDRegistry Callback × ℕ :=
  match self.callbacks eventName with
  | some callbacks => (self, callbacks)
  | none =>
      ({ callbacks := Function.update self.callbacks eventName (some self.created)
         lists := Function.update self.lists self.created ⟨[], false⟩
         created := self.created + 1 }, self.created)

/-- `CD_EventRegisterWithPriority`. -/
def eventRegisterWithPriority (self : CDRegistry Callback) (eventName : String)
    (priority : BitVec 32) (callback : Callback) : Option (CDRegistry Callback) :=
  let (self, callbacks) := callbacksOf self eventName
  (self.items callbacks).map fun items =>
    self.setItems callbacks (listSortedPush ⟨callback, priority⟩ items)

/-- `CD_EventRegister`. -/
def eventRegister (self : CDRegistry Callback) (eventName : String) (callback : Callback) :
    Option (CDRegistry Callback) :=
  eventRegisterWithPriority self eventName 0 callback

section Unregister

variable [DecidableEq Callback]

/-- What `CD_EventUnregister` leaves in a list and what it returns:
`CD_ListDeleteAllIf` for a callback, `CD_ListClear` for NULL. -/
def deleteCallbacks (items : List (CDEventCallback Callback)) :
    Option Callback → List (CDEventCallback Callback) × List (CDEventCallback Callback)
  | some callback =>
      (items.filter fun item => eventIsEqual callback item ≠ 0,
        (items.find? fun item => eventIsEqual callback item = 0).toList)
  | none => ([], items)

/-- `CD_EventUnregister`; no array stands for NULL. -/
def eventUnregister (self : CDRegistry Callback) (eventName : String)
    (callback : Option Callback) :
    Option (CDRegistry Callback × Option (List (CDEventCallback Callback))) :=
  match self.callbacks eventName with
  | none => some (self, none)
  | some callbacks =>
      (self.items callbacks).map fun items =>
        let (items, result) := deleteCallbacks items callback
        let self := self.setItems callbacks items
        if items.length = 0 then (destroyList self callbacks, some result)
        else (self, some result)

end Unregister

/-- What a function answers when it is called for an event, after the functions
that were called before it in this dispatch. -/
abbrev Answers (Callback : Type*) := List Callback → String → Callback → Bool

/-- `CD_LIST_FOREACH` over the callbacks of an event, up to the first that
returns false: the functions called, and whether one did. -/
def callAll (returns : Answers Callback) (eventName : String) (before : List Callback) :
    List (CDEventCallback Callback) → List Callback × Bool
  | [] => ([], false)
  | item :: rest =>
      if returns before eventName item.function then
        let (called, interrupted) :=
          callAll returns eventName (before ++ [item.function]) rest
        (item.function :: called, interrupted)
      else ([item.function], true)

/-- Look an event up and call its callbacks. -/
def callEvent (self : CDRegistry Callback) (returns : Answers Callback) (eventName : String)
    (before : List Callback) : Option (List Callback × Bool) :=
  match self.callbacks eventName with
  | none => some ([], false)
  | some callbacks => (self.items callbacks).map (callAll returns eventName before)

/-- `CD_EventDispatch`: the functions called, and whether the event was
interrupted. -/
def eventDispatch (self : CDRegistry Callback) (returns : Answers Callback)
    (eventName : String) : Option (List Callback × Bool) := do
  let (before, stopped) ← callEvent self returns "Event.dispatch:before" []
  if stopped then some (before, false)
  else
    let (called, interrupted) ← callEvent self returns eventName before
    let (after, _) ← callEvent self returns "Event.dispatch:after" (before ++ called)
    some (before ++ called ++ after, interrupted)

/-! ## Sequences of calls -/

/-- A call on the registry. -/
inductive Action (Callback : Type*)
  | register (eventName : String) (callback : Callback)
  | registerWithPriority (eventName : String) (priority : BitVec 32) (callback : Callback)
  | unregister (eventName : String) (callback : Option Callback)
  | dispatch (eventName : String) (returns : Answers Callback)

section Steps

variable [DecidableEq Callback]

/-- The registry after a call; no outcome where the call reads a destroyed list. -/
def step (self : CDRegistry Callback) : Action Callback → Option (CDRegistry Callback)
  | .register eventName callback => eventRegister self eventName callback
  | .registerWithPriority eventName priority callback =>
      eventRegisterWithPriority self eventName priority callback
  | .unregister eventName callback => (eventUnregister self eventName callback).map Prod.fst
  | .dispatch eventName returns => (eventDispatch self returns eventName).map fun _ => self

/-- The registry as a step system. -/
def system : System (CDRegistry Callback) (Action Callback) Empty where
  init := createRegistry
  step self action := (step self action).map fun next => (next, [])

end Steps

/-- No name is mapped to a list that was passed to `CD_DestroyList`. -/
def ListsLive (self : CDRegistry Callback) : Prop :=
  ∀ eventName callbacks, self.callbacks eventName = some callbacks →
    (self.lists callbacks).destroyed = false

/-- The call unregisters all that is left in the list of an event. -/
def EmptiesList (self : CDRegistry Callback) : Action Callback → Prop
  | .unregister eventName callback => ∃ callbacks, self.callbacks eventName = some callbacks ∧
      ∀ function ∈ callback, ∀ item ∈ (self.lists callbacks).items, item.function = function
  | _ => False

instance [DecidableEq Callback] (self : CDRegistry Callback) :
    (action : Action Callback) → Decidable (EmptiesList self action)
  | .unregister eventName callback =>
      match hcallbacks : self.callbacks eventName with
      | none => isFalse fun ⟨_, hsome, _⟩ => by simp [hcallbacks] at hsome
      | some callbacks =>
          decidable_of_iff (∀ function ∈ callback, ∀ item ∈ (self.lists callbacks).items,
            item.function = function) (by simp [EmptiesList, hcallbacks])
  | .register _ _ | .registerWithPriority _ _ _ | .dispatch _ _ => isFalse id

/-! ## The small lemmas -/

theorem items_eq_some {self : CDRegistry Callback} {callbacks : ℕ}
    {items : List (CDEventCallback Callback)} :
    self.items callbacks = some items ↔
      (self.lists callbacks).destroyed = false ∧ (self.lists callbacks).items = items := by
  unfold CDRegistry.items
  cases (self.lists callbacks).destroyed <;> simp

@[simp] theorem callbacks_setItems (self : CDRegistry Callback) (callbacks : ℕ)
    (items : List (CDEventCallback Callback)) :
    (self.setItems callbacks items).callbacks = self.callbacks := rfl

@[simp] theorem destroyed_setItems (self : CDRegistry Callback) (callbacks other : ℕ)
    (items : List (CDEventCallback Callback)) :
    ((self.setItems callbacks items).lists other).destroyed = (self.lists other).destroyed := by
  by_cases hother : other = callbacks
  · subst hother
    simp [CDRegistry.setItems]
  · simp [CDRegistry.setItems, hother]

theorem setItems_live {self : CDRegistry Callback} (hlive : ListsLive self) (callbacks : ℕ)
    (items : List (CDEventCallback Callback)) : ListsLive (self.setItems callbacks items) := by
  intro eventName other hother
  rw [destroyed_setItems]
  exact hlive eventName other hother

/-- The list that a registration works on is live, and so are the others still. -/
theorem callbacksOf_live {self : CDRegistry Callback} (hlive : ListsLive self)
    (eventName : String) :
    ListsLive (callbacksOf self eventName).1 ∧
      ((callbacksOf self eventName).1.lists (callbacksOf self eventName).2).destroyed = false := by
  unfold callbacksOf
  cases hcallbacks : self.callbacks eventName with
  | some callbacks => exact ⟨hlive, hlive eventName callbacks hcallbacks⟩
  | none =>
      refine ⟨fun other callbacks hother => ?_, by simp⟩
      have hother : Function.update self.callbacks eventName (some self.created) other =
          some callbacks := hother
      by_cases hnew : callbacks = self.created
      · subst hnew
        simp
      · simp only [Function.update_of_ne hnew]
        by_cases hname : other = eventName
        · subst hname
          simp only [Function.update_self, Option.some.injEq] at hother
          exact absurd hother.symm hnew
        · rw [Function.update_of_ne hname] at hother
          exact hlive other callbacks hother

/-! ## One call -/

theorem eventRegisterWithPriority_live {self : CDRegistry Callback} (hlive : ListsLive self)
    (eventName : String) (priority : BitVec 32) (callback : Callback) :
    ∃ next, eventRegisterWithPriority self eventName priority callback = some next ∧
      ListsLive next := by
  obtain ⟨hothers, hlist⟩ := callbacksOf_live hlive eventName
  have hitems := items_eq_some.mpr ⟨hlist, rfl⟩
  simp only [eventRegisterWithPriority, hitems, Option.map_some]
  exact ⟨_, rfl, setItems_live hothers _ _⟩

theorem callEvent_isSome {self : CDRegistry Callback} (hlive : ListsLive self)
    (returns : Answers Callback) (eventName : String) (before : List Callback) :
    ∃ result, callEvent self returns eventName before = some result := by
  unfold callEvent
  cases hcallbacks : self.callbacks eventName with
  | none => exact ⟨_, rfl⟩
  | some callbacks =>
      have hitems := items_eq_some.mpr ⟨hlive eventName callbacks hcallbacks, rfl⟩
      simp only [hitems, Option.map_some]
      exact ⟨_, rfl⟩

theorem eventDispatch_isSome {self : CDRegistry Callback} (hlive : ListsLive self)
    (returns : Answers Callback) (eventName : String) :
    ∃ result, eventDispatch self returns eventName = some result := by
  obtain ⟨⟨before, stopped⟩, hbefore⟩ := callEvent_isSome hlive returns "Event.dispatch:before" []
  obtain ⟨⟨called, interrupted⟩, hcalled⟩ := callEvent_isSome hlive returns eventName before
  obtain ⟨⟨after, rest⟩, hafter⟩ :=
    callEvent_isSome hlive returns "Event.dispatch:after" (before ++ called)
  cases stopped <;> simp [eventDispatch, hbefore, hcalled, hafter]

section Steps

variable [DecidableEq Callback]

/-- Nothing is left of a list exactly where every item was asked for. -/
theorem deleteCallbacks_eq_nil (items : List (CDEventCallback Callback))
    (callback : Option Callback) :
    (deleteCallbacks items callback).1 = [] ↔
      ∀ function ∈ callback, ∀ item ∈ items, item.function = function := by
  cases callback with
  | none => simp [deleteCallbacks]
  | some function =>
      simp only [deleteCallbacks, List.filter_eq_nil_iff, Option.mem_def, Option.some.injEq,
        forall_eq']
      refine forall₂_congr fun item _ => ?_
      by_cases hfunction : function = item.function
      · simp [eventIsEqual, hfunction]
      · simp [eventIsEqual, hfunction, eq_comm]

/-- **An unregistration destroys the list of its event exactly when it empties
it**, and the event stays mapped to that list. -/
theorem eventUnregister_live_iff {self : CDRegistry Callback} (hlive : ListsLive self)
    (eventName : String) (callback : Option Callback) :
    ∃ next result, eventUnregister self eventName callback = some (next, result) ∧
      (ListsLive next ↔ ¬ EmptiesList self (.unregister eventName callback)) := by
  cases hcallbacks : self.callbacks eventName with
  | none =>
      refine ⟨self, none, by simp [eventUnregister, hcallbacks], ?_⟩
      simp [EmptiesList, hcallbacks, hlive]
  | some callbacks =>
      have hitems := items_eq_some.mpr ⟨hlive eventName callbacks hcallbacks, rfl⟩
      have hempties : EmptiesList self (.unregister eventName callback) ↔
          (deleteCallbacks (self.lists callbacks).items callback).1 = [] := by
        rw [deleteCallbacks_eq_nil]
        simp [EmptiesList, hcallbacks]
      rw [hempties]
      simp only [eventUnregister, hcallbacks, hitems, Option.map_some, List.length_eq_zero_iff]
      by_cases hnil : (deleteCallbacks (self.lists callbacks).items callback).1 = []
      · refine ⟨_, _, by rw [if_pos hnil], ?_⟩
        refine iff_of_false (fun hnext => ?_) (not_not_intro hnil)
        have hdestroyed := hnext eventName callbacks hcallbacks
        simp [destroyList] at hdestroyed
      · refine ⟨_, _, by rw [if_neg hnil], ?_⟩
        exact iff_of_true (setItems_live hlive _ _) hnil

/-- **One call on a registry whose lists are live** has an outcome, and the
lists stay live exactly when it empties none. -/
theorem step_live_iff {self : CDRegistry Callback} (hlive : ListsLive self)
    (action : Action Callback) :
    ∃ next, step self action = some next ∧ (ListsLive next ↔ ¬ EmptiesList self action) := by
  cases action with
  | register eventName callback =>
      obtain ⟨next, hnext, hstill⟩ := eventRegisterWithPriority_live hlive eventName 0 callback
      exact ⟨next, hnext, iff_of_true hstill id⟩
  | registerWithPriority eventName priority callback =>
      obtain ⟨next, hnext, hstill⟩ :=
        eventRegisterWithPriority_live hlive eventName priority callback
      exact ⟨next, hnext, iff_of_true hstill id⟩
  | unregister eventName callback =>
      obtain ⟨next, result, hnext, hiff⟩ := eventUnregister_live_iff hlive eventName callback
      exact ⟨next, by simp [step, hnext], hiff⟩
  | dispatch eventName returns =>
      obtain ⟨result, hresult⟩ := eventDispatch_isSome hlive returns eventName
      exact ⟨self, by simp [step, hresult], iff_of_true hlive id⟩

/-! ## Every sequence of calls -/

/-- **A registry of which no list was emptied refers to live lists only.**  Every
further call has an outcome, and the first one that empties a list leaves its
name mapped to a destroyed list. -/
theorem registry_live_iff {events : List Empty} {state : CDRegistry Callback}
    (hrun : system.Run (fun self action => ¬ EmptiesList self action) events state) :
    ListsLive state ∧ ∀ action, ∃ next, step state action = some next ∧
      (ListsLive next ↔ ¬ EmptiesList state action) := by
  have hlive : ListsLive state := by
    refine System.Run.invariant (I := fun _ state => ListsLive state) ?_ ?_ hrun
    · intro eventName callbacks hcallbacks
      cases hcallbacks
    · intro _ self action next _ hself hguard hstep
      obtain ⟨hnext, -⟩ := by simpa [system] using hstep
      obtain ⟨next', hnext', hiff⟩ := step_live_iff hself action
      rw [hnext] at hnext'
      cases hnext'
      exact hiff.mpr hguard
  exact ⟨hlive, step_live_iff hlive⟩

end Steps

/-- Two functions are registered for one event and one of them is taken out. -/
def registeredTwice : List (Action ℕ) :=
  [.register "Client.connect" 1, .registerWithPriority "Client.connect" 5 2,
    .unregister "Client.connect" (some 1)]

theorem registry_live_iff_twice :
    ∃ state events, system.exec registeredTwice createRegistry = some (state, events) ∧
      state.callbacks "Client.connect" = some 0 ∧ ListsLive state := by
  have hregistered : (system.exec registeredTwice createRegistry).map
      (fun result => result.1.callbacks "Client.connect") = some (some 0) := by
    decide
  obtain ⟨⟨state, events⟩, hexec, hcallbacks⟩ := Option.map_eq_some_iff.mp hregistered
  exact ⟨state, events, hexec, hcallbacks,
    (registry_live_iff (System.Run.exec .start (by decide) hexec)).1⟩

/-- The only function of an event is taken out. -/
def registeredOnce : List (Action ℕ) :=
  [.register "Client.connect" 1, .unregister "Client.connect" (some 1)]

/-- The event is still mapped to its list, which is destroyed, and so neither a
registration nor a dispatch has an outcome. -/
theorem registry_keeps_destroyed :
    ∃ events state, system.Run (fun _ _ => True) events (state : CDRegistry ℕ) ∧
      ¬ ListsLive state ∧ step state (.register "Client.connect" 2) = none ∧
      step state (.dispatch "Client.connect" fun _ _ _ => true) = none := by
  have hdestroyed : (system.exec registeredOnce createRegistry).map
      (fun result => (result.1.callbacks "Client.connect", (result.1.lists 0).destroyed,
        (step result.1 (.register "Client.connect" 2)).isNone,
        (step result.1 (.dispatch "Client.connect" fun _ _ _ => true)).isNone)) =
          some (some 0, true, true, true) := by
    decide
  obtain ⟨⟨state, events⟩, hexec, hstate⟩ := Option.map_eq_some_iff.mp hdestroyed
  simp only [Prod.mk.injEq, Option.isNone_iff_eq_none] at hstate
  obtain ⟨hcallbacks, hlist, hregister, hdispatch⟩ := hstate
  refine ⟨events, state, System.Run.exec .start (System.execGuard_true _ _) hexec, ?_,
    hregister, hdispatch⟩
  intro hlive
  rw [hlive _ _ hcallbacks] at hlist
  cases hlist

end Craftd.Event
