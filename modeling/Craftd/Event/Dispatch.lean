import Craftd.Event.Registry
import Craftd.Library.InsertionOrder

/-!
# The order of a dispatch

`Registration` is what the sequence of calls says about one event, without any list:
the callbacks registered and not since unregistered, in the order of their
registration.  As long as no call empties a list, the list of an event is these
callbacks inserted one after the other (`Follows`), and so a dispatch meets them in
the order of their priorities, the last registered first among equals.

A dispatch calls the callbacks of `Event.dispatch:after` as well, after those of the
event.  For the event of that very name these are the same callbacks once more
(`dispatch_calls_twice`).
-/

namespace Craftd.Event

open InsertionOrder StepSystem

variable {Callback : Type*}

/-! ## The priorities -/

/-- The callback is inserted in front of the other. -/
def GoesBefore (a b : CDEventCallback Callback) : Prop :=
  (eventCompare a b).toInt ≤ 0

instance : DecidableRel (@GoesBefore Callback) :=
  fun _ _ => inferInstanceAs (Decidable (_ ≤ _))

theorem goesBefore_iff {a b : CDEventCallback Callback} :
    GoesBefore a b ↔ a.priority.toInt ≤ b.priority.toInt := by
  rw [GoesBefore, eventCompare]
  by_cases hba : b.priority.slt a.priority
  · rw [if_pos hba]
    simp only [BitVec.slt, decide_eq_true_eq] at hba
    exact iff_of_false (by decide) (not_le.mpr hba)
  · rw [if_neg hba]
    simp only [BitVec.slt, decide_eq_true_eq] at hba
    refine iff_of_true ?_ (not_lt.mp hba)
    split_ifs <;> decide

instance : Std.Total (@GoesBefore Callback) where
  total a b := by
    rw [goesBefore_iff, goesBefore_iff]
    exact le_total _ _

instance : IsTrans (CDEventCallback Callback) GoesBefore where
  trans a b c := by
    rw [goesBefore_iff, goesBefore_iff, goesBefore_iff]
    exact le_trans

/-- The callbacks have this priority. -/
def hasPriority (priority : BitVec 32) (item : CDEventCallback Callback) : Bool :=
  item.priority = priority

/-! ## What the calls ask for -/

section Registration

variable [DecidableEq Callback]

/-- What a call does to the callbacks registered for an event. -/
def Action.applyTo (eventName : String) (registered : List (CDEventCallback Callback)) :
    Action Callback → List (CDEventCallback Callback)
  | .register name callback =>
      if name = eventName then registered ++ [⟨callback, 0⟩] else registered
  | .registerWithPriority name priority callback =>
      if name = eventName then registered ++ [⟨callback, priority⟩] else registered
  | .unregister name (some callback) =>
      if name = eventName then registered.filter fun item => item.function ≠ callback
      else registered
  | .unregister name none => if name = eventName then [] else registered
  | .dispatch _ _ => registered

/-- The callbacks of an event that were registered and not since unregistered, in the
order of their registration. -/
def registeredFor (eventName : String) (actions : List (Action Callback)) :
    List (CDEventCallback Callback) :=
  actions.foldl (Action.applyTo eventName) []

end Registration

/-- The order in which the callbacks registered for an event are met. -/
structure DispatchOrder (registered order : List (CDEventCallback Callback)) : Prop where
  same : order.Perm registered
  sorted : order.Pairwise fun a b => a.priority.toInt ≤ b.priority.toInt
  recent : ∀ priority,
    order.filter (hasPriority priority) = (registered.filter (hasPriority priority)).reverse

/-- Each of the functions answers true when the ones in front of it were called. -/
def AllAnswerTrue (returns : Answers Callback) (eventName : String)
    (before functions : List Callback) : Prop :=
  ∀ earlier function later, functions = earlier ++ function :: later →
    returns (before ++ earlier) eventName function = true

/-- The functions called out of `order`: all of them where each answers true, otherwise
those up to the first one that answers false. -/
inductive CalledUpTo (returns : Answers Callback) (eventName : String)
    (before : List Callback) (order : List (CDEventCallback Callback)) :
    List Callback → Bool → Prop
  | completed (htrue : AllAnswerTrue returns eventName before
        (order.map CDEventCallback.function)) :
      CalledUpTo returns eventName before order (order.map CDEventCallback.function) false
  | interrupted {earlier later : List (CDEventCallback Callback)}
      {item : CDEventCallback Callback} (horder : order = earlier ++ item :: later)
      (htrue : AllAnswerTrue returns eventName before (earlier.map CDEventCallback.function))
      (hfalse : returns (before ++ earlier.map CDEventCallback.function) eventName
        item.function = false) :
      CalledUpTo returns eventName before order
        (earlier.map CDEventCallback.function ++ [item.function]) true

/-- Sorted insertion in the order of registration gives the order of the dispatch. -/
theorem dispatchOrder_insertAll (registered : List (CDEventCallback Callback)) :
    DispatchOrder registered (insertAll GoesBefore registered) where
  same := insertAll_perm GoesBefore registered
  sorted := by
    apply (pairwise_insertAll registered).imp
    intro a b hbefore
    exact goesBefore_iff.mp hbefore
  recent priority := by
    apply filter_insertAll
    intro a b ha hb
    simp only [hasPriority, decide_eq_true_eq] at ha hb
    rw [goesBefore_iff, ha, hb]

theorem allAnswerTrue_cons {returns : Answers Callback} {eventName : String}
    {before functions : List Callback} {function : Callback}
    (hfirst : returns before eventName function = true)
    (hrest : AllAnswerTrue returns eventName (before ++ [function]) functions) :
    AllAnswerTrue returns eventName before (function :: functions) := by
  intro earlier other later hsplit
  cases earlier with
  | nil =>
      obtain ⟨rfl, -⟩ := List.cons.inj hsplit
      simpa using hfirst
  | cons head earlier =>
      obtain ⟨rfl, htail⟩ := List.cons.inj hsplit
      have hother := hrest earlier other later htail
      rwa [List.append_assoc] at hother

/-- A callback that answers true is called, and the rest of the list goes on after it. -/
theorem CalledUpTo.cons {returns : Answers Callback} {eventName : String}
    {before called : List Callback} {item : CDEventCallback Callback}
    {rest : List (CDEventCallback Callback)} {stopped : Bool}
    (hanswer : returns before eventName item.function = true)
    (hrest : CalledUpTo returns eventName (before ++ [item.function]) rest called stopped) :
    CalledUpTo returns eventName before (item :: rest) (item.function :: called) stopped := by
  cases hrest with
  | completed htrue => exact .completed (allAnswerTrue_cons hanswer htrue)
  | @interrupted earlier later last horder htrue hfalse =>
      have hfirst : item :: rest = (item :: earlier) ++ last :: later := by rw [horder]; rfl
      refine .interrupted hfirst (allAnswerTrue_cons hanswer htrue) ?_
      rwa [List.append_assoc] at hfalse

/-- The loop over the callbacks stops right after the first one that answers false. -/
theorem callAll_calledUpTo (returns : Answers Callback) (eventName : String)
    (before : List Callback) (items : List (CDEventCallback Callback)) :
    CalledUpTo returns eventName before items (callAll returns eventName before items).1
      (callAll returns eventName before items).2 := by
  have hnone : ∀ before, AllAnswerTrue returns eventName before [] := by
    intro before earlier function later hsplit
    simp at hsplit
  induction items generalizing before with
  | nil => exact .completed (hnone before)
  | cons item rest ih =>
      cases hanswer : returns before eventName item.function with
      | false =>
          have hcalled : callAll returns eventName before (item :: rest) =
              ([item.function], true) := by
            simp [callAll, hanswer]
          rw [hcalled]
          have hfirst : item :: rest = [] ++ item :: rest := rfl
          refine .interrupted hfirst (hnone before) ?_
          simpa using hanswer
      | true =>
          have hcalled : callAll returns eventName before (item :: rest) =
              (item.function :: (callAll returns eventName (before ++ [item.function]) rest).1,
                (callAll returns eventName (before ++ [item.function]) rest).2) := by
            simp [callAll, hanswer]
          rw [hcalled]
          exact (ih (before ++ [item.function])).cons hanswer

/-! ## The lists follow the calls -/

/-- The list of each event is what was registered for it, inserted one after the other. -/
structure Follows (registered : String → List (CDEventCallback Callback))
    (registry : CDRegistry Callback) : Prop where
  absent : ∀ eventName, registry.callbacks eventName = none → registered eventName = []
  listed : ∀ eventName callbacks, registry.callbacks eventName = some callbacks →
    registry.items callbacks = some (insertAll GoesBefore (registered eventName))
  made : ∀ eventName callbacks, registry.callbacks eventName = some callbacks →
    callbacks < registry.created
  apart : ∀ eventName other callbacks, registry.callbacks eventName = some callbacks →
    registry.callbacks other = some callbacks → eventName = other

private theorem createRegistry_follows :
    Follows (fun _ => []) (createRegistry : CDRegistry Callback) where
  absent _ _ := rfl
  listed _ _ hcallbacks := by cases hcallbacks
  made _ _ hcallbacks := by cases hcallbacks
  apart _ _ _ hcallbacks := by cases hcallbacks

section Lists

variable {registered : String → List (CDEventCallback Callback)} {self : CDRegistry Callback}

private theorem items_setItems (self : CDRegistry Callback) (callbacks other : ℕ)
    (items : List (CDEventCallback Callback)) :
    (self.setItems callbacks items).items other =
      if other = callbacks then (self.items callbacks).map fun _ => items
      else self.items other := by
  by_cases hother : other = callbacks
  · subst hother
    unfold CDRegistry.items
    rw [if_pos rfl, destroyed_setItems]
    cases (self.lists other).destroyed <;> simp [CDRegistry.setItems]
  · unfold CDRegistry.items
    rw [if_neg hother, destroyed_setItems]
    simp [CDRegistry.setItems, hother]

theorem Follows.live (hfollows : Follows registered self) : ListsLive self := by
  intro eventName callbacks hcallbacks
  exact (items_eq_some.mp (hfollows.listed eventName callbacks hcallbacks)).1

theorem Follows.setItems (hfollows : Follows registered self) {eventName : String}
    {callbacks : ℕ} (hcallbacks : self.callbacks eventName = some callbacks)
    (later : List (CDEventCallback Callback)) :
    Follows (Function.update registered eventName later)
      (self.setItems callbacks (insertAll GoesBefore later)) where
  absent other hother := by
    have hname : other ≠ eventName := by
      intro heq
      rw [callbacks_setItems, heq, hcallbacks] at hother
      cases hother
    rw [Function.update_of_ne hname]
    exact hfollows.absent other hother
  listed other list hother := by
    rw [items_setItems]
    by_cases hname : other = eventName
    · subst hname
      rw [callbacks_setItems, hcallbacks] at hother
      obtain rfl := Option.some.inj hother
      rw [if_pos rfl, hfollows.listed other callbacks hcallbacks, Function.update_self]
      rfl
    · have hlist : list ≠ callbacks := by
        intro heq
        subst heq
        exact hname (hfollows.apart other eventName list hother hcallbacks)
      rw [if_neg hlist, Function.update_of_ne hname]
      exact hfollows.listed other list hother
  made := hfollows.made
  apart := hfollows.apart

/-- Where an event without a list is given a new one, each event has that one or the one
that it had before. -/
theorem Follows.mapped_cases (hfollows : Follows registered self) {eventName other : String}
    {list : ℕ}
    (hother : Function.update self.callbacks eventName (some self.created) other = some list) :
    (other = eventName ∧ list = self.created) ∨
      (self.callbacks other = some list ∧ list < self.created) := by
  by_cases hname : other = eventName
  · subst hname
    rw [Function.update_self, Option.some.injEq] at hother
    exact .inl ⟨rfl, hother.symm⟩
  · rw [Function.update_of_ne hname] at hother
    exact .inr ⟨hother, hfollows.made other list hother⟩

/-- The list that a registration works on is the event's, made where there was none. -/
theorem callbacksOf_follows (hfollows : Follows registered self) (eventName : String) :
    Follows registered (callbacksOf self eventName).1 ∧
      (callbacksOf self eventName).1.callbacks eventName =
        some (callbacksOf self eventName).2 := by
  unfold callbacksOf
  cases hcallbacks : self.callbacks eventName with
  | some callbacks => exact ⟨hfollows, hcallbacks⟩
  | none =>
      refine ⟨⟨?_, ?_, ?_, ?_⟩, Function.update_self ..⟩
      · intro other hother
        by_cases hname : other = eventName
        · exact hname ▸ hfollows.absent eventName hcallbacks
        · simp only [Function.update_of_ne hname] at hother
          exact hfollows.absent other hother
      · intro other list hother
        obtain ⟨rfl, rfl⟩ | ⟨hold, hmade⟩ := hfollows.mapped_cases hother
        · rw [hfollows.absent other hcallbacks]
          simp [CDRegistry.items, insertAll]
        · have hlisted := hfollows.listed other list hold
          unfold CDRegistry.items at hlisted ⊢
          simpa only [Function.update_of_ne hmade.ne] using hlisted
      · intro other list hother
        obtain ⟨-, rfl⟩ | ⟨-, hmade⟩ := hfollows.mapped_cases hother
        · exact Nat.lt_succ_self _
        · exact hmade.trans (Nat.lt_succ_self _)
      · intro first second list hfirst hsecond
        obtain ⟨rfl, hnew⟩ | ⟨hfirst, hlt⟩ := hfollows.mapped_cases hfirst
        · obtain ⟨rfl, -⟩ | ⟨-, hlt⟩ := hfollows.mapped_cases hsecond
          · rfl
          · exact absurd hnew hlt.ne
        · obtain ⟨-, hnew⟩ | ⟨hsecond, -⟩ := hfollows.mapped_cases hsecond
          · exact absurd hnew hlt.ne
          · exact hfollows.apart first second list hfirst hsecond

/-- A registration puts the callback after those registered before. -/
theorem eventRegisterWithPriority_follows (hfollows : Follows registered self)
    (eventName : String) (priority : BitVec 32) (callback : Callback) :
    ∃ next, eventRegisterWithPriority self eventName priority callback = some next ∧
      Follows (Function.update registered eventName
        (registered eventName ++ [⟨callback, priority⟩])) next := by
  obtain ⟨hlist, hcallbacks⟩ := callbacksOf_follows hfollows eventName
  have hitems := hlist.listed eventName _ hcallbacks
  simp only [eventRegisterWithPriority, hitems, Option.map_some]
  refine ⟨_, rfl, ?_⟩
  have hpushed : listSortedPush ⟨callback, priority⟩ (insertAll GoesBefore (registered eventName)) =
      insertAll GoesBefore (registered eventName ++ [⟨callback, priority⟩]) :=
    (insertAll_concat GoesBefore _ _).symm
  rw [hpushed]
  exact hlist.setItems hcallbacks _

private theorem callEvent_follows (hfollows : Follows registered self) (returns : Answers Callback)
    (eventName : String) (before : List Callback) :
    callEvent self returns eventName before =
      some (callAll returns eventName before (insertAll GoesBefore (registered eventName))) := by
  unfold callEvent
  cases hcallbacks : self.callbacks eventName with
  | none =>
      rw [hfollows.absent eventName hcallbacks]
      rfl
  | some callbacks =>
      simp only [hfollows.listed eventName callbacks hcallbacks, Option.map_some]

/-- Without hooks in front, a dispatch calls the callbacks of the event and then the hooks
behind it. -/
theorem eventDispatch_follows (hfollows : Follows registered self)
    (hbefore : registered "Event.dispatch:before" = []) (returns : Answers Callback)
    (eventName : String) :
    ∃ called interrupted hooked stopped,
      eventDispatch self returns eventName = some (called ++ hooked, interrupted) ∧
      CalledUpTo returns eventName [] (insertAll GoesBefore (registered eventName))
        called interrupted ∧
      CalledUpTo returns "Event.dispatch:after" called
        (insertAll GoesBefore (registered "Event.dispatch:after")) hooked stopped := by
  have hown := callAll_calledUpTo returns eventName []
    (insertAll GoesBefore (registered eventName))
  have hhooks := callAll_calledUpTo returns "Event.dispatch:after"
    (callAll returns eventName [] (insertAll GoesBefore (registered eventName))).1
    (insertAll GoesBefore (registered "Event.dispatch:after"))
  refine ⟨_, _, _, _, ?_, hown, hhooks⟩
  simp only [eventDispatch, callEvent_follows hfollows, hbefore]
  rfl

end Lists

section Steps

variable [DecidableEq Callback] {registered : String → List (CDEventCallback Callback)}
  {self : CDRegistry Callback}

/-- An unregistration that leaves a callback takes out what the call asks for. -/
theorem eventUnregister_follows (hfollows : Follows registered self) {eventName : String}
    {callback : Option Callback} (hkept : ¬EmptiesList self (.unregister eventName callback)) :
    ∃ next result, eventUnregister self eventName callback = some (next, result) ∧
      Follows (Function.update registered eventName (Action.applyTo eventName
        (registered eventName) (.unregister eventName callback))) next := by
  cases hcallbacks : self.callbacks eventName with
  | none =>
      -- nothing was ever registered for the event
      have hnothing := hfollows.absent eventName hcallbacks
      refine ⟨self, none, by simp [eventUnregister, hcallbacks], ?_⟩
      have hsame : Action.applyTo eventName (registered eventName)
          (.unregister eventName callback) = registered eventName := by
        cases callback <;> simp [Action.applyTo, hnothing]
      rwa [hsame, Function.update_eq_self]
  | some callbacks =>
      have hlisted := hfollows.listed eventName callbacks hcallbacks
      cases callback with
      | none => exact absurd ⟨callbacks, hcallbacks, by simp⟩ hkept
      | some function =>
          have hfilter : (deleteCallbacks (insertAll GoesBefore (registered eventName))
              (some function)).1 = insertAll GoesBefore (Action.applyTo eventName
                (registered eventName) (.unregister eventName (some function))) := by
            simp only [deleteCallbacks, Action.applyTo, if_true]
            rw [insertAll_filter]
            refine List.filter_congr fun item _ => ?_
            by_cases hfunction : function = item.function
            · simp [eventIsEqual, hfunction]
            · simp [eventIsEqual, hfunction, Ne.symm hfunction]
          -- some callback is left, so the list is not destroyed
          have hleft : (deleteCallbacks (insertAll GoesBefore (registered eventName))
              (some function)).1.length ≠ 0 := by
            rw [Ne, List.length_eq_zero_iff, deleteCallbacks_eq_nil,
              ← (items_eq_some.mp hlisted).2]
            exact fun hall => hkept ⟨callbacks, hcallbacks, hall⟩
          simp only [eventUnregister, hcallbacks, hlisted, Option.map_some, if_neg hleft]
          refine ⟨_, _, rfl, ?_⟩
          rw [hfilter]
          exact hfollows.setItems hcallbacks _

theorem update_applyTo {action : Action Callback} {name : String}
    (hothers : ∀ eventName, eventName ≠ name →
      Action.applyTo eventName (registered eventName) action = registered eventName) :
    Function.update registered name (Action.applyTo name (registered name) action) =
      fun eventName => Action.applyTo eventName (registered eventName) action := by
  funext eventName
  by_cases hname : eventName = name
  · subst hname
    rw [Function.update_self]
  · rw [Function.update_of_ne hname, hothers eventName hname]

/-- **One call that empties no list** does to the lists what it asks for. -/
theorem step_follows (hfollows : Follows registered self) {action : Action Callback}
    (hkept : ¬EmptiesList self action) :
    ∃ next, step self action = some next ∧
      Follows (fun eventName => Action.applyTo eventName (registered eventName) action) next := by
  cases action with
  | register name callback =>
      obtain ⟨next, hnext, hnow⟩ := eventRegisterWithPriority_follows hfollows name 0 callback
      have hothers : ∀ eventName, eventName ≠ name → Action.applyTo eventName
          (registered eventName) (.register name callback) = registered eventName :=
        fun eventName hname => if_neg (Ne.symm hname)
      refine ⟨next, hnext, ?_⟩
      rw [← update_applyTo hothers]
      simpa only [Action.applyTo, if_true] using hnow
  | registerWithPriority name priority callback =>
      obtain ⟨next, hnext, hnow⟩ :=
        eventRegisterWithPriority_follows hfollows name priority callback
      have hothers : ∀ eventName, eventName ≠ name → Action.applyTo eventName
          (registered eventName) (.registerWithPriority name priority callback) =
            registered eventName :=
        fun eventName hname => if_neg (Ne.symm hname)
      refine ⟨next, hnext, ?_⟩
      rw [← update_applyTo hothers]
      simpa only [Action.applyTo, if_true] using hnow
  | unregister name callback =>
      obtain ⟨next, result, hnext, hnow⟩ := eventUnregister_follows hfollows hkept
      have hothers : ∀ eventName, eventName ≠ name → Action.applyTo eventName
          (registered eventName) (.unregister name callback) = registered eventName := by
        intro eventName hname
        cases callback <;> exact if_neg (Ne.symm hname)
      refine ⟨next, by simp [step, hnext], ?_⟩
      rw [← update_applyTo hothers]
      exact hnow
  | dispatch name returns =>
      obtain ⟨result, hresult⟩ := eventDispatch_isSome hfollows.live returns name
      exact ⟨self, by simp [step, hresult], hfollows⟩

private theorem exec_follows {actions : List (Action Callback)} (hfollows : Follows registered self)
    (hkept : system.ExecGuard (fun self action => ¬EmptiesList self action) actions self) :
    ∃ state, system.exec actions self = some (state, []) ∧
      Follows (fun eventName => actions.foldl (Action.applyTo eventName) (registered eventName))
        state := by
  induction actions generalizing registered self with
  | nil => exact ⟨self, rfl, hfollows⟩
  | cons action rest ih =>
      obtain ⟨hfirst, hrest⟩ := hkept
      obtain ⟨next, hnext, hnow⟩ := step_follows hfollows hfirst
      have hstep : system.step self action = some (next, []) := by simp [system, hnext]
      rw [hstep] at hrest
      obtain ⟨state, hexec, hstate⟩ := ih hnow hrest
      exact ⟨state, by simp [System.exec, hstep, hexec], hstate⟩

/-! ## The dispatch after any sequence of calls -/

/-- **The order of a dispatch.**  After calls none of which empties a list, and with
nothing registered for `Event.dispatch:before`, a dispatch calls the callbacks of its
event in non-decreasing priority, the last registered first among equals, up to the first
that answers false; and then those of `Event.dispatch:after` in the same way. -/
theorem dispatch_order (actions : List (Action Callback))
    (hkept : system.ExecGuard (fun self action => ¬EmptiesList self action) actions
      createRegistry)
    (hbefore : registeredFor "Event.dispatch:before" actions = [])
    (returns : Answers Callback) (eventName : String) :
    ∃ state order hooks called interrupted hooked stopped,
      system.exec actions createRegistry = some (state, []) ∧
      eventDispatch state returns eventName = some (called ++ hooked, interrupted) ∧
      DispatchOrder (registeredFor eventName actions) order ∧
      CalledUpTo returns eventName [] order called interrupted ∧
      DispatchOrder (registeredFor "Event.dispatch:after" actions) hooks ∧
      CalledUpTo returns "Event.dispatch:after" called hooks hooked stopped := by
  obtain ⟨state, hexec, hstate⟩ := exec_follows createRegistry_follows hkept
  obtain ⟨called, interrupted, hooked, stopped, hdispatch, hcalled, hhooked⟩ :=
    eventDispatch_follows hstate hbefore returns eventName
  exact ⟨state, _, _, called, interrupted, hooked, stopped, hexec, hdispatch,
    dispatchOrder_insertAll _, hcalled, dispatchOrder_insertAll _, hhooked⟩

end Steps

/-- Three functions are registered for an event with two priorities, one of them is taken
out, and one more function is registered behind every dispatch. -/
def registeredInOrder : List (Action ℕ) :=
  [.register "Client.connect" 1, .registerWithPriority "Client.connect" (-5) 2,
    .register "Client.connect" 3, .register "Client.connect" 4,
    .unregister "Client.connect" (some 1), .register "Event.dispatch:after" 9]

/-- The function of priority -5 is called first, then the one registered last, which
answers false. -/
theorem dispatch_order_three :
    ∃ state order hooks called interrupted hooked stopped,
      system.exec registeredInOrder createRegistry = some (state, []) ∧
      eventDispatch state (fun _ _ function => function ≠ 4) "Client.connect" =
        some (called ++ hooked, interrupted) ∧
      DispatchOrder [⟨2, -5⟩, ⟨3, 0⟩, ⟨4, 0⟩] order ∧
      CalledUpTo (fun _ _ function => function ≠ 4) "Client.connect" [] order called
        interrupted ∧
      DispatchOrder [⟨9, 0⟩] hooks ∧
      CalledUpTo (fun _ _ function => function ≠ 4) "Event.dispatch:after" called hooks hooked
        stopped :=
  dispatch_order registeredInOrder (by decide) (by decide) _ "Client.connect"

/-- One function is registered behind every dispatch. -/
def registeredHook : List (Action ℕ) :=
  [.register "Event.dispatch:after" 9]

/-- In a dispatch of the event of that name it is called twice. -/
theorem dispatch_calls_twice :
    ∃ state, system.exec registeredHook createRegistry = some (state, []) ∧
      registeredFor "Event.dispatch:before" registeredHook = [] ∧
      registeredFor "Event.dispatch:after" registeredHook = [⟨9, 0⟩] ∧
      eventDispatch state (fun _ _ _ => true) "Event.dispatch:after" = some ([9, 9], false) := by
  have hdispatched : (system.exec registeredHook createRegistry).map
      (fun result => (result.2, eventDispatch result.1 (fun _ _ _ => true)
        "Event.dispatch:after")) = some ([], some ([9, 9], false)) := by
    decide
  obtain ⟨⟨state, events⟩, hexec, hresult⟩ := Option.map_eq_some_iff.mp hdispatched
  obtain ⟨rfl, hcalls⟩ := Prod.mk.inj hresult
  exact ⟨state, hexec, by decide, by decide, hcalls⟩

end Craftd.Event
