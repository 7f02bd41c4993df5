import Mathlib.Logic.Relation
import Mathlib.Algebra.BigOperators.Group.Finset.Basic
import Mathlib.Algebra.BigOperators.Group.Finset.Piecewise

/-!
# Step systems, their guarded runs and weights over a pool

A `System` is a deterministic step function on explicit states: an action is
either not enabled (`none`) or leads to one next state and emits a list of
events.  Nondeterminism is the choice of the action.  A `Run` collects the
events; its `guard` restricts which actions may be taken in which states, so
that "every run" is the run with the trivial guard and "every run whose steps
meet a condition" is the run with that condition.

The second half is about pools: a sum over all members of a pool in which one
member is replaced.  `exists_rest_sum` splits such a sum into the replaced
member and a rest that does not depend on it, which is all the invariants that
count members need.
-/

namespace StepSystem

/-- A deterministic step function with events. -/
structure System (State Action Event : Type*) where
  init : State
  step : State → Action → Option (State × List Event)

variable {State Action Event : Type*} (S : System State Action Event)

namespace System

/-- The runs of `S` all of whose steps meet `guard`, with the events they emit. -/
inductive Run (guard : State → Action → Prop) : List Event → State → Prop
  | start : Run guard [] S.init
  | step {events emitted : List Event} {state next : State} {action : Action} :
      Run guard events state → guard state action →
      S.step state action = some (next, emitted) →
      Run guard (events ++ emitted) next

/-- One step of `S`, whatever the action. -/
def Moves (state next : State) : Prop :=
  ∃ action emitted, S.step state action = some (next, emitted)

/-- Any number of steps of `S`. -/
def Leads : State → State → Prop :=
  Relation.ReflTransGen S.Moves

/-- Take the given actions one after the other. -/
def exec : List Action → State → Option (State × List Event)
  | [], state => some (state, [])
  | action :: rest, state =>
      match S.step state action with
      | none => none
      | some (next, emitted) =>
          (exec rest next).map fun (last, events) => (last, emitted ++ events)

/-- The guard holds at each step of `exec`. -/
def ExecGuard (guard : State → Action → Prop) : List Action → State → Prop
  | [], _ => True
  | action :: rest, state =>
      guard state action ∧
        match S.step state action with
        | none => True
        | some (next, _) => ExecGuard guard rest next

instance decidableExecGuard (guard : State → Action → Prop)
    [hguard : ∀ state action, Decidable (guard state action)] :
    ∀ actions state, Decidable (S.ExecGuard guard actions state)
  | [], _ => isTrue trivial
  | action :: rest, state =>
      have : Decidable (match S.step state action with
          | none => True
          | some (next, _) => S.ExecGuard guard rest next) :=
        match S.step state action with
        | none => isTrue trivial
        | some (next, _) => decidableExecGuard guard rest next
      inferInstanceAs (Decidable (_ ∧ _))

variable {S}

theorem execGuard_true (actions : List Action) (state : State) :
    S.ExecGuard (fun _ _ => True) actions state := by
  induction actions generalizing state with
  | nil => trivial
  | cons action rest ih =>
      refine ⟨trivial, ?_⟩
      cases S.step state action with
      | none => trivial
      | some result => exact ih result.1

/-- **Invariant rule.**  What holds at the start and is kept by every guarded
step holds of every guarded run. -/
theorem Run.invariant {guard : State → Action → Prop} {I : List Event → State → Prop}
    (hinit : I [] S.init)
    (hstep : ∀ events state action next emitted, I events state → guard state action →
      S.step state action = some (next, emitted) → I (events ++ emitted) next)
    {events : List Event} {state : State} (hrun : S.Run guard events state) :
    I events state := by
  induction hrun with
  | start => exact hinit
  | step _ hguard hnext ih => exact hstep _ _ _ _ _ ih hguard hnext

theorem Run.mono {guard weaker : State → Action → Prop}
    (hweaker : ∀ state action, guard state action → weaker state action)
    {events : List Event} {state : State} (hrun : S.Run guard events state) :
    S.Run weaker events state := by
  induction hrun with
  | start => exact .start
  | step _ hguard hnext ih => exact .step ih (hweaker _ _ hguard) hnext

theorem ExecGuard.mono {guard weaker : State → Action → Prop}
    (hweaker : ∀ state action, guard state action → weaker state action)
    {actions : List Action} {state : State} (hguard : S.ExecGuard guard actions state) :
    S.ExecGuard weaker actions state := by
  induction actions generalizing state with
  | nil => trivial
  | cons action rest ih =>
      obtain ⟨hhead, htail⟩ := hguard
      refine ⟨hweaker _ _ hhead, ?_⟩
      cases hstep : S.step state action with
      | none => trivial
      | some result =>
          simp only [hstep] at htail
          exact ih htail

/-- An executed list of actions extends a run. -/
theorem Run.exec {guard : State → Action → Prop} {actions : List Action}
    {events emitted : List Event} {state last : State} (hrun : S.Run guard events state)
    (hguard : S.ExecGuard guard actions state)
    (hexec : S.exec actions state = some (last, emitted)) :
    S.Run guard (events ++ emitted) last := by
  induction actions generalizing events emitted state with
  | nil =>
      obtain ⟨rfl, rfl⟩ := Prod.mk.inj (Option.some.inj hexec)
      simpa using hrun
  | cons action rest ih =>
      obtain ⟨hhead, htail⟩ := hguard
      cases hstep : S.step state action with
      | none => simp [System.exec, hstep] at hexec
      | some result =>
          obtain ⟨next, first⟩ := result
          simp only [System.exec, hstep, Option.map_eq_some_iff, Prod.mk.injEq,
            Prod.exists] at hexec
          obtain ⟨last', later, hrest, rfl, rfl⟩ := hexec
          rw [← List.append_assoc]
          simp only [hstep] at htail
          exact ih (.step hrun hhead hstep) htail hrest

/-- **Total invariant rule.**  Where the invariant enables every action, every list of actions can
be taken, and the invariant holds after it. -/
theorem exec_total {I : State → Prop}
    (hstep : ∀ state action, I state → ∃ next emitted, S.step state action = some (next, emitted) ∧
      I next)
    (actions : List Action) {state : State} (hstate : I state) :
    ∃ last events, S.exec actions state = some (last, events) ∧ I last := by
  induction actions generalizing state with
  | nil => exact ⟨state, [], rfl, hstate⟩
  | cons action rest ih =>
      obtain ⟨next, emitted, hnext, hkept⟩ := hstep state action hstate
      obtain ⟨last, events, hrest, hlast⟩ := ih hkept
      refine ⟨last, emitted ++ events, ?_, hlast⟩
      rw [System.exec, hnext]
      dsimp only
      rw [hrest, Option.map_some]

theorem Leads.keeps {P : State → Prop} (hstep : ∀ state next, P state → S.Moves state next → P next)
    {state last : State} (hleads : S.Leads state last) (hstate : P state) : P last := by
  induction hleads with
  | refl => exact hstate
  | tail _ hmoves ih => exact hstep _ _ ih hmoves

end System

/-! ## Sums over a pool with one member replaced -/

/-- The sum over a pool, as a function of one member, is a rest plus that
member's weight. -/
theorem exists_rest_sum {Member Value M : Type*} [Fintype Member] [DecidableEq Member]
    [AddCommMonoid M] (pool : Member → Value) (weight : Value → M) (member : Member) :
    ∃ rest : M, ∀ value : Value,
      ∑ other, weight (Function.update pool member value other) = rest + weight value := by
  refine ⟨∑ other ∈ Finset.univ.erase member, weight (pool other), fun value => ?_⟩
  rw [← Finset.sum_erase_add _ _ (Finset.mem_univ member), Function.update_self]
  congr 1
  refine Finset.sum_congr rfl fun other hother => ?_
  rw [Function.update_of_ne (Finset.ne_of_mem_erase hother)]

/-! ## Pools of one and of two members

In runs that are executed their members are literals. -/

instance neZero_one : @NeZero ℕ Zero.ofOfNat0 1 := ⟨Nat.one_ne_zero⟩

instance neZero_two : @NeZero ℕ Zero.ofOfNat0 2 := ⟨Nat.succ_ne_zero 1⟩

end StepSystem
