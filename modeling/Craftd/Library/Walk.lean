import Mathlib.Data.Fintype.Pigeonhole
import Mathlib.Data.Set.Finite.Basic
import Mathlib.Logic.Relation

/-!
# Walks along a partial function

From a point `p` a walk goes to `next p`, and ends where `next` has no value.
When only finitely many points have a next one, a walk ends if and only if it
meets no point that leads back to itself (`ends_iff_acyclic`).
-/

namespace PartialWalk

open Relation

variable {α : Type*} (next : α → Option α)

/-- The point after `n` steps. -/
def iterate : Nat → α → Option α
  | 0, p => some p
  | n + 1, p => (next p).bind (iterate n)

/-- `q` comes next after `p`. -/
def Follows (p q : α) : Prop := next p = some q

/-- The walk from `p` meets `q`. -/
def Reaches : α → α → Prop := ReflTransGen (Follows next)

/-- The walk from `p` comes to an end. -/
def Ends (p : α) : Prop := ∃ n, iterate next n p = none

variable {next} {p q : α}

theorem iterate_add (m n : Nat) (p : α) :
    iterate next (m + n) p = (iterate next m p).bind (iterate next n) := by
  induction m generalizing p with
  | zero => simp [iterate]
  | succ m ih =>
      rw [Nat.succ_add, iterate, iterate, Option.bind_assoc]
      congr 1
      funext q
      exact ih q

theorem iterate_none_of_le {m n : Nat} (hle : m ≤ n) (h : iterate next m p = none) :
    iterate next n p = none := by
  obtain ⟨k, rfl⟩ := Nat.exists_eq_add_of_le hle
  rw [iterate_add, h]
  rfl

theorem reaches_of_iterate {n : Nat} (h : iterate next n p = some q) : Reaches next p q := by
  induction n generalizing p with
  | zero => cases h; exact .refl
  | succ n ih =>
      obtain ⟨r, hr, hrest⟩ := Option.bind_eq_some_iff.mp h
      exact .head hr (ih hrest)

theorem Reaches.exists_iterate (h : Reaches next p q) : ∃ n, iterate next n p = some q := by
  induction h using ReflTransGen.head_induction_on with
  | refl => exact ⟨0, rfl⟩
  | head hstep _ ih =>
      obtain ⟨n, hn⟩ := ih
      exact ⟨n + 1, by rw [iterate, hstep, Option.bind_some, hn]⟩

theorem Reaches.end_unique {q' : α} (h : Reaches next p q) (hend : next q = none)
    (h' : Reaches next p q') (hend' : next q' = none) : q = q' := by
  induction h using ReflTransGen.head_induction_on with
  | refl =>
      rcases ReflTransGen.cases_head h' with rfl | ⟨r, hr, -⟩
      · rfl
      · cases hend.symm.trans hr
  | head hstep _ ih =>
      rcases ReflTransGen.cases_head h' with rfl | ⟨r, hr, hrest⟩
      · cases hend'.symm.trans hstep
      · cases hstep.symm.trans hr
        exact ih hrest

theorem ends_of_follows (hstep : Follows next p q) : Ends next p ↔ Ends next q := by
  constructor
  · rintro ⟨n, hn⟩
    cases n with
    | zero => cases hn
    | succ n =>
        rw [iterate, hstep, Option.bind_some] at hn
        exact ⟨n, hn⟩
  · rintro ⟨n, hn⟩
    exact ⟨n + 1, by rw [iterate, hstep, Option.bind_some, hn]⟩

/-- The walk from `p` comes to an end in `q`. -/
def EndsAt (next : α → Option α) (p q : α) : Prop := Reaches next p q ∧ next q = none

theorem EndsAt.ends (h : EndsAt next p q) : Ends next p := by
  obtain ⟨n, hn⟩ := Reaches.exists_iterate h.1
  refine ⟨n + 1, ?_⟩
  rw [iterate_add, hn, Option.bind_some, iterate, h.2]
  rfl

theorem Ends.exists_endsAt (h : Ends next p) : ∃ q, EndsAt next p q := by
  obtain ⟨n, hn⟩ := h
  induction n generalizing p with
  | zero => cases hn
  | succ n ih =>
      cases hnext : next p with
      | none => exact ⟨p, .refl, hnext⟩
      | some r =>
          rw [iterate, hnext, Option.bind_some] at hn
          obtain ⟨q, hreach, hend⟩ := ih hn
          exact ⟨q, .head hnext hreach, hend⟩

theorem endsAt_of_none (hnone : next p = none) : EndsAt next p q ↔ q = p := by
  constructor
  · rintro ⟨hreach, -⟩
    rcases ReflTransGen.cases_head hreach with rfl | ⟨r, hr, -⟩
    · rfl
    · cases hnone.symm.trans hr
  · rintro rfl
    exact ⟨.refl, hnone⟩

theorem endsAt_of_follows {r : α} (hstep : Follows next p r) :
    EndsAt next p q ↔ EndsAt next r q := by
  constructor
  · rintro ⟨hreach, hend⟩
    rcases ReflTransGen.cases_head hreach with rfl | ⟨s, hs, hrest⟩
    · cases hend.symm.trans hstep
    · cases hstep.symm.trans hs
      exact ⟨hrest, hend⟩
  · rintro ⟨hreach, hend⟩
    exact ⟨.head hstep hreach, hend⟩

/-- From a point that leads back to itself a walk never ends. -/
theorem not_ends_of_cycle (hcycle : TransGen (Follows next) p p) : ¬ Ends next p := by
  rintro ⟨n, hn⟩
  obtain ⟨q, hstep, hback⟩ := TransGen.head'_iff.mp hcycle
  obtain ⟨k, hk⟩ := Reaches.exists_iterate hback
  have hround : iterate next (k + 1) p = some p := by
    rw [iterate, hstep, Option.bind_some, hk]
  have hrounds : ∀ t, iterate next (t * (k + 1)) p = some p := by
    intro t
    induction t with
    | zero => rw [Nat.zero_mul]; rfl
    | succ t ih => rw [Nat.succ_mul, iterate_add, ih, Option.bind_some, hround]
  have hlate := iterate_none_of_le (Nat.le_mul_of_pos_right n (Nat.succ_pos k)) hn
  rw [hrounds n] at hlate
  cases hlate

/-- **A walk over finitely many points ends exactly when it is not caught in a cycle.** -/
theorem ends_iff_acyclic (hfinite : {p | (next p).isSome}.Finite) :
    Ends next p ↔ ∀ q, Reaches next p q → ¬ TransGen (Follows next) q q := by
  constructor
  · intro hends q hreach hcycle
    refine not_ends_of_cycle hcycle ?_
    clear hcycle
    induction hreach using ReflTransGen.head_induction_on with
    | refl => exact hends
    | head hstep _ ih => exact ih ((ends_of_follows hstep).mp hends)
  · intro hacyclic
    by_contra hforever
    -- a walk without an end has a point at every step, and meets one of them twice
    have hpoint : ∀ n, ∃ q, iterate next n p = some q := by
      intro n
      cases hn : iterate next n p with
      | none => exact absurd ⟨n, hn⟩ hforever
      | some q => exact ⟨q, rfl⟩
    choose point hpoint using hpoint
    have hnext : ∀ n, next (point n) = some (point (n + 1)) := by
      intro n
      have h := hpoint (n + 1)
      rw [iterate_add, hpoint n, Option.bind_some, iterate] at h
      obtain ⟨q, hq, heq⟩ := Option.bind_eq_some_iff.mp h
      cases heq
      exact hq
    have hmem : ∀ n, point n ∈ {p | (next p).isSome} := fun n => by
      show (next (point n)).isSome
      rw [hnext n]
      rfl
    have hfin := hfinite.to_subtype
    obtain ⟨i, j, hne, hsame⟩ := Finite.exists_ne_map_eq_of_infinite fun n =>
      (⟨point n, hmem n⟩ : {p | (next p).isSome})
    have hsame : point i = point j := congrArg Subtype.val hsame
    have hsteps : ∀ i k, TransGen (Follows next) (point i) (point (i + k + 1)) := by
      intro i k
      induction k with
      | zero => exact .single (hnext i)
      | succ k ih => exact ih.tail (hnext (i + k + 1))
    have hcycle : ∀ i j, i < j → point i = point j → False := by
      intro i j hlt hsame
      obtain ⟨k, rfl⟩ := Nat.exists_eq_add_of_lt hlt
      refine hacyclic (point i) (reaches_of_iterate (hpoint i)) ?_
      have h := hsteps i k
      rwa [← hsame] at h
    rcases Nat.lt_or_gt_of_ne hne with hlt | hlt
    · exact hcycle i j hlt hsame
    · exact hcycle j i hlt hsame.symm

end PartialWalk
