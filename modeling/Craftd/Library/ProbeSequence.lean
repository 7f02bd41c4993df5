import Mathlib.Data.ZMod.Basic
import Mathlib.Tactic.Ring

/-!
# Probe sequences

The probes of an open hash table: from a start on, a step is added modulo the number `n` of
buckets.  After `n` steps the sequence is back at its start, and when step and `n` have no
factor in common it has met every bucket by then.
-/

namespace ProbeSequence

variable {n start step last t y : ℕ}

/-- The bucket that is probed after some steps. -/
def probe (n start step t : ℕ) : ℕ := (start + t * step) % n

theorem probe_zero (h : start < n) : probe n start step 0 = start := by
  rw [probe, Nat.zero_mul, Nat.add_zero, Nat.mod_eq_of_lt h]

/-- The first step may be taken as the start. -/
theorem probe_succ (t : ℕ) : probe n start step (t + 1) = probe n ((start + step) % n) step t := by
  rw [probe, probe, Nat.mod_add_mod, Nat.succ_mul]
  congr 1
  omega

theorem probe_period (h : start < n) : probe n start step n = start := by
  rw [probe, Nat.add_mul_mod_self_left, Nat.mod_eq_of_lt h]

theorem pos_of_probe_eq (h : start < n) (hlast : probe n start step t = last)
    (hne : start ≠ last) : 0 < t := by
  refine Nat.pos_of_ne_zero ?_
  rintro rfl
  exact hne ((probe_zero h).symm.trans hlast)

/-- The sequence is back at its start after `n` steps and not before. -/
theorem dvd_of_probe_eq (hcoprime : Nat.Coprime step n) (h : start < n)
    (hback : probe n start step t = start) : n ∣ t := by
  have hmod : start + t * step ≡ start [MOD n] := by
    rw [Nat.ModEq, Nat.mod_eq_of_lt h]
    exact hback
  have hzero : t * step ≡ 0 [MOD n] := Nat.ModEq.add_left_cancel' start hmod
  exact hcoprime.symm.dvd_of_dvd_mul_right ((Nat.modEq_zero_iff_dvd).mp hzero)

/-- **Every bucket is probed** in the first `n` steps. -/
theorem exists_probe_eq (hcoprime : Nat.Coprime step n) (hy : y < n) :
    ∃ t, t < n ∧ probe n start step t = y := by
  have : NeZero n := ⟨Nat.ne_zero_of_lt hy⟩
  have hinverse := ZMod.coe_mul_inv_eq_one step hcoprime
  let t : ZMod n := ((y : ZMod n) - start) * (step : ZMod n)⁻¹
  refine ⟨t.val, t.val_lt, ?_⟩
  have hsum : ((start + t.val * step : ℕ) : ZMod n) = (y : ℕ) := by
    calc ((start + t.val * step : ℕ) : ZMod n)
        = start + t * step := by rw [Nat.cast_add, Nat.cast_mul, ZMod.natCast_zmod_val]
      _ = start + (y - start) * (step * (step : ZMod n)⁻¹) := by ring
      _ = y := by rw [hinverse, mul_one, add_sub_cancel]
  have hmod := (ZMod.natCast_eq_natCast_iff' _ _ _).mp hsum
  rw [probe, hmod, Nat.mod_eq_of_lt hy]

end ProbeSequence
