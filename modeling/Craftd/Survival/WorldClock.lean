import Mathlib.Data.BitVec
import Mathlib.Data.Int.ModEq

/-!
# The clock of a world

A translation of `SV_WorldGetTime` and `SV_WorldSetTime`, of the `Time` that
`cdnbt_WorldCreate` loads, and of `cdsurvival_TimeIncrease`, for one world of its list.

A tick adds the rate of the part of the day and takes a day off at its end, so it keeps
the clock right modulo a day (`time_modEq_run`); a clock that is beyond the end of the day
comes back by one day a tick (`time_run_lt_iff`).  What is lost on load is the part of
`Time` above 16 bits, which is a number of days only every 375 times.
-/

namespace Craftd.Survival

/-- `config.cache.rate` of a world, four shorts. -/
structure Rate where
  sunrise : BitVec 16
  day : BitVec 16
  sunset : BitVec 16
  night : BitVec 16

/-- A world, by its time and its rates. -/
structure WorldClock where
  time : BitVec 16
  rate : Rate

/-- `SV_WorldGetTime`. -/
def worldGetTime (self : WorldClock) : BitVec 16 := self.time

/-- `SV_WorldSetTime`. -/
def worldSetTime (self : WorldClock) (time : BitVec 16) : WorldClock := { self with time := time }

/-- `current` after the parts of the day in `cdsurvival_TimeIncrease`. -/
def raisedTime (self : WorldClock) : BitVec 16 :=
  let current := worldGetTime self
  if current.toNat ≤ 11999 then current + self.rate.day
  else if 12000 ≤ current.toNat ∧ current.toNat ≤ 13799 then current + self.rate.sunset
  else if 13800 ≤ current.toNat ∧ current.toNat ≤ 22199 then current + self.rate.night
  else if 22200 ≤ current.toNat ∧ current.toNat ≤ 23999 then current + self.rate.sunrise
  else current

/-- The round of `cdsurvival_TimeIncrease` for a world. -/
def timeIncrease (self : WorldClock) : WorldClock :=
  let current := raisedTime self
  let self := worldSetTime self current
  if 24000 ≤ current.toNat then worldSetTime self (current - 24000) else self

/-- The clock that `cdnbt_WorldCreate` loads: `Time` is a long. -/
def loadTime (self : WorldClock) (stored : BitVec 64) : WorldClock :=
  worldSetTime self (stored.setWidth 16)

/-- The ticks of a world, each at the rates that it then has. -/
def timeRun (self : WorldClock) (rates : List Rate) : WorldClock :=
  rates.foldl (fun self rate => timeIncrease { self with rate := rate }) self

/-- The rate that a tick applies; none beyond the end of the day. -/
def Rate.applied (self : Rate) (current : BitVec 16) : ℤ :=
  if current.toNat ≤ 11999 then self.day.toInt
  else if 12000 ≤ current.toNat ∧ current.toNat ≤ 13799 then self.sunset.toInt
  else if 13800 ≤ current.toNat ∧ current.toNat ≤ 22199 then self.night.toInt
  else if 22200 ≤ current.toNat ∧ current.toNat ≤ 23999 then self.sunrise.toInt
  else 0

/-- The sum of the rates that the ticks apply. -/
def appliedSum (self : WorldClock) : List Rate → ℤ
  | [] => 0
  | rate :: rates =>
      rate.applied self.time + appliedSum (timeIncrease { self with rate := rate }) rates

/-- A rate of at most a day. -/
def AtMostDay (rate : BitVec 16) : Prop := 0 ≤ rate.toInt ∧ rate.toInt ≤ 24000

/-- Rates of at most a day. -/
structure Rate.Bounded (rate : Rate) : Prop where
  sunrise : AtMostDay rate.sunrise
  day : AtMostDay rate.day
  sunset : AtMostDay rate.sunset
  night : AtMostDay rate.night

/-! ## A tick -/

variable {self : WorldClock}

theorem toNat_add_rate {current rate : BitVec 16} (hcurrent : current.toNat < 24000)
    (hrate : AtMostDay rate) :
    ((current + rate).toNat : ℤ) = current.toNat + rate.toInt := by
  unfold AtMostDay at hrate
  have hrateNat : (rate.toNat : ℤ) = rate.toInt := by
    rw [BitVec.toInt_eq_toNat_cond] at hrate ⊢
    split_ifs at hrate ⊢ with hsmall
    · rfl
    · have := rate.isLt
      omega
  rw [BitVec.toNat_add, Nat.mod_eq_of_lt (by omega)]
  omega

theorem toNat_raisedTime (hrate : self.rate.Bounded) :
    ((raisedTime self).toNat : ℤ) = self.time.toNat + self.rate.applied self.time := by
  unfold raisedTime worldGetTime Rate.applied
  simp only
  split_ifs with hday hsunset hnight hsunrise
  · exact toNat_add_rate (by omega) hrate.day
  · exact toNat_add_rate (by omega) hrate.sunset
  · exact toNat_add_rate (by omega) hrate.night
  · exact toNat_add_rate (by omega) hrate.sunrise
  · rw [add_zero]

private theorem applied_bounds (hrate : self.rate.Bounded) :
    0 ≤ self.rate.applied self.time ∧ self.rate.applied self.time ≤ 24000 := by
  unfold Rate.applied
  split_ifs
  · exact hrate.day
  · exact hrate.sunset
  · exact hrate.night
  · exact hrate.sunrise
  · exact ⟨le_rfl, by omega⟩

/-- Nothing is applied to a clock that is beyond the end of the day. -/
theorem applied_beyond (rate : Rate) {current : BitVec 16} (h : 24000 ≤ current.toNat) :
    rate.applied current = 0 := by
  unfold Rate.applied
  rw [if_neg (by omega), if_neg (by omega), if_neg (by omega), if_neg (by omega)]

/-- A tick takes a day off a clock that has reached its end. -/
theorem toNat_timeIncrease (self : WorldClock) :
    ((timeIncrease self).time.toNat : ℤ) =
      if 24000 ≤ (raisedTime self).toNat then ((raisedTime self).toNat : ℤ) - 24000
      else (raisedTime self).toNat := by
  unfold timeIncrease worldSetTime
  simp only
  split_ifs with hend
  · have hday : (24000 : BitVec 16).toNat = 24000 := rfl
    rw [BitVec.toNat_sub_of_le hend, hday]
    omega
  · rfl

private theorem time_modEq_timeIncrease (self : WorldClock) (hrate : self.rate.Bounded) :
    ((timeIncrease self).time.toNat : ℤ) ≡
      self.time.toNat + self.rate.applied self.time [ZMOD 24000] := by
  rw [toNat_timeIncrease, toNat_raisedTime hrate]
  split_ifs
  · exact Int.sub_modulus_modEq_iff.mpr Int.ModEq.rfl
  · exact Int.ModEq.rfl

/-- A clock of the day stays one, and another one loses a day. -/
theorem time_timeIncrease_lt_iff (self : WorldClock) (hrate : self.rate.Bounded) (ticks : ℕ) :
    (timeIncrease self).time.toNat < 24000 * (ticks + 1) ↔
      self.time.toNat < 24000 * (ticks + 2) := by
  have htime := toNat_timeIncrease self
  have hraised := toNat_raisedTime hrate
  rcases Nat.lt_or_ge self.time.toNat 24000 with hinside | hbeyond
  · have hbounds := applied_bounds hrate
    split_ifs at htime <;> omega
  · rw [applied_beyond self.rate hbeyond, add_zero] at hraised
    rw [if_pos (by omega)] at htime
    omega

/-! ## A run -/

variable {rates : List Rate}

theorem time_modEq_run (hrates : ∀ rate ∈ rates, rate.Bounded) (self : WorldClock) :
    ((timeRun self rates).time.toNat : ℤ) ≡
      self.time.toNat + appliedSum self rates [ZMOD 24000] := by
  induction rates generalizing self with
  | nil => rw [appliedSum, add_zero]; exact Int.ModEq.rfl
  | cons rate rates ih =>
      have hrate : rate.Bounded := hrates rate List.mem_cons_self
      have hlater := ih (fun rate hmem => hrates rate (List.mem_cons_of_mem _ hmem))
        (timeIncrease { self with rate := rate })
      have hstep := time_modEq_timeIncrease { self with rate := rate } hrate
      calc ((timeRun self (rate :: rates)).time.toNat : ℤ)
          ≡ (timeIncrease { self with rate := rate }).time.toNat +
              appliedSum (timeIncrease { self with rate := rate }) rates [ZMOD 24000] := hlater
        _ ≡ self.time.toNat + rate.applied self.time +
              appliedSum (timeIncrease { self with rate := rate }) rates [ZMOD 24000] :=
            hstep.add_right _
        _ = self.time.toNat + appliedSum self (rate :: rates) := by rw [appliedSum, add_assoc]

/-- A clock is back in the day after as many ticks as it is days beyond it. -/
theorem time_run_lt_iff (hrates : ∀ rate ∈ rates, rate.Bounded) (self : WorldClock) :
    (timeRun self rates).time.toNat < 24000 ↔ self.time.toNat < 24000 * (rates.length + 1) := by
  induction rates generalizing self with
  | nil => rfl
  | cons rate rates ih =>
      have hrate : rate.Bounded := hrates rate List.mem_cons_self
      calc (timeRun self (rate :: rates)).time.toNat < 24000
          ↔ (timeIncrease { self with rate := rate }).time.toNat < 24000 * (rates.length + 1) :=
            ih (fun rate hmem => hrates rate (List.mem_cons_of_mem _ hmem)) _
        _ ↔ self.time.toNat < 24000 * (rates.length + 2) :=
            time_timeIncrease_lt_iff { self with rate := rate } hrate rates.length

/-! ## After loading -/

/-- The clock shows the time of the day. -/
def CountsModuloDay (self : WorldClock) (stored : BitVec 64) (rates : List Rate) : Prop :=
  (worldGetTime (timeRun (loadTime self stored) rates)).toNat < 24000 ∧
    ((worldGetTime (timeRun (loadTime self stored) rates)).toNat : ℤ) ≡
      stored.toInt + appliedSum (loadTime self stored) rates [ZMOD 24000]

private theorem toNat_loadTime (self : WorldClock) (stored : BitVec 64) :
    ((loadTime self stored).time.toNat : ℤ) = stored.toInt % 65536 := by
  have hlow : (loadTime self stored).time.toNat = stored.toNat % 65536 :=
    BitVec.toNat_setWidth 16 stored
  rw [hlow, BitVec.toInt_eq_toNat_cond]
  split_ifs <;> omega

private theorem load_modEq_iff (stored : ℤ) :
    stored % 65536 ≡ stored [ZMOD 24000] ↔ 375 ∣ stored / 65536 := by
  rw [Int.modEq_iff_dvd]
  omega

/-- The clock counts modulo a day exactly when what is lost on load is a number of days, and there
were as many ticks as the loaded clock is days beyond the first. -/
theorem countsModuloDay_iff (self : WorldClock) (stored : BitVec 64) (rates : List Rate)
    (hrates : ∀ rate ∈ rates, rate.Bounded) :
    CountsModuloDay self stored rates ↔
      stored.toInt % 65536 < 24000 * (rates.length + 1) ∧ 375 ∣ stored.toInt / 65536 := by
  have hload := toNat_loadTime self stored
  have hmod := time_modEq_run hrates (loadTime self stored)
  rw [hload] at hmod
  have hlt : (timeRun (loadTime self stored) rates).time.toNat < 24000 ↔
      stored.toInt % 65536 < 24000 * (rates.length + 1) := by
    rw [time_run_lt_iff hrates]
    omega
  refine and_congr hlt ?_
  calc ((timeRun (loadTime self stored) rates).time.toNat : ℤ) ≡
        stored.toInt + appliedSum (loadTime self stored) rates [ZMOD 24000]
      ↔ stored.toInt % 65536 + appliedSum (loadTime self stored) rates ≡
          stored.toInt + appliedSum (loadTime self stored) rates [ZMOD 24000] :=
        ⟨fun h => hmod.symm.trans h, fun h => hmod.trans h⟩
    _ ↔ stored.toInt % 65536 ≡ stored.toInt [ZMOD 24000] :=
        ⟨Int.ModEq.add_right_cancel' _, Int.ModEq.add_right _⟩
    _ ↔ 375 ∣ stored.toInt / 65536 := load_modEq_iff stored.toInt

/-- The rates of the distributed configuration. -/
def distributedRate : Rate := ⟨20, 20, 20, 20⟩

private theorem distributedRate_bounded : distributedRate.Bounded :=
  have hrate : AtMostDay 20 := ⟨by decide, by decide⟩
  ⟨hrate, hrate, hrate, hrate⟩

theorem countsModuloDay_one_tick :
    CountsModuloDay ⟨0, distributedRate⟩ 30000 [distributedRate] := by
  have hrates : ∀ rate ∈ [distributedRate], rate.Bounded := by
    intro rate hmem
    rw [List.mem_singleton.mp hmem]
    exact distributedRate_bounded
  have hstored : (30000 : BitVec 64).toInt = 30000 := rfl
  rw [countsModuloDay_iff ⟨0, distributedRate⟩ 30000 [distributedRate] hrates, hstored]
  exact ⟨by decide, by decide⟩

/-- A world of 65536 units is loaded as a new one, and the day of it is lost. -/
theorem loaded_day_lost :
    ¬∀ (self : WorldClock) (stored : BitVec 64) (rates : List Rate), 0 ≤ stored.toInt →
      (∀ rate ∈ rates, rate.Bounded) → CountsModuloDay self stored rates := by
  intro h
  have hstored : (0 : ℤ) ≤ (65536 : BitVec 64).toInt := by decide
  have hrates : ∀ rate ∈ ([] : List Rate), rate.Bounded := fun rate hmem => absurd hmem (by simp)
  have hday : (0 : ℤ) ≡ 65536 [ZMOD 24000] := (h ⟨0, distributedRate⟩ 65536 [] hstored hrates).2
  exact absurd hday (by decide)

end Craftd.Survival
