import Craftd.Library.BoundedArray
import Craftd.Library.Numerals
import Craftd.Survival.World

/-!
# `itoa`

A translation of `itoa.c`.  The loop writes the digits of the value, the lowest first, with
remainders that have the sign of the value; then come a sign and a NUL, and the second loop
turns what precedes the NUL around, in place.

`itoa_fits` gives the whole content of the buffer after a call, and `itoa_overflows` says
that a numeral that leaves no room for the NUL is written beyond the end.
-/

namespace Craftd.Persistence

open BoundedArray Numerals
open Survival (Byte)

variable {size : ℕ}

/-- A result of `int` arithmetic, if there is an `int` for it. -/
def asInt (value : ℤ) : Option ℤ := if -2 ^ 31 ≤ value ∧ value < 2 ^ 31 then some value else none

/-- The string in which `itoa` finds its digits, with its NUL. -/
def digitTable : List Byte :=
  ("zyxwvutsrqponmlkjihgfedcba9876543210123456789abcdefghijklmnopqrstuvwxyz".toList.map
    fun char => BitVec.ofNat 8 char.toNat) ++ [0]

/-- The symbol at an index of that string. -/
def digitAt (index : ℤ) : Option Byte := if index < 0 then none else digitTable[index.toNat]?

/-- A round of the first loop: the symbol that is written, and what is left of the value. -/
def itoaRound (base value : ℤ) : Option (Byte × ℤ) :=
  if base = 0 then none
  else do
    let quotient ← asInt (value.tdiv base)
    let product ← asInt (quotient * base)
    let remainder ← asInt (value - product)
    let symbol ← digitAt (35 + remainder)
    some (symbol, quotient)

/-- The first loop, from `ptr`; it returns `tmp_value` too.  Of a base that shortens the value no
more rounds are needed than the value has units. -/
def itoaDigits (base : ℤ) :
    ℕ → Cells Byte size → ℤ → ℤ → Option (Cells Byte size × ℤ × ℤ)
  | 0, _, _, _ => none
  | rounds + 1, result, ptr, value => do
      let round ← itoaRound base value
      let result ← writeAt result ptr round.1
      if round.2 = 0 then some (result, ptr + 1, value)
      else itoaDigits base rounds result (ptr + 1) round.2

/-- The second loop, which swaps what `ptr1` and `ptr` point at until they meet. -/
def itoaReverse : ℕ → Cells Byte size → ℤ → ℤ → Option (Cells Byte size)
  | 0, _, _, _ => none
  | rounds + 1, result, ptr1, ptr =>
      if ptr1 < ptr then do
        let last ← readAt result ptr
        let first ← readAt result ptr1
        let result ← writeAt result ptr first
        let result ← writeAt result ptr1 last
        itoaReverse rounds result (ptr1 + 1) (ptr - 1)
      else some result

/-- The sign behind the digits. -/
def itoaSign (result : Cells Byte size) (ptr tmpValue : ℤ) : Option (Cells Byte size × ℤ) :=
  if tmpValue < 0 then (writeAt result ptr 0x2D).map fun result => (result, ptr + 1)
  else some (result, ptr)

/-- `itoa`; its assertion holds of every base. -/
def itoa (value : ℤ) (result : Cells Byte size) (base : ℤ) : Option (Cells Byte size) := do
  let digits ← itoaDigits base (value.natAbs + 1) result 0 value
  let signed ← itoaSign digits.1 digits.2.1 digits.2.2
  let result ← writeAt signed.1 signed.2 0
  itoaReverse (signed.2.toNat + 1) result 0 (signed.2 - 1)

/-! ## The symbols -/

/-- The symbol of a digit. -/
def digitSymbol (digit : ℕ) : Byte :=
  if digit < 10 then BitVec.ofNat 8 (0x30 + digit) else BitVec.ofNat 8 (0x57 + digit)

theorem digitSymbol_toNat {digit : ℕ} (h : digit < 36) :
    (digitSymbol digit).toNat = if digit < 10 then 0x30 + digit else 0x57 + digit := by
  unfold digitSymbol
  split_ifs <;> rw [BitVec.toNat_ofNat] <;> omega

private theorem digitSymbol_injective : ∀ first < 36, ∀ second < 36,
    digitSymbol first = digitSymbol second → first = second := by
  intro first hfirst second hsecond h
  have hnat := congrArg BitVec.toNat h
  rw [digitSymbol_toNat hfirst, digitSymbol_toNat hsecond] at hnat
  split_ifs at hnat <;> omega

private theorem digitSymbol_ne_minus : ∀ digit < 36, digitSymbol digit ≠ 0x2D := by
  intro digit hdigit h
  have hnat : (digitSymbol digit).toNat = 0x2D := congrArg BitVec.toNat h
  rw [digitSymbol_toNat hdigit] at hnat
  split_ifs at hnat <;> omega

/-- The symbols of `itoa`. -/
def itoaSymbols : Alphabet Byte where
  minus := 0x2D
  digit := digitSymbol
  bound := 36
  digit_injective := digitSymbol_injective
  digit_ne_minus := digitSymbol_ne_minus

private theorem digitTable_getElem? : ∀ index : ℕ, index < 71 →
    digitTable[index]? = some (digitSymbol ((index : ℤ) - 35).natAbs) := by
  decide +kernel

/-- The string holds the digit of a remainder, whatever the sign. -/
theorem digitAt_remainder {remainder : ℤ} (h : remainder.natAbs < 36) :
    digitAt (35 + remainder) = some (digitSymbol remainder.natAbs) := by
  have hindex := digitTable_getElem? (35 + remainder).toNat (by omega)
  have hremainder : (((35 + remainder).toNat : ℤ) - 35).natAbs = remainder.natAbs := by omega
  rw [digitAt, if_neg (by omega), hindex, hremainder]

/-! ## The digits -/

variable {base : ℕ} {value : ℤ}

theorem asInt_eq {result : ℤ} (h : -2 ^ 31 ≤ result ∧ result < 2 ^ 31) :
    asInt result = some result := if_pos h

theorem natAbs_tdiv_base (value : ℤ) (base : ℕ) :
    (value.tdiv base).natAbs = value.natAbs / base := Int.natAbs_tdiv value base

theorem tdiv_sign (value : ℤ) (base : ℕ) :
    (0 ≤ value → 0 ≤ value.tdiv base) ∧ (value ≤ 0 → value.tdiv base ≤ 0) := by
  have hbase : (0 : ℤ) ≤ base := Int.natCast_nonneg base
  refine ⟨fun h => Int.tdiv_nonneg h hbase, fun h => ?_⟩
  have hneg : 0 ≤ (-value).tdiv base := Int.tdiv_nonneg (by omega) hbase
  rw [Int.neg_tdiv] at hneg
  omega

/-- No operation of a round leaves the range of an `int`. -/
theorem itoaRound_eq (hbase : 1 < base) (hbound : base ≤ 36)
    (hvalue : -2 ^ 31 ≤ value ∧ value < 2 ^ 31) :
    itoaRound base value =
      some (digitSymbol (value.natAbs % base), value.tdiv base) := by
  have hquotient : (value.tdiv base).natAbs ≤ value.natAbs / 2 := by
    rw [natAbs_tdiv_base]
    exact Nat.div_le_div_left hbase (by omega)
  have hremainder : (value.tmod base).natAbs = value.natAbs % base := by
    rw [Int.natAbs_tmod, Int.natAbs_natCast]
  have hlt : value.natAbs % base < base := Nat.mod_lt _ (by omega)
  have hproduct : value.tdiv base * base = value - value.tmod base := by
    have := Int.tdiv_mul_add_tmod value base
    omega
  have hproductLe : (value.tdiv base * base).natAbs ≤ value.natAbs := by
    rw [Int.natAbs_mul, natAbs_tdiv_base, Int.natAbs_natCast]
    exact Nat.div_mul_le_self _ _
  have hrest : value - value.tdiv base * base = value.tmod base := by omega
  unfold itoaRound
  rw [if_neg (by omega)]
  simp only [Option.bind_eq_bind]
  rw [asInt_eq (by omega), Option.bind_some, asInt_eq (by omega), Option.bind_some, hrest,
    asInt_eq (by omega), Option.bind_some, digitAt_remainder (by omega), Option.bind_some,
    hremainder]

theorem tdiv_range (hvalue : -2 ^ 31 ≤ value ∧ value < 2 ^ 31) :
    -2 ^ 31 ≤ value.tdiv base ∧ value.tdiv base < 2 ^ 31 := by
  have hle := Int.natAbs_tdiv_le_natAbs value base
  have hsign := tdiv_sign value base
  omega

theorem itoaDigits_succ (hbase : 1 < base) (hbound : base ≤ 36)
    (hvalue : -2 ^ 31 ≤ value ∧ value < 2 ^ 31) (rounds : ℕ) (result : Cells Byte size) (ptr : ℤ) :
    itoaDigits base (rounds + 1) result ptr value =
      (writeAt result ptr (digitSymbol (value.natAbs % base))).bind fun result =>
        if value.natAbs < base then some (result, ptr + 1, value)
        else itoaDigits base rounds result (ptr + 1) (value.tdiv base) := by
  have hzero : value.tdiv base = 0 ↔ value.natAbs < base := by
    rw [← Int.natAbs_eq_zero, natAbs_tdiv_base, Nat.div_eq_zero_iff]
    omega
  rw [itoaDigits, itoaRound_eq hbase hbound hvalue]
  simp only [Option.bind_eq_bind, Option.bind_some, hzero]

/-- The first loop writes the digits behind what is written, and nothing behind them. -/
theorem itoaDigits_fits (hbase : 1 < base) (hbound : base ≤ 36) {rounds : ℕ}
    (hrounds : value.natAbs < rounds) (hvalue : -2 ^ 31 ≤ value ∧ value < 2 ^ 31)
    {result : Cells Byte size} {written rest : List Byte}
    (hcontents : contents result = written ++ rest)
    (hfits : (lowDigits base value.natAbs).length ≤ rest.length) :
    ∃ after last, itoaDigits base rounds result written.length value =
        some (after, ((written.length + (lowDigits base value.natAbs).length : ℕ) : ℤ), last) ∧
      contents after = written ++ (lowDigits base value.natAbs).map digitSymbol ++
        rest.drop (lowDigits base value.natAbs).length ∧
      (last < 0 ↔ value < 0) := by
  induction rounds generalizing value result written rest with
  | zero => exact absurd hrounds (Nat.not_lt_zero _)
  | succ rounds ih =>
      rw [lowDigits_step hbase] at hfits ⊢
      obtain ⟨old, rest, rfl⟩ : ∃ old tail, rest = old :: tail := by
        refine List.exists_cons_of_length_pos ?_
        simp only [List.length_cons] at hfits
        omega
      obtain ⟨next, hwrite, hnext⟩ :=
        writeAt_append hcontents (digitSymbol (value.natAbs % base))
      rw [itoaDigits_succ hbase hbound hvalue, hwrite, Option.bind_some]
      -- a single digit ends the loop
      by_cases hlt : value.natAbs < base
      · simp only [if_pos hlt, List.length_singleton, List.map_singleton]
        exact ⟨next, value, by simp, hnext, Iff.rfl⟩
      · simp only [if_neg hlt, List.length_cons] at hfits ⊢
        -- the digits of the quotient go behind the one that is written
        have hquotient := natAbs_tdiv_base value base
        have hsmaller : (value.tdiv base).natAbs < rounds := by
          have : value.natAbs / base < value.natAbs := Nat.div_lt_self (by omega) hbase
          omega
        obtain ⟨after, last, hloop, hafter, hsign⟩ := ih hsmaller (tdiv_range hvalue) hnext
          (by rw [hquotient]; omega)
        rw [hquotient] at hloop hafter
        have hptr : ((written ++ [digitSymbol (value.natAbs % base)]).length : ℤ) =
            written.length + 1 := by simp
        rw [hptr] at hloop
        refine ⟨after, last, ?_, ?_, ?_⟩
        · rw [hloop]
          simp only [List.length_append, List.length_singleton]
          congr 3
          omega
        · rw [hafter]
          simp
        · rw [hsign]
          have hvalueSign := tdiv_sign value base
          have hpos : 0 < value.natAbs / base := Nat.div_pos (by omega) (by omega)
          omega

/-- More digits than there are cells left are written beyond the end. -/
theorem itoaDigits_overflows (hbase : 1 < base) (hbound : base ≤ 36) {rounds : ℕ}
    (hvalue : -2 ^ 31 ≤ value ∧ value < 2 ^ 31) {result : Cells Byte size}
    {written rest : List Byte} (hcontents : contents result = written ++ rest)
    (hoverflow : rest.length < (lowDigits base value.natAbs).length) :
    itoaDigits base rounds result written.length value = none := by
  induction rounds generalizing value result written rest with
  | zero => rfl
  | succ rounds ih =>
      rw [lowDigits_step hbase] at hoverflow
      rw [itoaDigits_succ hbase hbound hvalue]
      cases rest with
      | nil =>
          rw [writeAt_full (hcontents.trans (List.append_nil _)), Option.bind_none]
      | cons old rest =>
          obtain ⟨next, hwrite, hnext⟩ :=
            writeAt_append hcontents (digitSymbol (value.natAbs % base))
          rw [hwrite, Option.bind_some]
          by_cases hlt : value.natAbs < base
          · simp [if_pos hlt] at hoverflow
          · simp only [if_neg hlt, List.length_cons] at hoverflow ⊢
            have hrange : -2 ^ 31 ≤ value.tdiv base ∧ value.tdiv base < 2 ^ 31 := tdiv_range hvalue
            have hmore : rest.length < (lowDigits base (value.tdiv base).natAbs).length := by
              rw [natAbs_tdiv_base]
              omega
            simpa using ih hrange hnext hmore

/-- The sign in front of a numeral. -/
def signOf (value : ℤ) : List Byte := if value < 0 then [itoaSymbols.minus] else []

theorem itoaSign_fits (tmpValue : ℤ) {result : Cells Byte size} {written rest : List Byte}
    (hcontents : contents result = written ++ rest)
    (hfits : (signOf tmpValue).length ≤ rest.length) :
    ∃ after, itoaSign result written.length tmpValue =
        some (after, ((written ++ signOf tmpValue).length : ℤ)) ∧
      contents after = written ++ signOf tmpValue ++ rest.drop (signOf tmpValue).length := by
  unfold signOf at *
  unfold itoaSign
  by_cases hneg : tmpValue < 0
  · simp only [if_pos hneg, List.length_singleton] at hfits ⊢
    obtain ⟨old, rest, rfl⟩ := List.exists_cons_of_length_pos hfits
    obtain ⟨after, hwrite, hafter⟩ := writeAt_append hcontents itoaSymbols.minus
    exact ⟨after, by rw [show (0x2D : Byte) = itoaSymbols.minus from rfl, hwrite]; simp, hafter⟩
  · simp only [if_neg hneg, List.append_nil, List.length_nil, List.drop_zero]
    exact ⟨result, rfl, hcontents⟩

private theorem itoaSign_full {tmpValue : ℤ} (hsign : signOf tmpValue ≠ [])
    {result : Cells Byte size}
    {written : List Byte} (hcontents : contents result = written) :
    itoaSign result written.length tmpValue = none := by
  have hneg : tmpValue < 0 := by
    by_contra hnonneg
    exact hsign (if_neg hnonneg)
  rw [itoaSign, if_pos hneg, writeAt_full hcontents, Option.map_none]

/-! ## Turning around -/

/-- The second loop turns the part between `ptr1` and `ptr` around, and leaves the rest. -/
theorem itoaReverse_eq (middle : List Byte) {rounds : ℕ} (hrounds : middle.length < rounds)
    {result : Cells Byte size} {left right : List Byte}
    (hcontents : contents result = left ++ middle ++ right) :
    ∃ after, itoaReverse rounds result left.length (left.length + middle.length - 1) = some after ∧
      contents after = left ++ middle.reverse ++ right := by
  induction middle using List.bidirectionalRec generalizing rounds result left right with
  | nil =>
      obtain ⟨rounds, rfl⟩ := Nat.exists_eq_add_of_lt hrounds
      exact ⟨result, by simp [itoaReverse], hcontents⟩
  | singleton symbol =>
      obtain ⟨rounds, rfl⟩ := Nat.exists_eq_add_of_lt hrounds
      exact ⟨result, by simp [itoaReverse], hcontents⟩
  | cons_append first middle last ih =>
      simp only [List.length_cons, List.length_append, List.length_nil] at hrounds
      obtain ⟨rounds, rfl⟩ : ∃ less, rounds = less + 1 := ⟨rounds - 1, by omega⟩
      -- `ptr` is at the last symbol of the part, `ptr1` at the first
      have hlast : contents result = (left ++ first :: middle) ++ last :: right := by
        rw [hcontents]
        simp
      have hfirst : contents result = left ++ first :: (middle ++ last :: right) := by
        rw [hcontents]
        simp
      obtain ⟨written, hwrite, hwritten⟩ := writeAt_contents hlast first
      have hwritten' : contents written = left ++ first :: (middle ++ first :: right) := by
        rw [hwritten]
        simp
      obtain ⟨swapped, hswap, hswapped⟩ := writeAt_contents hwritten' last
      have hnext : contents swapped = (left ++ [last]) ++ middle ++ (first :: right) := by
        rw [hswapped]
        simp
      have hless : middle.length < rounds := by omega
      obtain ⟨after, hloop, hafter⟩ := ih hless hnext
      have hptr : ((left ++ first :: middle).length : ℤ) =
          left.length + (first :: (middle ++ [last])).length - 1 := by
        simp
        omega
      have hptrNext : ((left ++ [last]).length : ℤ) + middle.length - 1 =
          (left ++ first :: middle).length - 1 := by
        simp only [List.length_append, List.length_cons, List.length_nil]
        omega
      have hptr1Next : ((left ++ [last]).length : ℤ) = left.length + 1 := by simp
      rw [hptrNext, hptr1Next] at hloop
      refine ⟨after, ?_, ?_⟩
      · rw [itoaReverse, ← hptr, if_pos (by simp), readAt_contents hlast, readAt_contents hfirst]
        simp only [Option.bind_eq_bind, Option.bind_some, hwrite, hswap]
        exact hloop
      · rw [hafter]
        simp

/-! ## The whole function -/

theorem numeral_eq_reverse (base : ℕ) (value : ℤ) :
    itoaSymbols.numeral base value =
      ((lowDigits base value.natAbs).map digitSymbol ++ signOf value).reverse := by
  unfold Alphabet.numeral signOf
  split_ifs <;> simp [itoaSymbols]

theorem length_numeral (base : ℕ) (value : ℤ) :
    (itoaSymbols.numeral base value).length =
      (lowDigits base value.natAbs).length + (signOf value).length := by
  rw [numeral_eq_reverse, List.length_reverse, List.length_append, List.length_map]

theorem itoa_digits (hbase : 1 < base) (hbound : base ≤ 36)
    (hvalue : -2 ^ 31 ≤ value ∧ value < 2 ^ 31) (result : Cells Byte size)
    (hfits : (lowDigits base value.natAbs).length ≤ size) :
    ∃ written last, itoaDigits base (value.natAbs + 1) result 0 value =
        some (written, (((lowDigits base value.natAbs).map digitSymbol).length : ℤ), last) ∧
      contents written = (lowDigits base value.natAbs).map digitSymbol ++
        (contents result).drop (lowDigits base value.natAbs).length ∧
      signOf last = signOf value := by
  obtain ⟨written, last, hloop, hwritten, hsign⟩ := itoaDigits_fits hbase hbound
    (Nat.lt_succ_self value.natAbs) hvalue (List.nil_append (contents result)).symm
    (by rwa [length_contents])
  refine ⟨written, last, ?_, by simpa using hwritten, by simp only [signOf, hsign]⟩
  simpa using hloop

/-- `itoa` writes the numeral and a NUL, and leaves the cells behind them. -/
theorem itoa_fits (hbase : 1 < base) (hbound : base ≤ 36)
    (hvalue : -2 ^ 31 ≤ value ∧ value < 2 ^ 31) (result : Cells Byte size)
    (hfits : (itoaSymbols.numeral base value).length < size) :
    ∃ after, itoa value result base = some after ∧
      contents after = itoaSymbols.numeral base value ++
        0 :: (contents result).drop ((itoaSymbols.numeral base value).length + 1) := by
  have hlength := length_numeral base value
  have hsize := length_contents result
  obtain ⟨written, last, hdigits, hwritten, hlast⟩ :=
    itoa_digits hbase hbound hvalue result (by omega)
  -- the sign
  obtain ⟨signed, hsign, hsigned⟩ := itoaSign_fits last hwritten (by
    rw [hlast, List.length_drop]
    omega)
  rw [hlast] at hsign
  rw [hlast, List.drop_drop, ← hlength] at hsigned
  -- the NUL
  have hcell : (itoaSymbols.numeral base value).length < (contents result).length := by omega
  rw [List.drop_eq_getElem_cons hcell] at hsigned
  obtain ⟨closed, hclose, hclosed⟩ := writeAt_contents hsigned 0
  -- the second loop
  have hwhole : contents closed = [] ++ ((lowDigits base value.natAbs).map digitSymbol ++
      signOf value) ++ 0 :: (contents result).drop ((itoaSymbols.numeral base value).length + 1) :=
    hclosed
  obtain ⟨after, hreverse, hafter⟩ := itoaReverse_eq _ (Nat.lt_succ_self _) hwhole
  have hstart : ((([] : List Byte).length : ℕ) : ℤ) = 0 := rfl
  rw [hstart, zero_add] at hreverse
  refine ⟨after, ?_, ?_⟩
  · unfold itoa
    rw [hdigits, Option.bind_eq_bind, Option.bind_some, hsign, Option.bind_eq_bind,
      Option.bind_some, hclose]
    exact hreverse
  · rw [hafter, numeral_eq_reverse, List.nil_append]

/-- A numeral that leaves no cell for the NUL is written beyond the end. -/
theorem itoa_overflows (hbase : 1 < base) (hbound : base ≤ 36)
    (hvalue : -2 ^ 31 ≤ value ∧ value < 2 ^ 31) (result : Cells Byte size)
    (hoverflow : size ≤ (itoaSymbols.numeral base value).length) :
    itoa value result base = none := by
  have hlength := length_numeral base value
  have hsize := length_contents result
  unfold itoa
  rcases Nat.lt_or_ge size (lowDigits base value.natAbs).length with hmore | hfits
  · have hnone : itoaDigits base (value.natAbs + 1) result 0 value = none :=
      itoaDigits_overflows hbase hbound hvalue (List.nil_append (contents result)).symm
        (by omega)
    rw [hnone, Option.bind_eq_bind, Option.bind_none]
  · obtain ⟨written, last, hdigits, hwritten, hlast⟩ :=
      itoa_digits hbase hbound hvalue result hfits
    rw [hdigits, Option.bind_eq_bind, Option.bind_some]
    rcases Nat.lt_or_ge ((contents result).drop (lowDigits base value.natAbs).length).length
      (signOf last).length with hmore | hfits
    · -- there is no cell for the sign
      have hshort : (signOf last).length ≤ 1 := by
        unfold signOf
        split_ifs <;> simp
      have hempty : (contents result).drop (lowDigits base value.natAbs).length = [] :=
        List.eq_nil_of_length_eq_zero (by omega)
      have hsign : signOf last ≠ [] := List.ne_nil_of_length_pos (by omega)
      rw [hempty, List.append_nil] at hwritten
      rw [itoaSign_full hsign hwritten, Option.bind_eq_bind, Option.bind_none]
    · -- there is none for the NUL
      obtain ⟨signed, hsign, hsigned⟩ := itoaSign_fits last hwritten hfits
      have hempty : (contents result).drop (itoaSymbols.numeral base value).length = [] :=
        List.drop_eq_nil_of_le (by omega)
      rw [List.drop_drop, hlast, ← hlength, hempty, List.append_nil] at hsigned
      rw [hsign, hlast, Option.bind_eq_bind, Option.bind_some, writeAt_full hsigned,
        Option.bind_eq_bind, Option.bind_none]

end Craftd.Persistence
