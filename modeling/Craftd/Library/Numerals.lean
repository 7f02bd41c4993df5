import Mathlib.Data.Nat.Digits.Lemmas

/-!
# Numerals of integers

The numeral of an integer in a base: the digits of its absolute value, the highest first,
after a sign if the integer is negative.  `numeral_canonical` says what a numeral looks
like, `read_numeral` that it is read back as the integer, and `numeral_length_le_iff` which
integers have a short one.
-/

namespace Numerals

/-! ## Digits -/

/-- The digits of a number, the lowest first; zero has one. -/
def lowDigits (base value : ℕ) : List ℕ := if value = 0 then [0] else base.digits value

variable {base : ℕ}

theorem lowDigits_step (hbase : 1 < base) (value : ℕ) :
    lowDigits base value =
      value % base :: if value < base then [] else lowDigits base (value / base) := by
  rcases Nat.eq_zero_or_pos value with rfl | hpos
  · rw [if_pos (by omega), Nat.zero_mod, lowDigits, if_pos rfl]
  · rw [lowDigits, if_neg hpos.ne', Nat.digits_def' hbase hpos]
    split_ifs with hlt
    · rw [Nat.div_eq_of_lt hlt, Nat.digits_zero]
    · have hquotient : value / base ≠ 0 := (Nat.div_pos (not_lt.mp hlt) (by omega)).ne'
      rw [lowDigits, if_neg hquotient]

theorem lt_of_mem_lowDigits (hbase : 1 < base) {value digit : ℕ}
    (h : digit ∈ lowDigits base value) : digit < base := by
  unfold lowDigits at h
  split_ifs at h with hzero
  · have hdigit : digit = 0 := List.mem_singleton.mp h
    omega
  · exact Nat.digits_lt_base hbase h

theorem lowDigits_length_le_iff (hbase : 1 < base) (value k : ℕ) :
    (lowDigits base value).length ≤ k + 1 ↔ value < base ^ (k + 1) := by
  unfold lowDigits
  split_ifs with hzero
  · subst hzero
    exact iff_of_true (by simp) (Nat.pow_pos (by omega))
  · exact Nat.digits_length_le_iff hbase value

theorem ofDigits_lowDigits (base value : ℕ) : Nat.ofDigits base (lowDigits base value) = value := by
  unfold lowDigits
  split_ifs with hzero
  · rw [Nat.ofDigits_singleton, hzero]
  · exact Nat.ofDigits_digits base value

/-- The highest digit is zero in the numeral of zero only. -/
theorem lowDigits_reverse (base value : ℕ) :
    (lowDigits base value).reverse = [0] ∧ value = 0 ∨
      ∃ first rest, (lowDigits base value).reverse = first :: rest ∧ first ≠ 0 := by
  unfold lowDigits
  split_ifs with hzero
  · exact .inl ⟨rfl, hzero⟩
  · have hne : base.digits value ≠ [] := Nat.digits_ne_nil_iff_ne_zero.mpr hzero
    refine .inr ⟨(base.digits value).getLast hne, (base.digits value).dropLast.reverse, ?_,
      Nat.getLast_digit_ne_zero base hzero⟩
    calc (base.digits value).reverse
        = ((base.digits value).dropLast ++ [(base.digits value).getLast hne]).reverse := by
          rw [List.dropLast_append_getLast]
      _ = (base.digits value).getLast hne :: (base.digits value).dropLast.reverse := by simp

/-! ## Symbols -/

/-- The symbols of numerals: a sign, and the digits below `bound`, no two of them the same. -/
structure Alphabet (Symbol : Type*) where
  minus : Symbol
  digit : ℕ → Symbol
  bound : ℕ
  digit_injective : ∀ first < bound, ∀ second < bound, digit first = digit second → first = second
  digit_ne_minus : ∀ value < bound, digit value ≠ minus

variable {Symbol : Type*} (symbols : Alphabet Symbol)

namespace Alphabet

/-- The numeral of an integer. -/
def numeral (base : ℕ) (value : ℤ) : List Symbol :=
  (if value < 0 then [symbols.minus] else []) ++
    (lowDigits base value.natAbs).reverse.map symbols.digit

/-- Digits of the base with a sign or without one, and no zero in front but in `0`. -/
def Canonical (base : ℕ) (text : List Symbol) : Prop :=
  text = [symbols.digit 0] ∨ ∃ first rest, first ≠ 0 ∧ (∀ digit ∈ first :: rest, digit < base) ∧
    (text = (first :: rest).map symbols.digit ∨
      text = symbols.minus :: (first :: rest).map symbols.digit)

theorem mem_numeral (hbase : 1 < base) {value : ℤ} {symbol : Symbol}
    (h : symbol ∈ symbols.numeral base value) :
    symbol = symbols.minus ∨ ∃ digit < base, symbol = symbols.digit digit := by
  rcases List.mem_append.mp h with hsign | hdigit
  · split_ifs at hsign with hneg
    · exact .inl (List.mem_singleton.mp hsign)
    · exact absurd hsign List.not_mem_nil
  · obtain ⟨digit, hmem, rfl⟩ := List.mem_map.mp hdigit
    exact .inr ⟨digit, lt_of_mem_lowDigits hbase (List.mem_reverse.mp hmem), rfl⟩

theorem numeral_canonical (hbase : 1 < base) (value : ℤ) :
    symbols.Canonical base (symbols.numeral base value) := by
  rcases lowDigits_reverse base value.natAbs with ⟨hdigits, hzero⟩ | ⟨first, rest, hdigits, hne⟩
  · refine .inl ?_
    rw [numeral, hdigits, if_neg (by omega), List.map_singleton, List.nil_append]
  · refine .inr ⟨first, rest, hne, fun digit hmem => ?_, ?_⟩
    · rw [← hdigits] at hmem
      exact lt_of_mem_lowDigits hbase (List.mem_reverse.mp hmem)
    · rw [numeral, hdigits]
      split_ifs with hneg
      · exact .inr rfl
      · exact .inl rfl

/-- A numeral of the base begins with the sign exactly for an integer below zero. -/
theorem head?_numeral_iff (hbase : 1 < base) (hbound : base ≤ symbols.bound) (value : ℤ) :
    (symbols.numeral base value).head? = some symbols.minus ↔ value < 0 := by
  by_cases hneg : value < 0
  · rw [numeral, if_pos hneg]
    exact iff_of_true rfl hneg
  · refine iff_of_false (fun h => ?_) hneg
    rw [numeral, if_neg hneg, List.nil_append, List.head?_map, Option.map_eq_some_iff] at h
    obtain ⟨digit, hhead, hminus⟩ := h
    have hmem := List.mem_reverse.mp (List.mem_of_head? hhead)
    exact symbols.digit_ne_minus digit ((lt_of_mem_lowDigits hbase hmem).trans_le hbound) hminus

theorem numeral_length_le_iff (hbase : 1 < base) (value : ℤ) (k : ℕ) :
    (symbols.numeral base value).length ≤ k + 2 ↔
      -(base : ℤ) ^ (k + 1) < value ∧ value < (base : ℤ) ^ (k + 2) := by
  have hlow := lowDigits_length_le_iff hbase value.natAbs k
  have hhigh : (lowDigits base value.natAbs).length ≤ k + 2 ↔ value.natAbs < base ^ (k + 2) :=
    lowDigits_length_le_iff hbase value.natAbs (k + 1)
  have hpos : ∀ exponent, 0 < base ^ exponent := fun exponent => Nat.pow_pos (by omega)
  have hlowPos := hpos (k + 1)
  have hhighPos := hpos (k + 2)
  have hpow : ∀ exponent, (base : ℤ) ^ exponent = (base ^ exponent : ℕ) :=
    fun exponent => (Nat.cast_pow base exponent).symm
  rw [hpow, hpow]
  unfold numeral
  -- a sign leaves one digit less
  split_ifs with hneg
  · simp only [List.length_append, List.length_singleton, List.length_map, List.length_reverse]
    omega
  · simp only [List.length_append, List.length_nil, List.length_map, List.length_reverse]
    omega

/-! ## Reading -/

variable [DecidableEq Symbol]

/-- The digit of a symbol. -/
def index (symbol : Symbol) : Option ℕ :=
  (List.range symbols.bound).find? fun digit => symbols.digit digit = symbol

/-- Read the digits of a base, the highest first, after those that make `total`. -/
def readDigits (base : ℕ) : ℕ → List Symbol → Option ℕ
  | total, [] => some total
  | total, symbol :: text =>
      match symbols.index symbol with
      | none => none
      | some digit => if digit < base then readDigits base (total * base + digit) text else none

/-- Read a numeral of a base. -/
def read (base : ℕ) : List Symbol → Option ℤ
  | [] => none
  | symbol :: text =>
      if symbol = symbols.minus then
        (symbols.readDigits base 0 text).map fun value : ℕ => -(value : ℤ)
      else (symbols.readDigits base 0 (symbol :: text)).map fun value : ℕ => (value : ℤ)

theorem index_digit {digit : ℕ} (h : digit < symbols.bound) :
    symbols.index (symbols.digit digit) = some digit := by
  unfold index
  rw [List.find?_range_eq_some]
  refine ⟨by simp, List.mem_range.mpr h, fun earlier hlt => ?_⟩
  have hne : symbols.digit earlier ≠ symbols.digit digit :=
    fun heq => hlt.ne (symbols.digit_injective earlier (hlt.trans h) digit h heq)
  simpa using hne

theorem readDigits_map (hbound : base ≤ symbols.bound) {digits : List ℕ}
    (hdigits : ∀ digit ∈ digits, digit < base) (total : ℕ) :
    symbols.readDigits base total (digits.map symbols.digit) =
      some (digits.foldl (fun total digit => total * base + digit) total) := by
  induction digits generalizing total with
  | nil => rfl
  | cons digit digits ih =>
      have hlt : digit < base := hdigits digit List.mem_cons_self
      rw [List.map_cons, readDigits, symbols.index_digit (hlt.trans_le hbound)]
      simp only [hlt, if_true, List.foldl_cons]
      exact ih (fun digit hmem => hdigits digit (List.mem_cons_of_mem _ hmem)) _

omit [DecidableEq Symbol] in
theorem foldl_reverse_eq_ofDigits (base : ℕ) (digits : List ℕ) :
    digits.reverse.foldl (fun total digit => total * base + digit) 0 =
      Nat.ofDigits base digits := by
  rw [List.foldl_reverse, Nat.ofDigits_eq_foldr]
  congr 1
  funext digit total
  rw [Nat.cast_id, Nat.mul_comm, Nat.add_comm]

theorem readDigits_numeral (hbase : 1 < base) (hbound : base ≤ symbols.bound) (value : ℕ) :
    symbols.readDigits base 0 ((lowDigits base value).reverse.map symbols.digit) = some value := by
  rw [symbols.readDigits_map hbound
    (fun digit hmem => lt_of_mem_lowDigits hbase (List.mem_reverse.mp hmem)) 0,
    foldl_reverse_eq_ofDigits, ofDigits_lowDigits]

theorem read_numeral (hbase : 1 < base) (hbound : base ≤ symbols.bound) (value : ℤ) :
    symbols.read base (symbols.numeral base value) = some value := by
  have hdigits := symbols.readDigits_numeral hbase hbound value.natAbs
  unfold numeral
  split_ifs with hneg
  · rw [List.singleton_append, read, if_pos rfl, hdigits, Option.map_some]
    congr 1
    omega
  · -- the first symbol is a digit, and no digit is the sign
    obtain ⟨first, rest, hcons⟩ : ∃ first rest, (lowDigits base value.natAbs).reverse =
        first :: rest := by
      rcases lowDigits_reverse base value.natAbs with ⟨h, -⟩ | ⟨first, rest, h, -⟩
      · exact ⟨0, [], h⟩
      · exact ⟨first, rest, h⟩
    have hmem : first ∈ lowDigits base value.natAbs := by
      rw [← List.mem_reverse, hcons]
      exact List.mem_cons_self
    have hfirst : first < base := lt_of_mem_lowDigits hbase hmem
    rw [hcons, List.map_cons] at hdigits
    rw [List.nil_append, hcons, List.map_cons, read,
      if_neg (symbols.digit_ne_minus first (hfirst.trans_le hbound)), hdigits, Option.map_some]
    congr 1
    omega

theorem numeral_injective (hbase : 1 < base) (hbound : base ≤ symbols.bound) :
    Function.Injective (symbols.numeral base) := by
  intro first second h
  have hfirst := symbols.read_numeral hbase hbound first
  rw [h, symbols.read_numeral hbase hbound second] at hfirst
  exact (Option.some.inj hfirst).symm

end Alphabet

end Numerals
