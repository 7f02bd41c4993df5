import Mathlib.Data.BitVec

/-!
# Two-bit flags packed into words

Sixteen flags of two bits stand in each word of an array, flag `i` in the word `i / 16`.
A write to one flag leaves the others alone (`flag_raise`, `flag_lower`).
-/

namespace PackedFlags

variable {words : List (BitVec 32)} {i j : ℕ} {mask : BitVec 2}

/-- Flag `i`; behind the last word there is none. -/
def flag (words : List (BitVec 32)) (i : ℕ) : Option (BitVec 2) :=
  words[i / 16]?.map fun word : BitVec 32 => (word >>> (2 * (i % 16))).setWidth 2

/-- Set the bits of a mask in flag `i`. -/
def raise (words : List (BitVec 32)) (i : ℕ) (mask : BitVec 2) : List (BitVec 32) :=
  words.modify (i / 16) fun word => word ||| mask.setWidth 32 <<< (2 * (i % 16))

/-- Clear the bits of a mask in flag `i`. -/
def lower (words : List (BitVec 32)) (i : ℕ) (mask : BitVec 2) : List (BitVec 32) :=
  words.modify (i / 16) fun word => word &&& ~~~(mask.setWidth 32 <<< (2 * (i % 16)))

@[simp] theorem length_raise : (raise words i mask).length = words.length :=
  List.length_modify _ _ _

@[simp] theorem length_lower : (lower words i mask).length = words.length :=
  List.length_modify _ _ _

theorem exists_flag_iff : (∃ bits, flag words i = some bits) ↔ i < 16 * words.length := by
  have hword : (∃ word, words[i / 16]? = some word) ↔ i / 16 < words.length :=
    ⟨fun ⟨_, h⟩ => (List.getElem?_eq_some_iff.mp h).1, fun h => ⟨_, List.getElem?_eq_getElem h⟩⟩
  rw [Nat.div_lt_iff_lt_mul (by decide), Nat.mul_comm] at hword
  rw [← hword]
  constructor
  · rintro ⟨bits, hbits⟩
    obtain ⟨word, hword, -⟩ := Option.map_eq_some_iff.mp hbits
    exact ⟨word, hword⟩
  · rintro ⟨word, hword⟩
    exact ⟨_, by rw [flag, hword]; rfl⟩

theorem flag_eq_none_iff : flag words i = none ↔ 16 * words.length ≤ i := by
  rw [← not_lt, ← exists_flag_iff, Option.eq_none_iff_forall_ne_some, not_exists]

theorem getLsbD_mask {a b k : ℕ} (ha : a < 16) (hb : b < 16) (hk : k < 2) :
    (mask.setWidth 32 <<< (2 * a)).getLsbD (2 * b + k) =
      (decide (a = b) && mask.getLsbD k) := by
  rw [BitVec.getLsbD_shiftLeft, BitVec.getLsbD_setWidth]
  rcases Nat.lt_trichotomy a b with hlt | rfl | hlt
  · have hhigh : mask.getLsbD (2 * b + k - 2 * a) = false := BitVec.getLsbD_of_ge _ _ (by omega)
    simp [hhigh, Nat.ne_of_lt hlt]
  · have hsub : 2 * a + k - 2 * a = k := by omega
    have hlow : ¬ 2 * a + k < 2 * a := by omega
    have hin : 2 * a + k < 32 := by omega
    have hk' : k < 32 := by omega
    simp [hsub, hlow, hin, hk']
  · have hlow : 2 * b + k < 2 * a := by omega
    simp [hlow, Nat.ne_of_gt hlt]

/-- A write that changes each word by its bits changes one flag. -/
theorem flag_modify {change : BitVec 32 → BitVec 32} {changeFlag : BitVec 2 → BitVec 2}
    (hchange : ∀ word b, b < 16 → ((change word) >>> (2 * b)).setWidth 2 =
      if i % 16 = b then changeFlag ((word >>> (2 * b)).setWidth 2)
      else (word >>> (2 * b)).setWidth 2) (j : ℕ) :
    flag (words.modify (i / 16) change) j =
      if i = j then (flag words j).map changeFlag else flag words j := by
  have hmod : j % 16 < 16 := Nat.mod_lt _ (by decide)
  rw [flag, flag, List.getElem?_modify]
  cases words[j / 16]? with
  | none => simp
  | some word =>
      rw [Option.map_eq_map, Option.map_some, Option.map_some, Option.map_some, Option.map_some]
      by_cases hword : i / 16 = j / 16
      · have hsame : i % 16 = j % 16 ↔ i = j := by omega
        rw [if_pos hword, hchange word _ hmod]
        simp only [hsame]
        split_ifs <;> rfl
      · have hne : i ≠ j := fun heq => hword (by rw [heq])
        rw [if_neg hword, if_neg hne]

theorem flag_raise (words : List (BitVec 32)) (i j : ℕ) (mask : BitVec 2) :
    flag (raise words i mask) j =
      if i = j then (flag words j).map (· ||| mask) else flag words j := by
  apply flag_modify
  intro word b hb
  have ha : i % 16 < 16 := Nat.mod_lt _ (by decide)
  apply BitVec.eq_of_getLsbD_eq
  intro k hk
  have hbit : _ = (decide (i % 16 = b) && mask.getLsbD k) := getLsbD_mask ha hb hk
  split_ifs with hsame
  · subst hsame
    simp only [BitVec.getLsbD_setWidth, BitVec.getLsbD_ushiftRight, BitVec.getLsbD_or, hbit, hk,
      decide_true, Bool.true_and]
  · simp only [BitVec.getLsbD_setWidth, BitVec.getLsbD_ushiftRight, BitVec.getLsbD_or, hbit, hsame,
      decide_false, Bool.false_and, Bool.or_false]

theorem flag_lower (words : List (BitVec 32)) (i j : ℕ) (mask : BitVec 2) :
    flag (lower words i mask) j =
      if i = j then (flag words j).map (· &&& ~~~mask) else flag words j := by
  apply flag_modify
  intro word b hb
  have ha : i % 16 < 16 := Nat.mod_lt _ (by decide)
  apply BitVec.eq_of_getLsbD_eq
  intro k hk
  have hin : 2 * b + k < 32 := by omega
  have hbit : _ = (decide (i % 16 = b) && mask.getLsbD k) := getLsbD_mask ha hb hk
  split_ifs with hsame
  · subst hsame
    simp only [BitVec.getLsbD_setWidth, BitVec.getLsbD_ushiftRight, BitVec.getLsbD_and,
      BitVec.getLsbD_not, hbit, hk, hin, decide_true, Bool.true_and]
  · simp only [BitVec.getLsbD_setWidth, BitVec.getLsbD_ushiftRight, BitVec.getLsbD_and,
      BitVec.getLsbD_not, hbit, hsame, hin, decide_true, decide_false, Bool.false_and,
      Bool.not_false, Bool.and_true]

theorem flag_replicate {n : ℕ} (hi : i < 16 * n) :
    flag (List.replicate n 0xAAAAAAAA) i = some 2 := by
  have hword : i / 16 < n := by omega
  have hflags : ∀ b < 16, ((0xAAAAAAAA : BitVec 32) >>> (2 * b)).setWidth 2 = (2 : BitVec 2) := by
    decide
  rw [flag, List.getElem?_replicate, if_pos hword, Option.map_some,
    hflags _ (Nat.mod_lt _ (by decide))]

end PackedFlags
