import Craftd.Survival.World
import Mathlib.Data.List.TakeWhile
import Mathlib.Data.Nat.Digits.Lemmas
import Mathlib.Order.Interval.Finset.Nat

/-!
# The unique username

What `SV_WorldAddPlayer` gives a player whose username is taken.  The candidates
`base^1, base^2, …` are pairwise distinct as long as they fit into the 9001 bytes
of `CD_CreateStringFromFormat`; from the first one that does not fit on, each
candidate is the empty string.  So the loop ends unless all candidates that fit
and the empty string are registered, which in a world with less than `integerMax`
players takes a base of more than 8990 bytes.
-/

namespace Craftd.Survival

variable {Player : Type*}

/-! ## Strings without a NUL -/

theorem stringContent_eq_self {content : List Byte} (hcontent : 0 ∉ content) :
    stringContent content = content := by
  apply List.takeWhile_eq_self_iff.mpr
  intro byte hbyte
  have hzero : byte ≠ 0 := fun h => hcontent (h ▸ hbyte)
  simpa using hzero

private theorem zero_notMem_decimal (value : ℕ) : 0 ∉ decimal value := by
  intro hzero
  obtain ⟨digit, hdigit, hbyte⟩ := List.mem_map.mp hzero
  have hlt : digit < 10 := Nat.digits_lt_base (by omega) (List.mem_reverse.mp hdigit)
  have hvalue : (48 + digit) % 2 ^ 8 = 0 := by
    simpa [BitVec.toNat_ofNat] using congrArg BitVec.toNat hbyte
  omega

theorem decimal_length (value : ℕ) : (decimal value).length = (Nat.digits 10 value).length := by
  simp [decimal]

theorem decimal_map_digit (value : ℕ) :
    (decimal value).map (fun byte => byte.toNat - 48) = (Nat.digits 10 value).reverse := by
  unfold decimal
  rw [List.map_map]
  conv_rhs => rw [← List.map_id (Nat.digits 10 value).reverse]
  apply List.map_congr_left
  intro digit hdigit
  have hlt : digit < 10 := Nat.digits_lt_base (by omega) (List.mem_reverse.mp hdigit)
  simp only [Function.comp_apply, BitVec.toNat_ofNat, id_eq]
  omega

private theorem decimal_injective : Function.Injective decimal := by
  intro first second heq
  apply Nat.digits_inj_iff.mp
  apply List.reverse_injective
  calc
    (Nat.digits 10 first).reverse
        = (decimal first).map (fun byte => byte.toNat - 48) := (decimal_map_digit first).symm
    _ = (decimal second).map (fun byte => byte.toNat - 48) := by rw [heq]
    _ = (Nat.digits 10 second).reverse := decimal_map_digit second

/-! ## The candidates -/

/-- The candidate fits into the bytes of `CD_CreateStringFromFormat`. -/
def Fits (baseUsername : List Byte) (count : ℕ) : Prop :=
  count < 10 ^ (9000 - baseUsername.length)

variable {baseUsername : List Byte}

theorem uniqueUsername_of_fits (hbase : 0 ∉ baseUsername) {count : ℕ} (hcount : 1 ≤ count)
    (hfits : Fits baseUsername count) :
    uniqueUsername baseUsername count = baseUsername ++ 0x5E :: decimal count := by
  have hlength : (decimal count).length ≤ 9000 - baseUsername.length := by
    rw [decimal_length]
    exact (Nat.digits_length_le_iff (by omega) count).mpr hfits
  have hpos : 0 < (decimal count).length := by
    rw [decimal_length]
    exact (Nat.lt_digits_length_iff (by omega) count).mpr (by simpa using hcount)
  unfold uniqueUsername createStringFromFormat formatLimit
  rw [stringContent_eq_self hbase, if_pos]
  simp only [List.length_append, List.length_cons]
  omega

theorem uniqueUsername_of_not_fits (hbase : 0 ∉ baseUsername) {count : ℕ}
    (hfits : ¬ Fits baseUsername count) : uniqueUsername baseUsername count = [] := by
  have hlength : 9000 - baseUsername.length < (decimal count).length := by
    rw [decimal_length]
    exact (Nat.lt_digits_length_iff (by omega) count).mpr (Nat.le_of_not_lt hfits)
  unfold uniqueUsername createStringFromFormat formatLimit
  rw [stringContent_eq_self hbase, if_neg]
  simp only [List.length_append, List.length_cons]
  omega

theorem zero_notMem_uniqueUsername (hbase : 0 ∉ baseUsername) (count : ℕ) :
    0 ∉ uniqueUsername baseUsername count := by
  unfold uniqueUsername createStringFromFormat
  split
  · rw [stringContent_eq_self hbase]
    intro hzero
    rcases List.mem_append.mp hzero with hleft | hright
    · exact hbase hleft
    · rcases List.mem_cons.mp hright with hcaret | hdecimal
      · exact absurd hcaret (by decide)
      · exact zero_notMem_decimal count hdecimal
  · simp

private theorem uniqueUsername_injOn (hbase : 0 ∉ baseUsername) {first second : ℕ}
    (hfirst : 1 ≤ first)
    (hsecond : 1 ≤ second) (hfitsFirst : Fits baseUsername first)
    (hfitsSecond : Fits baseUsername second)
    (heq : uniqueUsername baseUsername first = uniqueUsername baseUsername second) :
    first = second := by
  rw [uniqueUsername_of_fits hbase hfirst hfitsFirst,
    uniqueUsername_of_fits hbase hsecond hfitsSecond] at heq
  have htail := List.append_cancel_left heq
  exact decimal_injective (List.cons.inj htail).2

/-! ## The loop -/

variable {self : SVWorld Player}

theorem hasPlayer_eq {username : List Byte} (husername : 0 ∉ username) :
    self.hasPlayer username = (self.players username).isSome := by
  rw [SVWorld.hasPlayer, stringContent_eq_self husername]

theorem hasPlayer_uniqueUsername (hbase : 0 ∉ baseUsername) (count : ℕ) :
    self.hasPlayer (uniqueUsername baseUsername count) =
      (self.players (uniqueUsername baseUsername count)).isSome :=
  hasPlayer_eq (zero_notMem_uniqueUsername hbase count)

/-- The loop goes on for as long as the candidates are registered. -/
theorem renameLoop_eq_none_iff (rounds count : ℕ) :
    renameLoop self baseUsername rounds count = none ↔
      ∀ step < rounds, self.hasPlayer (uniqueUsername baseUsername (count + step)) := by
  induction rounds generalizing count with
  | zero => simp [renameLoop]
  | succ rounds ih =>
      by_cases htaken : self.hasPlayer (uniqueUsername baseUsername count)
      · simp only [renameLoop, htaken, if_true, ih]
        constructor
        · intro hrest step hstep
          cases step with
          | zero => exact htaken
          | succ step =>
              have := hrest step (by omega)
              rwa [show count + (step + 1) = count + 1 + step by omega]
        · intro hall step hstep
          have := hall (step + 1) (by omega)
          rwa [show count + 1 + step = count + (step + 1) by omega]
      · simp only [renameLoop, htaken, Bool.false_eq_true, if_false, reduceCtorEq, false_iff]
        intro hall
        exact htaken (hall 0 (by omega))

/-- What the loop ends with is a candidate that is not registered. -/
theorem renameLoop_spec {rounds count : ℕ} {username : List Byte}
    (hloop : renameLoop self baseUsername rounds count = some username) :
    self.hasPlayer username = false ∧
      ∃ last, count ≤ last ∧ username = uniqueUsername baseUsername last := by
  induction rounds generalizing count with
  | zero => simp [renameLoop] at hloop
  | succ rounds ih =>
      by_cases htaken : self.hasPlayer (uniqueUsername baseUsername count)
      · simp only [renameLoop, htaken, if_true] at hloop
        obtain ⟨hfree, last, hlast, rfl⟩ := ih hloop
        exact ⟨hfree, last, by omega, rfl⟩
      · simp only [renameLoop, htaken, Bool.false_eq_true, if_false, Option.some.injEq] at hloop
        subst hloop
        exact ⟨by simpa using htaken, count, le_rfl, rfl⟩

/-! ## When the loop does not end -/

/-- The base is so long that a count of ten digits does not fit, and the empty username and the
candidates that fit are registered. -/
def RenameStuck (self : SVWorld Player) (baseUsername : List Byte) : Prop :=
  8990 < baseUsername.length ∧ (self.players []).isSome ∧
    ∀ count, 1 ≤ count → count < 10 ^ (9000 - baseUsername.length) →
      (self.players (baseUsername ++ 0x5E :: decimal count)).isSome

/-- Among the first candidates of a short base there is one that is not registered, if fewer
names than that are. -/
theorem exists_unregistered {Label : Type*} [DecidableEq Label] (hbase : 0 ∉ baseUsername)
    {bound : ℕ} (labels : Finset Label) (label : List Byte → Label) (hcard : labels.card < bound)
    (hlabel : ∀ name, (self.players name).isSome → label name ∈ labels)
    (hinj : ∀ name other, (self.players name).isSome → (self.players other).isSome →
      label name = label other → name = other)
    (hfits : ∀ count, count ≤ bound → Fits baseUsername count) :
    ∃ step < bound, self.hasPlayer (uniqueUsername baseUsername (1 + step)) = false := by
  by_contra hnone
  push Not at hnone
  have hall : ∀ count ∈ Finset.Icc 1 bound,
      (self.players (uniqueUsername baseUsername count)).isSome := by
    intro count hcount
    obtain ⟨hlow, hhigh⟩ := Finset.mem_Icc.mp hcount
    have htaken := hnone (count - 1) (by omega)
    rw [show 1 + (count - 1) = count by omega, hasPlayer_uniqueUsername hbase] at htaken
    exact (Bool.not_eq_false _).mp htaken
  have hle : (Finset.Icc 1 bound).card ≤ labels.card := by
    refine Finset.card_le_card_of_injOn (fun count => label (uniqueUsername baseUsername count))
      (fun count hcount => hlabel _ (hall count hcount)) ?_
    intro first hfirst second hsecond hsame
    have hname := hinj _ _ (hall first hfirst) (hall second hsecond) hsame
    have hfirst' := Finset.mem_Icc.mp hfirst
    have hsecond' := Finset.mem_Icc.mp hsecond
    exact uniqueUsername_injOn hbase hfirst'.1 hsecond'.1 (hfits first hfirst'.2)
      (hfits second hsecond'.2) hname
  rw [Nat.card_Icc] at hle
  omega

/-- The loop does not end exactly if it is stuck, in a world with fewer players than the loop has
rounds. -/
theorem renameLoop_endless_iff {Label : Type*} [DecidableEq Label] (hbase : 0 ∉ baseUsername)
    (labels : Finset Label) (label : List Byte → Label) (hcard : labels.card < integerMax - 1)
    (hlabel : ∀ name, (self.players name).isSome → label name ∈ labels)
    (hinj : ∀ name other, (self.players name).isSome → (self.players other).isSome →
      label name = label other → name = other) :
    renameLoop self baseUsername (integerMax - 1) 1 = none ↔ RenameStuck self baseUsername := by
  rw [renameLoop_eq_none_iff]
  constructor
  -- every candidate is taken: then the base is so long that the candidates run out
  · intro hall
    have htaken : ∀ count, 1 ≤ count → count ≤ integerMax - 1 →
        (self.players (uniqueUsername baseUsername count)).isSome := by
      intro count hlow hhigh
      have := hall (count - 1) (by omega)
      rwa [show 1 + (count - 1) = count by omega, hasPlayer_uniqueUsername hbase] at this
    have hlong : 8990 < baseUsername.length := by
      by_contra hshort
      have hpow : 10 ^ 10 ≤ 10 ^ (9000 - baseUsername.length) :=
        Nat.pow_le_pow_right (by omega) (by omega)
      obtain ⟨step, hstep, hfree⟩ := exists_unregistered hbase labels label hcard hlabel hinj
        (fun count hcount => by
          unfold Fits
          have : integerMax - 1 < 10 ^ 10 := by decide
          omega)
      have := hall step hstep
      rw [hfree] at this
      exact Bool.noConfusion this
    have hpow : 10 ^ (9000 - baseUsername.length) ≤ 10 ^ 9 :=
      Nat.pow_le_pow_right (by omega) (by omega)
    have hmax : 10 ^ 9 ≤ integerMax - 1 := by decide
    have hpos : 0 < 10 ^ (9000 - baseUsername.length) := Nat.pow_pos (by omega)
    refine ⟨hlong, ?_, ?_⟩
    · have hlast := htaken (10 ^ (9000 - baseUsername.length)) (by omega) (by omega)
      rwa [uniqueUsername_of_not_fits hbase (lt_irrefl _)] at hlast
    · intro count hlow hhigh
      have hcount := htaken count hlow (by omega)
      rwa [uniqueUsername_of_fits hbase hlow hhigh] at hcount
  -- the candidates that fit are taken, and all others are the one that is cut off
  · rintro ⟨-, hempty, hall⟩ step -
    rw [hasPlayer_uniqueUsername hbase]
    by_cases hfits : Fits baseUsername (1 + step)
    · rw [uniqueUsername_of_fits hbase (by omega) hfits]
      exact hall _ (by omega) hfits
    · rwa [uniqueUsername_of_not_fits hbase hfits]

end Craftd.Survival
