import Mathlib.Data.BitVec
import Mathlib.Algebra.Order.Ring.Nat
import Mathlib.Tactic.Ring

/-!
# Numbers as big-endian bytes

`toBytes n x` writes the low `n` bytes of `x`, the most significant byte first,
and `ofBytes` reads such bytes back.  The two are inverse to each other on
numbers below `256 ^ n` and on lists of `n` bytes; `ofNat_ofBytes` and
`toBytes_ofNat` say the same for words of `8 * n` bits.
-/

namespace BigEndian

/-- The low `n` bytes of `x`, the most significant one first. -/
def toBytes : Nat → Nat → List (BitVec 8)
  | 0, _ => []
  | n + 1, x => toBytes n (x / 256) ++ [BitVec.ofNat 8 x]

/-- The number that `bytes` spell, the most significant one first. -/
def ofBytes (bytes : List (BitVec 8)) : Nat :=
  bytes.foldl (fun value byte => value * 256 + byte.toNat) 0

@[simp] theorem length_toBytes (n x : Nat) : (toBytes n x).length = n := by
  induction n generalizing x with
  | zero => rfl
  | succ n ih => simp [toBytes, ih]

@[simp] theorem ofBytes_nil : ofBytes [] = 0 := rfl

theorem ofBytes_concat (bytes : List (BitVec 8)) (byte : BitVec 8) :
    ofBytes (bytes ++ [byte]) = ofBytes bytes * 256 + byte.toNat := by
  simp [ofBytes]

theorem ofBytes_lt (bytes : List (BitVec 8)) : ofBytes bytes < 256 ^ bytes.length := by
  induction bytes using List.reverseRecOn with
  | nil => simp
  | append_singleton bytes byte ih =>
      have hbyte : byte.toNat < 256 := byte.isLt
      rw [ofBytes_concat, List.length_append, List.length_singleton, pow_succ]
      omega

/-- Reading back what was written keeps the low `n` bytes. -/
theorem ofBytes_toBytes (n x : Nat) : ofBytes (toBytes n x) = x % 256 ^ n := by
  induction n generalizing x with
  | zero => simp [toBytes, Nat.mod_one]
  | succ n ih =>
      have hsplit : x % 256 ^ (n + 1) = x % 256 + 256 * (x / 256 % 256 ^ n) := by
        rw [pow_succ', Nat.mod_mul]
      rw [toBytes, ofBytes_concat, ih, BitVec.toNat_ofNat, hsplit]
      omega

theorem toBytes_ofBytes (bytes : List (BitVec 8)) :
    toBytes bytes.length (ofBytes bytes) = bytes := by
  induction bytes using List.reverseRecOn with
  | nil => rfl
  | append_singleton bytes byte ih =>
      have hbyte : byte.toNat < 256 := byte.isLt
      have hhigh : (ofBytes bytes * 256 + byte.toNat) / 256 = ofBytes bytes := by omega
      have hlow : BitVec.ofNat 8 (ofBytes bytes * 256 + byte.toNat) = byte := by
        apply BitVec.eq_of_toNat_eq
        rw [BitVec.toNat_ofNat]
        omega
      rw [List.length_append, List.length_singleton, toBytes, ofBytes_concat, hhigh, hlow, ih]

/-! ## Words -/

variable {w n : Nat}

theorem two_pow_eq (hw : w = 8 * n) : 2 ^ w = 256 ^ n := by
  rw [hw, pow_mul]
  norm_num

theorem ofNat_ofBytes (hw : w = 8 * n) (x : BitVec w) :
    BitVec.ofNat w (ofBytes (toBytes n x.toNat)) = x := by
  apply BitVec.eq_of_toNat_eq
  rw [BitVec.toNat_ofNat, ofBytes_toBytes, two_pow_eq hw, Nat.mod_mod, ← two_pow_eq hw]
  exact Nat.mod_eq_of_lt x.isLt

theorem toBytes_ofNat (hw : w = 8 * n) {bytes : List (BitVec 8)} (hlength : bytes.length = n) :
    toBytes n (BitVec.ofNat w (ofBytes bytes)).toNat = bytes := by
  have hlt : ofBytes bytes < 2 ^ w := by
    rw [two_pow_eq hw, ← hlength]
    exact ofBytes_lt bytes
  rw [BitVec.toNat_ofNat, Nat.mod_eq_of_lt hlt, ← hlength]
  exact toBytes_ofBytes bytes

end BigEndian
