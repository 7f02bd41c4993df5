import Craftd.Library.FallibleLoop
import Craftd.Library.PackedFlags
import Craftd.Library.ProbeSequence
import Mathlib.Data.Finset.Card
import Mathlib.Logic.Function.Basic

/-!
# The tables of khash

A translation of the functions of `khash.h` that `CDHash` and `CDMap` use.  A table has
two flag bits for each bucket, packed into words: 2 for a bucket that was never used, 1
for one that was deleted and 0 for one with an entry.  Testing a bucket behind the last
word reads outside the array and has no outcome (`none`).

`Sound` is what every put and every deletion keeps: the number of buckets is a power of
two of at least 4, the flags have a word for every 16 buckets and at least one, no bit
behind the buckets looks like an entry, and `size` counts the entries.
-/

namespace Craftd.Containers

open PackedFlags ProbeSequence

/-- `kh_##name##_t`.  What `keys` and `vals` hold before they are written is open. -/
structure KHash (Key Value : Type) where
  nBuckets : ℕ
  size : ℕ
  nOccupied : ℕ
  upperBound : ℕ
  flags : List (BitVec 32)
  keys : ℕ → Key
  vals : ℕ → Value

/-- `__ac_isempty`, of a flag. -/
def isempty (flag : BitVec 2) : Bool := flag.getLsbD 1

/-- `__ac_isdel`, of a flag. -/
def isdel (flag : BitVec 2) : Bool := flag.getLsbD 0

/-- `__ac_iseither`, of a flag. -/
def iseither (flag : BitVec 2) : Bool := flag ≠ 0

/-- `__ac_inc`. -/
def acInc (k : BitVec 32) (mask : ℕ) : ℕ := ((k >>> 3 ^^^ k <<< 3) ||| 1).toNat &&& mask

/-- `__ac_fsize`. -/
def acFsize (m : ℕ) : ℕ := if m < 16 then 1 else m >>> 4

/-- `kroundup32`. -/
def kroundup32 (x : BitVec 32) : BitVec 32 :=
  let x := x - 1
  let x := x ||| x >>> 1
  let x := x ||| x >>> 2
  let x := x ||| x >>> 4
  let x := x ||| x >>> 8
  let x := x ||| x >>> 16
  x + 1

/-- `(khint_t)(n * __ac_HASH_UPPER + 0.5)`.  For a power of two the sum is never near enough
to a whole number for the rounding of a `double` to matter. -/
def acUpper (n : ℕ) : ℕ := (77 * n + 50) / 100

section Functions

variable {Key Value : Type} [DecidableEq Key] (hash : Key → BitVec 32)

/-- `kh_init`, in memory that holds something. -/
def khInit (keys : ℕ → Key) (vals : ℕ → Value) : KHash Key Value where
  nBuckets := 0
  size := 0
  nOccupied := 0
  upperBound := 0
  flags := []
  keys := keys
  vals := vals

/-- `kh_exist`. -/
def khExist (h : KHash Key Value) (x : ℕ) : Option Bool :=
  (flag h.flags x).map fun bits => !iseither bits

/-- The loop of `kh_get`.  The step is odd and the number of buckets a power of two, so after
as many rounds as there are buckets it is back at `last`. -/
def khGetLoop (h : KHash Key Value) (key : Key) (inc last : ℕ) : ℕ → ℕ → Option ℕ
  | 0, _ => none
  | fuel + 1, i => do
      let bits ← flag h.flags i
      if isempty bits = false ∧ (isdel bits = true ∨ h.keys i ≠ key) then
        let i := (i + inc) &&& (h.nBuckets - 1)
        if i = last then some h.nBuckets else khGetLoop h key inc last fuel i
      else if iseither bits then some h.nBuckets
      else some i

/-- `kh_get`. -/
def khGet (h : KHash Key Value) (key : Key) : Option ℕ :=
  if h.nBuckets ≠ 0 then
    let mask := h.nBuckets - 1
    let k := hash key
    let i := k.toNat &&& mask
    khGetLoop h key (acInc k mask) i h.nBuckets i
  else some 0

/-- A table while `kh_resize` moves its entries: the keys and values of both tables lie in
the same arrays. -/
structure Rehash (Key Value : Type) where
  flags : List (BitVec 32)
  newFlags : List (BitVec 32)
  keys : ℕ → Key
  vals : ℕ → Value

/-- The search of `kh_resize` for an empty bucket of the new table. -/
def khNextEmpty (newFlags : List (BitVec 32)) (inc newMask : ℕ) : ℕ → ℕ → Option ℕ
  | 0, _ => none
  | fuel + 1, i => do
      let bits ← flag newFlags i
      if isempty bits then some i else khNextEmpty newFlags inc newMask fuel ((i + inc) &&& newMask)

/-- The test of `kh_resize` for an entry of the old table. -/
def khTaken (flags : List (BitVec 32)) (nBuckets i : ℕ) : Option Bool :=
  if i < nBuckets then (flag flags i).map fun bits => !iseither bits else some false

/-- The kick-out process of `kh_resize`: a key goes into the new table, and when an entry of the
old one lies there, that one is next. -/
def khKickOut (nBuckets newNBuckets : ℕ) : ℕ → Key → Value → Rehash Key Value →
    Option (Rehash Key Value)
  | 0, _, _, _ => none
  | fuel + 1, key, val, state => do
      let newMask := newNBuckets - 1
      let k := hash key
      let i ← khNextEmpty state.newFlags (acInc k newMask) newMask newNBuckets (k.toNat &&& newMask)
      let newFlags := lower state.newFlags i 2
      let keys := Function.update state.keys i key
      let vals := Function.update state.vals i val
      let taken ← khTaken state.flags nBuckets i
      if taken then
        khKickOut nBuckets newNBuckets fuel (state.keys i) (state.vals i)
          ⟨raise state.flags i 1, newFlags, keys, vals⟩
      else some ⟨state.flags, newFlags, keys, vals⟩

/-- One round of `kh_resize`. -/
def khRehash (nBuckets newNBuckets : ℕ) (state : Rehash Key Value) (j : ℕ) :
    Option (Rehash Key Value) := do
  let bits ← flag state.flags j
  if iseither bits then some state
  else
    khKickOut hash nBuckets newNBuckets (nBuckets + 1) (state.keys j) (state.vals j)
      { state with flags := raise state.flags j 1 }

/-- The number of buckets that `kh_resize` makes of the one it is asked for. -/
def khNewBuckets (newNBuckets : ℕ) : ℕ :=
  let newNBuckets := (kroundup32 (BitVec.ofNat 32 newNBuckets)).toNat
  if newNBuckets < 4 then 4 else newNBuckets

/-- `kh_resize`. -/
def khResize (h : KHash Key Value) (newNBuckets : ℕ) : Option (KHash Key Value) := do
  let newNBuckets := khNewBuckets newNBuckets
  if acUpper newNBuckets ≤ h.size then some h
  else
    let newFlags := List.replicate (acFsize newNBuckets) 0xAAAAAAAA
    let state ← (List.range h.nBuckets).foldlM (khRehash hash h.nBuckets newNBuckets)
      ⟨h.flags, newFlags, h.keys, h.vals⟩
    some {
      nBuckets := newNBuckets
      size := h.size
      nOccupied := h.size
      upperBound := acUpper newNBuckets
      flags := state.newFlags
      keys := state.keys
      vals := state.vals }

/-- The loop of `kh_put`, with the choice of the bucket behind it. -/
def khPutLoop (h : KHash Key Value) (key : Key) (inc last : ℕ) : ℕ → ℕ → ℕ → Option ℕ
  | 0, _, _ => none
  | fuel + 1, i, site => do
      let bits ← flag h.flags i
      if isempty bits = false ∧ (isdel bits = true ∨ h.keys i ≠ key) then
        let site := if isdel bits then i else site
        let i := (i + inc) &&& (h.nBuckets - 1)
        if i = last then some (if site ≠ h.nBuckets then site else i)
        else khPutLoop h key inc last fuel i site
      else some (if isempty bits ∧ site ≠ h.nBuckets then site else i)

/-- The first step of `kh_put`, which makes room. -/
def khMakeRoom (h : KHash Key Value) : Option (KHash Key Value) :=
  if h.upperBound ≤ h.nOccupied then
    if (h.size <<< 1) % 2 ^ 32 < h.nBuckets then khResize hash h (h.nBuckets - 1)
    else khResize hash h (h.nBuckets + 1)
  else some h

/-- The second step of `kh_put`, which looks for the bucket. -/
def khPutBucket (h : KHash Key Value) (key : Key) : Option ℕ := do
  let mask := h.nBuckets - 1
  let k := hash key
  let i := k.toNat &&& mask
  let bits ← flag h.flags i
  if isempty bits then some i
  else khPutLoop h key (acInc k mask) i h.nBuckets i h.nBuckets

/-- `kh_put`, with the bucket that it returns. -/
def khPut (h : KHash Key Value) (key : Key) : Option (KHash Key Value × ℕ) := do
  let h ← khMakeRoom hash h
  let x ← khPutBucket hash h key
  let bits ← flag h.flags x
  if isempty bits then
    some ({ h with
      keys := Function.update h.keys x key
      flags := lower h.flags x 3
      size := h.size + 1
      nOccupied := h.nOccupied + 1 }, x)
  else if isdel bits then
    some ({ h with
      keys := Function.update h.keys x key
      flags := lower h.flags x 3
      size := h.size + 1 }, x)
  else some (h, x)

/-- `kh_del`. -/
def khDel (h : KHash Key Value) (x : ℕ) : Option (KHash Key Value) :=
  if x = h.nBuckets then some h
  else do
    let bits ← flag h.flags x
    if iseither bits then some h
    else some { h with flags := raise h.flags x 1, size := h.size - 1 }

end Functions

/-! ## Entries -/

/-- The buckets with an entry. -/
def existing (flags : List (BitVec 32)) (nBuckets : ℕ) : Finset ℕ :=
  (Finset.range nBuckets).filter fun x => flag flags x = some 0

variable {flags newFlags : List (BitVec 32)} {n i x y : ℕ} {bits : BitVec 2}

theorem mem_existing : x ∈ existing flags n ↔ x < n ∧ flag flags x = some 0 := by
  rw [existing, Finset.mem_filter, Finset.mem_range]

theorem card_existing_le : (existing flags n).card ≤ n :=
  (Finset.card_filter_le _ _).trans (Finset.card_range n).le

theorem iseither_eq_false : iseither bits = false ↔ bits = 0 := by
  simp [iseither]

theorem flag_raise_deleted (flags : List (BitVec 32)) (i x : ℕ) :
    flag (raise flags i 1) x = some 0 ↔ x ≠ i ∧ flag flags x = some 0 := by
  have hdeleted : ∀ bits : BitVec 2, bits ||| 1 ≠ 0 := by decide
  rw [flag_raise]
  split_ifs with heq
  · refine iff_of_false (fun h => ?_) fun h => h.1 heq.symm
    obtain ⟨bits, -, hbits⟩ := Option.map_eq_some_iff.mp h
    exact hdeleted bits hbits
  · exact (and_iff_right (Ne.symm heq)).symm

theorem existing_raise (flags : List (BitVec 32)) (i n : ℕ) :
    existing (raise flags i 1) n = (existing flags n).erase i := by
  ext x
  rw [mem_existing, Finset.mem_erase, mem_existing, flag_raise_deleted]
  tauto

theorem existing_lower {mask : BitVec 2} (hi : i < n) (hflag : flag flags i = some bits)
    (hclear : bits &&& ~~~mask = 0) :
    existing (lower flags i mask) n = insert i (existing flags n) := by
  ext x
  rw [mem_existing, Finset.mem_insert, mem_existing, flag_lower]
  split_ifs with heq
  · subst heq
    rw [hflag, Option.map_some, hclear]
    exact iff_of_true ⟨hi, rfl⟩ (.inl rfl)
  · exact (or_iff_right (Ne.symm heq)).symm

/-- The numbers of buckets that a table can have. -/
def BucketCount (n : ℕ) : Prop :=
  ∃ k, k < 32 ∧ 2 ≤ k ∧ n = 2 ^ k

instance (n : ℕ) : Decidable (BucketCount n) :=
  inferInstanceAs (Decidable (∃ k, k < 32 ∧ _))

theorem BucketCount.pos (h : BucketCount n) : 0 < n := by
  obtain ⟨k, -, -, rfl⟩ := h
  exact Nat.two_pow_pos k

theorem BucketCount.and_mask (h : BucketCount n) (y : ℕ) : y &&& (n - 1) = y % n := by
  obtain ⟨k, -, -, rfl⟩ := h
  exact Nat.and_two_pow_sub_one_eq_mod y k

theorem BucketCount.exists_flag (h : BucketCount n) (hwords : flags.length = acFsize n)
    (hx : x < n) : ∃ bits, flag flags x = some bits := by
  rw [exists_flag_iff, hwords, acFsize]
  split_ifs with hfew
  · omega
  · obtain ⟨k, -, -, rfl⟩ := h
    have hk : 4 ≤ k := by
      by_contra hsmall
      exact hfew (Nat.pow_lt_pow_right Nat.one_lt_two (Nat.not_le.mp hsmall))
    obtain ⟨j, rfl⟩ := Nat.exists_eq_add_of_le hk
    rw [Nat.pow_add] at hx ⊢
    rw [Nat.shiftRight_eq_div_pow]
    omega

theorem BucketCount.coprime_acInc (h : BucketCount n) (k : BitVec 32) :
    Nat.Coprime (acInc k (n - 1)) n := by
  rw [acInc, h.and_mask]
  obtain ⟨j, -, hj, rfl⟩ := h
  apply Nat.Coprime.pow_right
  rw [Nat.coprime_two_right, Nat.odd_iff, Nat.mod_mod_of_dvd _ (dvd_pow_self 2 (by omega)),
    BitVec.toNat_or]
  exact Nat.or_mod_two_eq_one.mpr (.inr rfl)

/-- What every put and every deletion keeps. -/
structure Sound {Key Value : Type} (table : KHash Key Value) : Prop where
  shape : table.nBuckets = 0 ∧ table.flags = [] ∧ table.upperBound = 0 ∨
    BucketCount table.nBuckets ∧ table.flags.length = acFsize table.nBuckets
  behind : ∀ x, table.nBuckets ≤ x → flag table.flags x ≠ some 0
  counted : table.size = (existing table.flags table.nBuckets).card

variable {Key Value : Type} {table next : KHash Key Value} {hash : Key → BitVec 32} {key : Key}

theorem sound_khInit (keys : ℕ → Key) (vals : ℕ → Value) : Sound (khInit keys vals) :=
  ⟨.inl ⟨rfl, rfl, rfl⟩, fun _ _ => nofun, rfl⟩

theorem Sound.bucketCount (h : Sound table) (hpos : 0 < table.nBuckets) :
    BucketCount table.nBuckets ∧ table.flags.length = acFsize table.nBuckets :=
  h.shape.resolve_left fun hempty => Nat.ne_of_gt hpos hempty.1

theorem Sound.exists_flag (h : Sound table) (hx : x < table.nBuckets) :
    ∃ bits, flag table.flags x = some bits :=
  have hshape := h.bucketCount (Nat.zero_lt_of_lt hx)
  hshape.1.exists_flag hshape.2 hx

/-! ## `kh_get` and `kh_del` -/

private theorem khGetLoop_total [DecidableEq Key] {inc last fuel : ℕ}
    (hn : BucketCount table.nBuckets)
    (hwords : table.flags.length = acFsize table.nBuckets) (hi : i < table.nBuckets)
    (hpos : 0 < fuel) (hlast : probe table.nBuckets i inc fuel = last) :
    ∃ y, khGetLoop table key inc last fuel i = some y ∧ y ≤ table.nBuckets := by
  induction fuel generalizing i with
  | zero => exact absurd hpos (Nat.lt_irrefl 0)
  | succ fuel ih =>
      obtain ⟨bits, hbits⟩ := hn.exists_flag hwords hi
      have hnext : (i + inc) % table.nBuckets < table.nBuckets := Nat.mod_lt _ hn.pos
      rw [probe_succ] at hlast
      simp only [khGetLoop, hbits, Option.bind_eq_bind, Option.bind_some, hn.and_mask]
      split_ifs with hgo hback heither
      · exact ⟨_, rfl, le_rfl⟩
      · exact ih hnext (pos_of_probe_eq hnext hlast hback) hlast
      · exact ⟨_, rfl, le_rfl⟩
      · exact ⟨i, rfl, hi.le⟩

/-- **`kh_get`** finds a bucket of the table or says `kh_end`. -/
theorem Sound.khGet_total [DecidableEq Key] (h : Sound table) (key : Key) :
    ∃ y, khGet hash table key = some y ∧ y ≤ table.nBuckets := by
  rw [khGet]
  by_cases hempty : table.nBuckets = 0
  · rw [if_neg (not_not.mpr hempty)]
    exact ⟨0, rfl, Nat.zero_le _⟩
  · rw [if_pos hempty]
    obtain ⟨hn, hwords⟩ := h.bucketCount (Nat.pos_of_ne_zero hempty)
    have hfirst := Nat.mod_lt (hash key).toNat hn.pos
    dsimp only
    rw [hn.and_mask]
    exact khGetLoop_total hn hwords hfirst hn.pos (probe_period hfirst)

/-- **`kh_del`** -/
theorem Sound.khDel_total (h : Sound table) (hx : x ≤ table.nBuckets) :
    ∃ next, khDel table x = some next ∧ Sound next := by
  rw [khDel]
  split_ifs with hend
  · exact ⟨table, rfl, h⟩
  have hlt := lt_of_le_of_ne hx hend
  obtain ⟨hn, hwords⟩ := h.bucketCount (Nat.zero_lt_of_lt hlt)
  obtain ⟨bits, hbits⟩ := h.exists_flag hlt
  rw [hbits, Option.bind_eq_bind, Option.bind_some]
  split_ifs with heither
  · exact ⟨table, rfl, h⟩
  rw [Bool.not_eq_true, iseither_eq_false] at heither
  subst heither
  refine ⟨_, rfl, .inr ⟨hn, by rw [length_raise, hwords]⟩, fun y hy hflag => ?_, ?_⟩
  · exact h.behind y hy ((flag_raise_deleted _ _ _).mp hflag).2
  · dsimp only
    rw [existing_raise, Finset.card_erase_of_mem (mem_existing.mpr ⟨hlt, hbits⟩), h.counted]

/-! ## `kh_resize` -/

section Resize

variable {newN size held : ℕ} {state : Rehash Key Value}

/-- A resize in the middle: the entries of the old table, those of the new one and those in
hand are all there are, and no bucket of the new table was deleted. -/
structure Moving (n newN size held : ℕ) (state : Rehash Key Value) : Prop where
  oldRead : ∀ x < n, ∃ bits, flag state.flags x = some bits
  words : state.newFlags.length = acFsize newN
  fresh : ∀ x bits, flag state.newFlags x = some bits → bits = 2 ∨ bits = 0
  behind : ∀ x, newN ≤ x → flag state.newFlags x ≠ some 0
  counted : (existing state.flags n).card + (existing state.newFlags newN).card + held = size

private theorem khNextEmpty_loop {inc fuel t : ℕ} (hnew : BucketCount newN)
    (hwords : newFlags.length = acFsize newN) (hi : i < newN) (ht : t < fuel)
    (hempty : flag newFlags (probe newN i inc t) = some 2) :
    ∃ x bits, khNextEmpty newFlags inc (newN - 1) fuel i = some x ∧ x < newN ∧
      flag newFlags x = some bits ∧ isempty bits = true := by
  induction fuel generalizing i t with
  | zero => exact absurd ht (Nat.not_lt_zero t)
  | succ fuel ih =>
      obtain ⟨bits, hbits⟩ := hnew.exists_flag hwords hi
      simp only [khNextEmpty, hbits, Option.bind_eq_bind, Option.bind_some, hnew.and_mask]
      split_ifs with hfound
      · exact ⟨i, bits, rfl, hi, hbits, hfound⟩
      · cases t with
        | zero =>
            rw [probe_zero hi, hbits] at hempty
            cases hempty
            exact absurd rfl hfound
        | succ t =>
            rw [probe_succ] at hempty
            exact ih (Nat.mod_lt _ hnew.pos) (Nat.lt_of_succ_lt_succ ht) hempty

/-- A new table with a bucket left has an empty one, and the search finds one. -/
theorem Moving.khNextEmpty_total (h : Moving n newN size held state) (hnew : BucketCount newN)
    (hroom : (existing state.newFlags newN).card < newN) (k : BitVec 32) :
    ∃ x bits, khNextEmpty state.newFlags (acInc k (newN - 1)) (newN - 1) newN
        (k.toNat &&& (newN - 1)) = some x ∧ x < newN ∧
      flag state.newFlags x = some bits ∧ isempty bits = true := by
  obtain ⟨y, hy, hnone⟩ : ∃ y < newN, y ∉ existing state.newFlags newN := by
    by_contra hall
    push Not at hall
    have hcard := Finset.card_le_card fun y hy => hall y (Finset.mem_range.mp hy)
    rw [Finset.card_range] at hcard
    omega
  have hempty : flag state.newFlags y = some 2 := by
    obtain ⟨bits, hbits⟩ := hnew.exists_flag h.words hy
    rcases h.fresh y bits hbits with rfl | rfl
    · exact hbits
    · exact absurd (mem_existing.mpr ⟨hy, hbits⟩) hnone
  obtain ⟨t, ht, hprobe⟩ := exists_probe_eq (hnew.coprime_acInc k) hy
  rw [hnew.and_mask]
  exact khNextEmpty_loop hnew h.words (Nat.mod_lt _ hnew.pos) ht (hprobe.symm ▸ hempty)

theorem Moving.place (h : Moving n newN size (held + 1) state) (hx : x < newN)
    (hflag : flag state.newFlags x = some bits) (hempty : isempty bits = true)
    (keys : ℕ → Key) (vals : ℕ → Value) :
    Moving n newN size held ⟨state.flags, lower state.newFlags x 2, keys, vals⟩ := by
  obtain rfl : bits = 2 := by
    refine (h.fresh x bits hflag).resolve_right ?_
    rintro rfl
    cases hempty
  refine ⟨h.oldRead, by rw [length_lower, h.words], fun y bits hbits => ?_,
    fun y hy hbits => ?_, ?_⟩
  · rw [flag_lower] at hbits
    split_ifs at hbits with heq
    · subst heq
      rw [hflag] at hbits
      cases hbits
      exact .inr rfl
    · exact h.fresh y bits hbits
  · rw [flag_lower, if_neg (Nat.ne_of_lt (hx.trans_le hy))] at hbits
    exact h.behind y hy hbits
  · have hnew : x ∉ existing state.newFlags newN := by
      rw [mem_existing, hflag]
      exact fun hmem => absurd hmem.2 (by decide)
    have hcounted := h.counted
    dsimp only
    rw [existing_lower hx hflag rfl, Finset.card_insert_of_notMem hnew]
    omega

theorem Moving.take (h : Moving n newN size held state) (hx : x ∈ existing state.flags n) :
    Moving n newN size (held + 1) { state with flags := raise state.flags x 1 } := by
  refine ⟨fun y hy => ?_, h.words, h.fresh, h.behind, ?_⟩
  · rw [exists_flag_iff, length_raise, ← exists_flag_iff]
    exact h.oldRead y hy
  have hcounted := h.counted
  have hpos := Finset.card_pos.mpr ⟨x, hx⟩
  dsimp only
  rw [existing_raise, Finset.card_erase_of_mem hx]
  omega

theorem khTaken_eq (hread : ∀ x < n, ∃ bits, flag flags x = some bits) (i : ℕ) :
    khTaken flags n i = some (decide (i ∈ existing flags n)) := by
  rw [khTaken]
  split_ifs with hin
  · obtain ⟨bits, hbits⟩ := hread i hin
    rw [hbits, Option.map_some, Option.some.injEq]
    simp [iseither, mem_existing, hin, hbits]
  · rw [decide_eq_false fun hmem => hin (mem_existing.mp hmem).1]

/-- The kick-out process ends with nothing in hand, and no entry comes back to the old table. -/
theorem Moving.khKickOut_total {fuel : ℕ} (hnew : BucketCount newN)
    (hsize : size ≤ newN) (key : Key) (val : Value) (h : Moving n newN size 1 state)
    (hfuel : (existing state.flags n).card < fuel) :
    ∃ last, khKickOut hash n newN fuel key val state = some last ∧ Moving n newN size 0 last ∧
      ∀ x, flag last.flags x = some 0 → flag state.flags x = some 0 := by
  induction fuel generalizing key val state with
  | zero => exact absurd hfuel (Nat.not_lt_zero _)
  | succ fuel ih =>
      have hcounted := h.counted
      obtain ⟨i, bits, hi, hlt, hbits, hempty⟩ :=
        h.khNextEmpty_total hnew (by omega) (hash key)
      have hplaced := fun keys vals => h.place hlt hbits hempty keys vals
      simp only [khKickOut, hi, khTaken_eq h.oldRead, Option.bind_eq_bind, Option.bind_some,
        decide_eq_true_eq]
      split_ifs with hold
      · -- the entry that lay in this bucket of the old table is next
        have htaken := (hplaced (Function.update state.keys i key)
          (Function.update state.vals i val)).take hold
        have hfewer : (existing (raise state.flags i 1) n).card < fuel := by
          rw [existing_raise, Finset.card_erase_of_mem hold]
          have hpos := Finset.card_pos.mpr ⟨i, hold⟩
          omega
        obtain ⟨last, hlast, hmoved, hless⟩ :=
          ih (state.keys i) (state.vals i) htaken hfewer
        exact ⟨last, hlast, hmoved, fun x hx => ((flag_raise_deleted _ _ _).mp (hless x hx)).2⟩
      · exact ⟨_, rfl, hplaced _ _, fun x hx => hx⟩

/-- One round moves the entry of one bucket, and perhaps others. -/
theorem Moving.khRehash_total {j : ℕ} (hnew : BucketCount newN) (hsize : size ≤ newN)
    (h : Moving n newN size 0 state) (hj : j < n) :
    ∃ last, khRehash hash n newN state j = some last ∧ Moving n newN size 0 last ∧
      flag last.flags j ≠ some 0 ∧
      ∀ x, flag last.flags x = some 0 → flag state.flags x = some 0 := by
  obtain ⟨bits, hbits⟩ := h.oldRead j hj
  simp only [khRehash, hbits, Option.bind_eq_bind, Option.bind_some]
  split_ifs with heither
  · refine ⟨state, rfl, h, fun hzero => ?_, fun x hx => hx⟩
    rw [hbits, Option.some.injEq, ← iseither_eq_false, heither] at hzero
    cases hzero
  · rw [Bool.not_eq_true, iseither_eq_false] at heither
    have hin : j ∈ existing state.flags n := mem_existing.mpr ⟨hj, heither ▸ hbits⟩
    have hfuel : (existing (raise state.flags j 1) n).card < n + 1 :=
      Nat.lt_succ_of_le card_existing_le
    obtain ⟨last, hlast, hmoved, hless⟩ :=
      (h.take hin).khKickOut_total hnew hsize (state.keys j) (state.vals j) hfuel
    have hdeleted := fun x hx => (flag_raise_deleted state.flags j x).mp (hless x hx)
    exact ⟨last, hlast, hmoved, fun hzero => (hdeleted j hzero).1 rfl,
      fun x hx => (hdeleted x hx).2⟩

private theorem bucketCount_khNewBuckets (hn : n = 0 ∨ BucketCount n) :
    (n ≠ 0 → BucketCount (khNewBuckets (n - 1))) ∧ BucketCount (khNewBuckets (n + 1)) := by
  have hall : ∀ k, k < 32 →
      BucketCount (khNewBuckets (2 ^ k - 1)) ∧ BucketCount (khNewBuckets (2 ^ k + 1)) := by
    decide +kernel
  rcases hn with rfl | ⟨k, hk, -, rfl⟩
  · exact ⟨fun h => absurd rfl h, by decide +kernel⟩
  · exact ⟨fun _ => (hall k hk).1, (hall k hk).2⟩

theorem moving_empty (hread : ∀ x < n, ∃ bits, flag flags x = some bits) (keys : ℕ → Key)
    (vals : ℕ → Value) :
    Moving n newN (existing flags n).card 0
      ⟨flags, List.replicate (acFsize newN) 0xAAAAAAAA, keys, vals⟩ := by
  have hfresh : ∀ x bits,
      flag (List.replicate (acFsize newN) 0xAAAAAAAA) x = some bits → bits = 2 := by
    intro x bits hbits
    have hin := exists_flag_iff.mp ⟨bits, hbits⟩
    rw [List.length_replicate] at hin
    rw [flag_replicate hin] at hbits
    exact (Option.some.inj hbits).symm
  have hnone : ∀ x, flag (List.replicate (acFsize newN) 0xAAAAAAAA) x ≠ some 0 :=
    fun x hzero => absurd (hfresh x 0 hzero) (by decide)
  refine ⟨hread, List.length_replicate, fun x bits hbits => .inl (hfresh x bits hbits),
    fun x _ => hnone x, ?_⟩
  have hempty : existing (List.replicate (acFsize newN) 0xAAAAAAAA) newN = ∅ :=
    Finset.filter_eq_empty_iff.mpr fun x _ => hnone x
  dsimp only
  rw [hempty, Finset.card_empty]
  rfl

private theorem moving_all (hread : ∀ x < n, ∃ bits, flag flags x = some bits)
    (hnew : BucketCount newN)
    (hsize : (existing flags n).card ≤ newN) (keys : ℕ → Key) (vals : ℕ → Value) :
    ∃ last : Rehash Key Value, (List.range n).foldlM (khRehash hash n newN)
        ⟨flags, List.replicate (acFsize newN) 0xAAAAAAAA, keys, vals⟩ = some last ∧
      Moving n newN (existing flags n).card 0 last ∧
      (existing last.newFlags newN).card = (existing flags n).card := by
  have hround : ∀ done j (state : Rehash Key Value), j ∈ List.range n →
      (Moving n newN (existing flags n).card 0 state ∧ ∀ i ∈ done, flag state.flags i ≠ some 0) →
      ∃ next, khRehash hash n newN state j = some next ∧
        Moving n newN (existing flags n).card 0 next ∧
        ∀ i ∈ done ++ [j], flag next.flags i ≠ some 0 := by
    rintro done j state hj ⟨hmoving, hgone⟩
    obtain ⟨next, hnext, hmoved, hthis, hless⟩ :=
      hmoving.khRehash_total hnew hsize (List.mem_range.mp hj)
    refine ⟨next, hnext, hmoved, fun i hi => ?_⟩
    rcases List.mem_append.mp hi with hbefore | hnow
    · exact fun hzero => hgone i hbefore (hless i hzero)
    · rwa [List.mem_singleton.mp hnow]
  obtain ⟨last, hlast, hmoved, hgone⟩ :=
    FallibleLoop.exists_some hround ⟨moving_empty hread keys vals, nofun⟩
  have hnone : existing last.flags n = ∅ :=
    Finset.filter_eq_empty_iff.mpr fun j hj =>
      hgone j (List.mem_range.mpr (Finset.mem_range.mp hj))
  have hcounted := hmoved.counted
  rw [hnone, Finset.card_empty] at hcounted
  exact ⟨last, hlast, hmoved, by omega⟩

/-- The table that `kh_resize` leaves holds as many entries; it is the old one only where the new
one would have been too small. -/
theorem Sound.khResize_total {m : ℕ} (h : Sound table) (hm : BucketCount (khNewBuckets m)) :
    ∃ next, khResize hash table m = some next ∧ Sound next ∧
      (table.size = 0 ∨ 0 < table.nBuckets → 0 < next.nBuckets) := by
  rw [khResize]
  dsimp only
  split_ifs with hsmall
  · refine ⟨table, rfl, h, fun hpos => hpos.resolve_left fun hnone => ?_⟩
    obtain ⟨k, -, hk, hnew⟩ := hm
    have hfour := Nat.pow_le_pow_right Nat.two_pos hk
    rw [acUpper] at hsmall
    omega
  · have hsize : (existing table.flags table.nBuckets).card ≤ khNewBuckets m := by
      rw [acUpper] at hsmall
      rw [← h.counted]
      omega
    obtain ⟨last, hlast, hmoved, hcard⟩ :=
      moving_all (fun _ => h.exists_flag) hm hsize table.keys table.vals
    rw [hlast]
    refine ⟨_, rfl, ⟨.inr ⟨hm, hmoved.words⟩, hmoved.behind, ?_⟩, fun _ => hm.pos⟩
    exact h.counted.trans hcard.symm

end Resize

/-! ## `kh_put` -/

section Put

theorem Sound.khMakeRoom_total (h : Sound table) :
    ∃ next, khMakeRoom hash table = some next ∧ Sound next ∧ 0 < next.nBuckets := by
  have hbuckets := bucketCount_khNewBuckets (h.shape.imp And.left And.left)
  have hpos : table.size = 0 ∨ 0 < table.nBuckets := by
    rcases h.shape with ⟨hn, hflags, -⟩ | ⟨hn, -⟩
    · exact .inl (by rw [h.counted, hn]; rfl)
    · exact .inr hn.pos
  rw [khMakeRoom]
  split_ifs with hfull hdeleted
  · have hfew := hbuckets.1 (Nat.ne_zero_of_lt hdeleted)
    obtain ⟨next, hnext, hsound, hkept⟩ := h.khResize_total hfew
    exact ⟨next, hnext, hsound, hkept hpos⟩
  · obtain ⟨next, hnext, hsound, hkept⟩ := h.khResize_total hbuckets.2
    exact ⟨next, hnext, hsound, hkept hpos⟩
  · refine ⟨table, rfl, h, Nat.pos_of_ne_zero fun hn => hfull ?_⟩
    rcases h.shape with ⟨-, -, hupper⟩ | ⟨hcount, -⟩
    · rw [hupper]
      exact Nat.zero_le _
    · exact absurd hn (Nat.ne_of_gt hcount.pos)

variable [DecidableEq Key]

theorem chosen_lt {p : Prop} [Decidable p] {site : ℕ} (hsite : site ≤ n) (hi : i < n)
    (hp : p → site ≠ n) : (if p then site else i) < n := by
  split_ifs with h
  · exact lt_of_le_of_ne hsite (hp h)
  · exact hi

private theorem khPutLoop_total {inc last fuel site : ℕ} (hn : BucketCount table.nBuckets)
    (hwords : table.flags.length = acFsize table.nBuckets) (hi : i < table.nBuckets)
    (hsite : site ≤ table.nBuckets) (hpos : 0 < fuel)
    (hlast : probe table.nBuckets i inc fuel = last) :
    ∃ x, khPutLoop table key inc last fuel i site = some x ∧ x < table.nBuckets := by
  induction fuel generalizing i site with
  | zero => exact absurd hpos (Nat.lt_irrefl 0)
  | succ fuel ih =>
      obtain ⟨bits, hbits⟩ := hn.exists_flag hwords hi
      have hnext : (i + inc) % table.nBuckets < table.nBuckets := Nat.mod_lt _ hn.pos
      have hsite' : (if isdel bits then i else site) ≤ table.nBuckets := by
        split_ifs
        · exact hi.le
        · exact hsite
      rw [probe_succ] at hlast
      rw [khPutLoop, hbits, Option.bind_eq_bind, Option.bind_some, hn.and_mask]
      dsimp only
      by_cases hgo : isempty bits = false ∧ (isdel bits = true ∨ table.keys i ≠ key)
      · rw [if_pos hgo]
        by_cases hback : (i + inc) % table.nBuckets = last
        · rw [if_pos hback]
          exact ⟨_, rfl, chosen_lt hsite' hnext id⟩
        · rw [if_neg hback]
          exact ih hnext hsite' (pos_of_probe_eq hnext hlast hback) hlast
      · rw [if_neg hgo]
        exact ⟨_, rfl, chosen_lt hsite hi And.right⟩

theorem Sound.khPutBucket_total (h : Sound table) (hpos : 0 < table.nBuckets) :
    ∃ x bits, khPutBucket hash table key = some x ∧ x < table.nBuckets ∧
      flag table.flags x = some bits := by
  obtain ⟨hn, hwords⟩ := h.bucketCount hpos
  suffices hbucket : ∃ x, khPutBucket hash table key = some x ∧ x < table.nBuckets by
    obtain ⟨x, hx, hlt⟩ := hbucket
    obtain ⟨bits, hbits⟩ := h.exists_flag hlt
    exact ⟨x, bits, hx, hlt, hbits⟩
  have hfirst := Nat.mod_lt (hash key).toNat hpos
  obtain ⟨bits, hbits⟩ := h.exists_flag hfirst
  simp only [khPutBucket, hn.and_mask, hbits, Option.bind_eq_bind, Option.bind_some]
  split_ifs with hempty
  · exact ⟨_, rfl, hfirst⟩
  · exact khPutLoop_total hn hwords hfirst le_rfl hpos (probe_period hfirst)

omit [DecidableEq Key] in
theorem Sound.fill (h : Sound table) (hx : x < table.nBuckets)
    (hflag : flag table.flags x = some bits) (hnone : bits ≠ 0) (keys : ℕ → Key) (occupied : ℕ) :
    Sound { table with
      keys := keys
      flags := lower table.flags x 3
      size := table.size + 1
      nOccupied := occupied } := by
  obtain ⟨hn, hwords⟩ := h.bucketCount (Nat.zero_lt_of_lt hx)
  refine ⟨.inr ⟨hn, by rw [length_lower, hwords]⟩, fun y hy hbits => ?_, ?_⟩
  · dsimp only at hy hbits
    rw [flag_lower, if_neg (Nat.ne_of_lt (hx.trans_le hy))] at hbits
    exact h.behind y hy hbits
  · have hnew : x ∉ existing table.flags table.nBuckets := by
      rw [mem_existing, hflag, Option.some.injEq]
      exact fun hmem => hnone hmem.2
    have hclear : ∀ bits : BitVec 2, bits &&& ~~~3 = 0 := by decide
    dsimp only
    rw [existing_lower hx hflag (hclear bits), Finset.card_insert_of_notMem hnew, h.counted]

/-- **`kh_put`** finds a bucket for every key. -/
theorem Sound.khPut_total (h : Sound table) (key : Key) :
    ∃ next x, khPut hash table key = some (next, x) ∧ Sound next := by
  obtain ⟨room, hroom, hsound, hpos⟩ := h.khMakeRoom_total
  obtain ⟨x, bits, hx, hlt, hbits⟩ := hsound.khPutBucket_total hpos
  have hnone : isempty bits = true ∨ isdel bits = true → bits ≠ 0 := by
    rintro hused rfl
    exact absurd hused (by decide)
  rw [khPut, hroom, Option.bind_eq_bind, Option.bind_some, hx, Option.bind_eq_bind,
    Option.bind_some, hbits, Option.bind_eq_bind, Option.bind_some]
  split_ifs with hempty hdeleted
  · exact ⟨_, x, rfl, hsound.fill hlt hbits (hnone (.inl hempty)) _ _⟩
  · exact ⟨_, x, rfl, hsound.fill hlt hbits (hnone (.inr hdeleted)) _ _⟩
  · exact ⟨room, x, rfl, hsound⟩

end Put

end Craftd.Containers
