import Craftd.Containers.KHashContents
import Mathlib.Tactic.Abel

/-!
# Resizing moves every entry

The kick-out process of `kh_resize` in the middle, with what it holds: the entries that are left
of the old table, the one in hand and those of the new table are all there are.  An entry goes to
the first empty bucket on its path in the new table; where an entry of the old table lies in the
same place of the arrays, that one is taken in hand.
-/

namespace Craftd.Containers

open PackedFlags ProbeSequence OpenAddressing

variable {Key Value : Type} {n newN size : ℕ} {state : Rehash Key Value} {hash : Key → BitVec 32}
  {total held : Multiset (Key × Value)} {key : Key} {value : Value} {flags : List (BitVec 32)}

/-- A resize in the middle, with its entries. -/
structure Relocating (hash : Key → BitVec 32) (n newN : ℕ) (total held : Multiset (Key × Value))
    (state : Rehash Key Value) : Prop where
  moving : Moving n newN total.card held.card state
  contents : pairs state.flags n state.keys state.vals +
    pairs state.newFlags newN state.keys state.vals + held = total
  apart : ∀ x, flag state.flags x = some 0 → x < n → flag state.newFlags x ≠ some 0
  path : ∀ x ∈ existing state.newFlags newN,
    OnKeyPath hash newN state.newFlags (state.keys x) x

/-- **The search for an empty bucket** finds the first on the path of the key. -/
theorem khNextEmpty_spec {inc start fuel t last : ℕ} (hnew : BucketCount newN)
    (hwords : flags.length = acFsize newN)
    (hstop : StopsAt newN start inc (Used flags) last) (ht : t ≤ last)
    (hfuel : t + fuel = newN) :
    khNextEmpty flags inc (newN - 1) fuel (probe newN start inc t) =
      some (probe newN start inc last) := by
  induction fuel generalizing t with
  | zero => exact absurd hstop.1 (by omega)
  | succ fuel ih =>
      have hin : probe newN start inc t < newN := Nat.mod_lt _ hnew.pos
      obtain ⟨bits, hbits⟩ := hnew.exists_flag hwords hin
      have hnext : (probe newN start inc t + inc) % newN = probe newN start inc (t + 1) := by
        rw [probe, probe, Nat.mod_add_mod, Nat.succ_mul, Nat.add_assoc]
      simp only [khNextEmpty, hbits, Option.bind_eq_bind, Option.bind_some, hnew.and_mask, hnext]
      rcases Nat.lt_or_eq_of_le ht with hlt | rfl
      · have hused := (used_iff hbits).mp (hstop.2.2 t hlt)
        rw [if_neg (by rw [hused]; exact Bool.false_ne_true)]
        exact ih hlt (by omega)
      · have hempty : isempty bits = true := by
          by_contra hused
          exact hstop.2.1 ((used_iff hbits).mpr (Bool.not_eq_true _ ▸ hused))
        rw [if_pos hempty]

/-- A new table with a bucket left has an empty one on the path of every key. -/
theorem Relocating.khNextEmpty_path (h : Relocating hash n newN total held state)
    (hnew : BucketCount newN) (hroom : (existing state.newFlags newN).card < newN) (key : Key) :
    ∃ x, khNextEmpty state.newFlags (acInc (hash key) (newN - 1)) (newN - 1) newN
        ((hash key).toNat &&& (newN - 1)) = some x ∧ x < newN ∧
      flag state.newFlags x = some 2 ∧ OnKeyPath hash newN state.newFlags key x := by
  have hstart : (hash key).toNat % newN < newN := Nat.mod_lt _ hnew.pos
  obtain ⟨y, hy, hnone⟩ : ∃ y < newN, y ∉ existing state.newFlags newN := by
    by_contra hall
    push Not at hall
    have hcard := Finset.card_le_card fun y hy => hall y (Finset.mem_range.mp hy)
    rw [Finset.card_range] at hcard
    omega
  have hunused : ¬ Used state.newFlags y := by
    rintro ⟨bits, hbits, hused⟩
    rcases h.moving.fresh y bits hbits with rfl | rfl
    · cases hused
    · exact hnone (mem_existing.mpr ⟨hy, hbits⟩)
  obtain ⟨t, ht, rfl⟩ : ∃ t, t < newN ∧
      probe newN ((hash key).toNat % newN) (acInc (hash key) (newN - 1)) t = y :=
    exists_probe_eq (hnew.coprime_acInc (hash key)) hy
  obtain ⟨last, -, hstop⟩ := exists_stopsAt ht hunused
  have hfound := khNextEmpty_spec hnew h.moving.words hstop (Nat.zero_le _)
    (Nat.zero_add newN)
  rw [probe_zero hstart, ← hnew.and_mask] at hfound
  have hlast : probe newN ((hash key).toNat % newN) (acInc (hash key) (newN - 1)) last < newN :=
    Nat.mod_lt _ hnew.pos
  refine ⟨_, hfound, ?_, ?_, ?_⟩
  · rwa [hnew.and_mask]
  · rw [hnew.and_mask]
    obtain ⟨bits, hbits⟩ := hnew.exists_flag h.moving.words hlast
    rcases h.moving.fresh _ bits hbits with rfl | rfl
    · exact hbits
    · exact absurd (used_of_entry hbits) hstop.2.1
  · rw [hnew.and_mask]
    exact hstop.onPath fun _ hused => hused

/-- The key in hand is put into its bucket, and what lies there of the old table is next. -/
theorem Relocating.place (h : Relocating hash n newN total {(key, value)} state)
    {x : ℕ} (hx : x < newN) (hflag : flag state.newFlags x = some 2)
    (hpath : OnKeyPath hash newN state.newFlags key x) :
    (x ∉ existing state.flags n → Relocating hash n newN total 0
      ⟨state.flags, lower state.newFlags x 2, Function.update state.keys x key,
        Function.update state.vals x value⟩) ∧
    (x ∈ existing state.flags n → Relocating hash n newN total {(state.keys x, state.vals x)}
      ⟨raise state.flags x 1, lower state.newFlags x 2, Function.update state.keys x key,
        Function.update state.vals x value⟩) := by
  have hmoving := h.moving
  rw [Multiset.card_singleton] at hmoving
  have hplaced := hmoving.place hx hflag rfl (Function.update state.keys x key)
    (Function.update state.vals x value)
  have hnew : x ∉ existing state.newFlags newN := by
    rw [mem_existing, hflag]
    exact fun hmem => absurd hmem.2 (by decide)
  -- the new table holds what it held and the pair in hand
  have hpairs : pairs (lower state.newFlags x 2) newN (Function.update state.keys x key)
      (Function.update state.vals x value) =
        (key, value) ::ₘ pairs state.newFlags newN state.keys state.vals :=
    pairs_lower hx hnew hflag rfl key value
  have hpaths : ∀ y ∈ existing (lower state.newFlags x 2) newN,
      OnKeyPath hash newN (lower state.newFlags x 2) (Function.update state.keys x key y) y := by
    intro y hy
    have hmono : ∀ z, Used state.newFlags z → Used (lower state.newFlags x 2) z :=
      fun z hz => (used_lower hflag rfl).mpr (.inr hz)
    rw [existing_lower hx hflag rfl, Finset.mem_insert] at hy
    by_cases hyx : y = x
    · subst hyx
      rw [Function.update_self]
      exact hpath.mono hmono
    · rw [Function.update_of_ne hyx]
      exact (h.path y (hy.resolve_left hyx)).mono hmono
  have hcontents := h.contents
  constructor
  -- nothing of the old table lies in the bucket: the hand is empty
  · intro hold
    refine ⟨hplaced, ?_, fun y hy hn => ?_, hpaths⟩
    · dsimp only
      rw [pairs_update hold, hpairs, ← hcontents, ← Multiset.singleton_add]
      abel
    · have hne : x ≠ y := by
        rintro rfl
        exact hold (mem_existing.mpr ⟨hn, hy⟩)
      dsimp only
      rw [flag_lower, if_neg hne]
      exact h.apart y hy hn
  -- an old entry lies there: it is taken out and is the next in hand
  · intro hold
    refine ⟨hplaced.take hold, ?_, fun y hy hn => ?_, hpaths⟩
    · have hgone : x ∉ existing (raise state.flags x 1) n := by
        rw [existing_raise]
        exact Finset.notMem_erase _ _
      dsimp only
      rw [pairs_update hgone, hpairs, ← hcontents, pairs_raise hold, ← Multiset.singleton_add,
        ← Multiset.singleton_add]
      abel
    · obtain ⟨hne, hbefore⟩ := (flag_raise_deleted _ _ _).mp hy
      dsimp only
      rw [flag_lower, if_neg (Ne.symm hne)]
      exact h.apart y hbefore hn

/-- **The kick-out process** ends with nothing in hand, and loses nothing. -/
theorem Relocating.khKickOut_spec {fuel : ℕ} (hnew : BucketCount newN) (hsize : total.card ≤ newN)
    (h : Relocating hash n newN total {(key, value)} state)
    (hfuel : (existing state.flags n).card < fuel) :
    ∃ last, khKickOut hash n newN fuel key value state = some last ∧
      Relocating hash n newN total 0 last ∧
      ∀ x, flag last.flags x = some 0 → flag state.flags x = some 0 := by
  induction fuel generalizing key value state with
  | zero => exact absurd hfuel (Nat.not_lt_zero _)
  | succ fuel ih =>
      have hcounted := h.moving.counted
      rw [Multiset.card_singleton] at hcounted
      obtain ⟨x, hx, hlt, hflag, hpath⟩ := h.khNextEmpty_path hnew (by omega) key
      obtain ⟨hfree, htaken⟩ := h.place hlt hflag hpath
      simp only [khKickOut, hx, khTaken_eq h.moving.oldRead, Option.bind_eq_bind, Option.bind_some,
        decide_eq_true_eq]
      split_ifs with hold
      · have hfewer : (existing (raise state.flags x 1) n).card < fuel := by
          rw [existing_raise, Finset.card_erase_of_mem hold]
          have hpos := Finset.card_pos.mpr ⟨x, hold⟩
          omega
        obtain ⟨last, hlast, hdone, hless⟩ := ih (htaken hold) hfewer
        exact ⟨last, hlast, hdone, fun y hy => ((flag_raise_deleted _ _ _).mp (hless y hy)).2⟩
      · exact ⟨_, rfl, hfree hold, fun y hy => hy⟩

theorem Relocating.khRehash_spec {j : ℕ} (hnew : BucketCount newN) (hsize : total.card ≤ newN)
    (h : Relocating hash n newN total 0 state) (hj : j < n) :
    ∃ last, khRehash hash n newN state j = some last ∧ Relocating hash n newN total 0 last ∧
      flag last.flags j ≠ some 0 ∧
      ∀ x, flag last.flags x = some 0 → flag state.flags x = some 0 := by
  obtain ⟨bits, hbits⟩ := h.moving.oldRead j hj
  simp only [khRehash, hbits, Option.bind_eq_bind, Option.bind_some]
  split_ifs with heither
  · refine ⟨state, rfl, h, fun hzero => ?_, fun x hx => hx⟩
    rw [hbits, Option.some.injEq, ← iseither_eq_false, heither] at hzero
    cases hzero
  · rw [Bool.not_eq_true, iseither_eq_false] at heither
    have hin : j ∈ existing state.flags n := mem_existing.mpr ⟨hj, heither ▸ hbits⟩
    have hheld : Relocating hash n newN total {(state.keys j, state.vals j)}
        { state with flags := raise state.flags j 1 } := by
      refine ⟨h.moving.take hin, ?_, fun x hx hxn => ?_, h.path⟩
      · rw [← h.contents, pairs_raise hin, ← Multiset.singleton_add]
        abel
      · exact h.apart x ((flag_raise_deleted _ _ _).mp hx).2 hxn
    have hfuel : (existing (raise state.flags j 1) n).card < n + 1 :=
      Nat.lt_succ_of_le card_existing_le
    obtain ⟨last, hlast, hdone, hless⟩ := hheld.khKickOut_spec hnew hsize hfuel
    have hdeleted := fun x hx => (flag_raise_deleted state.flags j x).mp (hless x hx)
    exact ⟨last, hlast, hdone, fun hzero => (hdeleted j hzero).1 rfl,
      fun x hx => (hdeleted x hx).2⟩

/-! ## The whole resize -/

section Whole

variable {table : KHash Key Value}

theorem flag_fresh {m x : ℕ} {bits : BitVec 2}
    (hbits : flag (List.replicate m 0xAAAAAAAA) x = some bits) : bits = 2 := by
  have hin := exists_flag_iff.mp ⟨bits, hbits⟩
  rw [List.length_replicate] at hin
  rw [flag_replicate hin] at hbits
  exact (Option.some.inj hbits).symm

theorem existing_fresh (m n : ℕ) : existing (List.replicate m 0xAAAAAAAA) n = ∅ := by
  refine Finset.filter_eq_empty_iff.mpr fun x _ hzero => ?_
  exact absurd (flag_fresh hzero) (by decide)

private theorem relocating_start (hash : Key → BitVec 32) (hsound : Sound table) (newN : ℕ) :
    Relocating hash table.nBuckets newN (contents table) 0
      ⟨table.flags, List.replicate (acFsize newN) 0xAAAAAAAA, table.keys, table.vals⟩ := by
  have hmoving : Moving table.nBuckets newN (existing table.flags table.nBuckets).card 0
      ⟨table.flags, List.replicate (acFsize newN) 0xAAAAAAAA, table.keys, table.vals⟩ :=
    moving_empty (fun _ => hsound.exists_flag) table.keys table.vals
  refine ⟨?_, ?_, fun x _ _ hzero => absurd (flag_fresh hzero) (by decide), ?_⟩
  · rwa [card_pairs]
  · dsimp only
    rw [pairs, pairs, existing_fresh]
    simp [pairs]
  · dsimp only
    rw [existing_fresh]
    exact fun x hx => absurd hx (Finset.notMem_empty x)

private theorem relocating_all (hash : Key → BitVec 32) (hsound : Sound table)
    (hnew : BucketCount newN)
    (hsize : (contents table).card ≤ newN) :
    ∃ last : Rehash Key Value,
      (List.range table.nBuckets).foldlM (khRehash hash table.nBuckets newN)
        ⟨table.flags, List.replicate (acFsize newN) 0xAAAAAAAA, table.keys, table.vals⟩ =
          some last ∧
      Relocating hash table.nBuckets newN (contents table) 0 last ∧
      pairs last.newFlags newN last.keys last.vals = contents table := by
  have hround : ∀ done j (state : Rehash Key Value), j ∈ List.range table.nBuckets →
      (Relocating hash table.nBuckets newN (contents table) 0 state ∧
        ∀ i ∈ done, flag state.flags i ≠ some 0) →
      ∃ next, khRehash hash table.nBuckets newN state j = some next ∧
        Relocating hash table.nBuckets newN (contents table) 0 next ∧
        ∀ i ∈ done ++ [j], flag next.flags i ≠ some 0 := by
    rintro done j state hj ⟨hrelocating, hgone⟩
    obtain ⟨next, hnext, hdone, hthis, hless⟩ :=
      hrelocating.khRehash_spec hnew hsize (List.mem_range.mp hj)
    refine ⟨next, hnext, hdone, fun i hi => ?_⟩
    rcases List.mem_append.mp hi with hbefore | hnow
    · exact fun hzero => hgone i hbefore (hless i hzero)
    · rwa [List.mem_singleton.mp hnow]
  obtain ⟨last, hlast, hdone, hgone⟩ :=
    FallibleLoop.exists_some hround ⟨relocating_start hash hsound newN, nofun⟩
  have hnone : existing last.flags table.nBuckets = ∅ :=
    Finset.filter_eq_empty_iff.mpr fun j hj =>
      hgone j (List.mem_range.mpr (Finset.mem_range.mp hj))
  have hcontents := hdone.contents
  rw [pairs, hnone] at hcontents
  refine ⟨last, hlast, hdone, ?_⟩
  simpa using hcontents

/-- **`kh_resize`** moves every entry to the path of its key. -/
theorem Filed.khResize_spec {m : ℕ} (h : Filed hash table) (hm : khNewBuckets m = newN)
    (hnew : BucketCount newN) (hroom : table.size < acUpper newN) :
    ∃ next, khResize hash table m = some next ∧ Filed hash next ∧
      contents next = contents table ∧
      (usedBuckets next.flags next.nBuckets).card < next.nBuckets := by
  have hupper : acUpper newN ≤ newN := by
    rw [acUpper]
    omega
  have hcard : (contents table).card = table.size := by
    rw [card_pairs, h.sound.counted]
  obtain ⟨last, hlast, hdone, hcontents⟩ :=
    relocating_all hash h.sound hnew (by omega)
  have hexisting : (existing last.newFlags newN).card = table.size := by
    rw [← hcard, ← hcontents, card_pairs]
  -- no bucket of the new table was deleted
  have hused : usedBuckets last.newFlags newN = existing last.newFlags newN := by
    ext x
    rw [mem_usedBuckets, mem_existing]
    refine and_congr_right fun _ => ⟨?_, used_of_entry⟩
    rintro ⟨bits, hbits, hempty⟩
    rcases hdone.moving.fresh x bits hbits with rfl | rfl
    · cases hempty
    · exact hbits
  rw [khResize, hm]
  dsimp only
  rw [if_neg (not_le.mpr hroom), hlast]
  refine ⟨_, rfl, ⟨⟨.inr ⟨hnew, hdone.moving.words⟩, hdone.moving.behind, hexisting.symm⟩,
    hdone.path, ?_, ?_, fun _ => rfl⟩, hcontents, ?_⟩
  · dsimp only
    rw [hcontents]
    exact h.nodup
  · dsimp only
    rw [hused, hexisting]
  · dsimp only
    rw [hused, hexisting]
    omega

theorem khNewBuckets_eq {k : ℕ} (hk : k < 32) :
    (2 ≤ k → khNewBuckets (2 ^ k - 1) = 2 ^ k) ∧
      (2 ≤ k → k < 31 → khNewBuckets (2 ^ k + 1) = 2 ^ (k + 1)) := by
  have hall : ∀ k, k < 32 → (2 ≤ k → khNewBuckets (2 ^ k - 1) = 2 ^ k) ∧
      (2 ≤ k → k < 31 → khNewBuckets (2 ^ k + 1) = 2 ^ (k + 1)) := by
    decide +kernel
  exact hall k hk

/-- **The first step of `kh_put`** leaves a bucket that was never used, below `2 ^ 30` entries. -/
theorem Filed.khMakeRoom_spec (h : Filed hash table) (hsize : table.size < 2 ^ 30) :
    ∃ next, khMakeRoom hash table = some next ∧ Filed hash next ∧
      contents next = contents table ∧
      (usedBuckets next.flags next.nBuckets).card < next.nBuckets := by
  have hdouble : (table.size <<< 1) % 2 ^ 32 = 2 * table.size := by
    rw [Nat.shiftLeft_eq]
    omega
  have hcounted := h.sound.counted
  have hle : (existing table.flags table.nBuckets).card ≤ table.nBuckets := card_existing_le
  rw [khMakeRoom, hdouble]
  split_ifs with hfull hdeleted
  -- many deleted buckets: a rehash into as many buckets
  · obtain ⟨hn, -⟩ := h.sound.bucketCount (Nat.zero_lt_of_lt hdeleted)
    obtain ⟨k, hk, htwo, hbuckets⟩ := id hn
    have hsame : khNewBuckets (table.nBuckets - 1) = table.nBuckets := by
      rw [hbuckets]
      exact (khNewBuckets_eq hk).1 htwo
    refine h.khResize_spec hsame hn ?_
    rw [acUpper]
    omega
  · by_cases hempty : table.nBuckets = 0
    -- the first put: four buckets
    · have hfour : khNewBuckets (table.nBuckets + 1) = 4 := by
        rw [hempty]
        decide +kernel
      refine h.khResize_spec hfour (by decide) ?_
      have hnone : table.size = 0 := by omega
      rw [hnone]
      decide
    · obtain ⟨hn, -⟩ := h.sound.bucketCount (Nat.pos_of_ne_zero hempty)
      obtain ⟨k, hk, htwo, hbuckets⟩ := hn
      -- fewer than 2^30 entries in a table that is three quarters full: twice the buckets fit
      have hsmall : k < 31 := by
        by_contra hlarge
        have hpow : 2 ^ 31 ≤ 2 ^ k := Nat.pow_le_pow_right Nat.two_pos (Nat.not_lt.mp hlarge)
        omega
      have hnext : khNewBuckets (table.nBuckets + 1) = 2 * table.nBuckets := by
        rw [hbuckets, (khNewBuckets_eq hk).2 htwo hsmall, Nat.pow_succ, Nat.mul_comm]
      refine h.khResize_spec hnext ⟨k + 1, by omega, by omega, ?_⟩ ?_
      · rw [hbuckets, Nat.pow_succ, Nat.mul_comm]
      · rw [acUpper]
        omega
  -- there is room, and nothing is done
  · refine ⟨table, rfl, h, rfl, ?_⟩
    have hpos : table.nBuckets ≠ 0 := by
      intro hempty
      rcases h.sound.shape with ⟨-, -, hupper⟩ | ⟨hn, -⟩
      · omega
      · exact absurd hempty (Nat.ne_of_gt hn.pos)
    have hupper := h.upper hpos
    have hoccupied := h.occupied
    rw [acUpper] at hupper
    omega

end Whole

end Craftd.Containers
