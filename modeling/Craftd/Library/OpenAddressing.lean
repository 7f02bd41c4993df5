import Craftd.Library.ProbeSequence
import Mathlib.Data.Finmap
import Mathlib.Data.Multiset.MapFold

/-!
# Open addressing

What makes a search in an open hash table right, and what a table stands for.

An entry lies on the path of its key when no bucket before it on the probe sequence is unused.
A search that goes on over used buckets only cannot stop before such an entry.  Buckets that
come into use break no path.

What a table stands for is a finite map: its entries, as a multiset of keys and values, have
each key once and are just the graph of the map.
-/

namespace OpenAddressing

open ProbeSequence

/-! ## Paths -/

section Paths

variable {n start step x y t : ℕ} {used used' go : ℕ → Prop}

/-- Bucket `x` lies on the probe sequence, and all before it are used. -/
def OnPath (n start step : ℕ) (used : ℕ → Prop) (x : ℕ) : Prop :=
  ∃ t, t < n ∧ probe n start step t = x ∧ ∀ s < t, used (probe n start step s)

/-- The search ends after `t` steps: until then `go` held, and there it does not. -/
def StopsAt (n start step : ℕ) (go : ℕ → Prop) (t : ℕ) : Prop :=
  t < n ∧ ¬ go (probe n start step t) ∧ ∀ s < t, go (probe n start step s)

theorem OnPath.mono (hused : ∀ x, used x → used' x) (hpath : OnPath n start step used x) :
    OnPath n start step used' x := by
  obtain ⟨t, ht, hprobe, hbefore⟩ := hpath
  exact ⟨t, ht, hprobe, fun s hs => hused _ (hbefore s hs)⟩

/-- A search over used buckets ends on its own path. -/
theorem StopsAt.onPath (hstop : StopsAt n start step go t) (hgo : ∀ x, go x → used x) :
    OnPath n start step used (probe n start step t) :=
  ⟨t, hstop.1, rfl, fun s hs => hgo _ (hstop.2.2 s hs)⟩

/-- A search that would end somewhere ends there or before. -/
theorem exists_stopsAt (ht : t < n) (hgo : ¬ go (probe n start step t)) :
    ∃ last ≤ t, StopsAt n start step go last := by
  classical
  have hsome : ∃ t, ¬ go (probe n start step t) := ⟨t, hgo⟩
  have hmin := Nat.find_min' hsome hgo
  exact ⟨Nat.find hsome, hmin, hmin.trans_lt ht, Nat.find_spec hsome,
    fun s hs => not_not.mp (Nat.find_min hsome hs)⟩

/-- **A search does not pass** a bucket at which it would end, and until there it meets used
buckets only. -/
theorem OnPath.exists_stopsAt (hpath : OnPath n start step used x) (hx : ¬ go x) :
    ∃ t, StopsAt n start step go t ∧
      (probe n start step t = x ∨ used (probe n start step t)) := by
  obtain ⟨last, hlast, rfl, hbefore⟩ := hpath
  obtain ⟨t, ht, hstop⟩ := OpenAddressing.exists_stopsAt hlast hx
  refine ⟨t, hstop, ?_⟩
  rcases Nat.lt_or_eq_of_le ht with hlt | rfl
  · exact .inr (hbefore t hlt)
  · exact .inl rfl

theorem StopsAt.unique (hstop : StopsAt n start step go t) {t' : ℕ}
    (hstop' : StopsAt n start step go t') : t = t' := by
  rcases Nat.lt_trichotomy t t' with hlt | rfl | hlt
  · exact absurd (hstop'.2.2 t hlt) hstop.2.1
  · rfl
  · exact absurd (hstop.2.2 t' hlt) hstop'.2.1

end Paths

/-! ## Contents -/

section Contents

variable {Key Value : Type*} {pairs rest : Multiset (Key × Value)} {key : Key} {value new : Value}

/-- The pairs have every key once, and are the graph of the map. -/
structure Tabulates [DecidableEq Key] (pairs : Multiset (Key × Value))
    (map : Finmap fun _ : Key => Value) : Prop where
  nodup : (pairs.map Prod.fst).Nodup
  mem_iff : ∀ key value, (key, value) ∈ pairs ↔ map.lookup key = some value

variable [DecidableEq Key] {map : Finmap fun _ : Key => Value}

theorem tabulates_empty : Tabulates (0 : Multiset (Key × Value)) ∅ :=
  ⟨Multiset.nodup_zero, by simp⟩

theorem Tabulates.lookup_eq_none (h : Tabulates pairs map) :
    map.lookup key = none ↔ key ∉ pairs.map Prod.fst := by
  rw [Option.eq_none_iff_forall_ne_some, Multiset.mem_map, not_exists]
  constructor
  · rintro hnone ⟨other, value⟩ ⟨hmem, rfl⟩
    exact hnone value ((h.mem_iff other value).mp hmem)
  · intro hnone value hlookup
    exact hnone (key, value) ⟨(h.mem_iff key value).mpr hlookup, rfl⟩

theorem Tabulates.card_eq (h : Tabulates pairs map) : pairs.card = map.keys.card := by
  have hkeys : map.keys = ⟨pairs.map Prod.fst, h.nodup⟩ := by
    ext key
    rw [Finmap.mem_keys, Finset.mem_mk, ← not_iff_not, ← h.lookup_eq_none, Finmap.lookup_eq_none]
  rw [hkeys, Finset.card_mk, Multiset.card_map]

theorem Tabulates.cons (h : Tabulates pairs map) (hnew : map.lookup key = none) (value : Value) :
    Tabulates ((key, value) ::ₘ pairs) (map.insert key value) := by
  have hkey := h.lookup_eq_none.mp hnew
  constructor
  · rw [Multiset.map_cons, Multiset.nodup_cons]
    exact ⟨hkey, h.nodup⟩
  · intro other found
    rw [Multiset.mem_cons]
    by_cases hother : other = key
    · subst hother
      have hnone : (other, found) ∉ pairs := fun hmem => hkey (Multiset.mem_map_of_mem _ hmem)
      simp [hnone, eq_comm]
    · rw [Finmap.lookup_insert_of_ne _ hother, ← h.mem_iff]
      simp [hother]

theorem Tabulates.erase (h : Tabulates ((key, value) ::ₘ rest) map) :
    Tabulates rest (map.erase key) := by
  have hnodup := h.nodup
  rw [Multiset.map_cons, Multiset.nodup_cons] at hnodup
  obtain ⟨hkey, hrest⟩ := hnodup
  refine ⟨hrest, fun other found => ?_⟩
  by_cases hother : other = key
  · subst hother
    rw [Finmap.lookup_erase]
    exact iff_of_false (fun hmem => hkey (Multiset.mem_map.mpr ⟨_, hmem, rfl⟩)) nofun
  · rw [Finmap.lookup_erase_ne hother, ← h.mem_iff]
    simp [hother]

theorem Tabulates.replace (h : Tabulates ((key, value) ::ₘ rest) map) (new : Value) :
    Tabulates ((key, new) ::ₘ rest) (map.insert key new) := by
  have herased := h.erase.cons (Finmap.lookup_erase key map) new
  have hsame : (map.erase key).insert key new = map.insert key new := by
    refine Finmap.ext_lookup fun other => ?_
    by_cases hother : other = key
    · subst hother
      rw [Finmap.lookup_insert, Finmap.lookup_insert]
    · rw [Finmap.lookup_insert_of_ne _ hother, Finmap.lookup_insert_of_ne _ hother,
        Finmap.lookup_erase_ne hother]
  rwa [hsame] at herased

end Contents

end OpenAddressing
