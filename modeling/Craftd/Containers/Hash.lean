import Craftd.Containers.KHash
import Craftd.Containers.List
import Craftd.Containers.String

/-!
# Hashes and maps

A translation of `CD_HashPut`, `CD_HashDelete` and the iteration of `Hash.c`, and of their
twins in `Map.c`, which differ in the type of the keys only.

`CD_HASH_FOREACH` goes down from the bucket behind the last one to the first.  Where it
starts, `CD_HashBegin` tests a bucket that does not exist.  With 4 or 8 buckets its flag is
a spare one of the only word, which never looks like an entry; from 16 buckets on it lies
behind the last word.  On every table that puts and deletions lead to, the loop is complete
and stays in the flags exactly when there are fewer than 16 buckets.
-/

namespace Craftd.Containers

open PackedFlags StepSystem

section Table

variable {Key : Type} [DecidableEq Key] (hash : Key → BitVec 32)

/-- `it != kh_end(raw) && kh_exist(raw, it)`. -/
def tableFound (self : KHash Key CDPointer) (it : ℕ) : Option Bool :=
  if it ≠ self.nBuckets then khExist self it else some false

/-- `CD_HashPut` and `CD_MapPut`, with the old value that they return. -/
def tablePut (self : KHash Key CDPointer) (name : Key) (data : CDPointer) :
    Option (KHash Key CDPointer × CDPointer) := do
  let it ← khGet hash self name
  let found ← tableFound self it
  if found then some ({ self with vals := Function.update self.vals it data }, self.vals it)
  else
    let (self, it) ← khPut hash self name
    some ({ self with vals := Function.update self.vals it data }, cdNull)

/-- `CD_HashDelete` and `CD_MapDelete`, with the value that they return. -/
def tableDelete (self : KHash Key CDPointer) (name : Key) :
    Option (KHash Key CDPointer × CDPointer) := do
  let it ← khGet hash self name
  let found ← tableFound self it
  let next ← khDel self it
  some (next, if found then self.vals it else cdNull)

/-- `CD_HashEnd` and `CD_MapEnd`: `kh_begin(raw) - 1`, a `khiter_t`. -/
def tableEnd : ℕ := 2 ^ 32 - 1

/-- The loop of `CD_HashNext` and `CD_MapNext`. -/
def tableNextLoop (self : KHash Key CDPointer) : ℕ → Option ℕ
  | 0 => some 0
  | raw + 1 => do
      let exist ← khExist self (raw + 1)
      if exist then some (raw + 1) else tableNextLoop self raw

/-- `CD_HashNext` and `CD_MapNext`. -/
def tableNext (self : KHash Key CDPointer) (raw : ℕ) : Option ℕ :=
  if raw = 0 then some tableEnd
  else do
    let raw ← tableNextLoop self (raw - 1)
    let exist ← khExist self raw
    some (if exist then raw else tableEnd)

/-- `CD_HashBegin` and `CD_MapBegin`. -/
def tableBegin (self : KHash Key CDPointer) : Option ℕ := do
  let exist ← khExist self self.nBuckets
  if exist then some self.nBuckets else tableNext self self.nBuckets

/-- The loop of `CD_HASH_FOREACH` and `CD_MAP_FOREACH`, with the buckets that its body sees. -/
def tableForeachLoop (self : KHash Key CDPointer) : ℕ → ℕ → Option (List ℕ)
  | 0, _ => none
  | fuel + 1, it =>
      if it = tableEnd then some []
      else do
        let next ← tableNext self it
        let visited ← tableForeachLoop self fuel next
        some (it :: visited)

/-- `CD_HASH_FOREACH` and `CD_MAP_FOREACH`. -/
def tableForeach (self : KHash Key CDPointer) : Option (List ℕ) :=
  if 0 < self.size then do
    let it ← tableBegin self
    tableForeachLoop self (self.nBuckets + 1) it
  else some []

/-- A put or a deletion. -/
inductive TableOperation (Key : Type)
  | put (name : Key) (data : CDPointer)
  | delete (name : Key)

/-- Tables under puts and deletions, as a system; its events are the values that come back. -/
def tableSystem
    (put : KHash Key CDPointer → Key → CDPointer → Option (KHash Key CDPointer × CDPointer))
    (delete : KHash Key CDPointer → Key → Option (KHash Key CDPointer × CDPointer))
    (keys : ℕ → Key) (vals : ℕ → CDPointer) :
    System (KHash Key CDPointer) (TableOperation Key) CDPointer where
  init := khInit keys vals
  step self operation :=
    (match operation with
      | .put name data => put self name data
      | .delete name => delete self name).map fun (next, old) => (next, [old])

/-- The buckets of the stored entries. -/
def entries (self : KHash Key CDPointer) : Finset ℕ := existing self.flags self.nBuckets

end Table

/-! ## The two kinds -/

/-- `CDHash`; a C string is the bytes before its NUL. -/
abbrev CDHash := KHash (List Byte) CDPointer

/-- `__ac_X31_hash_string`; a `char` is signed. -/
def acX31HashString : List Byte → BitVec 32
  | [] => 0
  | first :: rest => rest.foldl (fun h s => h <<< 5 - h + s.signExtend 32) (first.signExtend 32)

/-- `CD_HashPut`. -/
def hashPut := tablePut acX31HashString

/-- `CD_HashDelete`. -/
def hashDelete := tableDelete acX31HashString

/-- `CD_HASH_FOREACH`. -/
def hashForeach (self : CDHash) := tableForeach self

/-- Every use of a `CDHash` that puts and deletes. -/
def hashSystem := tableSystem hashPut hashDelete

/-- `CDMapId`. -/
abbrev CDMapId := BitVec 64

/-- `CDMap`. -/
abbrev CDMap := KHash CDMapId CDPointer

/-- `kh_int64_hash_func`. -/
def khInt64HashFunc (key : CDMapId) : BitVec 32 := (key >>> 33 ^^^ key ^^^ key <<< 11).setWidth 32

/-- `CD_MapPut`. -/
def mapPut := tablePut khInt64HashFunc

/-- `CD_MapDelete`. -/
def mapDelete := tableDelete khInt64HashFunc

/-- `CD_MAP_FOREACH`. -/
def mapForeach (self : CDMap) := tableForeach self

/-- Every use of a `CDMap` that puts and deletes. -/
def mapSystem := tableSystem mapPut mapDelete

/-! ## Every table that puts and deletions lead to -/

variable {Key : Type} {self next : KHash Key CDPointer} {old data : CDPointer} {name : Key}

theorem Sound.withVals (h : Sound self) (vals : ℕ → CDPointer) :
    Sound { self with vals := vals } :=
  ⟨h.shape, h.behind, h.counted⟩

variable [DecidableEq Key] {hash : Key → BitVec 32}

omit [DecidableEq Key] in
theorem Sound.tableFound_total {it : ℕ} (h : Sound self) (hit : it ≤ self.nBuckets) :
    ∃ found, tableFound self it = some found := by
  rw [tableFound]
  split_ifs with hend
  · obtain ⟨bits, hbits⟩ := h.exists_flag (lt_of_le_of_ne hit hend)
    exact ⟨_, by rw [khExist, hbits]; rfl⟩
  · exact ⟨false, rfl⟩

/-- **`CD_HashPut`** -/
theorem Sound.tablePut_total (h : Sound self) (name : Key) (data : CDPointer) :
    ∃ next old, tablePut hash self name data = some (next, old) ∧ Sound next := by
  obtain ⟨it, hit, hle⟩ := h.khGet_total name
  obtain ⟨found, hfound⟩ := h.tableFound_total hle
  rw [tablePut, hit, Option.bind_eq_bind, Option.bind_some, hfound, Option.bind_eq_bind,
    Option.bind_some]
  split_ifs
  · exact ⟨_, _, rfl, h.withVals _⟩
  · obtain ⟨room, bucket, hroom, hsound⟩ := h.khPut_total name
    rw [hroom]
    exact ⟨_, _, rfl, hsound.withVals _⟩

/-- **`CD_HashDelete`** -/
theorem Sound.tableDelete_total (h : Sound self) (name : Key) :
    ∃ next old, tableDelete hash self name = some (next, old) ∧ Sound next := by
  obtain ⟨it, hit, hle⟩ := h.khGet_total name
  obtain ⟨found, hfound⟩ := h.tableFound_total hle
  obtain ⟨next, hnext, hsound⟩ := h.khDel_total hle
  rw [tableDelete, hit, Option.bind_eq_bind, Option.bind_some, hfound, Option.bind_eq_bind,
    Option.bind_some, hnext]
  exact ⟨next, _, rfl, hsound⟩

theorem sound_of_exec (keys : ℕ → Key) (vals : ℕ → CDPointer)
    (operations : List (TableOperation Key)) :
    ∃ self olds, (tableSystem (tablePut hash) (tableDelete hash) keys vals).exec operations
      (khInit keys vals) = some (self, olds) ∧ Sound self := by
  refine System.exec_total (fun table operation hsound => ?_) operations (sound_khInit keys vals)
  cases operation with
  | put name data =>
      obtain ⟨next, old, hput, hkept⟩ := hsound.tablePut_total name data
      exact ⟨next, [old], congrArg (Option.map _) hput, hkept⟩
  | delete name =>
      obtain ⟨next, old, hdelete, hkept⟩ := hsound.tableDelete_total name
      exact ⟨next, [old], congrArg (Option.map _) hdelete, hkept⟩

/-! ## The scan -/

omit [DecidableEq Key] in
theorem khExist_eq {x : ℕ} (hread : ∃ bits, flag self.flags x = some bits) :
    khExist self x = some (decide (flag self.flags x = some 0)) := by
  obtain ⟨bits, hbits⟩ := hread
  rw [khExist, hbits, Option.map_some, Option.some.injEq]
  simp [iseither]

omit [DecidableEq Key] in
/-- The skip loop stops at an entry or at the first bucket, and passes no entry. -/
theorem tableNextLoop_spec {raw : ℕ} (hread : ∀ x ≤ raw, ∃ bits, flag self.flags x = some bits) :
    ∃ x, tableNextLoop self raw = some x ∧ x ≤ raw ∧ (x = 0 ∨ flag self.flags x = some 0) ∧
      ∀ y, x < y → y ≤ raw → flag self.flags y ≠ some 0 := by
  induction raw with
  | zero => exact ⟨0, rfl, le_rfl, .inl rfl, fun y hlt hle => absurd hlt (Nat.not_lt.mpr hle)⟩
  | succ raw ih =>
      rw [tableNextLoop, khExist_eq (hread (raw + 1) le_rfl)]
      by_cases hentry : flag self.flags (raw + 1) = some 0
      · rw [decide_eq_true hentry]
        exact ⟨raw + 1, rfl, le_rfl, .inr hentry, fun y hlt hle => absurd hlt (Nat.not_lt.mpr hle)⟩
      · obtain ⟨x, hloop, hle, hstop, hpassed⟩ := ih fun y hy => hread y (Nat.le_succ_of_le hy)
        rw [decide_eq_false hentry]
        refine ⟨x, hloop, Nat.le_succ_of_le hle, hstop, fun y hlt hy => ?_⟩
        rcases Nat.lt_or_eq_of_le hy with hbelow | rfl
        · exact hpassed y hlt (Nat.le_of_lt_succ hbelow)
        · exact hentry

omit [DecidableEq Key] in
/-- **`CD_HashNext`** goes down to the next entry, or to the end when there is none. -/
theorem tableNext_spec {raw : ℕ} (hread : ∀ x < raw, ∃ bits, flag self.flags x = some bits) :
    (∃ x, tableNext self raw = some x ∧ x < raw ∧ flag self.flags x = some 0 ∧
        ∀ y, x < y → y < raw → flag self.flags y ≠ some 0) ∨
      (tableNext self raw = some tableEnd ∧ ∀ y < raw, flag self.flags y ≠ some 0) := by
  cases raw with
  | zero => exact .inr ⟨rfl, nofun⟩
  | succ raw =>
      obtain ⟨x, hloop, hle, hstop, hpassed⟩ :=
        tableNextLoop_spec fun x hx => hread x (Nat.lt_succ_of_le hx)
      have hnext : tableNext self (raw + 1) =
          some (if flag self.flags x = some 0 then x else tableEnd) := by
        rw [tableNext, if_neg (Nat.succ_ne_zero raw), Nat.add_sub_cancel, hloop,
          Option.bind_eq_bind, Option.bind_some, khExist_eq (hread x (Nat.lt_succ_of_le hle)),
          Option.bind_eq_bind, Option.bind_some]
        simp only [decide_eq_true_eq]
      by_cases hentry : flag self.flags x = some 0
      · rw [if_pos hentry] at hnext
        exact .inl ⟨x, hnext, Nat.lt_succ_of_le hle, hentry,
          fun y hlt hy => hpassed y hlt (Nat.le_of_lt_succ hy)⟩
      · rw [if_neg hentry] at hnext
        refine .inr ⟨hnext, fun y hy => ?_⟩
        obtain rfl := hstop.resolve_right hentry
        cases y with
        | zero => exact hentry
        | succ y => exact hpassed (y + 1) y.succ_pos (Nat.le_of_lt_succ hy)

omit [DecidableEq Key] in
theorem tableNext_total {raw : ℕ} (hread : ∀ x < raw, ∃ bits, flag self.flags x = some bits) :
    ∃ it, tableNext self raw = some it := by
  rcases tableNext_spec hread with ⟨x, hx, -⟩ | ⟨hx, -⟩
  · exact ⟨x, hx⟩
  · exact ⟨tableEnd, hx⟩

omit [DecidableEq Key] in
/-- What the loop sees from the bucket on that `CD_HashNext` returns: every entry below, once. -/
theorem tableForeachLoop_spec {raw it fuel : ℕ} (hend : raw ≤ tableEnd)
    (hread : ∀ x < raw, ∃ bits, flag self.flags x = some bits)
    (hnext : tableNext self raw = some it) (hfuel : raw < fuel) :
    ∃ visited, tableForeachLoop self fuel it = some visited ∧ visited.Nodup ∧
      ∀ x, x ∈ visited ↔ x < raw ∧ flag self.flags x = some 0 := by
  induction raw using Nat.strong_induction_on generalizing it fuel with
  | _ raw ih =>
      obtain ⟨fuel, rfl⟩ := Nat.exists_eq_add_one_of_ne_zero (Nat.ne_zero_of_lt hfuel)
      rcases tableNext_spec hread with ⟨x, hx, hlt, hentry, hnone⟩ | ⟨hx, hnone⟩
      · obtain rfl : it = x := Option.some.inj (hnext.symm.trans hx)
        have hreadBelow := fun y (hy : y < it) => hread y (hy.trans hlt)
        obtain ⟨after, hafter⟩ := tableNext_total hreadBelow
        obtain ⟨visited, hvisited, hnodup, hmem⟩ :=
          ih it hlt (hlt.le.trans hend) hreadBelow hafter (show it < fuel by omega)
        refine ⟨it :: visited, ?_, ?_, fun y => ?_⟩
        · rw [tableForeachLoop, if_neg (Nat.ne_of_lt (hlt.trans_le hend)), hafter,
            Option.bind_eq_bind, Option.bind_some, hvisited]
          rfl
        · exact List.nodup_cons.mpr ⟨fun hagain => (((hmem it).mp hagain).1).false, hnodup⟩
        · rw [List.mem_cons, hmem]
          constructor
          · rintro (rfl | ⟨hy, hyentry⟩)
            · exact ⟨hlt, hentry⟩
            · exact ⟨hy.trans hlt, hyentry⟩
          · rintro ⟨hy, hyentry⟩
            rcases Nat.lt_trichotomy y it with hbelow | rfl | habove
            · exact .inr ⟨hbelow, hyentry⟩
            · exact .inl rfl
            · exact absurd hyentry (hnone y habove hy)
      · obtain rfl : it = tableEnd := Option.some.inj (hnext.symm.trans hx)
        refine ⟨[], by rw [tableForeachLoop, if_pos rfl], .nil, fun y => ?_⟩
        exact iff_of_false List.not_mem_nil fun h => hnone y h.1 h.2

/-! ## Where the loop stays inside -/

/-- The loop sees every stored entry once and nothing else, and each test is inside the flags. -/
def ForeachComplete (self : KHash Key CDPointer) : Prop :=
  ∃ visited, tableForeach self = some visited ∧ visited.Nodup ∧
    ∀ x, x ∈ visited ↔ x ∈ entries self

omit [DecidableEq Key] in
theorem Sound.foreachComplete_iff (h : Sound self) (hentry : (entries self).Nonempty) :
    ForeachComplete self ↔ self.nBuckets < 16 := by
  have hsize : 0 < self.size := by
    rw [h.counted]
    exact Finset.card_pos.mpr hentry
  obtain ⟨x, hx⟩ := hentry
  obtain ⟨⟨k, hk, -, hbuckets⟩, hwords⟩ := h.bucketCount (Nat.zero_lt_of_lt (mem_existing.mp hx).1)
  have hpow : 2 ^ k ≤ 2 ^ 31 := Nat.pow_le_pow_right (by decide) (by omega)
  constructor
  · rintro ⟨visited, hrun, -⟩
    by_contra hmany
    -- the first test is of the bucket behind the last one, and its word does not exist
    have hnone : flag self.flags self.nBuckets = none := by
      rw [flag_eq_none_iff, hwords, acFsize, if_neg hmany, Nat.shiftRight_eq_div_pow]
      exact Nat.mul_div_le _ _
    rw [tableForeach, if_pos hsize, tableBegin, khExist, hnone] at hrun
    cases hrun
  · intro hfew
    have hone : self.flags.length = 1 := by rw [hwords, acFsize, if_pos hfew]
    have hread : ∀ x < 16, ∃ bits, flag self.flags x = some bits := fun x hx =>
      exists_flag_iff.mpr (by rw [hone]; exact hx)
    have hreadBelow := fun x (hx : x < self.nBuckets) => hread x (hx.trans hfew)
    obtain ⟨it, hit⟩ := tableNext_total hreadBelow
    have hbegin : tableBegin self = some it := by
      rw [tableBegin, khExist_eq (hread _ hfew), decide_eq_false (h.behind _ le_rfl)]
      exact hit
    have hend : self.nBuckets ≤ tableEnd := by
      rw [hbuckets, tableEnd]
      omega
    obtain ⟨visited, hvisited, hnodup, hmem⟩ :=
      tableForeachLoop_spec hend hreadBelow hit (Nat.lt_succ_self _)
    refine ⟨visited, ?_, hnodup, fun x => ?_⟩
    · rw [tableForeach, if_pos hsize, hbegin]
      exact hvisited
    · rw [hmem, entries, mem_existing]

/-- **Iteration** of every hash and of every map that puts and deletions lead to: with an entry
stored, it is complete and stays in the flags exactly below 16 buckets. -/
theorem foreach_complete_iff (names : ℕ → List Byte) (ids : ℕ → CDMapId) (vals : ℕ → CDPointer)
    (hashOperations : List (TableOperation (List Byte)))
    (mapOperations : List (TableOperation CDMapId)) :
    (∃ (self : CDHash) (olds : List CDPointer),
      (hashSystem names vals).exec hashOperations (khInit names vals) = some (self, olds) ∧
      ((entries self).Nonempty →
        ((∃ visited, hashForeach self = some visited ∧ visited.Nodup ∧
          ∀ x, x ∈ visited ↔ x ∈ entries self) ↔ self.nBuckets < 16))) ∧
    ∃ (self : CDMap) (olds : List CDPointer),
      (mapSystem ids vals).exec mapOperations (khInit ids vals) = some (self, olds) ∧
      ((entries self).Nonempty →
        ((∃ visited, mapForeach self = some visited ∧ visited.Nodup ∧
          ∀ x, x ∈ visited ↔ x ∈ entries self) ↔ self.nBuckets < 16)) := by
  refine ⟨?_, ?_⟩
  · obtain ⟨self, olds, hexec, hsound⟩ := sound_of_exec names vals hashOperations
    exact ⟨self, olds, hexec, fun hentry => hsound.foreachComplete_iff hentry⟩
  · obtain ⟨self, olds, hexec, hsound⟩ := sound_of_exec ids vals mapOperations
    exact ⟨self, olds, hexec, fun hentry => hsound.foreachComplete_iff hentry⟩

/-- "lol", "omg", "wat" and "win", and a key that is deleted again. -/
def fewNames : List (TableOperation (List Byte)) :=
  [.put [0x6C, 0x6F, 0x6C] 1, .put [0x6F, 0x6D, 0x67] 2, .put [0x61] 5, .put [0x77, 0x61, 0x74] 3,
    .delete [0x61], .put [0x77, 0x69, 0x6E] 4]

/-- The keys 1 to 7. -/
def sevenKeys : List (TableOperation CDMapId) :=
  [.put 1 10, .put 2 20, .put 3 30, .put 4 40, .put 5 50, .put 6 60, .put 7 70]

theorem foreach_complete_iff_few :
    ∃ (self : CDHash) (olds : List CDPointer),
      (hashSystem (fun _ => []) fun _ => 0).exec fewNames (khInit (fun _ => []) fun _ => 0) =
        some (self, olds) ∧
      (entries self).card = 4 ∧ ∃ visited, hashForeach self = some visited ∧ visited.Nodup ∧
        ∀ x, x ∈ visited ↔ x ∈ entries self := by
  have hshape : ((hashSystem (fun _ => []) fun _ => 0).exec fewNames
      (khInit (fun _ => []) fun _ => 0)).map
        (fun last => ((entries last.1).card, last.1.nBuckets)) = some (4, 8) := by
    decide +kernel
  obtain ⟨self, olds, hexec, hiff⟩ :=
    (foreach_complete_iff (fun _ => []) (fun _ => 0) (fun _ => 0) fewNames []).1
  rw [hexec] at hshape
  obtain ⟨hcard, hbuckets⟩ := Prod.mk.inj (Option.some.inj hshape)
  have hentry : (entries self).Nonempty := Finset.card_pos.mp (hcard ▸ Nat.succ_pos 3)
  exact ⟨self, olds, hexec, hcard, (hiff hentry).mpr (hbuckets ▸ by decide)⟩

/-- The map of seven keys has 16 buckets, and its iteration tests the flag of one more. -/
theorem foreach_outside :
    ¬ ∀ keys vals operations (self : CDMap) (olds : List CDPointer),
      (mapSystem keys vals).exec operations (khInit keys vals) = some (self, olds) →
      (entries self).Nonempty → ∃ visited, mapForeach self = some visited ∧ visited.Nodup ∧
        ∀ x, x ∈ visited ↔ x ∈ entries self := by
  intro hclaim
  have hshape : ((mapSystem (fun _ => 0) fun _ => 0).exec sevenKeys
      (khInit (fun _ => 0) fun _ => 0)).map
        (fun last => ((entries last.1).card, mapForeach last.1)) = some (7, none) := by
    decide +kernel
  obtain ⟨⟨self, olds⟩, hexec, hlast⟩ := Option.map_eq_some_iff.mp hshape
  obtain ⟨hcard, hnone⟩ := Prod.mk.inj hlast
  have hentry : (entries self).Nonempty := Finset.card_pos.mp (hcard ▸ Nat.succ_pos 6)
  obtain ⟨visited, hvisited, -⟩ := hclaim _ _ sevenKeys self olds hexec hentry
  cases hnone.symm.trans hvisited

end Craftd.Containers
