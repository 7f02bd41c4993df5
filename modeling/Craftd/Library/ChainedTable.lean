import Mathlib.Data.List.Nodup
import Mathlib.Data.List.Flatten
import Mathlib.Data.List.Perm.Basic
import Mathlib.Logic.Function.Basic

/-!
# Tables of singly linked chains

A heap maps addresses to cells, `none` standing for memory that is not
allocated.  `Chain heap start cells` says that the cells met from `start` on are
`cells`, in this order, and that the last one's link is NULL.  A heap determines
the chain of a link (`Chain.unique`), so a chain never meets a cell twice
(`Chain.nodup`).

`Rows heap buckets rows` is a table: the chain of bucket `i` is `rows i`, and no
cell is in two rows.  A new cell may be put in front of a row (`Rows.push`), and
a row may be rearranged within its own cells (`Rows.change`).

The last part is about the values of all rows in the order of the buckets,
`(rows i).map Prod.snd` for each `i` of a list of buckets.
-/

namespace ChainedTable

/-- A cell with its link. -/
structure Cell (Addr Value : Type*) where
  next : Option Addr
  value : Value

variable {Addr Value Bucket : Type*}

/-- The cells from `start` on. -/
def Chain (heap : Addr → Option (Cell Addr Value)) : Option Addr → List (Addr × Value) → Prop
  | start, [] => start = none
  | start, (address, value) :: rest =>
      start = some address ∧ ∃ next, heap address = some ⟨next, value⟩ ∧ Chain heap next rest

variable {heap heap' : Addr → Option (Cell Addr Value)} {start start' : Option Addr}
  {cells cells' rest : List (Addr × Value)} {address : Addr} {value : Value}

/-- A chain only depends on the heap at its own addresses. -/
theorem Chain.congr (hchain : Chain heap start cells)
    (hsame : ∀ cell ∈ cells, heap' cell.1 = heap cell.1) : Chain heap' start cells := by
  induction cells generalizing start with
  | nil => exact hchain
  | cons cell rest ih =>
      obtain ⟨hstart, next, hcell, hrest⟩ := hchain
      refine ⟨hstart, next, ?_, ih hrest fun cell hmem => hsame cell (.tail _ hmem)⟩
      rw [hsame cell (.head _), hcell]

theorem Chain.exists_of_mem (hchain : Chain heap start cells) (hmem : (address, value) ∈ cells) :
    ∃ next, heap address = some ⟨next, value⟩ := by
  induction cells generalizing start with
  | nil => simp at hmem
  | cons cell rest ih =>
      obtain ⟨-, next, hcell, hrest⟩ := hchain
      rcases List.mem_cons.mp hmem with rfl | hlater
      · exact ⟨next, hcell⟩
      · exact ih hrest hlater

theorem Chain.notMem_of_none (hchain : Chain heap start cells) (hnone : heap address = none) :
    address ∉ cells.map Prod.fst := by
  intro hmem
  obtain ⟨⟨address, value⟩, hcell, rfl⟩ := List.mem_map.mp hmem
  obtain ⟨next, hsome⟩ := hchain.exists_of_mem hcell
  simp [hnone] at hsome

/-- **A link has one chain.** -/
theorem Chain.unique (hchain : Chain heap start cells) (hother : Chain heap start cells') :
    cells = cells' := by
  induction cells generalizing start cells' with
  | nil =>
      cases cells' with
      | nil => rfl
      | cons cell rest => exact nomatch hchain.symm.trans hother.1
  | cons cell rest ih =>
      obtain ⟨address, value⟩ := cell
      obtain ⟨rfl, next, hcell, hrest⟩ := hchain
      cases cells' with
      | nil => exact nomatch hother
      | cons cell' rest' =>
          obtain ⟨address', value'⟩ := cell'
          obtain ⟨hstart, next', hcell', hrest'⟩ := hother
          obtain rfl : address = address' := Option.some.inj hstart
          rw [hcell] at hcell'
          obtain ⟨rfl, rfl⟩ := Cell.mk.inj (Option.some.inj hcell')
          rw [ih hrest hrest']

/-- The chain of a cell is an end of each chain the cell is in. -/
theorem Chain.suffix_of_mem (hchain : Chain heap start cells)
    (hmem : address ∈ cells.map Prod.fst) (hother : Chain heap (some address) cells') :
    cells' <:+ cells := by
  induction cells generalizing start with
  | nil => simp at hmem
  | cons cell rest ih =>
      obtain ⟨rfl, next, hcell, hrest⟩ := id hchain
      rcases List.mem_cons.mp hmem with rfl | hlater
      · have hsame := hchain.unique hother
        subst hsame
        exact List.suffix_rfl
      · exact (ih hrest hlater).trans (List.suffix_cons _ _)

theorem Chain.nodup (hchain : Chain heap start cells) : (cells.map Prod.fst).Nodup := by
  induction cells generalizing start with
  | nil => exact List.nodup_nil
  | cons cell rest ih =>
      obtain ⟨rfl, next, hcell, hrest⟩ := id hchain
      refine List.nodup_cons.mpr ⟨fun hmem => ?_, ih hrest⟩
      -- the cell would be followed by a chain that is longer than itself
      have hlength := (hrest.suffix_of_mem hmem hchain).length_le
      rw [List.length_cons] at hlength
      exact absurd hlength (Nat.not_succ_le_self _)

/-- A chain whose addresses are below a bound is not longer than the bound. -/
theorem Chain.length_le {heap : ℕ → Option (Cell ℕ Value)} {start : Option ℕ}
    {cells : List (ℕ × Value)} {bound : ℕ} (hchain : Chain heap start cells)
    (hbound : ∀ address, bound ≤ address → heap address = none) : cells.length ≤ bound := by
  have hsubset : cells.map Prod.fst ⊆ List.range bound := by
    intro address hmem
    apply List.mem_range.mpr
    by_contra hge
    exact hchain.notMem_of_none (hbound address (Nat.le_of_not_lt hge)) hmem
  simpa using hchain.nodup.length_le_of_subset hsubset

section Writes

variable [DecidableEq Addr]

theorem Chain.update_of_notMem (hchain : Chain heap start cells)
    (haddress : address ∉ cells.map Prod.fst) (cell : Option (Cell Addr Value)) :
    Chain (Function.update heap address cell) start cells := by
  refine hchain.congr fun other hmem => Function.update_of_ne ?_ _ _
  intro heq
  exact haddress (heq ▸ List.mem_map_of_mem hmem)

theorem Chain.push (hchain : Chain heap start cells) (hfree : heap address = none)
    (value : Value) :
    Chain (Function.update heap address (some ⟨start, value⟩)) (some address)
      ((address, value) :: cells) :=
  ⟨rfl, start, Function.update_self _ _ _,
    hchain.update_of_notMem (hchain.notMem_of_none hfree) _⟩

/-- The cells with the value at one address replaced. -/
def setAt (address : Addr) (value : Value) (cells : List (Addr × Value)) : List (Addr × Value) :=
  cells.map fun cell => if cell.1 = address then (address, value) else cell

theorem map_fst_setAt (address : Addr) (value : Value) (cells : List (Addr × Value)) :
    (setAt address value cells).map Prod.fst = cells.map Prod.fst := by
  rw [setAt, List.map_map]
  apply List.map_congr_left
  intro cell _
  by_cases haddress : cell.1 = address
  · simp [haddress]
  · simp [haddress]

/-- **Replacing the value of a cell** in place keeps every chain. -/
theorem Chain.replace {old : Cell Addr Value} (hold : heap address = some old) (value : Value)
    (hchain : Chain heap start cells) :
    Chain (Function.update heap address (some { old with value := value })) start
      (setAt address value cells) := by
  induction cells generalizing start with
  | nil => exact hchain
  | cons cell rest ih =>
      obtain ⟨other, otherValue⟩ := cell
      obtain ⟨rfl, next, hcell, hrest⟩ := hchain
      have hrest' := ih hrest
      by_cases haddress : other = address
      · subst haddress
        obtain rfl : old = ⟨next, otherValue⟩ := Option.some.inj (hold.symm.trans hcell)
        rw [setAt, List.map_cons, if_pos rfl]
        exact ⟨rfl, next, Function.update_self _ _ _, hrest'⟩
      · rw [setAt, List.map_cons, if_neg haddress]
        refine ⟨rfl, next, ?_, hrest'⟩
        rw [Function.update_of_ne haddress, hcell]

end Writes

/-! ## Tables -/

/-- The chain of each bucket is its row, and the rows have no cell in common. -/
structure Rows (heap : Addr → Option (Cell Addr Value)) (buckets : Bucket → Option Addr)
    (rows : Bucket → List (Addr × Value)) : Prop where
  chain : ∀ bucket, Chain heap (buckets bucket) (rows bucket)
  apart : ∀ bucket other address, address ∈ (rows bucket).map Prod.fst →
    address ∈ (rows other).map Prod.fst → bucket = other

variable {buckets : Bucket → Option Addr} {rows : Bucket → List (Addr × Value)}

variable [DecidableEq Bucket]

/-- **Rearranging one row** within its own cells. -/
theorem Rows.change (hrows : Rows heap buckets rows) (bucket : Bucket)
    (hchain : Chain heap' start' cells')
    (hsubset : ∀ address ∈ cells'.map Prod.fst, address ∈ (rows bucket).map Prod.fst)
    (hframe : ∀ address, address ∉ (rows bucket).map Prod.fst → heap' address = heap address) :
    Rows heap' (Function.update buckets bucket start') (Function.update rows bucket cells') where
  chain other := by
    by_cases hother : other = bucket
    · subst hother
      simpa using hchain
    · rw [Function.update_of_ne hother, Function.update_of_ne hother]
      refine (hrows.chain other).congr fun cell hmem => hframe cell.1 fun hshared => ?_
      exact hother (hrows.apart other bucket cell.1 (List.mem_map_of_mem hmem) hshared)
  apart first second address hfirst hsecond := by
    have hwas : ∀ other, address ∈ (Function.update rows bucket cells' other).map Prod.fst →
        address ∈ (rows other).map Prod.fst := by
      intro other hmem
      by_cases hother : other = bucket
      · subst hother
        rw [Function.update_self] at hmem
        exact hsubset address hmem
      · rwa [Function.update_of_ne hother] at hmem
    exact hrows.apart first second address (hwas first hfirst) (hwas second hsecond)

/-- **A new cell in front of a row.** -/
theorem Rows.push [DecidableEq Addr] (hrows : Rows heap buckets rows) (bucket : Bucket)
    (hfree : heap address = none) (value : Value) :
    Rows (Function.update heap address (some ⟨buckets bucket, value⟩))
      (Function.update buckets bucket (some address))
      (Function.update rows bucket ((address, value) :: rows bucket)) where
  chain other := by
    by_cases hother : other = bucket
    · subst hother
      simpa using (hrows.chain other).push hfree value
    · rw [Function.update_of_ne hother, Function.update_of_ne hother]
      exact (hrows.chain other).update_of_notMem ((hrows.chain other).notMem_of_none hfree) _
  apart first second other hfirst hsecond := by
    have hwas : ∀ index,
        other ∈ (Function.update rows bucket ((address, value) :: rows bucket) index).map Prod.fst →
        other ∈ (rows index).map Prod.fst ∨ other = address ∧ index = bucket := by
      intro index hmem
      by_cases hindex : index = bucket
      · subst hindex
        rw [Function.update_self, List.map_cons, List.mem_cons] at hmem
        rcases hmem with hnew | hold
        · exact .inr ⟨hnew, rfl⟩
        · exact .inl hold
      · rw [Function.update_of_ne hindex] at hmem
        exact .inl hmem
    have hfresh : ∀ index, other = address → other ∉ (rows index).map Prod.fst := by
      intro index heq
      rw [heq]
      exact (hrows.chain index).notMem_of_none hfree
    rcases hwas first hfirst with hold | ⟨hnew, rfl⟩
    · rcases hwas second hsecond with hold' | ⟨hnew', -⟩
      · exact hrows.apart first second other hold hold'
      · exact absurd hold (hfresh first hnew')
    · rcases hwas second hsecond with hold' | ⟨-, hsecond⟩
      · exact absurd hold' (hfresh second hnew)
      · exact hsecond.symm

/-! ## The members of all rows -/

theorem flatMap_update_perm {Part : Type*} {indices : List Bucket} (hnodup : indices.Nodup)
    {bucket : Bucket} (hmem : bucket ∈ indices) (parts : Bucket → List Part) (part : List Part) :
    (indices.flatMap (Function.update parts bucket part)).Perm
      (part ++ (indices.erase bucket).flatMap parts) := by
  have hsplit : (indices.flatMap (Function.update parts bucket part)).Perm
      ((bucket :: indices.erase bucket).flatMap (Function.update parts bucket part)) :=
    (List.perm_cons_erase hmem).flatMap_right _
  have hrest : (indices.erase bucket).flatMap (Function.update parts bucket part) =
      (indices.erase bucket).flatMap parts := by
    refine List.flatMap_congr fun other hother => ?_
    exact Function.update_of_ne (fun heq => hnodup.not_mem_erase (heq ▸ hother)) _ _
  rwa [List.flatMap_cons, Function.update_self, hrest] at hsplit

theorem flatMap_push_perm {Part : Type*} {indices : List Bucket} (hnodup : indices.Nodup)
    {bucket : Bucket} (hmem : bucket ∈ indices) (parts : Bucket → List Part) (member : Part) :
    (indices.flatMap (Function.update parts bucket (member :: parts bucket))).Perm
      (member :: indices.flatMap parts) := by
  have hnew := flatMap_update_perm hnodup hmem parts (member :: parts bucket)
  have hold := flatMap_update_perm hnodup hmem parts (parts bucket)
  rw [Function.update_eq_self] at hold
  exact hnew.trans (hold.symm.cons member)

end ChainedTable
