import Craftd.Protocol.Request
import Craftd.Protocol.Response
import Mathlib.Data.List.Infix

/-!
# The inventory of a player

A translation of `inventory.c`, and of the arms of `cdsurvival_ClientProcess` that lead to
it: a creative action stores a stack, a drop takes one item from the stack that the player
holds.  The quantity of an action is a short and the count of a stack a signed byte, and
nothing lies between them but a conversion.

A `Ledger` keeps what the client asked for: the quantity of the last action for each slot,
and the drops since.  The inventory is the image of the ledger as long as the quantities
are counts (`matches_run`), and only as long (`inventory_sane_iff`).
-/

namespace Craftd.Survival

open Protocol (SVByte SVShort SVItemStack SVRequest SVResponse)

/-- What a player holds; the inventory is a `CDMap`, by its ids. -/
structure InventoryPlayer where
  entityId : BitVec 32
  currentSlot : SVShort
  inventory : ℤ → Option SVItemStack

/-- `SV_CreatePlayer`, and the id of the entity that `cdsurvival_PlayerPreLogin` gives it. -/
def createInventory (entityId : BitVec 32) : InventoryPlayer := ⟨entityId, -1, fun _ => none⟩

/-- `cdsurvival_PlayerHoldChange`. -/
def playerHoldChange (self : InventoryPlayer) (slot : SVShort) :
    InventoryPlayer × List SVResponse :=
  if slot.toInt < 0 ∨ 8 < slot.toInt then (self, [])
  else
    let held := { self with currentSlot := slot + 36 }
    let current := held.inventory held.currentSlot.toInt
    (held, [.entityEquipment held.entityId 0 ((current.map SVItemStack.id).getD (-1))
      ((current.map SVItemStack.damage).getD 0)])

/-- `cdsurvival_PlayerInventoryCreative`. -/
def playerInventoryCreative (self : InventoryPlayer) (stack : SVItemStack) : InventoryPlayer :=
  if -1 < stack.slot.toInt then
    { self with inventory := Function.update self.inventory stack.slot.toInt (some stack) }
  else self

/-- `cdsurvival_PlayerDropItem`. -/
def playerDropItem (self : InventoryPlayer) : InventoryPlayer × List SVResponse :=
  let key := self.currentSlot.toInt
  let (dropped, packets) := match self.inventory key with
    | none => (self, [])
    | some current =>
        let lowered := { current with count := current.count - 1 }
        let item : SVItemStack :=
          { id := lowered.id, slot := self.currentSlot.setWidth 8,
            damage := lowered.damage, count := lowered.count }
        if lowered.count.toInt ≤ 0 then
          ({ self with inventory := Function.update self.inventory key none },
            [SVResponse.setSlot 0 { item with id := -1 }])
        else
          ({ self with inventory := Function.update self.inventory key (some lowered) },
            [SVResponse.setSlot 0 item])
  let (held, equipment) := playerHoldChange dropped (self.currentSlot - 36)
  (held, packets ++ equipment)

/-- `SVDropItem`. -/
def dropItemStatus : BitVec 32 := 4

/-- The arms of `cdsurvival_ClientProcess` for the inventory of a logged-in player. -/
def inventoryProcess (self : InventoryPlayer) : SVRequest → InventoryPlayer × List SVResponse
  | .holdChange slot => playerHoldChange self slot
  | .creativeInventoryAction slot itemId quantity damage =>
      let stack : SVItemStack :=
        { id := itemId, slot := slot.setWidth 8, damage := damage, count := quantity.setWidth 8 }
      (playerInventoryCreative self stack, [])
  | .playerDigging status _ _ => if status = dropItemStatus then playerDropItem self else (self, [])
  | _ => (self, [])

/-- The player after any sequence of packets. -/
def inventoryRun (entityId : BitVec 32) (requests : List SVRequest) : InventoryPlayer :=
  requests.foldl (fun self request => (inventoryProcess self request).1) (createInventory entityId)

/-! ## What the client asked for -/

/-- The slot that is held, and for each slot the quantity set last and the drops since. -/
structure Ledger where
  held : ℤ
  entries : ℤ → Option (ℤ × ℤ)

def Ledger.step (self : Ledger) : SVRequest → Ledger
  | .holdChange slot =>
      if slot.toInt < 0 ∨ 8 < slot.toInt then self else { self with held := slot.toInt + 36 }
  | .creativeInventoryAction slot _ quantity _ =>
      let key := (slot.setWidth 8 : SVByte).toInt
      if -1 < key then
        { self with entries := Function.update self.entries key (some (quantity.toInt, 0)) }
      else self
  | .playerDigging status _ _ =>
      let entry := (self.entries self.held).map fun (quantity, drops) => (quantity, drops + 1)
      if status = dropItemStatus then
        { self with entries := Function.update self.entries self.held entry }
      else self
  | _ => self

/-- The ledger of a sequence of packets. -/
def ledger (requests : List SVRequest) : Ledger := requests.foldl Ledger.step ⟨-1, fun _ => none⟩

/-- What is left of an entry. -/
def remaining : Option (ℤ × ℤ) → Option ℤ
  | none => none
  | some (quantity, drops) => if drops < quantity then some (quantity - drops) else none

/-- The inventory is the image of the ledger. -/
structure Matches (player : InventoryPlayer) (book : Ledger) : Prop where
  held : player.currentSlot.toInt = book.held
  counts : ∀ slot, (player.inventory slot).map (fun stack => stack.count.toInt) =
    remaining (book.entries slot)

/-- A quantity that the count of a stack can be. -/
def Sensible : SVRequest → Prop
  | .creativeInventoryAction slot _ quantity _ =>
      -1 < (slot.setWidth 8 : SVByte).toInt → 1 ≤ quantity.toInt ∧ quantity.toInt ≤ 127
  | _ => True

/-! ## The handlers -/

variable {self : InventoryPlayer} {book : Ledger}

theorem toInt_setWidth_eq_iff (quantity : SVShort) :
    (1 ≤ (quantity.setWidth 8 : SVByte).toInt ∧
      (quantity.setWidth 8 : SVByte).toInt = quantity.toInt) ↔
        1 ≤ quantity.toInt ∧ quantity.toInt ≤ 127 := by
  have hbyte : ((2 ^ 8 : ℕ) : ℤ) = 256 := rfl
  have hshort : ((2 ^ 16 : ℕ) : ℤ) = 65536 := rfl
  have hlt := quantity.isLt
  rw [BitVec.toInt_setWidth, BitVec.toInt_eq_toNat_bmod, Int.bmod_def, Int.bmod_def, hbyte, hshort]
  split_ifs <;> omega

private theorem toInt_add_36 {slot : SVShort} (hlow : 0 ≤ slot.toInt) (hhigh : slot.toInt ≤ 8) :
    (slot + 36).toInt = slot.toInt + 36 := by
  have hshort : ((2 ^ 16 : ℕ) : ℤ) = 65536 := rfl
  have hconstant : (36 : SVShort).toInt = 36 := rfl
  rw [BitVec.toInt_add, hconstant, Int.bmod_def, hshort]
  split_ifs <;> omega

theorem toInt_sub_one (count : SVByte) (h : 1 ≤ count.toInt) :
    (count - 1).toInt = count.toInt - 1 := by
  have hbyte : ((2 ^ 8 : ℕ) : ℤ) = 256 := rfl
  have hone : (1 : SVByte).toInt = 1 := rfl
  have hlt := count.toInt_lt
  rw [BitVec.toInt_sub, hone, Int.bmod_def, hbyte]
  split_ifs <;> omega

/-- The event at the end of a drop holds the slot that is held. -/
theorem playerHoldChange_held (self : InventoryPlayer) :
    (playerHoldChange self (self.currentSlot - 36)).1 = self := by
  unfold playerHoldChange
  split_ifs with hrange
  · rfl
  · simp only [BitVec.sub_add_cancel]

/-- What a drop leaves of a stack. -/
def afterDrop (current : SVItemStack) : Option SVItemStack :=
  if (current.count - 1).toInt ≤ 0 then none else some { current with count := current.count - 1 }

theorem playerDropItem_fst (self : InventoryPlayer) :
    (playerDropItem self).1 =
      let key := self.currentSlot.toInt
      let left := (self.inventory key).bind afterDrop
      { self with inventory := Function.update self.inventory key left } := by
  unfold playerDropItem
  cases hcurrent : self.inventory self.currentSlot.toInt with
  | none =>
      -- the write of the statement stores what was there
      simp only [hcurrent, Option.bind_none, playerHoldChange_held]
      rw [← hcurrent, Function.update_eq_self]
  | some current =>
      by_cases hlast : (current.count - 1).toInt ≤ 0
      · simp only [hcurrent, Option.bind_some, afterDrop, if_pos hlast]
        exact playerHoldChange_held { self with inventory := _ }
      · simp only [hcurrent, Option.bind_some, afterDrop, if_neg hlast]
        exact playerHoldChange_held { self with inventory := _ }

/-! ## The inventory follows the ledger -/

private theorem matches_create (entityId : BitVec 32) :
    Matches (createInventory entityId) ⟨-1, fun _ => none⟩ where
  held := rfl
  counts _ := rfl

theorem Matches.holdChange (hmatches : Matches self book) (slot : SVShort) :
    Matches (playerHoldChange self slot).1 (book.step (.holdChange slot)) := by
  unfold playerHoldChange Ledger.step
  by_cases hrange : slot.toInt < 0 ∨ 8 < slot.toInt
  · simp only [if_pos hrange]
    exact hmatches
  · simp only [if_neg hrange]
    rw [not_or, not_lt, not_lt] at hrange
    exact ⟨toInt_add_36 hrange.1 hrange.2, hmatches.counts⟩

theorem Matches.creative (hmatches : Matches self book) {slot itemId quantity damage : SVShort}
    (hsensible : Sensible (.creativeInventoryAction slot itemId quantity damage)) :
    Matches (inventoryProcess self (.creativeInventoryAction slot itemId quantity damage)).1
      (book.step (.creativeInventoryAction slot itemId quantity damage)) := by
  unfold inventoryProcess playerInventoryCreative Ledger.step
  by_cases hstored : -1 < (slot.setWidth 8 : SVByte).toInt
  · simp only [if_pos hstored]
    have hcount := (toInt_setWidth_eq_iff quantity).mpr (hsensible hstored)
    refine ⟨hmatches.held, fun other => ?_⟩
    by_cases hother : other = (slot.setWidth 8 : SVByte).toInt
    · subst hother
      simp only [Function.update_self, Option.map_some, remaining, hcount.2]
      rw [if_pos (by omega), Int.sub_zero]
    · simp only [Function.update_of_ne hother]
      exact hmatches.counts other
  · simp only [if_neg hstored]
    exact hmatches

/-- A drop takes one from the count, as from what remains of the entry. -/
theorem count_afterDrop {current : Option SVItemStack} {entry : Option (ℤ × ℤ)}
    (hentry : current.map (fun stack => stack.count.toInt) = remaining entry) :
    (current.bind afterDrop).map (fun stack => stack.count.toInt) =
      remaining (entry.map fun (quantity, drops) => (quantity, drops + 1)) := by
  cases entry with
  | none =>
      rw [Option.map_eq_none_iff.mp hentry]
      rfl
  | some entry =>
      obtain ⟨quantity, drops⟩ := entry
      simp only [remaining, Option.map_some] at hentry ⊢
      by_cases hleft : drops < quantity
      · rw [if_pos hleft] at hentry
        obtain ⟨stack, rfl, hcount⟩ := Option.map_eq_some_iff.mp hentry
        have hlowered := toInt_sub_one stack.count (by omega)
        rw [Option.bind_some, afterDrop]
        by_cases hlast : (stack.count - 1).toInt ≤ 0
        · rw [if_pos hlast, if_neg (by omega), Option.map_none]
        · rw [if_neg hlast, if_pos (by omega), Option.map_some, hlowered, hcount]
          congr 1
          omega
      · rw [if_neg hleft] at hentry
        rw [Option.map_eq_none_iff.mp hentry, if_neg (by omega)]
        rfl

theorem Matches.dropItem (hmatches : Matches self book) (position : Protocol.SVBlockPosition)
    (face : BitVec 32) :
    Matches (playerDropItem self).1 (book.step (.playerDigging dropItemStatus position face)) := by
  rw [playerDropItem_fst, hmatches.held]
  simp only [Ledger.step, if_true]
  refine ⟨hmatches.held, fun slot => ?_⟩
  by_cases hslot : slot = book.held
  · subst hslot
    simp only [Function.update_self]
    exact count_afterDrop (hmatches.counts book.held)
  · simp only [Function.update_of_ne hslot]
    exact hmatches.counts slot

/-- **One packet** with a sensible quantity is the same step on both sides. -/
theorem Matches.process (hmatches : Matches self book) {request : SVRequest}
    (hsensible : Sensible request) :
    Matches (inventoryProcess self request).1 (book.step request) := by
  cases request
  case holdChange slot => exact hmatches.holdChange slot
  case creativeInventoryAction => exact hmatches.creative hsensible
  case playerDigging status position face =>
    by_cases hdrop : status = dropItemStatus
    · subst hdrop
      simpa only [inventoryProcess, if_true] using hmatches.dropItem position face
    · simpa only [inventoryProcess, Ledger.step, if_neg hdrop] using hmatches
  all_goals exact hmatches

/-- **Any run** with sensible quantities leaves the image of its ledger. -/
theorem matches_run (entityId : BitVec 32) {requests : List SVRequest}
    (hsensible : ∀ request ∈ requests, Sensible request) :
    Matches (inventoryRun entityId requests) (ledger requests) := by
  induction requests using List.reverseRecOn with
  | nil => exact matches_create entityId
  | append_singleton done request ih =>
      have hdone := ih fun other hother => hsensible other (List.mem_append_left _ hother)
      rw [inventoryRun, ledger, List.foldl_concat, List.foldl_concat]
      exact hdone.process (hsensible request (List.mem_append_right _ List.mem_cons_self))

/-! ## Are the counts sane? -/

/-- Each stack has a count of at least one: the quantity set less the drops since. -/
def CountsSane (entityId : BitVec 32) (requests : List SVRequest) : Prop :=
  ∀ slot stack, (inventoryRun entityId requests).inventory slot = some stack →
    1 ≤ stack.count.toInt ∧ ∃ quantity drops,
      (ledger requests).entries slot = some (quantity, drops) ∧
        stack.count.toInt = quantity - drops

/-- A drop takes one from the stack held, or the whole stack when it was one. -/
def DropSane (self : InventoryPlayer) : Prop :=
  ∀ stack, self.inventory self.currentSlot.toInt = some stack →
    let left := (playerDropItem self).1.inventory self.currentSlot.toInt
    if stack.count.toInt = 1 then left = none
    else ∃ lowered, left = some lowered ∧ lowered.count.toInt = stack.count.toInt - 1

theorem Matches.exists_entry (hmatches : Matches self book) {slot : ℤ} {stack : SVItemStack}
    (hstack : self.inventory slot = some stack) :
    1 ≤ stack.count.toInt ∧ ∃ quantity drops, book.entries slot = some (quantity, drops) ∧
      stack.count.toInt = quantity - drops := by
  have hcount := hmatches.counts slot
  rw [hstack, Option.map_some] at hcount
  cases hentry : book.entries slot with
  | none =>
      rw [hentry] at hcount
      cases hcount
  | some entry =>
      obtain ⟨quantity, drops⟩ := entry
      rw [hentry, remaining] at hcount
      split_ifs at hcount with hleft
      have heq : stack.count.toInt = quantity - drops := Option.some.inj hcount
      exact ⟨by omega, quantity, drops, rfl, heq⟩

theorem Matches.dropSane (hmatches : Matches self book) : DropSane self := by
  intro stack hstack
  have hcount := (hmatches.exists_entry hstack).1
  have hlowered := toInt_sub_one stack.count hcount
  simp only [playerDropItem_fst, Function.update_self, hstack, Option.bind_some, afterDrop]
  split_ifs with hone hzero hzero
  · rfl
  · omega
  · omega
  · exact ⟨_, rfl, hlowered⟩

/-- A stored quantity that is not a count shows at once. -/
theorem sensible_of_countsSane {entityId : BitVec 32} {done : List SVRequest}
    {request : SVRequest} (hsane : CountsSane entityId (done ++ [request])) : Sensible request := by
  cases request
  case creativeInventoryAction slot itemId quantity damage =>
    intro hstored
    unfold CountsSane inventoryRun ledger at hsane
    simp only [List.foldl_concat, inventoryProcess, playerInventoryCreative, Ledger.step,
      if_pos hstored] at hsane
    obtain ⟨hcount, entry, drops, hentry, heq⟩ := hsane _ _ (Function.update_self ..)
    rw [Function.update_self] at hentry
    cases hentry
    exact (toInt_setWidth_eq_iff quantity).mp ⟨hcount, heq.trans (Int.sub_zero _)⟩
  all_goals trivial

/-- **The counts of an inventory are sane** in every state of a run exactly when each quantity
that the run stores is a count of a stack. -/
theorem inventory_sane_iff (entityId : BitVec 32) (requests : List SVRequest) :
    (∀ done, done <+: requests →
      CountsSane entityId done ∧ DropSane (inventoryRun entityId done)) ↔
        ∀ request ∈ requests, Sensible request := by
  refine ⟨fun hsane request hrequest => ?_, fun hsensible done hbefore => ?_⟩
  · obtain ⟨before, after, rfl⟩ := List.append_of_mem hrequest
    have hbefore : before ++ [request] <+: before ++ request :: after :=
      ⟨after, List.append_cons .. |>.symm⟩
    exact sensible_of_countsSane (hsane _ hbefore).1
  · have hmatches := matches_run entityId fun request hrequest =>
      hsensible request (hbefore.subset hrequest)
    exact ⟨fun slot stack hstack => hmatches.exists_entry hstack, hmatches.dropSane⟩

/-- A creative action or a drop. -/
def CreativeOrDrop : SVRequest → Prop
  | .creativeInventoryAction .. => True
  | .playerDigging status _ _ => status = dropItemStatus
  | _ => False

/-- An action with quantity 0 stores a stack of none. -/
theorem inventory_stores_nothing :
    ¬ ∀ (entityId : BitVec 32) (requests : List SVRequest),
      (∀ request ∈ requests, CreativeOrDrop request) →
        ∀ done, done <+: requests →
          CountsSane entityId done ∧ DropSane (inventoryRun entityId done) := by
  intro hclaim
  have hsane := (hclaim 1 [.creativeInventoryAction 36 1 0 0]
    (fun request hrequest => by cases List.mem_singleton.mp hrequest; trivial) _
    List.prefix_rfl).1 36 ⟨1, 36, 0, 0⟩ rfl
  exact absurd hsane.1 (by decide)

end Craftd.Survival
