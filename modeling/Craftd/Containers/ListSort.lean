import Craftd.Containers.ListLinks
import Craftd.Library.InsertionOrder

/-!
# Sorting a list

A translation of `cd_ListInsertSorted` and of `CD_ListSort`, which empties the list
and inserts the value of each old node into it, freeing the old node behind.

The old nodes and the new ones never share memory, although `CD_malloc` may hand the
address of an old node out again once it was freed.  The loop invariant is about two
chains: the old nodes that are left, and the list built so far, which holds the
values of the others, inserted one after the other.
-/

namespace Craftd.Containers

open LinkedNodes InsertionOrder

variable {Addr : Type*} [DecidableEq Addr]

/-- The loop of `cd_ListInsertSorted`, which looks one node ahead; the new item is
allocated already. -/
def cdListInsertLoop (self : CDList Addr) (item : Addr) (data : CDPointer)
    (callback : CDListCompareCallback) : ℕ → Addr → Option (CDList Addr)
  | 0, _ => none
  | fuel + 1, walker => do
      let node ← self.heap walker
      match node.next with
      | none =>
          let heap := Function.update self.heap item (some ⟨none, some walker, data⟩)
          some { self with
            heap := Function.update heap walker (some { node with next := some item }) }
      | some next => do
          let ahead ← self.heap next
          if (callback data ahead.value).sle 0 then
            let heap := Function.update self.heap item (some ⟨some next, some walker, data⟩)
            let heap := Function.update heap next (some { ahead with prev := some item })
            some { self with
              heap := Function.update heap walker (some { node with next := some item }) }
          else
            cdListInsertLoop self item data callback fuel next

/-- `cd_ListInsertSorted`, with the address that `CD_malloc` returned. -/
def cdListInsertSorted (self : CDList Addr) (item : Addr) (data : CDPointer)
    (callback : CDListCompareCallback) : Option (CDList Addr) := do
  let self := self.malloc item ⟨none, none, data⟩
  let self ← match self.head with
    | none => some { self with head := some item, tail := some item }
    | some head => do
        let first ← self.heap head
        if (callback data first.value).sle 0 then
          let heap := Function.update self.heap item (some ⟨some head, none, data⟩)
          some { self with
            heap := Function.update heap head (some { first with prev := some item })
            head := some item }
        else
          cdListInsertLoop self item data callback self.allocated head
  some { self with changed := true }

/-- What the sort does with an old node. -/
inductive NodeEvent (Addr : Type*)
  | readNext (node : Addr)
  | free (node : Addr)
  deriving DecidableEq

/-- The loop of `cd_ListSortInsert`, with the addresses that `CD_malloc` returned and what
it did with the old nodes. -/
def cdListSortLoop (callback : CDListCompareCallback) :
    List Addr → Option Addr → CDList Addr → Option (CDList Addr × List (NodeEvent Addr))
  | _, none, self => some (self, [])
  | [], some _, _ => none
  | item :: later, some walker, self => do
      let toDestroy ← self.heap walker
      let self ← cdListInsertSorted self item toDestroy.value callback
      let toDestroy ← self.heap walker
      let (self, events) ← cdListSortLoop callback later toDestroy.next (self.free walker)
      some (self, .readNext walker :: .free walker :: events)

/-- `cd_ListSortInsert`. -/
def cdListSortInsert (self : CDList Addr) (callback : CDListCompareCallback)
    (items : List Addr) : Option (CDList Addr × List (NodeEvent Addr)) :=
  cdListSortLoop callback items self.head { self with head := none, tail := none }

/-- `CDListSortAlgorithm`. -/
inductive CDListSortAlgorithm
  | sortInsert

/-- `CD_ListSort`. -/
def listSort (self : CDList Addr) (algorithm : CDListSortAlgorithm)
    (callback : CDListCompareCallback) (items : List Addr) :
    Option (CDList Addr × List (NodeEvent Addr)) :=
  match algorithm with
  | .sortInsert => cdListSortInsert self callback items

/-! ## One insertion -/

/-- A value goes in front of another one. -/
def GoesBefore (callback : CDListCompareCallback) (data value : CDPointer) : Prop :=
  (callback data value).sle 0 = true

instance (callback : CDListCompareCallback) : DecidableRel (GoesBefore callback) :=
  fun _ _ => inferInstanceAs (Decidable (_ = true))

/-- A node goes in front of another one. -/
def NodeBefore (callback : CDListCompareCallback) (item node : Addr × CDPointer) : Prop :=
  GoesBefore callback item.2 node.2

instance (callback : CDListCompareCallback) (item node : Addr × CDPointer) :
    Decidable (NodeBefore callback item node) :=
  inferInstanceAs (Decidable (_ = true))

variable {self : CDList Addr} {callback : CDListCompareCallback}

/-- The loop of `cd_ListInsertSorted` inserts behind the node it stands on. -/
theorem cdListInsertLoop_spec (fuel : ℕ) {prev : Option Addr} {walker item : Addr}
    {value data : CDPointer} {rest : List (Addr × CDPointer)}
    (hchain : Chain self.heap prev (some walker) ((walker, value) :: rest))
    (hnodup : (((walker, value) :: rest).map Prod.fst).Nodup)
    (hitem : item ∉ ((walker, value) :: rest).map Prod.fst) (hfuel : rest.length < fuel) :
    ∃ heap, cdListInsertLoop self item data callback fuel walker =
        some { self with heap := heap } ∧
      Chain heap prev (some walker)
        ((walker, value) :: rest.orderedInsert (NodeBefore callback) (item, data)) ∧
      ∀ other, other ∉ ((walker, value) :: rest).map Prod.fst → other ≠ item →
        heap other = self.heap other := by
  induction fuel generalizing prev walker value rest with
  | zero => omega
  | succ fuel ih =>
      obtain ⟨-, next, hnode, hrest⟩ := hchain
      rw [List.map_cons, List.mem_cons, not_or] at hitem
      obtain ⟨hwalker, hnodupRest⟩ := List.nodup_cons.mp hnodup
      cases rest with
      | nil =>
          -- the item becomes the last node
          obtain rfl : next = none := hrest
          refine ⟨_, by simp [cdListInsertLoop, hnode]; rfl, ?_, ?_⟩
          · refine ⟨rfl, some item, Function.update_self _ _ _, rfl, none, ?_, rfl⟩
            rw [Function.update_of_ne hitem.1, Function.update_self]
          · intro other hother hne
            rw [Function.update_of_ne (by simpa using hother), Function.update_of_ne hne]
      | cons second later =>
          obtain ⟨address, secondValue⟩ := second
          obtain ⟨rfl, further, hsecond, hlater⟩ := id hrest
          by_cases hbefore : NodeBefore callback (item, data) (address, secondValue)
          · -- the item goes between the walker and the node ahead
            obtain ⟨node, hahead, hpushed⟩ :=
              hrest.push data hnodupRest hitem.2 (some walker)
            obtain rfl : node = ⟨further, some walker, secondValue⟩ :=
              Option.some.inj (hahead.symm.trans hsecond)
            have hsle : (callback data secondValue).sle 0 = true := hbefore
            refine ⟨Function.update (Function.update (Function.update self.heap item
                (some ⟨some address, some walker, data⟩)) address
                  (some ⟨further, some item, secondValue⟩)) walker
                    (some ⟨some item, prev, value⟩), ?_, ?_, ?_⟩
            · simp only [cdListInsertLoop, hnode, hsecond, hsle, Option.bind_eq_bind,
                Option.bind_some, if_true]
            · rw [List.orderedInsert_cons_of_le _ _ hbefore]
              refine ⟨rfl, some item, Function.update_self _ _ _, ?_⟩
              apply hpushed.update_of_notMem
              rw [List.map_cons, List.mem_cons, not_or]
              exact ⟨Ne.symm hitem.1, hwalker⟩
            · intro other hother hne
              simp only [List.map_cons, List.mem_cons, not_or] at hother
              rw [Function.update_of_ne hother.1, Function.update_of_ne hother.2.1,
                Function.update_of_ne hne]
          · obtain ⟨heap, hloop, hinserted, hframe⟩ := ih hrest hnodupRest hitem.2
              (Nat.lt_of_succ_lt_succ hfuel)
            have hsle : ¬(callback data secondValue).sle 0 = true := hbefore
            refine ⟨heap, ?_, ?_, fun other hother =>
              hframe other fun hmem => hother (.tail _ hmem)⟩
            · simp only [cdListInsertLoop, hnode, hsecond, hsle, Option.bind_eq_bind,
                Option.bind_some, Bool.false_eq_true, if_false, hloop]
            · rw [List.orderedInsert_of_not_le _ _ hbefore]
              refine ⟨rfl, some address, ?_, hinserted⟩
              rw [hframe walker hwalker (Ne.symm hitem.1), hnode]

/-- **`cd_ListInsertSorted`** inserts in front of the first node that the value goes
before. -/
theorem cdListInsertSorted_spec {nodes : List (Addr × CDPointer)} {item : Addr}
    (hchain : Chain self.heap none self.head nodes) (hnodup : (nodes.map Prod.fst).Nodup)
    (hitem : self.heap item = none) (hallocated : nodes.length ≤ self.allocated)
    (data : CDPointer) :
    ∃ next, cdListInsertSorted self item data callback = some next ∧
      Chain next.heap none next.head (nodes.orderedInsert (NodeBefore callback) (item, data)) ∧
      (∀ other, other ∉ nodes.map Prod.fst → other ≠ item → next.heap other = self.heap other) ∧
      next.allocated = self.allocated + 1 ∧ next.changed = true ∧
      next.tail = if nodes = [] then some item else self.tail := by
  have hnew := hchain.notMem_of_none hitem
  have hmalloc := hchain.update_of_notMem hnew (some ⟨none, none, data⟩)
  cases nodes with
  | nil =>
      have hhead : self.head = none := hchain
      refine ⟨_, by simp [cdListInsertSorted, CDList.malloc, hhead]; rfl, ?_, ?_, rfl, rfl, rfl⟩
      · exact ⟨rfl, none, Function.update_self _ _ _, rfl⟩
      · intro other _ hne
        exact Function.update_of_ne hne _ _
  | cons node rest =>
      obtain ⟨head, value⟩ := node
      obtain ⟨hhead, next, hnode, -⟩ := id hmalloc
      by_cases hbefore : NodeBefore callback (item, data) (head, value)
      -- in front of the head: the chain of the others hangs behind the new node
      · obtain ⟨node, hfirst, hpushed⟩ := hmalloc.push data hnodup hnew none
        obtain rfl := Option.some.inj (hfirst.symm.trans hnode)
        rw [Function.update_idem] at hpushed
        have hsle : (callback data value).sle 0 = true := hbefore
        have hinsert : cdListInsertSorted self item data callback = some { self with
            heap := Function.update (Function.update self.heap item
              (some ⟨some head, none, data⟩)) head (some ⟨next, some item, value⟩)
            head := some item
            allocated := self.allocated + 1
            changed := true } := by
          simp only [cdListInsertSorted, CDList.malloc, hhead, hnode, hsle, Option.bind_eq_bind,
            Option.bind_some, if_true, Function.update_idem]
        refine ⟨_, hinsert, ?_, ?_, rfl, rfl, rfl⟩
        · rw [List.orderedInsert_cons_of_le _ _ hbefore]
          rw [hhead] at hpushed
          exact hpushed
        · intro other hother hne
          rw [List.map_cons, List.mem_cons, not_or] at hother
          dsimp only
          rw [Function.update_of_ne hother.1, Function.update_of_ne hne]
      -- behind the head the loop inserts
      · rw [hhead] at hmalloc
        have hmalloced : Chain (self.malloc item ⟨none, none, data⟩).heap none (some head)
            ((head, value) :: rest) := hmalloc
        obtain ⟨heap, hloop, hinserted, hframe⟩ := cdListInsertLoop_spec (self.allocated + 1)
          hmalloced hnodup hnew (Nat.lt_succ_of_le (Nat.le_of_succ_le hallocated))
        have hsle : ¬(callback data value).sle 0 = true := hbefore
        refine ⟨{ self.malloc item ⟨none, none, data⟩ with heap := heap, changed := true }, ?_, ?_,
          fun other hother hne => ?_, rfl, rfl, rfl⟩
        · have hloop' : cdListInsertLoop { self with
              heap := Function.update self.heap item (some ⟨none, none, data⟩)
              allocated := self.allocated + 1 } item data callback (self.allocated + 1) head =
                some { self with heap := heap, allocated := self.allocated + 1 } := hloop
          simp only [cdListInsertSorted, CDList.malloc, hhead, hnode, hsle, Option.bind_eq_bind,
            Option.bind_some, Bool.false_eq_true, if_false]
          rw [hhead] at hloop'
          rw [hloop']
          rfl
        · rw [List.orderedInsert_of_not_le _ _ hbefore]
          exact hhead ▸ hinserted
        · exact (hframe other hother hne).trans (Function.update_of_ne hne _ _)

/-! ## The walk over the old nodes -/

/-- What `CD_malloc` may return, one address after the other: one that was not allocated
when the sort began or was freed since, and that it has not returned since. -/
def SortMallocs (heap : Addr → Option (CDListItem Addr)) (freed taken : List Addr) :
    List (Addr × CDPointer) → List Addr → Prop
  | [], items => items = []
  | _ :: _, [] => False
  | (node, _) :: rest, item :: later =>
      (heap item = none ∨ item ∈ freed) ∧ item ∉ taken ∧
        SortMallocs heap (node :: freed) (item :: taken) rest later

/-- What the sort does with the old nodes: each is freed once its link was read. -/
def sortEvents (nodes : List (Addr × CDPointer)) : List (NodeEvent Addr) :=
  nodes.flatMap fun node => [.readNext node.1, .free node.1]

private theorem count_free_sortEvents (nodes : List (Addr × CDPointer)) (address : Addr) :
    (sortEvents nodes).count (.free address) = (nodes.map Prod.fst).count address := by
  induction nodes with
  | nil => rfl
  | cons node rest ih =>
      have hcons : sortEvents (node :: rest) =
          .readNext node.1 :: .free node.1 :: sortEvents rest := rfl
      rw [hcons, List.map_cons, List.count_cons, List.count_cons, List.count_cons, ih]
      simp

/-- Between two rounds of the sort: the walker stands in front of the `old` nodes, `new` is
the list built so far, the nodes in `freed` are gone, and of the addresses that `CD_malloc`
returns those in `taken` were used and `items` are to come. -/
structure Sorting (heap : Addr → Option (CDListItem Addr)) (freed taken items : List Addr)
    (list : CDList Addr) (prev walker : Option Addr) (old new : List (Addr × CDPointer)) :
    Prop where
  left : Chain list.heap prev walker old
  built : Chain list.heap none list.head new
  nodup : (old.map Prod.fst ++ new.map Prod.fst).Nodup
  count : list.allocated = old.length + new.length
  mallocs : SortMallocs heap freed taken old items
  unused : ∀ address, (heap address = none ∨ address ∈ freed) → address ∉ taken →
    list.heap address = none

variable {heap : Addr → Option (CDListItem Addr)} {freed taken items : List Addr}
  {prev walker : Option Addr} {old new : List (Addr × CDPointer)}

omit [DecidableEq Addr] in
theorem addresses_orderedInsert (item : Addr × CDPointer) (nodes : List (Addr × CDPointer)) :
    ((nodes.orderedInsert (NodeBefore callback) item).map Prod.fst).Perm
      (item.1 :: nodes.map Prod.fst) :=
  (List.perm_orderedInsert _ _ _).map Prod.fst

/-- **One round of the sort**: the first old node is copied into the list and freed. -/
theorem Sorting.round (callback : CDListCompareCallback) {node item : Addr} {value : CDPointer}
    {rest : List (Addr × CDPointer)} {later : List Addr} (hsorting :
      Sorting heap freed taken (item :: later) self prev walker ((node, value) :: rest) new) :
    ∃ link inserted, walker = some node ∧ self.heap node = some ⟨link, prev, value⟩ ∧
      cdListInsertSorted self item value callback = some inserted ∧
      inserted.heap node = some ⟨link, prev, value⟩ ∧ inserted.changed = true ∧
      item ∉ new.map Prod.fst ∧ inserted.tail = (if new = [] then some item else self.tail) ∧
      Sorting heap (node :: freed) (item :: taken) later (inserted.free node) (some node) link rest
        (new.orderedInsert (NodeBefore callback) (item, value)) := by
  obtain ⟨hitem, htaken, hlater⟩ := hsorting.mallocs
  obtain ⟨rfl, link, hnode, hrest⟩ := id hsorting.left
  have hunallocated := hsorting.unused item hitem htaken
  have hnodup := hsorting.nodup
  rw [List.map_cons, List.cons_append, List.nodup_cons, List.mem_append, not_or] at hnodup
  obtain ⟨⟨hnodeRest, hnodeNew⟩, hnodupRest⟩ := hnodup
  obtain ⟨hnodupOld, hnodupNew, hdisjoint⟩ := List.nodup_append'.mp hnodupRest
  have hitemOld := hsorting.left.notMem_of_none hunallocated
  have hitemNew := hsorting.built.notMem_of_none hunallocated
  have hne : node ≠ item := fun heq => hitemOld (heq ▸ List.mem_cons_self)
  obtain ⟨inserted, hinsert, hchain, hframe, hallocated, hchanged, htail⟩ :=
    cdListInsertSorted_spec hsorting.built hnodupNew hunallocated
      (by rw [hsorting.count]; exact Nat.le_add_left _ _) value
  have hnodeAfter : inserted.heap node = some ⟨link, prev, value⟩ := by
    rw [hframe node hnodeNew hne, hnode]
  have hnodeInserted : node ∉ (new.orderedInsert (NodeBefore callback) (item, value)).map
      Prod.fst := by
    rw [(addresses_orderedInsert _ _).mem_iff, List.mem_cons, not_or]
    exact ⟨hne, hnodeNew⟩
  refine ⟨link, inserted, rfl, hnode, hinsert, hnodeAfter, hchanged, hitemNew, htail, ?_,
    ?_, ?_, ?_, hlater, ?_⟩
  · -- neither the insertion nor the free touches the old nodes that are left
    have hafter : Chain inserted.heap (some node) link rest := by
      refine hrest.congr fun other hother => hframe other.1 (fun hmem => ?_) fun heq => ?_
      · exact hdisjoint (List.mem_map_of_mem hother) hmem
      · exact hitemOld (.tail _ (heq ▸ List.mem_map_of_mem hother))
    exact hafter.update_of_notMem hnodeRest none
  · exact hchain.update_of_notMem hnodeInserted none
  · rw [((addresses_orderedInsert _ _).append_left _).nodup_iff, List.perm_middle.nodup_iff,
      List.nodup_cons, List.mem_append, not_or]
    exact ⟨⟨fun hmem => hitemOld (.tail _ hmem), hitemNew⟩, hnodupRest⟩
  · have hlength :=
      (List.perm_orderedInsert (NodeBefore callback) (item, value) new).length_eq
    have hcount := hsorting.count
    rw [List.length_cons] at hcount hlength
    have hfreed : (inserted.free node).allocated = inserted.allocated - 1 := rfl
    omega
  · -- an address that may be returned next is the freed node, or was not allocated before
    intro address haddress hnotTaken
    by_cases hthis : address = node
    · rw [hthis]
      exact Function.update_self _ _ _
    · rw [List.mem_cons, not_or] at hnotTaken
      have hwas : self.heap address = none := by
        apply hsorting.unused address (haddress.imp_right fun hmem => _) hnotTaken.2
        exact fun hmem => (List.mem_cons.mp hmem).resolve_left hthis
      refine (Function.update_of_ne hthis _ _).trans ?_
      rw [hframe address (hsorting.built.notMem_of_none hwas) hnotTaken.1, hwas]

/-- The `tail` of a list is its last node. -/
def EndsAtTail (self : CDList Addr) (nodes : List (Addr × CDPointer)) : Prop :=
  ∀ last, nodes.getLast? = some last → self.tail = some last.1

/-- Of values that are inserted one after the other, with some there before, only the first
becomes the last of the list. -/
def KeepsFirst (callback : CDListCompareCallback) : List CDPointer → List CDPointer → Prop
  | _, [] => True
  | earlier, value :: rest =>
      (earlier = [] ∨ ∃ other ∈ earlier, GoesBefore callback value other) ∧
        KeepsFirst callback (value :: earlier) rest

theorem KeepsFirst.perm {earlier earlier' values : List CDPointer}
    (h : KeepsFirst callback earlier values) (hperm : earlier.Perm earlier') :
    KeepsFirst callback earlier' values := by
  induction values generalizing earlier earlier' with
  | nil => trivial
  | cons value rest ih =>
      refine ⟨h.1.imp (fun hempty => ?_) fun ⟨other, hmem, hother⟩ => ?_, ih h.2 (hperm.cons value)⟩
      · exact (hempty ▸ hperm).nil_eq.symm
      · exact ⟨other, hperm.subset hmem, hother⟩

/-- The `tail` of a list with nodes is one of them. -/
def TailInside (self : CDList Addr) (nodes : List (Addr × CDPointer)) : Prop :=
  nodes ≠ [] → ∃ node ∈ nodes, self.tail = some node.1

section Inserted

variable {next : CDList Addr} {nodes : List (Addr × CDPointer)} {item : Addr} {data : CDPointer}

omit [DecidableEq Addr] in
theorem TailInside.insertSorted (hinside : TailInside self nodes)
    (htail : next.tail = if nodes = [] then some item else self.tail) :
    TailInside next (nodes.orderedInsert (NodeBefore callback) (item, data)) := by
  intro _
  have hperm := List.perm_orderedInsert (NodeBefore callback) (item, data) nodes
  by_cases hempty : nodes = []
  · exact ⟨(item, data), hperm.symm.subset (.head _), by rw [htail, if_pos hempty]⟩
  · obtain ⟨node, hmem, hnode⟩ := hinside hempty
    exact ⟨node, hperm.symm.subset (.tail _ hmem), by rw [htail, if_neg hempty, hnode]⟩

omit [DecidableEq Addr] in
/-- An insertion leaves `tail` right when it was and the value does not become the last. -/
theorem endsAtTail_insertSorted (hinside : TailInside self nodes)
    (hitem : item ∉ nodes.map Prod.fst)
    (htail : next.tail = if nodes = [] then some item else self.tail) :
    EndsAtTail next (nodes.orderedInsert (NodeBefore callback) (item, data)) ↔
      EndsAtTail self nodes ∧
        (nodes = [] ∨ ∃ other ∈ nodes.map Prod.snd, GoesBefore callback data other) := by
  by_cases hempty : nodes = []
  · subst hempty
    refine iff_of_true (fun last hlast => ?_) ⟨nofun, .inl rfl⟩
    obtain rfl : (item, data) = last := Option.some.inj hlast
    exact htail
  rw [if_neg hempty] at htail
  by_cases hbefore : ∃ other ∈ nodes, NodeBefore callback (item, data) other
  · have hvalue : ∃ other ∈ nodes.map Prod.snd, GoesBefore callback data other := by
      obtain ⟨other, hmem, hother⟩ := hbefore
      exact ⟨other.2, List.mem_map_of_mem hmem, hother⟩
    rw [EndsAtTail, getLast?_orderedInsert hbefore, htail]
    exact (and_iff_left (.inr hvalue)).symm
  · -- the new node is the last, and `tail` is one of the others
    push Not at hbefore
    refine iff_of_false (fun hends => ?_) fun h => ?_
    · rw [EndsAtTail, orderedInsert_of_forall_not hbefore, List.getLast?_concat] at hends
      obtain ⟨node, hmem, hnode⟩ := hinside hempty
      have hlast := hends _ rfl
      rw [htail, hnode] at hlast
      obtain rfl : node.1 = item := Option.some.inj hlast
      exact hitem (List.mem_map_of_mem hmem)
    · obtain ⟨value, hmem, hvalue⟩ := h.2.resolve_left hempty
      obtain ⟨other, hother, rfl⟩ := List.mem_map.mp hmem
      exact hbefore other hother hvalue

end Inserted

/-- **The loop of `cd_ListSortInsert`**, on the old nodes that are left and the list built so
far. -/
theorem cdListSortLoop_spec (hsorting : Sorting heap freed taken items self prev walker old new) :
    ∃ next nodes, cdListSortLoop callback items walker self = some (next, sortEvents old) ∧
      Chain next.heap none next.head nodes ∧ (nodes.map Prod.fst).Nodup ∧
      next.allocated = nodes.length ∧
      nodes.map Prod.snd = (old.map Prod.snd).foldl
        (fun values value => values.orderedInsert (GoesBefore callback) value)
        (new.map Prod.snd) ∧
      (old = [] → next = self) ∧ (old ≠ [] → next.changed = true) ∧
      (TailInside self new → (EndsAtTail next nodes ↔
        EndsAtTail self new ∧ KeepsFirst callback (new.map Prod.snd) (old.map Prod.snd))) := by
  induction old generalizing self freed taken items prev walker new with
  | nil =>
      -- the old list is used up
      obtain rfl : walker = none := hsorting.left
      refine ⟨self, new, by cases items <;> rfl, hsorting.built, by simpa using hsorting.nodup,
        by simpa using hsorting.count, rfl, fun _ => rfl, fun hne => absurd rfl hne,
        fun _ => (and_iff_left trivial).symm⟩
  | cons first rest ih =>
      obtain ⟨node, value⟩ := first
      cases items with
      | nil => exact hsorting.mallocs.elim
      | cons item later =>
          -- one round: the node at the walker goes over to the new list and is freed
          obtain ⟨link, inserted, rfl, hnode, hinsert, hnodeAfter, hchanged, hitem, htail,
            hround⟩ := hsorting.round callback
          obtain ⟨next, nodes, hloop, hnext, hnextNodup, hnextCount, hvalues, hsame, hstill,
            hends⟩ := ih hround
          refine ⟨next, nodes, ?_, hnext, hnextNodup, hnextCount, ?_, nofun, fun _ => ?_,
            fun hinside => ?_⟩
          · simp only [cdListSortLoop, hnode, hinsert, hnodeAfter, hloop, Option.bind_eq_bind,
              Option.bind_some]
            rfl
          · rw [hvalues, List.map_cons, List.foldl_cons]
            congr 1
            exact List.map_orderedInsert _ _ Prod.snd _ _ (fun _ _ => .rfl) fun _ _ => .rfl
          · by_cases hempty : rest = []
            · rw [hsame hempty]
              exact hchanged
            · exact hstill hempty
          · have hfreed : (inserted.free node).tail = if new = [] then some item else self.tail :=
              htail
            have hperm := (List.perm_orderedInsert (NodeBefore callback) (item, value) new).map
              Prod.snd
            rw [hends (hinside.insertSorted hfreed), endsAtTail_insertSorted hinside hitem hfreed,
              and_assoc, ← List.map_eq_nil_iff (f := Prod.snd)]
            exact and_congr_right fun _ => and_congr_right fun _ =>
              ⟨fun h => h.perm hperm, fun h => h.perm hperm.symm⟩

/-! ## The sort -/

/-- A callback whose answers `<= 0` are a total preorder. -/
structure TotalPreorder (callback : CDListCompareCallback) : Prop where
  total : ∀ a b, GoesBefore callback a b ∨ GoesBefore callback b a
  trans : ∀ a b c, GoesBefore callback a b → GoesBefore callback b c → GoesBefore callback a c

/-- Values that compare equal. -/
def comparesEqual (callback : CDListCompareCallback) (a b : CDPointer) : Bool :=
  (callback a b).sle 0 && (callback b a).sle 0

/-- `CD_ListSort` inserts the values one after the other, and `tail` is the last node when that
is the first one inserted. -/
theorem listSort_spec {nodes : List (Addr × CDPointer)} (hlinked : Linked self nodes)
    {items : List Addr} (hmallocs : SortMallocs self.heap [] [] nodes items) :
    ∃ next sorted, listSort self .sortInsert callback items = some (next, sortEvents nodes) ∧
      Linked next sorted ∧
      sorted.map Prod.snd = insertAll (GoesBefore callback) (nodes.map Prod.snd) ∧
      (EndsAtTail next sorted ↔ KeepsFirst callback [] (nodes.map Prod.snd)) ∧
      (nodes = [] → next.tail = none) := by
  obtain ⟨hchain, hnodup, hallocated, hcached⟩ := hlinked
  have hsorting : Sorting self.heap [] [] items { self with head := none, tail := none } none
      self.head nodes [] :=
    ⟨hchain, rfl, by simpa using hnodup, by simpa using hallocated, hmallocs, by simp⟩
  obtain ⟨next, sorted, hloop, hnext, hnextNodup, hcount, hvalues, hsame, hchanged, hends⟩ :=
    cdListSortLoop_spec hsorting
  have hinserted : sorted.map Prod.snd = insertAll (GoesBefore callback) (nodes.map Prod.snd) :=
    hvalues
  refine ⟨next, sorted, hloop, ⟨hnext, hnextNodup, hcount, fun hunchanged => ?_⟩, hinserted,
    (hends nofun).trans (and_iff_right nofun), fun hempty => by rw [hsame hempty]⟩
  by_cases hempty : nodes = []
  · -- nothing was inserted
    rw [hsame hempty] at hunchanged ⊢
    have hnone : sorted = [] := by
      simpa [hempty, insertAll] using hinserted
    rw [hnone, ← hempty]
    exact hcached hunchanged
  · rw [hchanged hempty] at hunchanged
    cases hunchanged

/-- **`CD_ListSort` sorts.**  Whatever addresses `CD_malloc` returns, the list has its links
right afterwards, its values are those of before in non-decreasing order, values that
compare equal are in the reverse order, and each old node was freed once, after its link
was read. -/
theorem list_sort_sorts {nodes : List (Addr × CDPointer)} (hlinked : Linked self nodes)
    (hcallback : TotalPreorder callback) {items : List Addr}
    (hmallocs : SortMallocs self.heap [] [] nodes items) :
    ∃ next sorted events, listSort self .sortInsert callback items = some (next, events) ∧
      Linked next sorted ∧ (sorted.map Prod.snd).Perm (nodes.map Prod.snd) ∧
      (sorted.map Prod.snd).Pairwise (GoesBefore callback) ∧
      (∀ value, (sorted.map Prod.snd).filter (comparesEqual callback value) =
        ((nodes.map Prod.snd).filter (comparesEqual callback value)).reverse) ∧
      events = sortEvents nodes ∧ ∀ node ∈ nodes, events.count (.free node.1) = 1 := by
  obtain ⟨next, sorted, hsort, hnext, hinserted, -⟩ := listSort_spec hlinked hmallocs
  have : Std.Total (GoesBefore callback) := ⟨hcallback.total⟩
  have : IsTrans CDPointer (GoesBefore callback) := ⟨hcallback.trans⟩
  refine ⟨next, sorted, sortEvents nodes, hsort, hnext, ?_, ?_, fun value => ?_, rfl,
    fun node hmem => ?_⟩
  · rw [hinserted]
    exact insertAll_perm _ _
  · rw [hinserted]
    exact pairwise_insertAll _
  · rw [hinserted]
    apply filter_insertAll
    intro first second hfirst hsecond
    rw [comparesEqual, Bool.and_eq_true] at hfirst hsecond
    exact hcallback.trans _ _ _ hfirst.2 hsecond.1
  · rw [count_free_sortEvents]
    exact List.count_eq_one_of_mem hlinked.nodup (List.mem_map_of_mem hmem)

theorem goesBefore_compare {a b : CDPointer} :
    GoesBefore cdListCompare a b ↔ a.toInt ≤ b.toInt := by
  rw [GoesBefore, cdListCompare]
  by_cases hba : b.slt a
  · rw [if_pos hba]
    simp only [BitVec.slt, decide_eq_true_eq] at hba
    exact iff_of_false (by decide) (not_le.mpr hba)
  · rw [if_neg hba]
    simp only [BitVec.slt, decide_eq_true_eq, not_lt] at hba
    refine iff_of_true ?_ hba
    by_cases hab : a.slt b
    · rw [if_pos hab]
      decide
    · rw [if_neg hab]
      decide

private theorem compare_totalPreorder : TotalPreorder cdListCompare where
  total a b := by
    rw [goesBefore_compare, goesBefore_compare]
    exact le_total _ _
  trans a b c := by
    rw [goesBefore_compare, goesBefore_compare, goesBefore_compare]
    exact le_trans

/-- Three nodes that hold 30, 10 and 10. -/
def unsorted : CDList ℕ where
  head := some 1
  tail := some 3
  length := 3
  changed := false
  heap := fun address =>
    match address with
    | 1 => some ⟨some 2, none, 30⟩
    | 2 => some ⟨some 3, some 1, 10⟩
    | 3 => some ⟨none, some 2, 10⟩
    | _ => none
  allocated := 3

/-- The second and the third new node lie where the first and the second old one lay. -/
theorem list_sort_sorts_reused :
    ∃ next sorted events, listSort unsorted .sortInsert cdListCompare [4, 1, 2] =
        some (next, events) ∧
      Linked next sorted ∧ (sorted.map Prod.snd).Perm [30, 10, 10] ∧
      events = sortEvents [(1, 30), (2, 10), (3, 10)] := by
  have hlinked : Linked unsorted [(1, 30), (2, 10), (3, 10)] :=
    ⟨⟨rfl, some 2, rfl, rfl, some 3, rfl, rfl, none, rfl, rfl⟩, by decide, rfl, fun _ => rfl⟩
  have hmallocs : SortMallocs unsorted.heap [] [] [(1, 30), (2, 10), (3, 10)] [4, 1, 2] :=
    ⟨.inl rfl, by decide, .inr (by decide), by decide, .inr (by decide), by decide, rfl⟩
  obtain ⟨next, sorted, events, hsort, hnext, hperm, -, -, hevents, -⟩ :=
    list_sort_sorts hlinked compare_totalPreorder hmallocs
  exact ⟨next, sorted, events, hsort, hnext, hperm, hevents⟩

end Craftd.Containers
