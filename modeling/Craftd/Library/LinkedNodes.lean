import Mathlib.Logic.Function.Basic
import Mathlib.Data.List.Nodup

/-!
# Doubly linked nodes in a heap

A heap maps addresses to nodes, `none` standing for memory that is not
allocated.  `Chain heap prev start nodes` says that the nodes met from `start`
on are `nodes`, in this order, that each node's `prev` link points at the node
before it (the first one's at `prev`) and that the last one's `next` link is
NULL.

The lemmas are about writes: a write elsewhere keeps a chain
(`Chain.update_of_notMem`), the first node's `prev` link may be redirected
(`Chain.relink`), and a new node may be hung behind the last one (`Chain.append`)
or in front of the first one (`Chain.push`).
-/

namespace LinkedNodes

/-- A node with its two links. -/
structure Node (Addr Value : Type*) where
  next : Option Addr
  prev : Option Addr
  value : Value

variable {Addr Value : Type*} [DecidableEq Addr]

/-- The nodes from `start` on, linked both ways. -/
def Chain (heap : Addr → Option (Node Addr Value)) :
    Option Addr → Option Addr → List (Addr × Value) → Prop
  | _, start, [] => start = none
  | prev, start, (address, value) :: rest =>
      start = some address ∧ ∃ next, heap address = some ⟨next, prev, value⟩ ∧
        Chain heap (some address) next rest

variable {heap : Addr → Option (Node Addr Value)} {prev start : Option Addr}
  {nodes rest : List (Addr × Value)} {address other : Addr} {value : Value}

omit [DecidableEq Addr] in
/-- A chain only depends on the heap at its own addresses. -/
theorem Chain.congr {heap' : Addr → Option (Node Addr Value)} (hchain : Chain heap prev start nodes)
    (hsame : ∀ node ∈ nodes, heap' node.1 = heap node.1) : Chain heap' prev start nodes := by
  induction nodes generalizing prev start with
  | nil => exact hchain
  | cons node rest ih =>
      obtain ⟨hstart, next, hnode, hrest⟩ := hchain
      refine ⟨hstart, next, ?_, ih hrest fun node hmem => hsame node (.tail _ hmem)⟩
      rw [hsame node (.head _), hnode]

omit [DecidableEq Addr] in
theorem Chain.unique {nodes' : List (Addr × Value)} (hchain : Chain heap prev start nodes)
    (hchain' : Chain heap prev start nodes') : nodes = nodes' := by
  induction nodes generalizing prev start nodes' with
  | nil =>
      obtain rfl : start = none := hchain
      cases nodes' with
      | nil => rfl
      | cons _ _ => cases hchain'.1
  | cons node rest ih =>
      obtain ⟨rfl, next, hnode, hrest⟩ := hchain
      cases nodes' with
      | nil => cases hchain'
      | cons node' rest' =>
          obtain ⟨hstart, next', hnode', hrest'⟩ := hchain'
          obtain heq : node.1 = node'.1 := Option.some.inj hstart
          rw [← heq, hnode, Option.some.injEq, Node.mk.injEq] at hnode'
          obtain ⟨rfl, -, hvalue⟩ := hnode'
          rw [← heq] at hrest'
          rw [Prod.ext heq hvalue, ih hrest hrest']

theorem Chain.update_of_notMem (hchain : Chain heap prev start nodes)
    (haddress : address ∉ nodes.map Prod.fst) (node : Option (Node Addr Value)) :
    Chain (Function.update heap address node) prev start nodes := by
  refine hchain.congr fun other hmem => Function.update_of_ne ?_ _ _
  rintro rfl
  exact haddress (List.mem_map_of_mem hmem)

omit [DecidableEq Addr] in
theorem Chain.start_eq (hchain : Chain heap prev start nodes) :
    start = nodes.head?.map Prod.fst := by
  cases nodes with
  | nil => exact hchain
  | cons node rest => exact hchain.1

omit [DecidableEq Addr] in
theorem Chain.exists_of_mem (hchain : Chain heap prev start nodes)
    (hmem : (address, value) ∈ nodes) : ∃ node, heap address = some node ∧ node.value = value := by
  induction nodes generalizing prev start with
  | nil => simp at hmem
  | cons node rest ih =>
      obtain ⟨-, next, hnode, hrest⟩ := hchain
      rcases List.mem_cons.mp hmem with rfl | hlater
      · exact ⟨_, hnode, rfl⟩
      · exact ih hrest hlater

omit [DecidableEq Addr] in
theorem Chain.notMem_of_none (hchain : Chain heap prev start nodes) (hnone : heap address = none) :
    address ∉ nodes.map Prod.fst := by
  intro hmem
  obtain ⟨⟨address, value⟩, hnode, rfl⟩ := List.mem_map.mp hmem
  obtain ⟨node, hsome, -⟩ := hchain.exists_of_mem hnode
  simp [hnone] at hsome

/-- Redirect the `prev` link of the node at `start`, if there is one; `none` when
`start` points at memory that is not allocated. -/
def relink (heap : Addr → Option (Node Addr Value)) (start prev' : Option Addr) :
    Option (Addr → Option (Node Addr Value)) :=
  match start with
  | none => some heap
  | some address =>
      (heap address).map fun node => Function.update heap address (some { node with prev := prev' })

/-- **Redirecting the first node of a chain** always succeeds. -/
theorem Chain.relink (hchain : Chain heap prev start nodes) (hnodup : (nodes.map Prod.fst).Nodup)
    (prev' : Option Addr) :
    ∃ heap', LinkedNodes.relink heap start prev' = some heap' ∧ Chain heap' prev' start nodes ∧
      ∀ other, other ∉ nodes.map Prod.fst → heap' other = heap other := by
  cases nodes with
  | nil =>
      obtain rfl : start = none := hchain
      exact ⟨heap, rfl, rfl, fun _ _ => rfl⟩
  | cons node rest =>
      obtain ⟨address, value⟩ := node
      obtain ⟨rfl, next, hnode, hrest⟩ := hchain
      rw [List.map_cons, List.nodup_cons] at hnodup
      refine ⟨_, by rw [LinkedNodes.relink, hnode, Option.map_some],
        ⟨rfl, next, Function.update_self _ _ _, hrest.update_of_notMem hnodup.1 _⟩,
        fun other hother => Function.update_of_ne ?_ _ _⟩
      rintro rfl
      simp at hother

/-- **Hanging a new node behind the last one** of a chain. -/
theorem Chain.append {last new : Addr} {lastValue : Value} (newValue : Value)
    (hchain : Chain heap prev start (nodes ++ [(last, lastValue)]))
    (hnodup : ((nodes ++ [(last, lastValue)]).map Prod.fst).Nodup)
    (hnew : new ∉ (nodes ++ [(last, lastValue)]).map Prod.fst) :
    ∃ node, heap last = some node ∧
      Chain (Function.update (Function.update heap new (some ⟨none, some last, newValue⟩)) last
          (some { node with next := some new })) prev start
        (nodes ++ [(last, lastValue), (new, newValue)]) := by
  induction nodes generalizing prev start with
  | nil =>
      obtain ⟨rfl, next, hnode, -⟩ := hchain
      have hne : new ≠ last := by simpa using hnew
      refine ⟨_, hnode, rfl, some new, Function.update_self _ _ _, rfl, none, ?_, rfl⟩
      rw [Function.update_of_ne hne, Function.update_self]
  | cons node rest ih =>
      obtain ⟨address, value⟩ := node
      obtain ⟨rfl, next, hnode, hrest⟩ := hchain
      simp only [List.cons_append, List.map_cons, List.nodup_cons] at hnodup
      simp only [List.cons_append, List.map_cons, List.mem_cons, not_or] at hnew
      obtain ⟨lastNode, hlast, hchain'⟩ := ih hrest hnodup.2 hnew.2
      have hne : address ≠ last := by
        rintro rfl
        exact hnodup.1 (by simp)
      refine ⟨lastNode, hlast, rfl, next, ?_, hchain'⟩
      rw [Function.update_of_ne hne, Function.update_of_ne (Ne.symm hnew.1), hnode]

/-- **Hanging a new node in front of the first one** of a chain. -/
theorem Chain.push {new : Addr} (newValue : Value)
    (hchain : Chain heap prev start ((address, value) :: rest))
    (hnodup : (((address, value) :: rest).map Prod.fst).Nodup)
    (hnew : new ∉ ((address, value) :: rest).map Prod.fst) (before : Option Addr) :
    ∃ node, heap address = some node ∧
      Chain (Function.update (Function.update heap new (some ⟨start, before, newValue⟩)) address
          (some { node with prev := some new })) before (some new)
        ((new, newValue) :: (address, value) :: rest) := by
  obtain ⟨rfl, next, hnode, hrest⟩ := hchain
  obtain ⟨haddress, -⟩ := List.nodup_cons.mp hnodup
  rw [List.map_cons, List.mem_cons, not_or] at hnew
  refine ⟨_, hnode, rfl, some address, ?_, rfl, next, Function.update_self _ _ _, ?_⟩
  · rw [Function.update_of_ne hnew.1, Function.update_self]
  · exact (hrest.update_of_notMem hnew.2 _).update_of_notMem haddress _

end LinkedNodes
