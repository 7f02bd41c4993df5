import Craftd.Library.LinkedNodes
import Craftd.Library.System
import Mathlib.Data.BitVec

/-!
# Lists

A translation of the parts of `List.c` that push, shift, delete and look at a
`CDList`.  A list carries the heap its nodes live in; reading or writing through
NULL or through a node that was freed has no outcome (`none`), like every other
undefined behaviour.

`CD_malloc` may return any address that is not allocated, one that was freed
before included, so a push names the address it got.  A walk along the `next`
links takes at most as many steps as there are nodes; a longer one would have
met a node twice and would never end.
-/

namespace Craftd.Containers

open LinkedNodes StepSystem

/-- `CDPointer`, where a pointer has 64 bits. -/
abbrev CDPointer := BitVec 64

/-- `CDNull`. -/
def cdNull : CDPointer := 0

/-- `CDListItem`. -/
abbrev CDListItem (Addr : Type*) := Node Addr CDPointer

/-- `CDListCompareCallback`. -/
abbrev CDListCompareCallback := CDPointer → CDPointer → BitVec 8

/-- `CDList`, with the heap of its nodes and the number of nodes in it. -/
structure CDList (Addr : Type*) where
  head : Option Addr
  tail : Option Addr
  length : ℕ
  changed : Bool
  heap : Addr → Option (CDListItem Addr)
  allocated : ℕ

variable {Addr : Type*} [DecidableEq Addr]

/-- `cd_ListCompare`. -/
def cdListCompare : CDListCompareCallback := fun a b =>
  if b.slt a then 1 else if a.slt b then -1 else 0

/-- `CD_CreateList`. -/
def createList : CDList Addr where
  head := none
  tail := none
  length := 0
  changed := false
  heap := fun _ => none
  allocated := 0

/-- `CD_malloc` of a node at the given address. -/
def CDList.malloc (self : CDList Addr) (address : Addr) (item : CDListItem Addr) : CDList Addr :=
  { self with
    heap := Function.update self.heap address (some item)
    allocated := self.allocated + 1 }

/-- `CD_free` of a node. -/
def CDList.free (self : CDList Addr) (address : Addr) : CDList Addr :=
  { self with
    heap := Function.update self.heap address none
    allocated := self.allocated - 1 }

/-- The loop of `cd_ListDelete` that looks one node ahead. -/
def cdListDeleteLoop (self : CDList Addr) (data : CDPointer) (callback : CDListCompareCallback) :
    ℕ → Addr → Option (CDList Addr × CDPointer)
  | 0, _ => none
  | fuel + 1, item => do
      let node ← self.heap item
      match node.next with
      | none => some (self, cdNull)
      | some next =>
          let toDelete ← self.heap next
          if callback data toDelete.value = 0 then
            let heap := Function.update self.heap item (some { node with next := toDelete.next })
            let heap ← relink heap toDelete.next (some item)
            let self := { self with heap := heap }.free next
            some ({ self with changed := true }, toDelete.value)
          else
            cdListDeleteLoop self data callback fuel next

/-- `cd_ListDelete`. -/
def cdListDelete (self : CDList Addr) (data : CDPointer) (callback : CDListCompareCallback) :
    Option (CDList Addr × CDPointer) :=
  match self.head with
  | none => some (self, cdNull)
  | some head => do
      let item ← self.heap head
      if callback data item.value = 0 then
        let heap ← relink self.heap item.next none
        let self := { self with head := item.next, heap := heap, changed := true }
        some (self.free head, item.value)
      else
        cdListDeleteLoop self data callback self.allocated head

/-- `CD_ListPush`, with the address that `CD_malloc` returned. -/
def listPush (self : CDList Addr) (address : Addr) (data : CDPointer) : Option (CDList Addr) :=
  let item : CDListItem Addr := ⟨none, none, data⟩
  let self := self.malloc address item
  match self.head with
  | none => some { self with head := some address, tail := some address, changed := true }
  | some _ => do
      let heap := Function.update self.heap address (some { item with prev := self.tail })
      let tail ← self.tail
      let last ← heap tail
      let heap := Function.update heap tail (some { last with next := some address })
      some { self with heap := heap, tail := some address, changed := true }

/-- `CD_ListShift`. -/
def listShift (self : CDList Addr) : Option (CDList Addr × CDPointer) :=
  match self.head with
  | none => some ({ self with changed := true }, cdNull)
  | some head => do
      let item ← self.heap head
      let (self, result) ← cdListDelete self item.value cdListCompare
      some ({ self with changed := true }, result)

/-- `CD_ListDelete`; it asserts that it got data. -/
def listDelete (self : CDList Addr) (data : CDPointer) : Option (CDList Addr × CDPointer) :=
  if data = cdNull then none else cdListDelete self data cdListCompare

/-- `CD_ListDeleteIf`; it asserts that it got data. -/
def listDeleteIf (self : CDList Addr) (data : CDPointer) (callback : CDListCompareCallback) :
    Option (CDList Addr × CDPointer) :=
  if data = cdNull then none else cdListDelete self data callback

/-- The loop of `CD_ListDeleteAllIf`: delete until nothing is found. -/
def cdListDeleteRest (data : CDPointer) (callback : CDListCompareCallback) :
    ℕ → CDList Addr → Option (CDList Addr)
  | 0, _ => none
  | fuel + 1, self => do
      let (self, result) ← cdListDelete self data callback
      if result ≠ cdNull then cdListDeleteRest data callback fuel self else some self

/-- `CD_ListDeleteAllIf`. -/
def listDeleteAllIf (self : CDList Addr) (data : CDPointer) (callback : CDListCompareCallback) :
    Option (CDList Addr × CDPointer) := do
  let (self, result) ← cdListDelete self data callback
  if result ≠ cdNull then
    let self ← cdListDeleteRest data callback (self.allocated + 1) self
    some (self, result)
  else
    some (self, result)

/-- `CD_ListDeleteAll`. -/
def listDeleteAll (self : CDList Addr) (data : CDPointer) : Option (CDList Addr × CDPointer) :=
  listDeleteAllIf self data cdListCompare

/-- `CD_ListLast`. -/
def listLast (self : CDList Addr) : Option CDPointer :=
  match self.tail with
  | none => some cdNull
  | some tail => (self.heap tail).map Node.value

/-- The count of `CD_ListLength`. -/
def cdListCount (heap : Addr → Option (CDListItem Addr)) : ℕ → Option Addr → Option ℕ
  | _, none => some 0
  | 0, some _ => none
  | fuel + 1, some runner =>
      (heap runner).bind fun node => (cdListCount heap fuel node.next).map (· + 1)

/-- `CD_ListLength`. -/
def listLength (self : CDList Addr) : Option (CDList Addr × ℕ) :=
  if self.changed then
    (cdListCount self.heap self.allocated self.head).map fun result =>
      ({ self with length := result, changed := false }, result)
  else
    some (self, self.length)

/-- A call on a list; a push names the address that `CD_malloc` returned. -/
inductive Operation (Addr : Type*)
  | push (address : Addr) (data : CDPointer)
  | shift
  | delete (data : CDPointer)
  | deleteIf (data : CDPointer) (callback : CDListCompareCallback)
  | deleteAll (data : CDPointer)
  | deleteAllIf (data : CDPointer) (callback : CDListCompareCallback)

/-- The list after a call, and what the call returned (a push returns the list
itself, `cdNull` here). -/
def call (self : CDList Addr) : Operation Addr → Option (CDList Addr × CDPointer)
  | .push address data => (listPush self address data).map fun self => (self, cdNull)
  | .shift => listShift self
  | .delete data => listDelete self data
  | .deleteIf data callback => listDeleteIf self data callback
  | .deleteAll data => listDeleteAll self data
  | .deleteAllIf data callback => listDeleteAllIf self data callback

end Craftd.Containers
