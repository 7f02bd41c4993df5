import Craftd.Containers.ListSort

/-!
# Sorted pushes and the tail

`cd_ListInsertSorted` sets `tail` only on an empty list.  A value that it hangs behind
the last one therefore leaves `tail` on the node before: `CD_ListLast` misses the
value, and the next `CD_ListPush` cuts off what stands behind `tail`.

`KeepsTail` says of a call that it inserts no value there.  In every sequence of such
calls nothing is lost, a pushed value comes last and `CD_ListLast` finds it.
-/

namespace Craftd.Containers

open LinkedNodes InsertionOrder StepSystem

variable {Addr : Type*} [DecidableEq Addr]

/-- `CD_ListSortedPush`, with the address that `CD_malloc` returned. -/
def listSortedPush (self : CDList Addr) (address : Addr) (data : CDPointer)
    (callback : CDListCompareCallback) : Option (CDList Addr) :=
  cdListInsertSorted self address data callback

/-- A call on a list that may be sorted, with the addresses that `CD_malloc` returned. -/
inductive SortedOperation (Addr : Type*)
  | push (address : Addr) (data : CDPointer)
  | sortedPush (address : Addr) (data : CDPointer) (callback : CDListCompareCallback)
  | sort (algorithm : CDListSortAlgorithm) (callback : CDListCompareCallback) (items : List Addr)
  | last

/-- The list after a call, and what the call returned (`cdNull` for the calls that return
the list itself). -/
def callSorted (self : CDList Addr) : SortedOperation Addr → Option (CDList Addr × CDPointer)
  | .push address data => (listPush self address data).map fun self => (self, cdNull)
  | .sortedPush address data callback =>
      (listSortedPush self address data callback).map fun self => (self, cdNull)
  | .sort algorithm callback items =>
      (listSort self algorithm callback items).map fun (self, _) => (self, cdNull)
  | .last => (listLast self).map fun value => (self, value)

namespace SortedOperation

/-- The sequence of values after a call. -/
def apply (values : List CDPointer) : SortedOperation Addr → List CDPointer
  | .push _ data => values ++ [data]
  | .sortedPush _ data callback => values.orderedInsert (GoesBefore callback) data
  | .sort _ callback _ => insertAll (GoesBefore callback) values
  | .last => values

/-- What a call returns. -/
def result (values : List CDPointer) : SortedOperation Addr → CDPointer
  | .last => values.getLast?.getD cdNull
  | _ => cdNull

/-- The value that a call brings into the list. -/
def pushed : SortedOperation Addr → List CDPointer
  | .push _ data | .sortedPush _ data _ => [data]
  | .sort _ _ _ | .last => []

/-- What `CD_malloc` promises: no new node lies where another one is. -/
def Possible (self : CDList Addr) : SortedOperation Addr → Prop
  | .push address _ | .sortedPush address _ _ => self.heap address = none
  | .sort _ _ items => ∃ nodes, Chain self.heap none self.head nodes ∧
      SortMallocs self.heap [] [] nodes items
  | .last => True

/-- **The calls that keep the tail**: each value that is inserted, the first one of a list
apart, goes before some value that is there. -/
def KeepsTail (values : List CDPointer) : SortedOperation Addr → Prop
  | .push _ _ | .last => True
  | .sortedPush _ data callback => values = [] ∨ ∃ other ∈ values, GoesBefore callback data other
  | .sort _ callback _ => KeepsFirst callback [] values

omit [DecidableEq Addr] in
private theorem apply_perm (values : List CDPointer) (operation : SortedOperation Addr) :
    (operation.apply values).Perm (values ++ operation.pushed) := by
  cases operation with
  | push _ _ => exact .refl _
  | sortedPush _ data _ =>
      exact (List.perm_orderedInsert _ data values).trans
        (List.perm_append_singleton data values).symm
  | sort _ callback _ => exact (insertAll_perm _ values).trans (by rw [pushed, List.append_nil])
  | last => rw [apply, pushed, List.append_nil]

end SortedOperation

/-! ## Which calls keep the list -/

omit [DecidableEq Addr] in
/-- Of a list whose links are right, only `tail` is left to check. -/
theorem wellLinked_iff {self : CDList Addr} {nodes : List (Addr × CDPointer)}
    (hlinked : Linked self nodes) :
    WellLinked self (nodes.map Prod.snd) ↔ EndsAtTail self nodes := by
  refine ⟨fun h => ?_, fun hends => ⟨nodes, hlinked, rfl, hends⟩⟩
  obtain ⟨nodes', hlinked', -, hends⟩ := h
  rwa [hlinked.chain.unique hlinked'.chain]

omit [DecidableEq Addr] in
theorem EndsAtTail.tailInside {self : CDList Addr} {nodes : List (Addr × CDPointer)}
    (hends : EndsAtTail self nodes) : TailInside self nodes := by
  intro hne
  exact ⟨nodes.getLast hne, List.getLast_mem hne, hends _ (List.getLast?_eq_some_getLast hne)⟩

/-- The representation of a list whose nodes were never deleted: when there are none, there
is no tail either. -/
structure TailLinked (list : CDList Addr) (values : List CDPointer) : Prop where
  linked : WellLinked list values
  empty : values = [] → list.tail = none

namespace TailLinked

variable {self : CDList Addr} {values : List CDPointer} {callback : CDListCompareCallback}

omit [DecidableEq Addr] in
theorem listLast (h : TailLinked self values) :
    Containers.listLast self = some (values.getLast?.getD cdNull) := by
  cases hlast : values.getLast? with
  | none =>
      rw [Containers.listLast, h.empty (List.getLast?_eq_none_iff.mp hlast)]
      rfl
  | some last => exact h.linked.listLast hlast

/-- **`CD_ListSortedPush`** keeps the list exactly when the value goes before another one, or
into an empty list. -/
theorem sortedPush (h : TailLinked self values) {address : Addr}
    (hfresh : self.heap address = none) (data : CDPointer) :
    ∃ next, listSortedPush self address data callback = some next ∧
      (WellLinked next (values.orderedInsert (GoesBefore callback) data) ↔
        values = [] ∨ ∃ other ∈ values, GoesBefore callback data other) := by
  obtain ⟨nodes, ⟨hchain, hnodup, hallocated, -⟩, rfl, hends⟩ := h.linked
  have haddress := hchain.notMem_of_none hfresh
  obtain ⟨next, hinsert, hnext, -, hcount, hchanged, htail⟩ :=
    cdListInsertSorted_spec hchain hnodup hfresh (le_of_eq hallocated.symm) data
  refine ⟨next, hinsert, ?_⟩
  have hlinked : Linked next (nodes.orderedInsert (NodeBefore callback) (address, data)) := by
    refine ⟨hnext, ?_, ?_, fun hunchanged => ?_⟩
    · rw [(addresses_orderedInsert _ _).nodup_iff, List.nodup_cons]
      exact ⟨haddress, hnodup⟩
    · rw [hcount, hallocated, List.orderedInsert_length]
    · rw [hchanged] at hunchanged
      cases hunchanged
  have hvalues : (nodes.orderedInsert (NodeBefore callback) (address, data)).map Prod.snd =
      (nodes.map Prod.snd).orderedInsert (GoesBefore callback) data :=
    List.map_orderedInsert _ _ Prod.snd _ _ (fun _ _ => .rfl) fun _ _ => .rfl
  have hinside : TailInside self nodes := EndsAtTail.tailInside hends
  rw [← hvalues, wellLinked_iff hlinked, endsAtTail_insertSorted hinside haddress htail,
    List.map_eq_nil_iff]
  exact and_iff_right hends

/-- **`CD_ListSort`** keeps the list exactly when the first value becomes the last. -/
theorem sort (h : TailLinked self values) {algorithm : CDListSortAlgorithm} {items : List Addr}
    (hmallocs : ∃ nodes, Chain self.heap none self.head nodes ∧
      SortMallocs self.heap [] [] nodes items) :
    ∃ next events, listSort self algorithm callback items = some (next, events) ∧
      (WellLinked next (insertAll (GoesBefore callback) values) ↔
        KeepsFirst callback [] values) ∧
      (values = [] → next.tail = none) := by
  obtain ⟨nodes, hnodes, rfl, -⟩ := h.linked
  obtain ⟨met, hmet, hmallocs⟩ := hmallocs
  obtain rfl := hnodes.chain.unique hmet
  cases algorithm
  obtain ⟨next, sorted, hsort, hnext, hvalues, hends, hempty⟩ := listSort_spec hnodes hmallocs
  refine ⟨next, _, hsort, ?_, fun hnone => hempty (List.map_eq_nil_iff.mp hnone)⟩
  rw [← hvalues, wellLinked_iff hnext, hends]

end TailLinked

/-! ## Every sequence of calls -/

/-- Lists and the values they should hold, as a system; its events are the values that the
calls push. -/
def sortedListSystem :
    System (CDList Addr × List CDPointer) (SortedOperation Addr) CDPointer where
  init := (createList, [])
  step := fun (self, values) operation =>
    (callSorted self operation).map fun (next, _) =>
      ((next, operation.apply values), operation.pushed)

/-- **One call** has an outcome, returns what it should, and keeps the list exactly when it
keeps the tail. -/
theorem callSorted_iff {self : CDList Addr} {values : List CDPointer}
    (hlinked : TailLinked self values) {operation : SortedOperation Addr}
    (hpossible : operation.Possible self) :
    ∃ next, callSorted self operation = some (next, operation.result values) ∧
      (WellLinked next (operation.apply values) ↔ operation.KeepsTail values) ∧
      (operation.apply values = [] → next.tail = none) := by
  cases operation with
  | push address data =>
      obtain ⟨next, hpush, hnext⟩ := hlinked.linked.push hpossible data
      exact ⟨next, by rw [callSorted, hpush]; rfl, iff_of_true hnext trivial,
        fun h => absurd h (List.concat_ne_nil data values)⟩
  | sortedPush address data callback =>
      obtain ⟨next, hpush, hnext⟩ := hlinked.sortedPush hpossible data
      refine ⟨next, by rw [callSorted, hpush]; rfl, hnext, fun hempty => ?_⟩
      have hlength := List.orderedInsert_length (GoesBefore callback) values data
      rw [SortedOperation.apply] at hempty
      rw [hempty] at hlength
      cases hlength
  | sort algorithm callback items =>
      obtain ⟨next, events, hsort, hnext, hnone⟩ := hlinked.sort hpossible
      refine ⟨next, by rw [callSorted, hsort]; rfl, hnext, fun hempty => hnone ?_⟩
      have hlength := (insertAll_perm (GoesBefore callback) values).length_eq
      rw [SortedOperation.apply] at hempty
      rw [hempty] at hlength
      exact List.eq_nil_of_length_eq_zero hlength.symm
  | last =>
      refine ⟨self, by rw [callSorted, hlinked.listLast]; rfl, iff_of_true hlinked.linked trivial,
        hlinked.empty⟩

/-- **Sorting and pushing compose** in every sequence of calls that keep the tail: the list
holds all that was pushed, a pushed value behind all others, and `CD_ListLast` returns the
value that is met last.  The next call returns what it should, and it leaves the list so
exactly when it keeps the tail. -/
theorem sorted_list_keeps_values {pushed : List CDPointer} {self : CDList Addr}
    {values : List CDPointer}
    (hrun : sortedListSystem.Run (fun state operation =>
      operation.Possible state.1 ∧ operation.KeepsTail state.2) pushed (self, values)) :
    WellLinked self values ∧ values.Perm pushed ∧
      listLast self = some (values.getLast?.getD cdNull) ∧
      ∀ operation : SortedOperation Addr, operation.Possible self →
        ∃ next, callSorted self operation = some (next, operation.result values) ∧
          (WellLinked next (operation.apply values) ↔ operation.KeepsTail values) := by
  have hinvariant : TailLinked self values ∧ values.Perm pushed := by
    refine System.Run.invariant (S := sortedListSystem)
      (I := fun pushed state => TailLinked state.1 state.2 ∧ state.2.Perm pushed)
      ⟨⟨.create, fun _ => rfl⟩, .nil⟩ ?_ hrun
    rintro pushed ⟨self, values⟩ operation next emitted ⟨hlinked, hperm⟩ ⟨hpossible, hkeeps⟩ hstep
    obtain ⟨list, hcall, hlist, hempty⟩ := callSorted_iff hlinked hpossible
    obtain ⟨rfl, rfl⟩ := by simpa [sortedListSystem, hcall] using hstep
    exact ⟨⟨hlist.mpr hkeeps, hempty⟩, (operation.apply_perm values).trans (hperm.append_right _)⟩
  obtain ⟨hlinked, hperm⟩ := hinvariant
  refine ⟨hlinked.linked, hperm, hlinked.listLast, fun operation hpossible => ?_⟩
  obtain ⟨next, hcall, hnext, -⟩ := callSorted_iff hlinked hpossible
  exact ⟨next, hcall, hnext⟩

/-- A sorted push into an empty list, one in front, a push, and a sort that lets the values
go down. -/
def keepingFirst : List (SortedOperation ℕ) :=
  [.sortedPush 1 30 cdListCompare, .sortedPush 2 10 cdListCompare, .push 3 40,
    .sort .sortInsert (fun a b => cdListCompare b a) [4, 2, 1], .last]

theorem sorted_list_keeps_values_mixed :
    ∃ self, sortedListSystem.exec keepingFirst sortedListSystem.init =
        some ((self, [40, 30, 10]), [30, 10, 40]) ∧
      WellLinked self [40, 30, 10] ∧ listLast self = some 10 := by
  have hvalues : (sortedListSystem.exec keepingFirst sortedListSystem.init).map (fun result =>
      (result.1.2, result.2)) = some ([40, 30, 10], [30, 10, 40]) := by
    decide
  have hguard : sortedListSystem.ExecGuard (fun state operation : _ =>
      operation.Possible state.1 ∧ operation.KeepsTail state.2) keepingFirst
        sortedListSystem.init := by
    apply And.intro ⟨rfl, .inl rfl⟩
    apply And.intro ⟨rfl, .inr ⟨30, .head _, by decide⟩⟩
    apply And.intro ⟨rfl, trivial⟩
    -- the second and the third new node lie where old ones lay
    apply And.intro
    · refine ⟨⟨[(2, 10), (1, 30), (3, 40)], ⟨rfl, _, rfl, rfl, _, rfl, rfl, _, rfl, rfl⟩, ?_⟩, ?_⟩
      · exact ⟨.inl rfl, by decide, .inr (by decide), by decide, .inr (by decide), by decide, rfl⟩
      · exact ⟨.inl rfl, .inr ⟨10, by decide, by decide⟩, .inr ⟨30, by decide, by decide⟩, trivial⟩
    exact ⟨⟨trivial, trivial⟩, trivial⟩
  obtain ⟨⟨⟨self, values⟩, pushed⟩, hexec, hstate⟩ := Option.map_eq_some_iff.mp hvalues
  obtain ⟨rfl, rfl⟩ := Prod.mk.inj hstate
  obtain ⟨hlinked, -, hlast, -⟩ :=
    sorted_list_keeps_values (System.Run.exec .start hguard hexec)
  exact ⟨self, hexec, hlinked, hlast⟩

/-! ## Where the tail stays behind -/

/-- A sorted push behind the last value. -/
def pushingBehind : List (SortedOperation ℕ) :=
  [.sortedPush 1 10 cdListCompare, .sortedPush 2 20 cdListCompare]

/-- After 10 and 20 were pushed in this order, `CD_ListLast` returns 10, and a 30 that is pushed
then takes the place of the 20. -/
theorem sorted_push_loses_tail :
    ∃ self next, sortedListSystem.Run (fun state operation => operation.Possible state.1)
        [10, 20] (self, ([10, 20] : List CDPointer)) ∧
      Chain self.heap none self.head [(1, 10), (2, 20)] ∧ listLast self = some 10 ∧
      SortedOperation.Possible self (.push 3 30) ∧ listPush self 3 30 = some next ∧
      Chain next.heap none next.head [(1, 10), (3, 30)] := by
  have hexec : sortedListSystem.exec pushingBehind sortedListSystem.init =
      some ((_, [10, 20]), [10, 20]) := rfl
  have hguard : sortedListSystem.ExecGuard (fun state operation => operation.Possible state.1)
      pushingBehind sortedListSystem.init := ⟨rfl, rfl, trivial⟩
  exact ⟨_, _, System.Run.exec .start hguard hexec,
    ⟨rfl, some 2, rfl, rfl, none, rfl, rfl⟩, rfl, rfl, rfl,
    rfl, some 3, rfl, rfl, none, rfl, rfl⟩

end Craftd.Containers
