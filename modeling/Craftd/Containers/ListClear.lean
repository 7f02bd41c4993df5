import Craftd.Containers.ListTail

/-!
# Clearing a list, and lists whose tail is wrong

A translation of `CD_ListClear`, which takes the value at the head and deletes it until it is
not found any more.

A deletion may leave `tail` at a freed node, and a sorted push, of which a sort is made, at a node
before the last one.  The calls that only follow the links do not notice: deletions,
`CD_ListShift`, sorted pushes, `CD_ListSort`, `CD_ListLength` and `CD_ListClear` go on working, and
a list that was emptied, cleared or sorted may get its tail right again.  So it is enough that
nobody pushes to a list that is not empty while its tail is wrong, and `Use.Safe` says just that.
-/

namespace Craftd.Containers

open LinkedNodes InsertionOrder StepSystem

variable {Addr : Type*} [DecidableEq Addr]

/-! ## The code -/

/-- The inner loop of `CD_ListClear`: it deletes what the deletion before returned. -/
def cdListClearValue : ℕ → CDList Addr → CDPointer → Option (CDList Addr)
  | 0, _, _ => none
  | fuel + 1, self, value => do
      let (self, value) ← cdListDelete self value cdListCompare
      if value ≠ cdNull then cdListClearValue fuel self value else some self

/-- The outer loop of `CD_ListClear`, with the values that are in the array so far.  The array has
room for one value more than the length, for the NULL at its end. -/
def cdListClearLoop (length : ℕ) : ℕ → CDList Addr → List CDPointer →
    Option (CDList Addr × List CDPointer)
  | 0, _, _ => none
  | fuel + 1, self, result =>
      match self.head with
      | none => if result.length < length + 1 then some (self, result) else none
      | some head => do
          let item ← self.heap head
          if result.length < length + 1 then
            let self ← cdListClearValue (self.allocated + 1) self item.value
            cdListClearLoop length fuel self (result ++ [item.value])
          else none

/-- `CD_ListClear`; what stands in the array in front of the NULL at its end. -/
def listClear (self : CDList Addr) : Option (CDList Addr × List CDPointer) := do
  let (self, length) ← listLength self
  cdListClearLoop length (self.allocated + 1) self []

/-! ## Clearing -/

/-- The inner loop deletes one value all along. -/
theorem cdListClearValue_eq (value : CDPointer) (fuel : ℕ) {self : CDList Addr}
    {nodes : List (Addr × CDPointer)} (hlinked : Linked self nodes) :
    cdListClearValue fuel self value = cdListDeleteRest value cdListCompare fuel self := by
  induction fuel generalizing self nodes with
  | zero => rfl
  | succ fuel ih =>
      obtain ⟨next, hdelete, hnext, -⟩ := cdListDelete_spec value cdListCompare hlinked
      rw [firstFound_compare] at hdelete
      rw [cdListClearValue, cdListDeleteRest, hdelete]
      simp only [Option.bind_eq_bind, Option.bind_some]
      by_cases hmem : value ∈ nodes.map Prod.snd
      · rw [if_pos hmem, ih hnext]
      · rw [if_neg hmem, if_neg (not_not_intro rfl), if_neg (not_not_intro rfl)]

omit [DecidableEq Addr] in
private theorem map_filter_found (address : Addr) (value : CDPointer)
    (rest : List (Addr × CDPointer)) :
    (((address, value) :: rest).filter fun node => !found value cdListCompare node.2).map
        Prod.snd = (rest.map Prod.snd).filter fun other => !other == value := by
  have hself : found value cdListCompare value = true := by simp [found_compare]
  rw [List.filter_cons_of_neg (by simp [hself]), List.filter_map, found_compare]
  refine congrArg (List.map Prod.snd) (List.filter_congr fun node _ => ?_)
  rw [Function.comp_apply, Bool.beq_comm]

/-- **The loop** of `CD_ListClear` frees all nodes and adds each value once; the array has room
for all of them. -/
theorem cdListClearLoop_spec (length fuel : ℕ) {self : CDList Addr}
    {nodes : List (Addr × CDPointer)} (result : List CDPointer) (hlinked : Linked self nodes)
    (hvalues : ∀ value ∈ nodes.map Prod.snd, value ≠ cdNull) (hfuel : nodes.length < fuel)
    (hroom : result.length + nodes.length ≤ length) :
    ∃ next, cdListClearLoop length fuel self result =
        some (next, result ++ (nodes.map Prod.snd).eraseDups) ∧ Linked next [] := by
  induction fuel generalizing self nodes result with
  | zero => omega
  | succ fuel ih =>
      cases nodes with
      | nil =>
          have hhead : self.head = none := hlinked.chain
          refine ⟨self, ?_, hlinked⟩
          rw [cdListClearLoop, hhead]
          dsimp only
          rw [if_pos (by omega), List.map_nil, List.eraseDups_nil, List.append_nil]
      | cons first rest =>
          obtain ⟨address, value⟩ := first
          obtain ⟨hhead, next, hnode, -⟩ := id hlinked.chain
          obtain ⟨last, hdelete, hlast, -⟩ :=
            cdListDeleteRest_spec value cdListCompare (self.allocated + 1) hlinked hvalues
              (by rw [hlinked.allocated]; exact Nat.lt_succ_self _)
          rw [← cdListClearValue_eq value _ hlinked] at hdelete
          have hleft := map_filter_found address value rest
          -- the deletions took out the head at least
          have hshorter : (((address, value) :: rest).filter fun node =>
              !found value cdListCompare node.2).length ≤ rest.length := by
            have hfilter := List.length_filter_le (fun other => !other == value)
              (rest.map Prod.snd)
            have hlength := congrArg List.length hleft
            rw [List.length_map] at hfilter hlength
            omega
          rw [List.length_cons] at hfuel hroom
          obtain ⟨cleared, hloop, hcleared⟩ := ih (result ++ [value]) hlast
            (fun other hother => hvalues other ((List.filter_sublist.map Prod.snd).subset hother))
            (by omega) (by rw [List.length_append, List.length_singleton]; omega)
          refine ⟨cleared, ?_, hcleared⟩
          rw [cdListClearLoop, hhead]
          simp only [hnode, Option.bind_eq_bind, Option.bind_some]
          rw [if_pos (by omega), hdelete, Option.bind_some, hloop, hleft, List.map_cons,
            List.eraseDups_cons, List.append_assoc]
          rfl

omit [DecidableEq Addr] in
/-- `CD_ListLength` counts the nodes, whatever the tail is. -/
theorem Linked.listLength {self : CDList Addr} {nodes : List (Addr × CDPointer)}
    (hlinked : Linked self nodes) :
    ∃ next, Containers.listLength self = some (next, nodes.length) ∧ Linked next nodes := by
  rw [Containers.listLength]
  cases hchanged : self.changed with
  | false =>
      refine ⟨self, ?_, hlinked⟩
      rw [if_neg Bool.false_ne_true, hlinked.cached hchanged]
  | true =>
      have hcount := cdListCount_chain hlinked.chain (le_of_eq hlinked.allocated.symm)
      refine ⟨{ self with length := nodes.length, changed := false }, ?_, ?_⟩
      · rw [if_pos rfl, hcount]
        rfl
      · exact { hlinked with cached := fun _ => rfl }

/-- `CD_ListClear` frees every node, whatever the tail is, and returns each value once. -/
theorem listClear_spec {self : CDList Addr} {nodes : List (Addr × CDPointer)}
    (hlinked : Linked self nodes) (hvalues : ∀ value ∈ nodes.map Prod.snd, value ≠ cdNull) :
    ∃ next, listClear self = some (next, (nodes.map Prod.snd).eraseDups) ∧ Linked next [] := by
  obtain ⟨counted, hlength, hcounted⟩ := hlinked.listLength
  obtain ⟨next, hloop, hnext⟩ := cdListClearLoop_spec nodes.length
    (counted.allocated + 1) [] hcounted hvalues
    (by rw [hcounted.allocated]; exact Nat.lt_succ_self _) (by rw [List.length_nil, Nat.zero_add])
  refine ⟨next, ?_, hnext⟩
  rw [listClear, hlength]
  exact hloop

/-! ## Calls that do not need the tail -/

omit [DecidableEq Addr] in
theorem Linked.wellLinked_nil {self : CDList Addr} (hlinked : Linked self []) :
    WellLinked self [] := by
  refine ⟨[], hlinked, rfl, fun last hlast => ?_⟩
  simp at hlast

theorem Linked.shift {self : CDList Addr} {nodes : List (Addr × CDPointer)}
    (hlinked : Linked self nodes) :
    ∃ next left, listShift self = some (next, (nodes.map Prod.snd).headD cdNull) ∧
      Linked next left ∧ left.map Prod.snd = (nodes.map Prod.snd).tail := by
  cases nodes with
  | nil =>
      have hhead : self.head = none := hlinked.chain
      refine ⟨{ self with changed := true }, [], ?_, ?_, rfl⟩
      · rw [listShift, hhead]
        rfl
      · exact { hlinked with cached := fun hsame => by cases hsame }
  | cons first rest =>
      obtain ⟨address, value⟩ := first
      have hfound : found value cdListCompare value = true := by simp [found_compare]
      obtain ⟨hhead, follower, hnode, -⟩ := hlinked.chain
      obtain ⟨next, hdelete, hnext, -⟩ := cdListDelete_spec value cdListCompare hlinked
      have herase : ((address, value) :: rest).eraseP (fun node =>
          found value cdListCompare node.2) = rest := List.eraseP_cons_of_pos hfound
      rw [herase] at hnext
      rw [List.map_cons, firstFound_cons_of_pos (cdListCompare_eq_zero.mpr rfl)] at hdelete
      refine ⟨{ next with changed := true }, rest, ?_, ?_, rfl⟩
      · simp [listShift, hhead, hnode, hdelete]
      · exact { hnext with cached := fun hsame => by cases hsame }

/-- **One call** that is no push has an outcome and returns what it should, whatever the tail
is. -/
theorem call_linked {self : CDList Addr} {nodes : List (Addr × CDPointer)}
    (hlinked : Linked self nodes) (hvalues : ∀ value ∈ nodes.map Prod.snd, value ≠ cdNull)
    {operation : Operation Addr} (hpossible : operation.Possible self)
    (hpush : ∀ address data, operation ≠ .push address data) :
    ∃ next left, call self operation = some (next, operation.result (nodes.map Prod.snd)) ∧
      Linked next left ∧ left.map Prod.snd = operation.apply (nodes.map Prod.snd) := by
  -- both kinds of deletion act on the values as on the nodes, whatever the tail is
  have hdeleteIf : ∀ (data : CDPointer) (callback : CDListCompareCallback),
      ∃ next left, cdListDelete self data callback =
          some (next, firstFound data callback (nodes.map Prod.snd)) ∧ Linked next left ∧
        left.map Prod.snd = (nodes.map Prod.snd).eraseP (found data callback) := by
    intro data callback
    obtain ⟨next, hdelete, hnext, -⟩ := cdListDelete_spec data callback hlinked
    exact ⟨next, _, hdelete, hnext, by rw [List.eraseP_map]; rfl⟩
  have hdeleteAllIf : ∀ (data : CDPointer) (callback : CDListCompareCallback),
      ∃ next left, listDeleteAllIf self data callback =
          some (next, firstFound data callback (nodes.map Prod.snd)) ∧ Linked next left ∧
        left.map Prod.snd = (nodes.map Prod.snd).filter (!found data callback ·) := by
    intro data callback
    obtain ⟨next, hdelete, hnext, -⟩ := listDeleteAllIf_spec data callback hlinked hvalues
    exact ⟨next, _, hdelete, hnext, by rw [List.filter_map]; rfl⟩
  cases operation with
  | push address data => exact absurd rfl (hpush address data)
  | shift => exact hlinked.shift
  | delete data =>
      obtain ⟨next, left, hdelete, hnext, hleft⟩ := hdeleteIf data cdListCompare
      refine ⟨next, left, (if_neg hpossible).trans (hdelete.trans ?_), hnext, ?_⟩
      · rw [firstFound_compare]
        rfl
      · rw [hleft, found_compare, Operation.apply, List.erase_eq_eraseP]
  | deleteIf data callback =>
      obtain ⟨next, left, hdelete, hnext, hleft⟩ := hdeleteIf data callback
      exact ⟨next, left, (if_neg hpossible).trans hdelete, hnext, hleft⟩
  | deleteAll data =>
      obtain ⟨next, left, hdelete, hnext, hleft⟩ := hdeleteAllIf data cdListCompare
      refine ⟨next, left, hdelete.trans ?_, hnext, ?_⟩
      · rw [firstFound_compare]
        rfl
      · rw [hleft, found_compare]
        rfl
  | deleteAllIf data callback => exact hdeleteAllIf data callback

/-- `CD_ListSortedPush` inserts a node, and sets the tail on an empty list only. -/
theorem Linked.sortedPush {self : CDList Addr} {nodes : List (Addr × CDPointer)}
    (hlinked : Linked self nodes) {address : Addr} (hfresh : self.heap address = none)
    (data : CDPointer) (callback : CDListCompareCallback) :
    ∃ next, listSortedPush self address data callback = some next ∧
      Linked next (nodes.orderedInsert (NodeBefore callback) (address, data)) ∧
      next.tail = if nodes = [] then some address else self.tail := by
  obtain ⟨next, hinsert, hchain, -, hcount, hchanged, htail⟩ := cdListInsertSorted_spec
    hlinked.chain hlinked.nodup hfresh (le_of_eq hlinked.allocated.symm) data
  refine ⟨next, hinsert, ⟨hchain, ?_, ?_, fun hunchanged => ?_⟩, htail⟩
  · rw [(addresses_orderedInsert _ _).nodup_iff, List.nodup_cons]
    exact ⟨hlinked.chain.notMem_of_none hfresh, hlinked.nodup⟩
  · rw [hcount, hlinked.allocated, List.orderedInsert_length]
  · rw [hchanged] at hunchanged
    cases hunchanged

/-! ## Every sequence of uses -/

/-- What is done with a list, with the addresses that `CD_malloc` returned. -/
inductive Use (Addr : Type*)
  | call (operation : Operation Addr)
  | sortedPush (address : Addr) (data : CDPointer) (callback : CDListCompareCallback)
  | sort (algorithm : CDListSortAlgorithm) (callback : CDListCompareCallback) (items : List Addr)
  | clear

/-- A list, the values it should hold, and whether no call has left the tail wrong. -/
structure UsedList (Addr : Type*) where
  list : CDList Addr
  values : List CDPointer
  tailRight : Bool

instance KeepsFirst.decidable (callback : CDListCompareCallback) :
    ∀ earlier values, Decidable (KeepsFirst callback earlier values)
  | _, [] => isTrue trivial
  | earlier, value :: rest =>
      have := KeepsFirst.decidable callback (value :: earlier) rest
      have : Decidable (∃ other ∈ earlier, GoesBefore callback value other) := List.decidableBEx _ _
      inferInstanceAs (Decidable (_ ∧ _))

namespace Use

/-- The values after a use. -/
def apply (values : List CDPointer) : Use Addr → List CDPointer
  | .call operation => operation.apply values
  | .sortedPush _ data callback => values.orderedInsert (GoesBefore callback) data
  | .sort _ callback _ => insertAll (GoesBefore callback) values
  | .clear => []

/-- What a use returns: `CD_ListClear` an array, the others one value (`cdNull` where they return
the list itself). -/
def result (values : List CDPointer) : Use Addr → List CDPointer
  | .call operation => [operation.result values]
  | .sortedPush _ _ _ | .sort _ _ _ => [cdNull]
  | .clear => values.eraseDups

/-- Whether the tail is right after a use.  An empty list has none to be wrong, and a sort makes a
new one. -/
def tailRight (state : UsedList Addr) : Use Addr → Bool
  | .call operation =>
      (state.tailRight || state.values.isEmpty) && decide (operation.KeepsTail state.values)
  | .sortedPush _ data callback =>
      (state.tailRight || state.values.isEmpty) &&
        (state.values.isEmpty ||
          state.values.any fun other => decide (GoesBefore callback data other))
  | .sort _ callback _ => decide (KeepsFirst callback [] state.values)
  | .clear => true

/-- **The safe uses**: what a caller and `CD_malloc` promise anyway, and no push to a list with
values while its tail is wrong. -/
def Safe (state : UsedList Addr) : Use Addr → Prop
  | .call (.push address data) =>
      (Operation.push address data).Possible state.list ∧
        (state.tailRight = true ∨ state.values = [])
  | .call operation => operation.Possible state.list
  | .sortedPush address data _ => state.list.heap address = none ∧ data ≠ cdNull
  | .sort _ _ items => ∃ nodes, Chain state.list.heap none state.list.head nodes ∧
      SortMallocs state.list.heap [] [] nodes items
  | .clear => True

omit [DecidableEq Addr] in
theorem Safe.possible {state : UsedList Addr} {operation : Operation Addr}
    (hsafe : (Use.call operation).Safe state) : operation.Possible state.list := by
  cases operation with
  | push address data => exact hsafe.1
  | shift => trivial
  | delete data => exact hsafe
  | deleteIf data callback => exact hsafe
  | deleteAll data => exact hsafe
  | deleteAllIf data callback => exact hsafe

/-- The list after a use, and what it returned. -/
def run (self : CDList Addr) : Use Addr → Option (CDList Addr × List CDPointer)
  | .call operation => (Containers.call self operation).map fun (self, result) => (self, [result])
  | .sortedPush address data callback =>
      (listSortedPush self address data callback).map fun self => (self, [cdNull])
  | .sort algorithm callback items =>
      (listSort self algorithm callback items).map fun (self, _) => (self, [cdNull])
  | .clear => listClear self

end Use

/-- Lists in use, as a system; its events are what the uses return. -/
def useSystem : System (UsedList Addr) (Use Addr) (List CDPointer) where
  init := ⟨createList, [], true⟩
  step := fun state use =>
    (use.run state.list).map fun (next, result) =>
      (⟨next, use.apply state.values, use.tailRight state⟩, [result])

/-- What holds of a list in use: its links are right, it holds no NULL, and its tail is the last
node unless a call left it wrong. -/
structure UsedList.Right (state : UsedList Addr) : Prop where
  linked : ∃ nodes, Linked state.list nodes ∧ nodes.map Prod.snd = state.values
  values : ∀ value ∈ state.values, value ≠ cdNull
  tail : state.tailRight = true → WellLinked state.list state.values

namespace UsedList.Right

omit [DecidableEq Addr] in
theorem create : UsedList.Right (⟨createList, [], true⟩ : UsedList Addr) where
  linked := ⟨[], ⟨rfl, .nil, rfl, fun _ => rfl⟩, rfl⟩
  values := fun value hmem => by cases hmem
  tail := fun _ => .create

variable {state : UsedList Addr}

omit [DecidableEq Addr] in
theorem wellLinked (hright : state.Right)
    (htail : (state.tailRight || state.values.isEmpty) = true) :
    WellLinked state.list state.values := by
  rcases Bool.or_eq_true_iff.mp htail with htail | hempty
  · exact hright.tail htail
  · obtain ⟨nodes, hlinked, hnodes⟩ := hright.linked
    have hnone := List.isEmpty_iff.mp hempty
    obtain rfl := List.map_eq_nil_iff.mp (hnodes.trans hnone)
    rw [hnone]
    exact hlinked.wellLinked_nil

/-- **One call** that is safe. -/
theorem call (hright : state.Right) {operation : Operation Addr}
    (hsafe : (Use.call operation).Safe state) :
    ∃ next, Containers.call state.list operation =
        some (next, operation.result state.values) ∧
      UsedList.Right ⟨next, operation.apply state.values,
        (Use.call operation).tailRight state⟩ := by
  have hpossible := hsafe.possible
  have hvalues := apply_ne_null hright.values hpossible
  by_cases htail : (Use.call operation).tailRight state = true
  · obtain ⟨hbefore, hkeeps⟩ := Bool.and_eq_true_iff.mp htail
    obtain ⟨next, hcall, hnext⟩ := call_wellLinked (hright.wellLinked hbefore) hright.values
      hpossible (of_decide_eq_true hkeeps)
    obtain ⟨nodes, hlinked, hnodes, -⟩ := id hnext
    exact ⟨next, hcall, ⟨⟨nodes, hlinked, hnodes⟩, hvalues, fun _ => hnext⟩⟩
  · -- a safe push leaves the tail right
    have hpush : ∀ address data, operation ≠ .push address data := by
      intro address data heq
      subst heq
      have hbefore : (state.tailRight || state.values.isEmpty) = true := by simpa using hsafe.2
      exact htail (Bool.and_eq_true_iff.mpr ⟨hbefore, decide_eq_true trivial⟩)
    obtain ⟨nodes, hlinked, hnodes⟩ := hright.linked
    obtain ⟨next, left, hcall, hnext, hleft⟩ :=
      call_linked hlinked (hnodes ▸ hright.values) hpossible hpush
    rw [hnodes] at hcall hleft
    exact ⟨next, hcall, ⟨⟨left, hnext, hleft⟩, hvalues, fun hright => absurd hright htail⟩⟩

/-- **A sorted push** that is safe. -/
theorem sortedPush (hright : state.Right) {address : Addr} {data : CDPointer}
    {callback : CDListCompareCallback} (hsafe : (Use.sortedPush address data callback).Safe state) :
    ∃ next, listSortedPush state.list address data callback = some next ∧
      UsedList.Right ⟨next, state.values.orderedInsert (GoesBefore callback) data,
        (Use.sortedPush address data callback).tailRight state⟩ := by
  obtain ⟨nodes, hlinked, hnodes⟩ := hright.linked
  obtain ⟨next, hpush, hnext, hnextTail⟩ := hlinked.sortedPush hsafe.1 data callback
  have hvalues : (nodes.orderedInsert (NodeBefore callback) (address, data)).map Prod.snd =
      state.values.orderedInsert (GoesBefore callback) data := by
    rw [← hnodes]
    exact List.map_orderedInsert _ _ Prod.snd _ _ (fun _ _ => .rfl) fun _ _ => .rfl
  refine ⟨next, hpush, ⟨⟨_, hnext, hvalues⟩, fun value hmem => ?_, fun htail => ?_⟩⟩
  · rcases List.mem_cons.mp ((List.perm_orderedInsert _ _ _).subset hmem) with heq | hold
    · exact heq ▸ hsafe.2
    · exact hright.values value hold
  · obtain ⟨hbefore, hgoes⟩ := Bool.and_eq_true_iff.mp htail
    have hgoes' : state.values = [] ∨ ∃ other ∈ state.values, GoesBefore callback data other := by
      simpa only [Bool.or_eq_true, List.isEmpty_iff, List.any_eq_true, decide_eq_true_eq]
        using hgoes
    have hends : EndsAtTail state.list nodes :=
      (wellLinked_iff hlinked).mp (hnodes ▸ hright.wellLinked hbefore)
    rw [← hnodes, List.map_eq_nil_iff] at hgoes'
    dsimp only
    rw [← hvalues, wellLinked_iff hnext]
    exact (endsAtTail_insertSorted hends.tailInside (hlinked.chain.notMem_of_none hsafe.1)
      hnextTail).mpr ⟨hends, hgoes'⟩

/-- **A sort** with what `CD_malloc` may return. -/
theorem sort (hright : state.Right) {algorithm : CDListSortAlgorithm}
    {callback : CDListCompareCallback} {items : List Addr}
    (hsafe : (Use.sort algorithm callback items).Safe state) :
    ∃ next events, listSort state.list algorithm callback items = some (next, events) ∧
      UsedList.Right ⟨next, insertAll (GoesBefore callback) state.values,
        (Use.sort algorithm callback items).tailRight state⟩ := by
  obtain ⟨nodes, hlinked, hnodes⟩ := hright.linked
  obtain ⟨met, hmet, hmallocs⟩ := hsafe
  obtain rfl := hlinked.chain.unique hmet
  cases algorithm
  obtain ⟨next, sorted, hsort, hnext, hvalues, hends, -⟩ : ∃ next sorted,
      listSort state.list .sortInsert callback items = some (next, sortEvents nodes) ∧
      Linked next sorted ∧
      sorted.map Prod.snd = insertAll (GoesBefore callback) (nodes.map Prod.snd) ∧
      (EndsAtTail next sorted ↔ KeepsFirst callback [] (nodes.map Prod.snd)) ∧
      (nodes = [] → next.tail = none) := listSort_spec hlinked hmallocs
  rw [hnodes] at hvalues hends
  refine ⟨next, _, hsort, ⟨⟨sorted, hnext, hvalues⟩, fun value hmem => ?_, fun htail => ?_⟩⟩
  · exact hright.values value ((insertAll_perm (GoesBefore callback) _).subset hmem)
  · dsimp only
    rw [← hvalues, wellLinked_iff hnext]
    exact hends.mpr (of_decide_eq_true htail)

/-- **One use** that is safe has an outcome, returns what it should and keeps the list right. -/
theorem run (hright : state.Right) {action : Use Addr} (hsafe : action.Safe state) :
    ∃ next, action.run state.list = some (next, action.result state.values) ∧
      UsedList.Right ⟨next, action.apply state.values, action.tailRight state⟩ := by
  cases action with
  | call operation =>
      obtain ⟨next, hcall, hnext⟩ := hright.call hsafe
      exact ⟨next, by rw [Use.run, hcall]; rfl, hnext⟩
  | sortedPush address data callback =>
      obtain ⟨next, hpush, hnext⟩ := hright.sortedPush hsafe
      exact ⟨next, by rw [Use.run, hpush]; rfl, hnext⟩
  | sort algorithm callback items =>
      obtain ⟨next, events, hsort, hnext⟩ := hright.sort hsafe
      exact ⟨next, by rw [Use.run, hsort]; rfl, hnext⟩
  | clear =>
      obtain ⟨nodes, hlinked, hnodes⟩ := hright.linked
      obtain ⟨next, hclear, hnext⟩ := listClear_spec hlinked (hnodes ▸ hright.values)
      rw [hnodes] at hclear
      refine ⟨next, hclear, ⟨⟨[], hnext, rfl⟩, fun value hmem => ?_, fun _ => ?_⟩⟩
      · cases hmem
      · exact hnext.wellLinked_nil

end UsedList.Right

/-- **Lists whose tail may be wrong.**  In every sequence of calls, sorts and clearings that never
pushes to a list with values while its tail is wrong, the list holds the values it should, counts
them right, and its tail is the last node unless a deletion, a sorted push or a sort left it wrong;
the next safe use has an outcome and returns what it should, a clearing each value once in the
order in which they stood. -/
theorem list_survives_wrong_tail {results : List (List CDPointer)} {state : UsedList Addr}
    (hrun : useSystem.Run (fun state use => use.Safe state) results state) :
    (∃ next, listLength state.list = some (next, state.values.length)) ∧
      (state.tailRight = true → WellLinked state.list state.values) ∧
      ∀ use : Use Addr, use.Safe state →
        ∃ next, use.run state.list = some (next, use.result state.values) := by
  have hright : state.Right := by
    refine System.Run.invariant (S := useSystem) (I := fun _ state => state.Right)
      .create (fun _ state action next emitted hright hsafe hstep => ?_) hrun
    obtain ⟨list, hlist, hnext⟩ := hright.run hsafe
    obtain ⟨rfl, -⟩ := by simpa [useSystem, hlist] using hstep
    exact hnext
  obtain ⟨nodes, hlinked, hnodes⟩ := hright.linked
  obtain ⟨next, hlength, -⟩ := hlinked.listLength
  refine ⟨⟨next, ?_⟩, hright.tail, fun use hsafe => ?_⟩
  · rw [hlength, ← hnodes, List.length_map]
  · obtain ⟨next, hlist, -⟩ := hright.run hsafe
    exact ⟨next, hlist⟩

/-- `Use.Safe`, of the uses that do not sort. -/
def Use.check (state : UsedList Addr) : Use Addr → Bool
  | .call (.push address data) =>
      (state.list.heap address).isNone && decide (data ≠ cdNull) &&
        (state.tailRight || state.values.isEmpty)
  | .call operation => decide (operation.Possible state.list)
  | .sortedPush address data _ =>
      (state.list.heap address).isNone && decide (data ≠ cdNull)
  | .sort _ _ _ => false
  | .clear => true

omit [DecidableEq Addr] in
theorem Use.check_safe (state : UsedList Addr) (use : Use Addr) (hcheck : use.check state = true) :
    use.Safe state := by
  cases use with
  | call operation =>
      cases operation with
      | push address data => simpa [Use.check, Use.Safe, Operation.Possible, and_assoc] using hcheck
      | shift => trivial
      | delete data => simpa [Use.check, Use.Safe] using hcheck
      | deleteIf data callback => simpa [Use.check, Use.Safe] using hcheck
      | deleteAll data => simpa [Use.check, Use.Safe] using hcheck
      | deleteAllIf data callback => simpa [Use.check, Use.Safe] using hcheck
  | sortedPush address data callback => simpa [Use.check, Use.Safe] using hcheck
  | sort algorithm callback items => cases hcheck
  | clear => trivial

/-- A sorted push behind the last value, and a deletion of the last: both leave the tail wrong.  The
list is cleared, and pushed to at the address that was freed first. -/
def clearing : List (Use ℕ) :=
  [.call (.push 1 10), .call (.push 2 10), .sortedPush 3 20 cdListCompare, .call (.delete 20),
    .clear, .call (.push 3 30)]

theorem list_survives_wrong_tail_clearing :
    ∃ list, useSystem.exec clearing useSystem.init =
        some (⟨list, [30], true⟩, [[0], [0], [0], [20], [10], [0]]) ∧
      (∃ next, listLength list = some (next, 1)) ∧ (true = true → WellLinked list [30]) ∧
      ∀ use : Use ℕ, use.Safe ⟨list, [30], true⟩ →
        ∃ next, use.run list = some (next, use.result [30]) := by
  have hvalues : (useSystem.exec clearing useSystem.init).map (fun result =>
      (result.1.values, result.1.tailRight, result.2)) =
      some ([30], true, [[0], [0], [0], [20], [10], [0]]) := by
    decide
  have hcheck : useSystem.ExecGuard (fun state use : _ => use.check state = true) clearing
      useSystem.init := by
    decide
  have hguard := System.ExecGuard.mono Use.check_safe hcheck
  obtain ⟨⟨⟨list, values, tailRight⟩, results⟩, hexec, heq⟩ := Option.map_eq_some_iff.mp hvalues
  simp only [Prod.mk.injEq] at heq
  obtain ⟨rfl, rfl, rfl⟩ := heq
  exact ⟨list, hexec, list_survives_wrong_tail (System.Run.exec .start hguard hexec)⟩

end Craftd.Containers
