import Craftd.Containers.List

/-!
# The links of a list

`WellLinked self values` is the representation of a list: following `next` from
`head` one meets live nodes that hold `values`, each linked back to the one
before it, and `tail` is the last of them when there is one.

`cd_ListDelete` never moves `tail`.  A deletion that takes out the last node and
leaves others before it therefore breaks the representation: `tail` points at
freed memory, and the next push hangs its node there.  `KeepsTail` says of a call
that it does not do that, and every sequence of calls that do not keeps the list
well linked.
-/

namespace Craftd.Containers

open LinkedNodes StepSystem

variable {Addr : Type*} [DecidableEq Addr]

/-- A node whose value the callback takes for the data. -/
def found (data : CDPointer) (callback : CDListCompareCallback) (value : CDPointer) : Bool :=
  callback data value = 0

/-- What a deletion returns: the first value found. -/
def firstFound (data : CDPointer) (callback : CDListCompareCallback) (values : List CDPointer) :
    CDPointer :=
  (values.find? (found data callback)).getD cdNull

theorem firstFound_cons_of_pos {data value : CDPointer} {callback : CDListCompareCallback}
    (hfound : callback data value = 0) (values : List CDPointer) :
    firstFound data callback (value :: values) = value := by
  rw [firstFound, List.find?_cons_of_pos (by simpa [found] using hfound), Option.getD_some]

theorem firstFound_cons_of_neg {data value : CDPointer} {callback : CDListCompareCallback}
    (hfound : callback data value ≠ 0) (values : List CDPointer) :
    firstFound data callback (value :: values) = firstFound data callback values := by
  rw [firstFound, firstFound, List.find?_cons_of_neg (by simpa [found] using hfound)]

theorem cdListCompare_eq_zero {a b : CDPointer} : cdListCompare a b = 0 ↔ a = b := by
  unfold cdListCompare
  have h : ¬b.slt a ∧ ¬a.slt b ↔ a = b := by
    simp only [BitVec.slt, decide_eq_true_eq, ← BitVec.toInt_inj]
    omega
  by_cases hba : b.slt a <;> by_cases hab : a.slt b <;> simp_all

/-! ## Representation -/

/-- The links of a list whose nodes are `nodes`, the tail apart. -/
structure Linked (list : CDList Addr) (nodes : List (Addr × CDPointer)) : Prop where
  chain : Chain list.heap none list.head nodes
  nodup : (nodes.map Prod.fst).Nodup
  allocated : list.allocated = nodes.length
  cached : list.changed = false → list.length = nodes.length

/-- The representation of a list. -/
def WellLinked (self : CDList Addr) (values : List CDPointer) : Prop :=
  ∃ nodes, Linked self nodes ∧ nodes.map Prod.snd = values ∧
    ∀ last, nodes.getLast? = some last → self.tail = some last.1

/-- What the loop of `cd_ListDelete` does behind the node it stands on. -/
theorem cdListDeleteLoop_spec (data : CDPointer) (callback : CDListCompareCallback) (fuel : ℕ)
    {self : CDList Addr} {prev : Option Addr} {item : Addr} {value : CDPointer}
    {rest : List (Addr × CDPointer)}
    (hchain : Chain self.heap prev (some item) ((item, value) :: rest))
    (hnodup : (((item, value) :: rest).map Prod.fst).Nodup)
    (hallocated : rest.length < self.allocated) (hfuel : rest.length < fuel) :
    ∃ self', cdListDeleteLoop self data callback fuel item =
        some (self', firstFound data callback (rest.map Prod.snd)) ∧
      Chain self'.heap prev (some item)
        ((item, value) :: rest.eraseP fun node => found data callback node.2) ∧
      (∀ other, other ∉ ((item, value) :: rest).map Prod.fst →
        self'.heap other = self.heap other) ∧
      self'.head = self.head ∧ self'.tail = self.tail ∧ self'.length = self.length ∧
      self'.allocated + rest.length =
        self.allocated + (rest.eraseP fun node => found data callback node.2).length ∧
      (self'.changed = false →
        self.changed = false ∧ rest.eraseP (fun node => found data callback node.2) = rest) := by
  induction fuel generalizing prev item value rest with
  | zero => omega
  | succ fuel ih =>
      obtain ⟨-, next, hnode, hrest⟩ := hchain
      cases rest with
      | nil =>
          obtain rfl : next = none := hrest
          refine ⟨self, ?_, ⟨rfl, none, hnode, rfl⟩, fun _ _ => rfl, rfl, rfl, rfl, rfl, ?_⟩
          · simp [cdListDeleteLoop, hnode, firstFound]
          · simp
      | cons second later =>
          obtain ⟨address, secondValue⟩ := second
          obtain ⟨rfl, next, hsecond, hlater⟩ := hrest
          have hitem : item ∉ ((address, secondValue) :: later).map Prod.fst :=
            (List.nodup_cons.mp hnodup).1
          have hnodup' : (((address, secondValue) :: later).map Prod.fst).Nodup :=
            (List.nodup_cons.mp hnodup).2
          have haddress : address ∉ later.map Prod.fst := (List.nodup_cons.mp hnodup').1
          have hne : item ≠ address := fun heq => hitem (by simp [heq])
          have hitemLater : item ∉ later.map Prod.fst := fun hmem => hitem (.tail _ hmem)
          by_cases hfound : callback data secondValue = 0
          · -- the node ahead is taken out
            obtain ⟨heap, hrelink, hrelinked, hframe⟩ :=
              (hlater.update_of_notMem hitemLater (some ⟨next, prev, value⟩)).relink
                (List.nodup_cons.mp hnodup').2 (some item)
            have hfree := hrelinked.update_of_notMem haddress none
            refine ⟨{ ({ self with heap := heap }.free address) with changed := true }, ?_,
              ⟨rfl, next, ?_, ?_⟩, fun other hother => ?_, rfl, rfl, rfl, ?_, ?_⟩
            · simp only [cdListDeleteLoop, hnode, hsecond, hfound, hrelink, Option.bind_eq_bind,
                Option.bind_some, if_true]
              rw [List.map_cons, firstFound_cons_of_pos hfound]
            · simp only [CDList.free]
              rw [Function.update_of_ne hne, hframe item hitemLater, Function.update_self]
            · simpa [found, hfound, CDList.free] using hfree
            · simp only [List.map_cons, List.mem_cons, not_or] at hother
              simp only [CDList.free]
              rw [Function.update_of_ne hother.2.1, hframe other hother.2.2,
                Function.update_of_ne hother.1]
            · simp [found, hfound, CDList.free] at hallocated ⊢
              omega
            · simp
          · obtain ⟨self', hloop, hchain', hframe, hhead, htail, hlength, hcount, hchanged⟩ :=
              ih ⟨rfl, next, hsecond, hlater⟩ hnodup' (by simp at hallocated; omega)
                (by simp at hfuel; omega)
            have herase : (((address, secondValue) :: later).eraseP fun node =>
                found data callback node.2) =
                (address, secondValue) :: later.eraseP fun node => found data callback node.2 :=
              List.eraseP_cons_of_neg (by simpa [found] using hfound)
            refine ⟨self', ?_, ⟨rfl, some address, ?_, ?_⟩, fun other hother => ?_, hhead, htail,
              hlength, ?_, fun hsame => ?_⟩
            · simp only [cdListDeleteLoop, hnode, hsecond, hfound, Option.bind_eq_bind,
                Option.bind_some, if_false, hloop]
              rw [List.map_cons, firstFound_cons_of_neg hfound]
            · rw [hframe item hitem, hnode]
            · rw [herase]
              exact hchain'
            · exact hframe other fun hmem => hother (.tail _ hmem)
            · rw [herase, List.length_cons, List.length_cons]
              omega
            · exact ⟨(hchanged hsame).1, by rw [herase, (hchanged hsame).2]⟩

/-- `cd_ListDelete` takes out the first node found and leaves `tail` alone. -/
theorem cdListDelete_spec (data : CDPointer) (callback : CDListCompareCallback)
    {self : CDList Addr} {nodes : List (Addr × CDPointer)} (hlinked : Linked self nodes) :
    ∃ self', cdListDelete self data callback =
        some (self', firstFound data callback (nodes.map Prod.snd)) ∧
      Linked self' (nodes.eraseP fun node => found data callback node.2) ∧
      self'.tail = self.tail := by
  obtain ⟨hchain, hnodup, hallocated, hcached⟩ := hlinked
  cases nodes with
  | nil =>
      have hhead : self.head = none := hchain
      exact ⟨self, by rw [cdListDelete, hhead]; rfl, ⟨hchain, hnodup, hallocated, hcached⟩, rfl⟩
  | cons first rest =>
      obtain ⟨address, value⟩ := first
      obtain ⟨hhead, next, hnode, hrest⟩ := id hchain
      obtain ⟨haddress, hnodupRest⟩ := List.nodup_cons.mp hnodup
      by_cases hfound : callback data value = 0
      -- the head is taken out, and the rest is relinked to nothing in front of it
      · obtain ⟨heap, hrelink, hrelinked, -⟩ := hrest.relink hnodupRest none
        refine ⟨{ self with head := next, heap := heap, changed := true }.free address, ?_,
          ⟨?_, ?_, ?_, fun hsame => by simp [CDList.free] at hsame⟩, rfl⟩
        · simp only [cdListDelete, hhead, hnode, hfound, hrelink, Option.bind_eq_bind,
            Option.bind_some, if_true]
          rw [List.map_cons, firstFound_cons_of_pos hfound]
        · simpa [found, hfound, CDList.free] using hrelinked.update_of_notMem haddress none
        · simpa [found, hfound] using hnodupRest
        · simp [found, hfound, CDList.free, hallocated]
      -- the loop goes on behind the head
      · obtain ⟨self', hloop, hchain', -, hhead', htail, hlength, hcount, hchanged⟩ :=
          cdListDeleteLoop_spec data callback self.allocated (hhead ▸ hchain) hnodup
            (by rw [hallocated]; exact Nat.lt_succ_self _)
            (by rw [hallocated]; exact Nat.lt_succ_self _)
        have herase : (((address, value) :: rest).eraseP fun node =>
            found data callback node.2) =
            (address, value) :: rest.eraseP fun node => found data callback node.2 :=
          List.eraseP_cons_of_neg (by simpa [found] using hfound)
        refine ⟨self', ?_, ⟨?_, ?_, ?_, fun hsame => ?_⟩, htail⟩
        · simp only [cdListDelete, hhead, hnode, hfound, Option.bind_eq_bind, Option.bind_some,
            if_false, hloop]
          rw [List.map_cons, firstFound_cons_of_neg hfound]
        · rw [herase, hhead', hhead]
          exact hchain'
        · exact hnodup.sublist (List.eraseP_sublist.map _)
        · rw [herase, List.length_cons]
          rw [hallocated, List.length_cons] at hcount
          omega
        · rw [herase, (hchanged hsame).2, hlength]
          exact hcached (hchanged hsame).1

theorem filter_eraseP {Member : Type*} (p : Member → Bool) (members : List Member) :
    (members.eraseP p).filter (fun member => !p member) =
      members.filter fun member => !p member := by
  induction members with
  | nil => rfl
  | cons member rest ih =>
      by_cases hmember : p member
      · simp [List.eraseP_cons_of_pos hmember, hmember]
      · rw [List.eraseP_cons_of_neg hmember, List.filter_cons, List.filter_cons, ih]

omit [DecidableEq Addr] in
/-- A deletion returns NULL when nothing is found, and otherwise makes the list
shorter. -/
theorem firstFound_cases (data : CDPointer) (callback : CDListCompareCallback)
    (nodes : List (Addr × CDPointer)) (hvalues : ∀ value ∈ nodes.map Prod.snd, value ≠ cdNull) :
    (firstFound data callback (nodes.map Prod.snd) = cdNull ∧
        ∀ node ∈ nodes, found data callback node.2 = false) ∨
      (firstFound data callback (nodes.map Prod.snd) ≠ cdNull ∧
        (nodes.eraseP fun node => found data callback node.2).length < nodes.length) := by
  rw [firstFound]
  cases hfind : (nodes.map Prod.snd).find? (found data callback) with
  | none =>
      refine .inl ⟨rfl, fun node hmem => ?_⟩
      simpa using List.find?_eq_none.mp hfind node.2 (List.mem_map_of_mem hmem)
  | some value =>
      obtain ⟨node, hmem, hnode⟩ := List.mem_map.mp (List.mem_of_find?_eq_some hfind)
      have hshorter := List.length_eraseP_of_mem (p := fun node => found data callback node.2)
        hmem (by rw [hnode]; exact List.find?_some hfind)
      have hpos := List.length_pos_of_mem hmem
      exact .inr ⟨hvalues value (List.mem_of_find?_eq_some hfind), by omega⟩

/-- Deleting until nothing is found leaves the nodes that are not found. -/
theorem cdListDeleteRest_spec (data : CDPointer) (callback : CDListCompareCallback) (fuel : ℕ)
    {self : CDList Addr} {nodes : List (Addr × CDPointer)}
    (hlinked : Linked self nodes) (hvalues : ∀ value ∈ nodes.map Prod.snd, value ≠ cdNull)
    (hfuel : nodes.length < fuel) :
    ∃ self', cdListDeleteRest data callback fuel self = some self' ∧
      Linked self' (nodes.filter fun node => !found data callback node.2) ∧
      self'.tail = self.tail := by
  induction fuel generalizing self nodes with
  | zero => omega
  | succ fuel ih =>
      obtain ⟨next, hdelete, hnext, htail⟩ := cdListDelete_spec data callback hlinked
      rcases firstFound_cases data callback nodes hvalues with
        ⟨hresult, hnone⟩ | ⟨hresult, hshorter⟩
      · rw [List.eraseP_of_forall_not fun node hmem => by simp [hnone node hmem]] at hnext
        refine ⟨next, ?_, ?_, htail⟩
        · simp [cdListDeleteRest, hdelete, hresult]
        · rwa [List.filter_eq_self.mpr fun node hmem => by simp [hnone node hmem]]
      · obtain ⟨last, hrest, hlast, htail'⟩ := ih hnext
          (fun other hother => hvalues other ((List.eraseP_sublist.map Prod.snd).subset hother))
          (by omega)
        refine ⟨last, ?_, ?_, htail'.trans htail⟩
        · simp [cdListDeleteRest, hdelete, hresult, hrest]
        · rwa [filter_eraseP] at hlast

theorem listDeleteAllIf_spec (data : CDPointer) (callback : CDListCompareCallback)
    {self : CDList Addr} {nodes : List (Addr × CDPointer)} (hlinked : Linked self nodes)
    (hvalues : ∀ value ∈ nodes.map Prod.snd, value ≠ cdNull) :
    ∃ self', listDeleteAllIf self data callback =
        some (self', firstFound data callback (nodes.map Prod.snd)) ∧
      Linked self' (nodes.filter fun node => !found data callback node.2) ∧
      self'.tail = self.tail := by
  obtain ⟨next, hdelete, hnext, htail⟩ := cdListDelete_spec data callback hlinked
  rcases firstFound_cases data callback nodes hvalues with ⟨hresult, hnone⟩ | ⟨hresult, -⟩
  · rw [List.eraseP_of_forall_not fun node hmem => by simp [hnone node hmem]] at hnext
    refine ⟨next, ?_, ?_, htail⟩
    · simp [listDeleteAllIf, hdelete, hresult]
    · rwa [List.filter_eq_self.mpr fun node hmem => by simp [hnone node hmem]]
  · obtain ⟨last, hrest, hlast, htail'⟩ := cdListDeleteRest_spec data callback
      (next.allocated + 1) hnext
      (fun other hother => hvalues other ((List.eraseP_sublist.map Prod.snd).subset hother))
      (by rw [hnext.allocated]; exact Nat.lt_succ_self _)
    refine ⟨last, ?_, ?_, htail'.trans htail⟩
    · simp [listDeleteAllIf, hdelete, hresult, hrest]
    · rwa [filter_eraseP] at hlast

/-! ## Which calls keep the tail -/

/-- A single deletion does not take out the last value while others stay before
it. -/
def KeepsLast (found : CDPointer → Bool) (values : List CDPointer) : Prop :=
  ∀ last ∈ values.getLast?, found last →
    values.dropLast = [] ∨ values.dropLast.any found

/-- A deletion of all values found does not take out the last value while others
stay. -/
def KeepsLastOfAll (found : CDPointer → Bool) (values : List CDPointer) : Prop :=
  ∀ last ∈ values.getLast?, found last → values.dropLast.all found

instance (found : CDPointer → Bool) (values : List CDPointer) :
    Decidable (KeepsLast found values) :=
  Option.decidableForallMem _

instance (found : CDPointer → Bool) (values : List CDPointer) :
    Decidable (KeepsLastOfAll found values) :=
  Option.decidableForallMem _

omit [DecidableEq Addr] in
theorem exists_last {nodes : List (Addr × CDPointer)} (hne : nodes ≠ []) :
    ∃ init last, nodes = init ++ [last] ∧
      nodes.map Prod.snd = init.map Prod.snd ++ [last.2] := by
  refine ⟨nodes.dropLast, nodes.getLast hne, (List.dropLast_append_getLast hne).symm, ?_⟩
  conv_lhs => rw [← List.dropLast_append_getLast hne]
  rw [List.map_append, List.map_singleton]

omit [DecidableEq Addr] in
theorem KeepsLast.getLast_eraseP {found : CDPointer → Bool} {nodes : List (Addr × CDPointer)}
    (hkeeps : KeepsLast found (nodes.map Prod.snd)) {last : Addr × CDPointer}
    (hlast : (nodes.eraseP fun node => found node.2).getLast? = some last) :
    nodes.getLast? = some last := by
  by_cases hne : nodes = []
  · simp [hne] at hlast
  obtain ⟨init, final, rfl, hvalues⟩ := exists_last hne
  by_cases hany : ∃ node ∈ init, found node.2
  · obtain ⟨node, hmem, hfound⟩ := hany
    rw [List.eraseP_append_left (p := fun node => found node.2) hfound _ hmem] at hlast
    simpa using hlast
  · have hnone : ∀ node ∈ init, ¬found node.2 := fun node hmem hfound => hany ⟨node, hmem, hfound⟩
    rw [List.eraseP_append_right _ hnone] at hlast
    by_cases hfinal : found final.2
    · rw [hvalues] at hkeeps
      have hlast' := hkeeps final.2 (by simp) hfinal
      rw [List.dropLast_concat] at hlast'
      rcases hlast' with hempty | hany
      · simp_all
      · obtain ⟨value, hmem, hfound⟩ := List.any_eq_true.mp hany
        obtain ⟨node, hnode, rfl⟩ := List.mem_map.mp hmem
        exact absurd hfound (hnone node hnode)
    · simpa [hfinal] using hlast

omit [DecidableEq Addr] in
theorem KeepsLastOfAll.getLast_filter {found : CDPointer → Bool}
    {nodes : List (Addr × CDPointer)} (hkeeps : KeepsLastOfAll found (nodes.map Prod.snd))
    {last : Addr × CDPointer}
    (hlast : (nodes.filter fun node => !found node.2).getLast? = some last) :
    nodes.getLast? = some last := by
  by_cases hne : nodes = []
  · simp [hne] at hlast
  obtain ⟨init, final, rfl, hvalues⟩ := exists_last hne
  by_cases hfinal : found final.2
  · rw [hvalues] at hkeeps
    have hall := hkeeps final.2 (by simp) hfinal
    rw [List.dropLast_concat, List.all_eq_true] at hall
    have hempty : ((init ++ [final]).filter fun node => !found node.2) = [] := by
      refine List.filter_eq_nil_iff.mpr fun node hmem => ?_
      rcases List.mem_append.mp hmem with hinit | hlast
      · simpa using hall node.2 (List.mem_map_of_mem hinit)
      · simpa [List.mem_singleton.mp hlast] using hfinal
    simp [hempty] at hlast
  · rw [List.filter_append, List.filter_singleton] at hlast
    simpa [hfinal] using hlast

/-! ## The abstract sequence -/

namespace Operation

/-- The sequence of values after a call: a push appends, a deletion removes. -/
def apply (values : List CDPointer) : Operation Addr → List CDPointer
  | .push _ data => values ++ [data]
  | .shift => values.tail
  | .delete data => values.erase data
  | .deleteIf data callback => values.eraseP (found data callback)
  | .deleteAll data => values.filter (data != ·)
  | .deleteAllIf data callback => values.filter (!found data callback ·)

/-- What a call returns. -/
def result (values : List CDPointer) : Operation Addr → CDPointer
  | .push _ _ => cdNull
  | .shift => values.headD cdNull
  | .delete data | .deleteAll data => if data ∈ values then data else cdNull
  | .deleteIf data callback | .deleteAllIf data callback => firstFound data callback values

/-- What a caller and `CD_malloc` promise: data is never NULL, and a new node's
address is not allocated. -/
def Possible (self : CDList Addr) : Operation Addr → Prop
  | .push address data => self.heap address = none ∧ data ≠ cdNull
  | .shift => True
  | .delete data | .deleteIf data _ | .deleteAll data | .deleteAllIf data _ => data ≠ cdNull

/-- **The calls that keep the tail**: no deletion takes out the last value while
others stay before it. -/
def KeepsTail (values : List CDPointer) : Operation Addr → Prop
  | .push _ _ | .shift => True
  | .delete data => KeepsLast (data == ·) values
  | .deleteIf data callback => KeepsLast (found data callback) values
  | .deleteAll data => KeepsLastOfAll (data == ·) values
  | .deleteAllIf data callback => KeepsLastOfAll (found data callback) values

end Operation

/-! ## Each call keeps a list well linked -/

namespace WellLinked

variable {self : CDList Addr} {values : List CDPointer}

omit [DecidableEq Addr] in
theorem create : WellLinked (createList : CDList Addr) [] :=
  ⟨[], ⟨rfl, .nil, rfl, fun _ => rfl⟩, rfl, nofun⟩

theorem push (hlinked : WellLinked self values) {address : Addr}
    (hfresh : self.heap address = none) (data : CDPointer) :
    ∃ next, listPush self address data = some next ∧ WellLinked next (values ++ [data]) := by
  obtain ⟨nodes, ⟨hchain, hnodup, hallocated, hcached⟩, rfl, htail⟩ := hlinked
  have haddress := hchain.notMem_of_none hfresh
  by_cases hne : nodes = []
  -- the first node is head and tail
  · subst hne
    have hhead : self.head = none := hchain
    refine ⟨{ self.malloc address ⟨none, none, data⟩ with
      head := some address
      tail := some address
      changed := true }, by rw [listPush, CDList.malloc, hhead], [(address, data)],
      ⟨?_, ?_, ?_, nofun⟩, rfl, fun last hlast => ?_⟩
    · exact ⟨rfl, none, Function.update_self _ _ _, rfl⟩
    · simp
    · simp [hallocated, CDList.malloc]
    · rw [← Option.some.inj hlast]
      rfl
  -- the node at the tail gets the new one behind it
  · obtain ⟨init, ⟨last, lastValue⟩, rfl, hvalues⟩ := exists_last hne
    obtain ⟨node, hnode, hlinked⟩ := hchain.append data hnodup haddress
    have hhead : ∃ head, self.head = some head := by
      rw [hchain.start_eq]
      cases init <;> simp
    obtain ⟨head, hhead⟩ := hhead
    have hlast : self.tail = some last := htail (last, lastValue) (by simp)
    have hneLast : last ≠ address := by
      rintro rfl
      simp [hfresh] at hnode
    refine ⟨{ self with
      heap := Function.update
        (Function.update self.heap address (some ⟨none, some last, data⟩)) last
        (some { node with next := some address })
      allocated := self.allocated + 1
      tail := some address
      changed := true }, ?_, init ++ [(last, lastValue), (address, data)],
      ⟨hlinked, ?_, ?_, nofun⟩, ?_, ?_⟩
    · rw [listPush, CDList.malloc, hhead]
      simp [hlast, Function.update_of_ne hneLast, hnode]
    · rw [List.append_cons, List.map_append, List.map_singleton]
      exact hnodup.append (List.nodup_singleton _) (by simpa using haddress)
    · simp [hallocated]
    · simp
    · simp

theorem delete (hlinked : WellLinked self values) {data : CDPointer}
    {callback : CDListCompareCallback} (hkeeps : KeepsLast (found data callback) values) :
    ∃ next, cdListDelete self data callback = some (next, firstFound data callback values) ∧
      WellLinked next (values.eraseP (found data callback)) := by
  obtain ⟨nodes, hnodes, rfl, htail⟩ := hlinked
  obtain ⟨next, hdelete, hnext, hnextTail⟩ := cdListDelete_spec data callback hnodes
  refine ⟨next, hdelete, _, hnext, ?_, fun last hlast => ?_⟩
  · rw [List.eraseP_map]
    rfl
  · rw [hnextTail]
    exact htail last (hkeeps.getLast_eraseP hlast)

theorem deleteAllIf (hlinked : WellLinked self values)
    (hvalues : ∀ value ∈ values, value ≠ cdNull) {data : CDPointer}
    {callback : CDListCompareCallback} (hkeeps : KeepsLastOfAll (found data callback) values) :
    ∃ next, listDeleteAllIf self data callback =
        some (next, firstFound data callback values) ∧
      WellLinked next (values.filter (!found data callback ·)) := by
  obtain ⟨nodes, hnodes, rfl, htail⟩ := hlinked
  obtain ⟨next, hdelete, hnext, hnextTail⟩ := listDeleteAllIf_spec data callback hnodes hvalues
  refine ⟨next, hdelete, _, hnext, ?_, fun last hlast => ?_⟩
  · rw [List.filter_map]
    rfl
  · rw [hnextTail]
    exact htail last (hkeeps.getLast_filter hlast)

omit [DecidableEq Addr] in
/-- The `changed` flag only asks for a new count. -/
theorem touch (hlinked : WellLinked self values) :
    WellLinked { self with changed := true } values := by
  obtain ⟨nodes, hnodes, hvalues, htail⟩ := hlinked
  exact ⟨nodes, { hnodes with cached := nofun }, hvalues, htail⟩

theorem shift (hlinked : WellLinked self values) :
    ∃ next, listShift self = some (next, values.headD cdNull) ∧
      WellLinked next values.tail := by
  cases values with
  | nil =>
      obtain ⟨nodes, hnodes, hvalues, htail⟩ := id hlinked
      obtain rfl := List.map_eq_nil_iff.mp hvalues
      have hhead : self.head = none := hnodes.chain
      exact ⟨_, by rw [listShift, hhead]; rfl, hlinked.touch⟩
  | cons value rest =>
      have hfound : found value cdListCompare value = true :=
        decide_eq_true (cdListCompare_eq_zero.mpr rfl)
      have hkeeps : KeepsLast (found value cdListCompare) (value :: rest) := by
        intro last _ _
        cases rest with
        | nil => exact .inl rfl
        | cons second rest => exact .inr (List.any_eq_true.mpr ⟨value, by simp, hfound⟩)
      obtain ⟨next, hdelete, hnext⟩ := hlinked.delete hkeeps
      obtain ⟨nodes, hnodes, hvalues, -⟩ := hlinked
      obtain ⟨⟨address, value'⟩, nodes, rfl, rfl, -⟩ := List.map_eq_cons_iff.mp hvalues
      obtain ⟨hhead, node, hnode, -⟩ := hnodes.chain
      rw [List.eraseP_cons_of_pos hfound] at hnext
      rw [firstFound_cons_of_pos (cdListCompare_eq_zero.mpr rfl)] at hdelete
      refine ⟨{ next with changed := true }, ?_, hnext.touch⟩
      simp [listShift, hhead, hnode, hdelete]

end WellLinked

/-! ## Every sequence of calls -/

/-- Lists and the values they should hold, as a system; its events are what the
calls return. -/
def listSystem : System (CDList Addr × List CDPointer) (Operation Addr) CDPointer where
  init := (createList, [])
  step := fun (self, values) operation =>
    (call self operation).map fun (next, result) => ((next, operation.apply values), [result])

theorem found_compare (data : CDPointer) : found data cdListCompare = (data == ·) := by
  funext value
  rw [found, beq_eq_decide]
  exact decide_eq_decide.mpr cdListCompare_eq_zero

theorem firstFound_compare (data : CDPointer) (values : List CDPointer) :
    firstFound data cdListCompare values = if data ∈ values then data else cdNull := by
  induction values with
  | nil => rfl
  | cons value rest ih =>
      by_cases hvalue : cdListCompare data value = 0
      · rw [firstFound_cons_of_pos hvalue, ← cdListCompare_eq_zero.mp hvalue, if_pos (.head _)]
      · have hne : data ≠ value := fun heq => hvalue (cdListCompare_eq_zero.mpr heq)
        simp [firstFound_cons_of_neg hvalue, ih, hne]

/-- **One call** that keeps the tail has an outcome, returns what it should and
keeps the list well linked. -/
theorem call_wellLinked {self : CDList Addr} {values : List CDPointer}
    (hlinked : WellLinked self values) (hvalues : ∀ value ∈ values, value ≠ cdNull)
    {operation : Operation Addr} (hpossible : operation.Possible self)
    (hkeeps : operation.KeepsTail values) :
    ∃ next, call self operation = some (next, operation.result values) ∧
      WellLinked next (operation.apply values) := by
  cases operation with
  | push address data =>
      obtain ⟨next, hpush, hnext⟩ := hlinked.push hpossible.1 data
      exact ⟨next, by rw [call, hpush]; rfl, hnext⟩
  | shift => exact hlinked.shift
  | delete data =>
      obtain ⟨next, hdelete, hnext⟩ := hlinked.delete
        (show KeepsLast (found data cdListCompare) values by rw [found_compare]; exact hkeeps)
      refine ⟨next, (if_neg hpossible).trans (hdelete.trans ?_), ?_⟩
      · rw [firstFound_compare]
        rfl
      · rw [found_compare] at hnext
        rw [Operation.apply, List.erase_eq_eraseP]
        exact hnext
  | deleteIf data callback =>
      obtain ⟨next, hdelete, hnext⟩ := hlinked.delete hkeeps
      exact ⟨next, (if_neg hpossible).trans hdelete, hnext⟩
  | deleteAll data =>
      obtain ⟨next, hdelete, hnext⟩ := hlinked.deleteAllIf hvalues
        (show KeepsLastOfAll (found data cdListCompare) values by rw [found_compare]; exact hkeeps)
      refine ⟨next, hdelete.trans ?_, ?_⟩
      · rw [firstFound_compare]
        rfl
      · rw [found_compare] at hnext
        exact hnext
  | deleteAllIf data callback => exact hlinked.deleteAllIf hvalues hkeeps

omit [DecidableEq Addr] in
theorem apply_ne_null {self : CDList Addr} {values : List CDPointer}
    (hvalues : ∀ value ∈ values, value ≠ cdNull) {operation : Operation Addr}
    (hpossible : operation.Possible self) :
    ∀ value ∈ operation.apply values, value ≠ cdNull := by
  intro value hmem
  cases operation with
  | push address data =>
      rcases List.mem_append.mp hmem with hold | hnew
      · exact hvalues value hold
      · exact List.mem_singleton.mp hnew ▸ hpossible.2
  | shift => exact hvalues value (List.mem_of_mem_tail hmem)
  | delete data => exact hvalues value (List.mem_of_mem_erase hmem)
  | deleteIf data callback => exact hvalues value (List.mem_of_mem_eraseP hmem)
  | deleteAll data => exact hvalues value (List.mem_of_mem_filter hmem)
  | deleteAllIf data callback => exact hvalues value (List.mem_of_mem_filter hmem)

omit [DecidableEq Addr] in
theorem WellLinked.listLast {self : CDList Addr} {values : List CDPointer}
    (hlinked : WellLinked self values) {last : CDPointer} (hlast : values.getLast? = some last) :
    Containers.listLast self = some last := by
  obtain ⟨nodes, hnodes, rfl, htail⟩ := hlinked
  rw [List.getLast?_map, Option.map_eq_some_iff] at hlast
  obtain ⟨⟨address, value⟩, hlast, rfl⟩ := hlast
  obtain ⟨node, hnode, hvalue⟩ := hnodes.chain.exists_of_mem (List.mem_of_getLast? hlast)
  rw [Containers.listLast, htail _ hlast]
  simp [hnode, hvalue]

omit [DecidableEq Addr] in
/-- Counting a chain with enough steps counts its nodes. -/
theorem cdListCount_chain {heap : Addr → Option (CDListItem Addr)} {prev start : Option Addr}
    {nodes : List (Addr × CDPointer)} {fuel : ℕ} (hchain : Chain heap prev start nodes)
    (hfuel : nodes.length ≤ fuel) : cdListCount heap fuel start = some nodes.length := by
  induction nodes generalizing prev start fuel with
  | nil =>
      obtain rfl : start = none := hchain
      cases fuel <;> rfl
  | cons node rest ih =>
      obtain ⟨rfl, next, hnode, hrest⟩ := hchain
      cases fuel with
      | zero => simp at hfuel
      | succ fuel =>
          rw [List.length_cons] at hfuel
          simp [cdListCount, hnode, ih hrest (Nat.le_of_succ_le_succ hfuel)]

omit [DecidableEq Addr] in
/-- `CD_ListLength` of a well linked list counts its values, from the nodes or
from the cached length. -/
theorem WellLinked.listLength {self : CDList Addr} {values : List CDPointer}
    (hlinked : WellLinked self values) :
    ∃ next, Containers.listLength self = some (next, values.length) ∧ WellLinked next values := by
  obtain ⟨nodes, hnodes, rfl, htail⟩ := id hlinked
  rw [List.length_map, Containers.listLength]
  cases hchanged : self.changed with
  | false =>
      refine ⟨self, ?_, hlinked⟩
      rw [if_neg (by simp), hnodes.cached hchanged]
  | true =>
      have hcount := cdListCount_chain hnodes.chain (le_of_eq hnodes.allocated.symm)
      exact ⟨{ self with length := nodes.length, changed := false }, by simp [hcount],
        nodes, { hnodes with cached := fun _ => rfl }, rfl, htail⟩

/-- **A list keeps its links** in every sequence of calls that keep the tail: it
holds the values it should, its `tail` is the last node, `CD_ListLast` returns the
last value, and the next call that keeps the tail has an outcome and returns what
it should. -/
theorem list_keeps_links {results : List CDPointer} {self : CDList Addr}
    {values : List CDPointer}
    (hrun : listSystem.Run (fun state operation =>
      operation.Possible state.1 ∧ operation.KeepsTail state.2) results (self, values)) :
    WellLinked self values ∧
      (∀ last, values.getLast? = some last → listLast self = some last) ∧
      ∀ operation : Operation Addr, operation.Possible self → operation.KeepsTail values →
        ∃ next, call self operation = some (next, operation.result values) := by
  have hinvariant : WellLinked self values ∧ ∀ value ∈ values, value ≠ cdNull := by
    refine System.Run.invariant (S := listSystem)
      (I := fun _ state => WellLinked state.1 state.2 ∧ ∀ value ∈ state.2, value ≠ cdNull)
      ⟨.create, nofun⟩ ?_ hrun
    rintro _ ⟨self, values⟩ operation next emitted ⟨hlinked, hvalues⟩ ⟨hpossible, hkeeps⟩ hstep
    obtain ⟨list, hcall, hlist⟩ := call_wellLinked hlinked hvalues hpossible hkeeps
    obtain ⟨rfl, -⟩ := by simpa [listSystem, hcall] using hstep
    exact ⟨hlist, apply_ne_null hvalues hpossible⟩
  obtain ⟨hlinked, hvalues⟩ := hinvariant
  refine ⟨hlinked, fun last hlast => hlinked.listLast hlast, fun operation hpossible hkeeps => ?_⟩
  obtain ⟨next, hcall, -⟩ := call_wellLinked hlinked hvalues hpossible hkeeps
  exact ⟨next, hcall⟩

instance (self : CDList Addr) (operation : Operation Addr) : Decidable (operation.Possible self) :=
  match operation with
  | .push _ _ => inferInstanceAs (Decidable (_ ∧ _))
  | .shift => isTrue trivial
  | .delete _ | .deleteIf _ _ | .deleteAll _ | .deleteAllIf _ _ =>
      inferInstanceAs (Decidable (_ ≠ _))

instance (values : List CDPointer) (operation : Operation Addr) :
    Decidable (operation.KeepsTail values) :=
  match operation with
  | .push _ _ | .shift => isTrue trivial
  | .delete _ | .deleteIf _ _ => inferInstanceAs (Decidable (KeepsLast _ _))
  | .deleteAll _ | .deleteAllIf _ _ => inferInstanceAs (Decidable (KeepsLastOfAll _ _))

/-- Two values pushed, the first one deleted, and a push at the address that was
freed. -/
def keepingTail : List (Operation ℕ) :=
  [.push 1 10, .push 2 20, .delete 10, .push 1 30]

theorem list_keeps_links_keepingTail :
    ∃ self results, listSystem.exec keepingTail listSystem.init =
        some ((self, [20, 30]), results) ∧
      WellLinked self [20, 30] ∧
      (∀ last, [20, 30].getLast? = some last → listLast self = some last) ∧
      ∀ operation : Operation ℕ, operation.Possible self → operation.KeepsTail [20, 30] →
        ∃ next, call self operation = some (next, operation.result [20, 30]) := by
  have hvalues : (listSystem.exec keepingTail listSystem.init).map (fun result => result.1.2) =
      some [20, 30] := by
    decide
  have hguard : listSystem.ExecGuard (fun state operation : _ =>
      operation.Possible state.1 ∧ operation.KeepsTail state.2) keepingTail listSystem.init := by
    decide
  obtain ⟨⟨⟨self, values⟩, results⟩, hexec, rfl⟩ := Option.map_eq_some_iff.mp hvalues
  exact ⟨self, results, hexec, list_keeps_links (System.Run.exec .start hguard hexec)⟩

/-! ## Where the tail dangles -/

/-- The last value is deleted and another one stays before it. -/
def deletingLast : List (Operation ℕ) :=
  [.push 1 10, .push 2 20, .delete 20]

/-- After the deletion `tail` still points at the freed node: `CD_ListLast` reads
it, and the next push writes it, or, when `CD_malloc` hands the same address out
again, hangs the new node behind itself, out of reach of `head`. -/
theorem list_loses_tail :
    ∃ self results,
      listSystem.Run (fun state operation => operation.Possible state.1) results (self, [10]) ∧
      ¬WellLinked self [10] ∧ listLast self = none ∧
      (Operation.Possible self (.push 3 30) ∧ call self (.push 3 30) = none) ∧
      (Operation.Possible self (.push 2 30) ∧ ∃ next, call self (.push 2 30) = some (next, cdNull) ∧
        next.head = some 1 ∧ (next.heap 1).map Node.next = some none) := by
  have hvalues : (listSystem.exec deletingLast listSystem.init).map (fun result =>
      (result.1.2, listLast result.1.1, (result.1.1.heap 3).isNone, (result.1.1.heap 2).isNone,
        (call result.1.1 (.push 3 30)).isNone)) = some ([10], none, true, true, true) := by
    decide
  have hreused : ((listSystem.exec deletingLast listSystem.init).bind fun result =>
      (call result.1.1 (.push 2 30))).map (fun result =>
        (result.2, result.1.head, (result.1.heap 1).map Node.next)) =
      some (cdNull, some 1, some none) := by
    decide
  obtain ⟨⟨⟨self, values⟩, results⟩, hexec, hstate⟩ := Option.map_eq_some_iff.mp hvalues
  simp only [Prod.mk.injEq, Option.isNone_iff_eq_none] at hstate
  obtain ⟨rfl, hlast, hthree, htwo, hpush⟩ := hstate
  obtain ⟨⟨next, result⟩, hcall, hnext⟩ := Option.map_eq_some_iff.mp hreused
  simp only [hexec, Option.bind_some, Prod.mk.injEq] at hcall hnext
  obtain ⟨rfl, hhead, hnode⟩ := hnext
  refine ⟨self, results, System.Run.exec .start (by decide) hexec, fun hlinked => ?_, hlast,
    ⟨⟨hthree, by decide⟩, hpush⟩, ⟨htwo, by decide⟩, next, hcall, hhead, hnode⟩
  have hwell := hlinked.listLast (show [(10 : CDPointer)].getLast? = some 10 from rfl)
  simp [hlast] at hwell

end Craftd.Containers
