import Craftd.Containers.Set
import Craftd.Library.System

/-!
# The members of a set

`Represents m self values` is the representation of a set: every bucket holds a
chain of live members, a member's bucket is its hash modulo the size, no two
members are equivalent, and the members are `values`, in some order.

The loops of `Set.c` are described first, each on a chain of its own: `findLoop`
finds the first member that is equivalent, `deleteLoop` takes it out through the
link it stands behind, and the loop over all members meets the rows one after the
other.  Then each call keeps the representation and answers what the values say,
and so does every sequence of calls.
-/

namespace Craftd.Containers

open ChainedTable StepSystem

variable {Value : Type} {m : CDSetMethods Value}

/-- The `cmp` of a set is an equivalence, and equivalent values have one hash. -/
structure CDSetMethods.Lawful (m : CDSetMethods Value) : Prop where
  refl : ∀ value, m.cmp value value
  symm : ∀ value other, m.cmp value other → m.cmp other value
  trans : ∀ value other third, m.cmp value other → m.cmp other third → m.cmp value third
  hash : ∀ value other, m.cmp value other → m.hash value = m.hash other

theorem CDSetMethods.Lawful.symm_false (hlaw : m.Lawful) {value other : Value}
    (hne : m.cmp value other = false) : m.cmp other value = false := by
  by_contra hcmp
  rw [hlaw.symm _ _ (Bool.eq_true_of_not_eq_false hcmp)] at hne
  cases hne

/-- The functions that stand in where none are given compare and hash the pointers. -/
theorem atom_lawful : atom.Lawful where
  refl := fun value => beq_self_eq_true value
  symm := by
    simp only [atom, beq_iff_eq]
    intro value other hcmp
    exact hcmp.symm
  trans := by
    simp only [atom, beq_iff_eq]
    intro value other third hfirst hsecond
    exact hfirst.trans hsecond
  hash := by
    simp only [atom, beq_iff_eq]
    intro value other hcmp
    rw [hcmp]

/-- The loops look for a member that is equivalent to the value. -/
def CDSetMethods.finds (m : CDSetMethods Value) (value : Value) (cell : ℕ × Value) : Bool :=
  m.cmp value cell.2

/-- No two of the values are equivalent. -/
def Apart (m : CDSetMethods Value) (values : List Value) : Prop :=
  values.Pairwise fun value other => m.cmp value other = false

/-- The values after a call. -/
def SetCall.apply (m : CDSetMethods Value) (values : List Value) : SetCall Value → List Value
  | .has _ => values
  | .put value =>
      if values.any (m.cmp value) then
        values.map fun other => if m.cmp value other then value else other
      else
        value :: values
  | .delete value => values.filter fun other => !m.cmp value other

/-- What a call returns on a set that holds the values. -/
def SetCall.answer (m : CDSetMethods Value) (values : List Value) : SetCall Value → SetAnswer Value
  | .has value => .truth (values.any (m.cmp value))
  | .put _ => .done
  | .delete value => .stored (values.find? (m.cmp value))

/-! ## Sizes -/

private theorem sizeLoop_mem (hint : ℤ) (previous : ℕ) (primes : List ℕ) :
    sizeLoop hint previous primes ∈ previous :: primes := by
  induction primes generalizing previous with
  | nil => exact .head _
  | cons prime rest ih =>
      rw [sizeLoop]
      split
      · exact .tail _ (ih prime)
      · exact .head _

theorem sizeFor_bounds (hint : BitVec 32) : 0 < sizeFor hint ∧ sizeFor hint < 2 ^ 31 := by
  have hbounds : ∀ size ∈ firstPrime :: laterPrimes, 0 < size ∧ size < 2 ^ 31 := by decide
  exact hbounds _ (sizeLoop_mem _ _ _)

/-! ## The loops on one chain -/

section Loops

variable {self : CDSet Value} {start : Option ℕ} {cells : List (ℕ × Value)}

/-- The loop of `CD_SetHas` and `CD_SetPut` stops at the first equivalent member. -/
theorem findLoop_chain (value : Value) (hchain : Chain self.heap start cells) {fuel : ℕ}
    (hfuel : cells.length ≤ fuel) :
    findLoop m self value fuel start =
      some ((cells.find? (m.finds value)).map Prod.fst) := by
  induction cells generalizing start fuel with
  | nil =>
      obtain rfl : start = none := hchain
      cases fuel <;> rfl
  | cons cell rest ih =>
      obtain ⟨address, other⟩ := cell
      obtain ⟨rfl, next, hcell, hrest⟩ := hchain
      cases fuel with
      | zero => simp at hfuel
      | succ fuel =>
          have hlater := ih hrest (Nat.le_of_succ_le_succ hfuel)
          by_cases hfound : m.finds value (address, other)
          · have hcmp : m.cmp value other = true := hfound
            simp [findLoop, hcell, hcmp, hfound]
          · have hcmp : ¬m.cmp value other = true := hfound
            simp [findLoop, hcell, hcmp, hfound, hlater]

private theorem chainValues_chain (hchain : Chain self.heap start cells) {fuel : ℕ}
    (hfuel : cells.length ≤ fuel) :
    chainValues self fuel start = some (cells.map Prod.snd) := by
  induction cells generalizing start fuel with
  | nil =>
      obtain rfl : start = none := hchain
      cases fuel <;> rfl
  | cons cell rest ih =>
      obtain ⟨rfl, next, hcell, hrest⟩ := hchain
      cases fuel with
      | zero => simp at hfuel
      | succ fuel => simp [chainValues, hcell, ih hrest (Nat.le_of_succ_le_succ hfuel)]

/-- The two loops over all members meet the rows of the buckets, one after the
other. -/
theorem membersLoop_rows {rows : ℕ → List (ℕ × Value)}
    (hfresh : ∀ address, self.created ≤ address → self.heap address = none) {indices : List ℕ}
    (hchain : ∀ i ∈ indices, Chain self.heap (self.buckets i) (rows i)) :
    membersLoop self indices =
      some (indices.flatMap fun i => (rows i).map fun cell => (i, cell.2)) := by
  induction indices with
  | nil => rfl
  | cons i rest ih =>
      have hrow := hchain i (.head _)
      have hvalues := chainValues_chain hrow (hrow.length_le hfresh)
      have hlater := ih fun i hmem => hchain i (.tail _ hmem)
      simp [membersLoop, hvalues, hlater, List.map_map, Function.comp_def]

/-- A link that does not lie in one of the cells. -/
def Link.Outside (cells : List (ℕ × Value)) : Link → Prop
  | .bucket _ => True
  | .next member => member ∉ cells.map Prod.fst

theorem writeLink_of_readLink {members : Link} {target : Option ℕ}
    (hread : self.readLink members = some target) : self.writeLink target members = some self := by
  cases members with
  | bucket index =>
      by_cases hindex : index < self.size
      · obtain rfl : self.buckets index = target := by
          simpa [CDSet.readLink, CDSet.bucketAt, hindex] using hread
        simp [CDSet.writeLink, hindex]
      · simp [CDSet.readLink, CDSet.bucketAt, hindex] at hread
  | next member =>
      obtain ⟨cell, hcell, rfl⟩ := Option.map_eq_some_iff.mp hread
      have hsame : Function.update self.heap member (some { cell with next := cell.next }) =
          self.heap := by
        rw [Function.update_eq_self_iff, hcell]
      simp [CDSet.writeLink, hcell, hsame]

/-- A link outside of the cells reads the same in each heap that differs in the
cells only. -/
theorem readLink_of_outside {members : Link} (houtside : members.Outside cells)
    {heap : ℕ → Option (CDSetMember Value)} (length : ℕ)
    (hframe : ∀ other, other ∉ cells.map Prod.fst → heap other = self.heap other) :
    { self with heap := heap, length := length }.readLink members = self.readLink members := by
  cases members with
  | bucket index => rfl
  | next member => simp only [CDSet.readLink, hframe member houtside]

/-- The loop of `CD_SetDelete` moves the link past the first equivalent member and frees it. -/
theorem deleteLoop_found {value other : Value} {members : Link} {fuel address : ℕ}
    {next : Option ℕ} (hread : self.readLink members = some (some address))
    (hcell : self.heap address = some ⟨next, other⟩) (hcmp : m.cmp value other)
    (hmembers : members ≠ .next address) :
    deleteLoop m self value (fuel + 1) members =
      ({ self with
          heap := Function.update self.heap address none
          length := self.length - 1 }.writeLink next members).map fun self =>
            (self, some other) := by
  cases members with
  | bucket index =>
      have hindex : index < self.size := by
        by_contra hindex
        simp [CDSet.readLink, CDSet.bucketAt, hindex] at hread
      simp [deleteLoop, hread, hcell, hcmp, CDSet.writeLink, hindex]
  | next member =>
      have hne : member ≠ address := fun heq => hmembers (heq ▸ rfl)
      obtain ⟨before, hbefore, -⟩ := Option.map_eq_some_iff.mp hread
      simp [deleteLoop, hread, hcell, hcmp, CDSet.writeLink, hbefore, hne,
        Function.update_comm hne]

private theorem deleteLoop_passes {value other : Value} {members : Link} {fuel address : ℕ}
    {next : Option ℕ} (hread : self.readLink members = some (some address))
    (hcell : self.heap address = some ⟨next, other⟩) (hcmp : ¬m.cmp value other) :
    deleteLoop m self value (fuel + 1) members =
      deleteLoop m self value fuel (.next address) := by
  simp [deleteLoop, hread, hcell, hcmp]

/-- **The loop of `CD_SetDelete`**: the first equivalent member is taken out of the
chain behind the link, and what is left is written through the link. -/
theorem deleteLoop_chain (value : Value) {members : Link} {fuel : ℕ}
    (hread : self.readLink members = some start) (hchain : Chain self.heap start cells)
    (houtside : members.Outside cells) (hfuel : cells.length < fuel) :
    ∃ start' heap',
      Chain heap' start' (cells.eraseP (m.finds value)) ∧
      (∀ other, other ∉ cells.map Prod.fst → heap' other = self.heap other) ∧
      (∀ other, self.heap other = none → heap' other = none) ∧
      deleteLoop m self value fuel members =
        ({ self with
            heap := heap'
            length := self.length -
              (cells.length - (cells.eraseP (m.finds value)).length) }.writeLink
          start' members).map fun self =>
            (self, (cells.find? (m.finds value)).map Prod.snd) := by
  induction fuel generalizing start cells members with
  | zero => omega
  | succ fuel ih =>
      cases cells with
      | nil =>
          obtain rfl : start = none := hchain
          refine ⟨none, self.heap, rfl, fun _ _ => rfl, fun _ h => h, ?_⟩
          have hsame : self.writeLink none members = some self := writeLink_of_readLink hread
          simp [deleteLoop, hread, hsame]
      | cons cell rest =>
          obtain ⟨address, other⟩ := cell
          obtain ⟨rfl, next, hcell, hrest⟩ := id hchain
          have hnodup := List.nodup_cons.mp hchain.nodup
          by_cases hfound : m.finds value (address, other)
          · -- the link is moved past the member, which is freed
            have hcmp : m.cmp value other = true := hfound
            refine ⟨next, Function.update self.heap address none, ?_, ?_, ?_, ?_⟩
            · rw [List.eraseP_cons_of_pos hfound]
              exact hrest.update_of_notMem hnodup.1 none
            · intro member hmember
              refine Function.update_of_ne (fun heq => hmember ?_) _ _
              exact heq ▸ List.mem_cons_self
            · intro member hnone
              by_cases hmember : member = address
              · rw [hmember, Function.update_self]
              · rw [Function.update_of_ne hmember, hnone]
            · have hmembers : members ≠ .next address := by
                rintro rfl
                exact houtside List.mem_cons_self
              rw [deleteLoop_found hread hcell hcmp hmembers, List.eraseP_cons_of_pos hfound,
                List.find?_cons_of_pos hfound, List.length_cons, Nat.add_sub_cancel_left]
              rfl
          · have hnext : self.readLink (.next address) = some next := by
              rw [CDSet.readLink, hcell]
              rfl
            obtain ⟨start', heap', hchain', hframe, hfreed, hloop⟩ :=
              ih hnext hrest hnodup.1 (Nat.lt_of_succ_lt_succ hfuel)
            have herase : ((address, other) :: rest).eraseP (m.finds value) =
                (address, other) :: rest.eraseP (m.finds value) :=
              List.eraseP_cons_of_neg hfound
            have haddress : heap' address = some ⟨next, other⟩ := by
              rw [hframe address hnodup.1, hcell]
            have hframe' : ∀ member, member ∉ ((address, other) :: rest).map Prod.fst →
                Function.update heap' address (some ⟨start', other⟩) member =
                  self.heap member := by
              intro member hmember
              rw [List.map_cons, List.mem_cons, not_or] at hmember
              rw [Function.update_of_ne hmember.1, hframe member hmember.2]
            refine ⟨some address, Function.update heap' address (some ⟨start', other⟩), ?_,
              hframe', ?_, ?_⟩
            · rw [herase]
              refine ⟨rfl, start', Function.update_self _ _ _, ?_⟩
              apply hchain'.update_of_notMem
              intro hmem
              exact hnodup.1 ((List.eraseP_sublist.map Prod.fst).subset hmem)
            · intro member hnone
              by_cases hmember : member = address
              · rw [hmember, hcell] at hnone
                cases hnone
              · rw [Function.update_of_ne hmember, hfreed member hnone]
            · have hlink := readLink_of_outside houtside
                (self.length - (rest.length -
                  (rest.eraseP (m.finds value)).length)) hframe'
              have hstart := writeLink_of_readLink (hlink.trans hread)
              rw [deleteLoop_passes hread hcell hfound, hloop, herase, List.length_cons,
                List.length_cons, Nat.add_sub_add_right, hstart, List.find?_cons_of_neg hfound]
              simp [CDSet.writeLink, haddress]

end Loops

theorem chainMember_eq {self : CDSet Value} {bucket index : ℕ} (value : Value)
    (hbucket : bucket < self.size) (hindex : index < self.size) :
    self.chainMember bucket index value = some { self with
      buckets := Function.update self.buckets bucket (some self.created)
      heap := Function.update self.heap self.created (some ⟨self.buckets index, value⟩)
      created := self.created + 1
      length := self.length + 1 } := by
  simp [CDSet.chainMember, CDSet.bucketAt, hbucket, hindex]

/-! ## Tables -/

/-- The rows of a set: each member lies in the bucket of its hash. -/
structure Table (m : CDSetMethods Value) (set : CDSet Value) (rows : ℕ → List (ℕ × Value)) :
    Prop where
  linked : Rows set.heap set.buckets rows
  fresh : ∀ address, set.created ≤ address → set.heap address = none
  sized : 0 < set.size
  placed : ∀ i, ∀ cell ∈ rows i, m.index set cell.2 = i

/-- The values of the rows in the order of the buckets. -/
def rowValues (size : ℕ) (rows : ℕ → List (ℕ × Value)) : List Value :=
  (List.range size).flatMap fun i => (rows i).map Prod.snd

namespace Table

variable {self : CDSet Value} {rows : ℕ → List (ℕ × Value)}

theorem bucketAt_index (htable : Table m self rows) (value : Value) :
    self.bucketAt (m.index self value) = some (self.buckets (m.index self value)) :=
  if_pos (Nat.mod_lt _ htable.sized)

/-- The loop of `CD_SetHas` and `CD_SetPut` finds the first equivalent member of the
row. -/
theorem find (htable : Table m self rows) (value : Value) :
    findLoop m self value self.created (self.buckets (m.index self value)) =
      some (((rows (m.index self value)).find? (m.finds value)).map Prod.fst) :=
  findLoop_chain value (htable.linked.chain _) ((htable.linked.chain _).length_le htable.fresh)

theorem setMembers (htable : Table m self rows) :
    setMembers self = some ((List.range self.size).flatMap fun i =>
      (rows i).map fun cell => (i, cell.2)) :=
  membersLoop_rows htable.fresh fun i _ => htable.linked.chain i

theorem relabel (htable : Table m self rows) (length : ℕ) (timestamp : BitVec 32) :
    Table m { self with length := length, timestamp := timestamp } rows where
  linked := htable.linked
  fresh := htable.fresh
  sized := htable.sized
  placed := htable.placed

/-- **A new member** in front of the chain it belongs in. -/
theorem chainMember (htable : Table m self rows) (value : Value) :
    ∃ next, self.chainMember (m.index self value) (m.index self value) value = some next ∧
      Table m next (Function.update rows (m.index self value)
        ((self.created, value) :: rows (m.index self value))) ∧
      next.length = self.length + 1 ∧ next.size = self.size := by
  have hindex : m.index self value < self.size := Nat.mod_lt _ htable.sized
  have hfree : self.heap self.created = none := htable.fresh _ le_rfl
  refine ⟨_, chainMember_eq value hindex hindex, ?_, rfl, rfl⟩
  refine ⟨htable.linked.push _ hfree value, fun address haddress => ?_, htable.sized,
    fun i cell hcell => ?_⟩
  · have hne : address ≠ self.created := Nat.ne_of_gt haddress
    exact (Function.update_of_ne hne _ _).trans (htable.fresh address (Nat.le_of_succ_le haddress))
  · by_cases hi : i = m.index self value
    · subst hi
      rw [Function.update_self] at hcell
      rcases List.mem_cons.mp hcell with rfl | hold
      · rfl
      · exact htable.placed _ cell hold
    · rw [Function.update_of_ne hi] at hcell
      exact htable.placed i cell hcell

theorem put_new (htable : Table m self rows) {value : Value}
    (hnone : (rows (m.index self value)).find? (m.finds value) = none) :
    ∃ next, setPut m self value = some next ∧
      Table m next (Function.update rows (m.index self value)
        ((self.created, value) :: rows (m.index self value))) ∧
      next.length = self.length + 1 ∧ next.size = self.size := by
  have hfind := htable.find value
  rw [hnone] at hfind
  obtain ⟨next, hchain, hnext, hlength, hsize⟩ := htable.chainMember value
  refine ⟨{ next with timestamp := next.timestamp + 1 }, ?_, hnext.relabel _ _, hlength, hsize⟩
  simp [setPut, htable.bucketAt_index, hfind, hchain]

/-- `CD_SetPut` of a value that is there replaces the pointer. -/
theorem put_found (htable : Table m self rows) {value old : Value} {member : ℕ}
    (hfound : (rows (m.index self value)).find? (m.finds value) = some (member, old)) :
    ∃ next, setPut m self value = some next ∧
      Table m next (fun i => setAt member value (rows i)) ∧
      next.length = self.length ∧ next.size = self.size := by
  have hfind := htable.find value
  rw [hfound] at hfind
  have hmem := List.mem_of_find?_eq_some hfound
  obtain ⟨link, hcell⟩ := (htable.linked.chain _).exists_of_mem hmem
  have haddress : member ∈ (rows (m.index self value)).map Prod.fst := List.mem_map_of_mem hmem
  have hput : setPut m self value = some { self with
      heap := Function.update self.heap member (some ⟨link, value⟩)
      timestamp := self.timestamp + 1 } := by
    simp [setPut, htable.bucketAt_index, hfind, hcell]
  refine ⟨_, hput, ?_, rfl, rfl⟩
  refine ⟨⟨fun i => (htable.linked.chain i).replace hcell value, fun i j address hi hj => ?_⟩,
    fun address hfresh => ?_, htable.sized, fun i cell hmem => ?_⟩
  · rw [map_fst_setAt] at hi hj
    exact htable.linked.apart i j address hi hj
  · have hnone := htable.fresh address hfresh
    have hne : address ≠ member := fun heq => by simp [← heq, hnone] at hcell
    exact (Function.update_of_ne hne _ _).trans hnone
  · obtain ⟨before, hbefore, rfl⟩ := List.mem_map.mp hmem
    by_cases hmember : before.1 = member
    · -- the new pointer has the hash of the old one
      rw [if_pos hmember]
      exact htable.linked.apart _ _ member haddress (hmember ▸ List.mem_map_of_mem hbefore)
    · rw [if_neg hmember]
      exact htable.placed i before hbefore

/-- `CD_SetDelete` takes out the first equivalent member of the row. -/
theorem delete (htable : Table m self rows) (value : Value) :
    ∃ next, setDelete m self value =
        some (next, ((rows (m.index self value)).find? (m.finds value)).map Prod.snd) ∧
      Table m next (Function.update rows (m.index self value)
        ((rows (m.index self value)).eraseP (m.finds value))) ∧
      next.length = self.length - ((rows (m.index self value)).length -
        ((rows (m.index self value)).eraseP (m.finds value)).length) ∧
      next.size = self.size := by
  have hindex : m.index self value < self.size := Nat.mod_lt _ htable.sized
  have hchain := htable.linked.chain (m.index self value)
  have hread : { self with timestamp := self.timestamp + 1 }.readLink
      (.bucket (m.index self value)) = some (self.buckets (m.index self value)) :=
    htable.bucketAt_index value
  obtain ⟨start, heap, hchain', hframe, hfreed, hloop⟩ := deleteLoop_chain value hread hchain
    trivial (Nat.lt_succ_of_le (hchain.length_le htable.fresh))
  simp only [CDSet.writeLink, if_pos hindex, Option.map_some] at hloop
  refine ⟨_, hloop, ?_, rfl, rfl⟩
  refine ⟨htable.linked.change _ hchain' ?_ hframe,
    fun address haddress => hfreed address (htable.fresh address haddress), htable.sized,
    fun i cell hcell => ?_⟩
  · exact (List.eraseP_sublist.map Prod.fst).subset
  · by_cases hi : i = m.index self value
    · subst hi
      rw [Function.update_self] at hcell
      exact htable.placed _ cell (List.mem_of_mem_eraseP hcell)
    · rw [Function.update_of_ne hi] at hcell
      exact htable.placed i cell hcell

end Table

/-! ## Values that are apart -/

section Values

variable {values others : List Value}

theorem Apart.perm (hlaw : m.Lawful) (hapart : Apart m values) (hperm : values.Perm others) :
    Apart m others :=
  (hperm.pairwise_iff hlaw.symm_false).mp hapart

theorem Apart.eq_of_cmp (hlaw : m.Lawful) (hapart : Apart m values) {value other : Value}
    (hvalue : value ∈ values) (hother : other ∈ values) (hcmp : m.cmp value other) :
    value = other := by
  have : Std.Symm fun value other : Value => m.cmp value other = false :=
    ⟨fun _ _ => hlaw.symm_false⟩
  by_contra hne
  rw [List.Pairwise.forall hapart hvalue hother hne] at hcmp
  cases hcmp

theorem Apart.find_eq_some_iff (hlaw : m.Lawful) (hapart : Apart m values) {value other : Value} :
    values.find? (m.cmp value) = some other ↔ other ∈ values ∧ m.cmp value other := by
  constructor
  · intro hfind
    exact ⟨List.mem_of_find?_eq_some hfind, List.find?_some hfind⟩
  · intro ⟨hmem, hcmp⟩
    cases hfind : values.find? (m.cmp value) with
    | none => exact absurd hcmp (by simpa using List.find?_eq_none.mp hfind other hmem)
    | some found =>
        have hfound : m.cmp found other := hlaw.trans _ _ _
          (hlaw.symm _ _ (List.find?_some hfind)) hcmp
        rw [hapart.eq_of_cmp hlaw (List.mem_of_find?_eq_some hfind) hmem hfound]

theorem any_eq_isSome_find (value : Value) :
    values.any (m.cmp value) = (values.find? (m.cmp value)).isSome := by
  rw [Bool.eq_iff_iff, List.find?_isSome, List.any_eq_true]

/-- Where at most one member is found, taking out the first one takes out all. -/
theorem eraseP_eq_filter {Member : Type} {p : Member → Bool} {members : List Member}
    (hone : members.Pairwise fun member other => p member → p other = false) :
    members.eraseP p = members.filter fun member => !p member := by
  induction members with
  | nil => rfl
  | cons member rest ih =>
      obtain ⟨hmember, hrest⟩ := List.pairwise_cons.mp hone
      by_cases hp : p member
      · have hall : ∀ other ∈ rest, !p other := fun other hmem => by simp [hmember other hmem hp]
        rw [List.eraseP_cons_of_pos hp, List.filter_cons_of_neg (by simp [hp]),
          List.filter_eq_self.mpr hall]
      · rw [List.eraseP_cons_of_neg hp, List.filter_cons_of_pos (by simp [hp]), ih hrest]

end Values

private theorem mem_rowValues {size : ℕ} {rows : ℕ → List (ℕ × Value)} {value : Value} :
    value ∈ rowValues size rows ↔ ∃ i < size, value ∈ (rows i).map Prod.snd := by
  simp [rowValues]

theorem rowValues_update (size index : ℕ) (rows : ℕ → List (ℕ × Value))
    (row : List (ℕ × Value)) :
    rowValues size (Function.update rows index row) = (List.range size).flatMap
      (Function.update (fun i => (rows i).map Prod.snd) index (row.map Prod.snd)) := by
  rw [rowValues]
  congr 1
  funext i
  exact Function.apply_update (fun _ => List.map Prod.snd) rows index row i

/-! ## Representation -/

/-- The representation of a set. -/
def Represents (m : CDSetMethods Value) (self : CDSet Value) (values : List Value) : Prop :=
  ∃ rows, Table m self rows ∧ (rowValues self.size rows).Perm values ∧ Apart m values ∧
    self.length = values.length

theorem Represents.apart {self : CDSet Value} {values : List Value}
    (hself : Represents m self values) : Apart m values := by
  obtain ⟨-, -, -, hapart, -⟩ := hself
  exact hapart

theorem Represents.length_eq {self : CDSet Value} {values : List Value}
    (hself : Represents m self values) : self.length = values.length := by
  obtain ⟨-, -, -, -, hlength⟩ := hself
  exact hlength

namespace Table

variable {self : CDSet Value} {rows : ℕ → List (ℕ × Value)} {values : List Value}

theorem mem_row (hlaw : m.Lawful) (htable : Table m self rows)
    (hperm : (rowValues self.size rows).Perm values) {value other : Value}
    (hcmp : m.cmp value other) :
    other ∈ values ↔ other ∈ (rows (m.index self value)).map Prod.snd := by
  rw [← hperm.mem_iff, mem_rowValues]
  have hindex : m.index self value = m.index self other := by
    rw [CDSetMethods.index, CDSetMethods.index, hlaw.hash _ _ hcmp]
  constructor
  · intro ⟨i, _, hmem⟩
    obtain ⟨cell, hcell, rfl⟩ := List.mem_map.mp hmem
    rw [hindex, htable.placed i cell hcell]
    exact hmem
  · intro hmem
    exact ⟨_, Nat.mod_lt _ htable.sized, hmem⟩

theorem apart_row (hlaw : m.Lawful) (htable : Table m self rows)
    (hperm : (rowValues self.size rows).Perm values) (hapart : Apart m values) (value : Value) :
    Apart m ((rows (m.index self value)).map Prod.snd) := by
  have hall := hapart.perm hlaw hperm.symm
  rw [rowValues, Apart, List.pairwise_flatMap] at hall
  exact hall.1 _ (List.mem_range.mpr (Nat.mod_lt _ htable.sized))

/-- A search in the row finds what a search in all values finds. -/
theorem find_row (hlaw : m.Lawful) (htable : Table m self rows)
    (hperm : (rowValues self.size rows).Perm values) (hapart : Apart m values) (value : Value) :
    ((rows (m.index self value)).find? (m.finds value)).map Prod.snd =
      values.find? (m.cmp value) := by
  have hrow : ((rows (m.index self value)).find? (m.finds value)).map Prod.snd =
      ((rows (m.index self value)).map Prod.snd).find? (m.cmp value) := by
    rw [List.find?_map]
    rfl
  rw [hrow]
  apply Option.ext
  intro other
  rw [(htable.apart_row hlaw hperm hapart value).find_eq_some_iff hlaw,
    hapart.find_eq_some_iff hlaw]
  exact and_congr_left fun hcmp => (htable.mem_row hlaw hperm hcmp).symm

private theorem setAt_row (hlaw : m.Lawful) (htable : Table m self rows)
    (hperm : (rowValues self.size rows).Perm values) (hapart : Apart m values)
    {value old : Value} {member : ℕ}
    (hfound : (rows (m.index self value)).find? (m.finds value) = some (member, old)) (i : ℕ) :
    setAt member value (rows i) =
      (rows i).map fun cell => (cell.1, if m.cmp value cell.2 then value else cell.2) := by
  have hmem := List.mem_of_find?_eq_some hfound
  have hold : m.finds value (member, old) := List.find?_some hfound
  have haddress : member ∈ (rows (m.index self value)).map Prod.fst := List.mem_map_of_mem hmem
  refine List.map_congr_left fun cell hcell => ?_
  by_cases hmember : cell.1 = member
  · have hi : i = m.index self value :=
      htable.linked.apart _ _ member (hmember ▸ List.mem_map_of_mem hcell) haddress
    subst hi
    -- both cells have this address, so they are one cell
    obtain ⟨next, hthis⟩ := (htable.linked.chain _).exists_of_mem hcell
    obtain ⟨next', hthat⟩ := (htable.linked.chain _).exists_of_mem hmem
    rw [hmember, hthat] at hthis
    obtain ⟨-, hvalue⟩ := Cell.mk.inj (Option.some.inj hthis)
    have hcmp : m.cmp value cell.2 := hvalue ▸ hold
    simp [hmember, hcmp]
  · have hcmp : ¬m.cmp value cell.2 = true := by
      intro hcmp
      have hi : m.index self value = i := by
        rw [← htable.placed i cell hcell, CDSetMethods.index, CDSetMethods.index,
          hlaw.hash _ _ hcmp]
      subst hi
      have hcells := List.pairwise_map.mp (htable.apart_row hlaw hperm hapart value)
      have : Std.Symm fun cell other : ℕ × Value => m.cmp cell.2 other.2 = false :=
        ⟨fun _ _ => hlaw.symm_false⟩
      have hne : (member, old) ≠ cell := fun heq => hmember (heq ▸ rfl)
      have hboth : m.cmp old cell.2 := hlaw.trans _ _ _ (hlaw.symm _ _ hold) hcmp
      rw [hcells.forall hmem hcell hne] at hboth
      cases hboth
    simp [hmember, hcmp]

private theorem eraseP_row (hlaw : m.Lawful) (htable : Table m self rows)
    (hperm : (rowValues self.size rows).Perm values) (hapart : Apart m values) (value : Value) :
    (rows (m.index self value)).eraseP (m.finds value) =
      (rows (m.index self value)).filter fun cell => !m.cmp value cell.2 := by
  refine eraseP_eq_filter ?_
  have hcells := List.pairwise_map.mp (htable.apart_row hlaw hperm hapart value)
  refine hcells.imp fun {cell other} hne hfound => ?_
  by_contra hother
  rw [Bool.not_eq_false] at hother
  rw [hlaw.trans _ _ _ (hlaw.symm _ _ hfound) hother] at hne
  cases hne

private theorem filter_row (hlaw : m.Lawful) (htable : Table m self rows) {value : Value} {i : ℕ}
    (hi : i ≠ m.index self value) :
    ((rows i).map Prod.snd).filter (fun other => !m.cmp value other) =
      (rows i).map Prod.snd := by
  apply List.filter_eq_self.mpr
  intro other hmem
  obtain ⟨cell, hcell, rfl⟩ := List.mem_map.mp hmem
  by_contra hcmp
  rw [Bool.not_eq_true', Bool.not_eq_false] at hcmp
  apply hi
  rw [← htable.placed i cell hcell, CDSetMethods.index, CDSetMethods.index, hlaw.hash _ _ hcmp]

end Table

namespace Represents

variable {self : CDSet Value} {values : List Value}

theorem create {hint : BitVec 32} {empty : CDSet Value}
    (hcreate : createSetWith hint = some empty) : Represents m empty [] := by
  rw [createSetWith] at hcreate
  split at hcreate
  · cases hcreate
  · obtain rfl := Option.some.inj hcreate
    refine ⟨fun _ => [], ⟨⟨fun _ => rfl, nofun⟩, fun _ _ => rfl,
      (sizeFor_bounds hint).1, nofun⟩, ?_, .nil, rfl⟩
    simp [rowValues]

theorem setHas (hlaw : m.Lawful) (hself : Represents m self values) (value : Value) :
    setHas m self value = some (values.any (m.cmp value)) := by
  obtain ⟨rows, htable, hperm, hapart, -⟩ := hself
  have hfind := htable.find value
  rw [any_eq_isSome_find, ← htable.find_row hlaw hperm hapart]
  simp [Containers.setHas, htable.bucketAt_index, hfind]

/-- The members of a set are its values, each in the bucket of its hash. -/
theorem setMembers (hself : Represents m self values) :
    ∃ members, setMembers self = some members ∧ (members.map Prod.snd).Perm values ∧
      ∀ member ∈ members, member.1 = m.index self member.2 := by
  obtain ⟨rows, htable, hperm, -⟩ := hself
  refine ⟨_, htable.setMembers, ?_, ?_⟩
  · rw [List.map_flatMap]
    simpa [rowValues, Function.comp_def] using hperm
  · intro member hmember
    obtain ⟨i, -, hmem⟩ := List.mem_flatMap.mp hmember
    obtain ⟨cell, hcell, rfl⟩ := List.mem_map.mp hmem
    exact (htable.placed i cell hcell).symm

/-- **A new member** in the bucket it belongs in. -/
theorem chainMember (hself : Represents m self values) {value : Value}
    (hnew : values.find? (m.cmp value) = none) :
    ∃ next, self.chainMember (m.index self value) (m.index self value) value = some next ∧
      Represents m next (value :: values) ∧ next.size = self.size := by
  obtain ⟨rows, htable, hperm, hapart, hlength⟩ := hself
  obtain ⟨next, hchain, hnext, hlength', hsize⟩ := htable.chainMember value
  refine ⟨next, hchain, ⟨_, hnext, ?_, ?_, ?_⟩, hsize⟩
  · rw [hsize, rowValues_update]
    have hpush := flatMap_push_perm List.nodup_range
      (List.mem_range.mpr (Nat.mod_lt (m.hash value).toNat htable.sized))
      (fun i => (rows i).map Prod.snd) value
    exact hpush.trans (hperm.cons value)
  · refine List.pairwise_cons.mpr ⟨fun other hmem => ?_, hapart⟩
    simpa using List.find?_eq_none.mp hnew other hmem
  · rw [hlength', hlength, List.length_cons]

private theorem stamp (hself : Represents m self values) (timestamp : BitVec 32) :
    Represents m { self with timestamp := timestamp } values := by
  obtain ⟨rows, htable, hperm, hapart, hlength⟩ := hself
  exact ⟨rows, htable.relabel self.length timestamp, hperm, hapart, hlength⟩

/-- `CD_SetPut` of a value that is not there. -/
theorem put_new (hlaw : m.Lawful) (hself : Represents m self values) {value : Value}
    (hnew : values.find? (m.cmp value) = none) :
    ∃ next, setPut m self value = some next ∧ Represents m next (value :: values) ∧
      next.size = self.size := by
  obtain ⟨next, hchain, hnext, hsize⟩ := hself.chainMember hnew
  refine ⟨{ next with timestamp := next.timestamp + 1 }, ?_, hnext.stamp _, hsize⟩
  obtain ⟨rows, htable, hperm, hapart, -⟩ := hself
  have hnone : (rows (m.index self value)).find? (m.finds value) = none := by
    rw [← Option.map_eq_none_iff, htable.find_row hlaw hperm hapart, hnew]
  have hfind := htable.find value
  rw [hnone] at hfind
  simp [setPut, htable.bucketAt_index, hfind, hchain]

/-- `CD_SetPut` of a value that is there replaces the pointer in place. -/
theorem put_found (hlaw : m.Lawful) (hself : Represents m self values) {value old : Value}
    (hold : values.find? (m.cmp value) = some old) :
    ∃ next, setPut m self value = some next ∧
      Represents m next (values.map fun other => if m.cmp value other then value else other) ∧
      next.length = self.length ∧ next.size = self.size ∧
      ∀ members, Containers.setMembers self = some members →
        Containers.setMembers next = some (members.map fun member =>
          (member.1, if m.cmp value member.2 then value else member.2)) := by
  obtain ⟨rows, htable, hperm, hapart, hlength⟩ := hself
  have hrow := htable.find_row hlaw hperm hapart value
  rw [hold, Option.map_eq_some_iff] at hrow
  obtain ⟨⟨member, old⟩, hfound, rfl⟩ := hrow
  obtain ⟨next, hput, hnext, hlength', hsize⟩ := htable.put_found hfound
  have hrows := htable.setAt_row hlaw hperm hapart hfound
  refine ⟨next, hput, ⟨_, hnext, ?_, ?_, ?_⟩, hlength', hsize, fun members hmembers => ?_⟩
  -- the pointer is replaced in the row, which is the one place where it was found
  · have hvalues : rowValues next.size (fun i => setAt member value (rows i)) =
        (rowValues self.size rows).map fun other =>
          if m.cmp value other then value else other := by
      rw [rowValues, rowValues, List.map_flatMap, hsize]
      refine List.flatMap_congr fun i _ => ?_
      rw [hrows i, List.map_map, List.map_map]
      rfl
    rw [hvalues]
    exact hperm.map _
  -- what was apart from the old member is apart from the equivalent one
  · refine List.pairwise_map.mpr (hapart.imp fun {first second} hne => ?_)
    by_cases hfirst : m.cmp value first
    · by_cases hsecond : m.cmp value second
      · rw [hlaw.trans _ _ _ (hlaw.symm _ _ hfirst) hsecond] at hne
        cases hne
      · simp [hfirst, hsecond]
    · by_cases hsecond : m.cmp value second
      · simpa [hfirst, hsecond] using hlaw.symm_false (Bool.eq_false_of_not_eq_true hfirst)
      · simpa [hfirst, hsecond] using hne
  · rw [hlength', hlength, List.length_map]
  · obtain rfl := Option.some.inj (htable.setMembers.symm.trans hmembers)
    rw [hnext.setMembers, hsize, List.map_flatMap]
    congr 1
    refine List.flatMap_congr fun i _ => ?_
    rw [hrows i, List.map_map, List.map_map]
    rfl

theorem delete (hlaw : m.Lawful) (hself : Represents m self values) (value : Value) :
    ∃ next, setDelete m self value = some (next, values.find? (m.cmp value)) ∧
      Represents m next (values.filter fun other => !m.cmp value other) ∧
      next.size = self.size ∧
      (values.find? (m.cmp value) = none →
        next.length = self.length ∧
        Containers.setMembers next = Containers.setMembers self) := by
  obtain ⟨rows, htable, hperm, hapart, hlength⟩ := hself
  obtain ⟨next, hdelete, hnext, hlength', hsize⟩ := htable.delete value
  rw [htable.find_row hlaw hperm hapart] at hdelete
  have hindex : m.index self value ∈ List.range self.size :=
    List.mem_range.mpr (Nat.mod_lt _ htable.sized)
  have herase := htable.eraseP_row hlaw hperm hapart value
  have hvalues : rowValues self.size (Function.update rows (m.index self value)
      ((rows (m.index self value)).eraseP (m.finds value))) =
      (rowValues self.size rows).filter fun other => !m.cmp value other := by
    rw [rowValues_update, rowValues, List.filter_flatMap]
    refine List.flatMap_congr fun i _ => ?_
    by_cases hi : i = m.index self value
    · rw [hi, Function.update_self, herase, List.filter_map]
      rfl
    · rw [Function.update_of_ne hi, htable.filter_row hlaw hi]
  have hperm' := hperm.filter fun other => !m.cmp value other
  refine ⟨next, hdelete, ⟨_, hnext, ?_, hapart.filter _, ?_⟩, hsize, fun hnone => ?_⟩
  · rw [hsize, hvalues]
    exact hperm'
  · -- the row lost as many cells as the values lost
    have hbefore := flatMap_update_perm List.nodup_range hindex (fun i => (rows i).map Prod.snd)
      ((rows (m.index self value)).map Prod.snd)
    have hafter := flatMap_update_perm List.nodup_range hindex (fun i => (rows i).map Prod.snd)
      (((rows (m.index self value)).eraseP (m.finds value)).map Prod.snd)
    rw [Function.update_eq_self] at hbefore
    rw [← rowValues_update, hvalues] at hafter
    have hbefore := (hperm.symm.trans hbefore).length_eq
    have hafter := (hperm'.symm.trans hafter).length_eq
    have hle : ((rows (m.index self value)).eraseP (m.finds value)).length ≤
        (rows (m.index self value)).length := List.length_eraseP_le
    simp only [List.length_append, List.length_map] at hbefore hafter
    omega
  · have hkept : (rows (m.index self value)).eraseP (m.finds value) =
        rows (m.index self value) := by
      rw [← htable.find_row hlaw hperm hapart, Option.map_eq_none_iff] at hnone
      exact List.eraseP_of_forall_not (List.find?_eq_none.mp hnone)
    rw [hkept, Function.update_eq_self] at hnext
    rw [hkept, Nat.sub_self] at hlength'
    exact ⟨hlength', by rw [hnext.setMembers, htable.setMembers, hsize]⟩

/-- A call has an outcome, answers what the values say and keeps the
representation. -/
theorem call (hlaw : m.Lawful) (hself : Represents m self values) (call : SetCall Value) :
    ∃ next, setCall m self call = some (next, call.answer m values) ∧
      Represents m next (call.apply m values) ∧ next.size = self.size := by
  cases call with
  | has value => exact ⟨self, by rw [setCall, hself.setHas hlaw]; rfl, hself, rfl⟩
  | put value =>
      rw [SetCall.apply, any_eq_isSome_find]
      cases hfind : values.find? (m.cmp value) with
      | none =>
          obtain ⟨next, hput, hnext, hsize⟩ := hself.put_new hlaw hfind
          exact ⟨next, by rw [setCall, hput]; rfl, hnext, hsize⟩
      | some old =>
          obtain ⟨next, hput, hnext, -, hsize, -⟩ := hself.put_found hlaw hfind
          exact ⟨next, by rw [setCall, hput]; rfl, hnext, hsize⟩
  | delete value =>
      obtain ⟨next, hdelete, hnext, hsize, -⟩ := hself.delete hlaw value
      exact ⟨next, by rw [setCall, hdelete]; rfl, hnext, hsize⟩

end Represents

/-! ## Every sequence of calls -/

/-- Sets and the values they should hold, as a system that starts from a set just
created; its events are what the calls return. -/
def setSystem (m : CDSetMethods Value) (empty : CDSet Value) :
    System (CDSet Value × List Value) (SetCall Value) (SetAnswer Value) where
  init := (empty, [])
  step := fun (self, values) call =>
    (setCall m self call).map fun (next, answer) => ((next, call.apply m values), [answer])

/-- A set after some calls, and the values it should hold. -/
def Built (m : CDSetMethods Value) (self : CDSet Value) (values : List Value) : Prop :=
  ∃ hint empty answers, createSetWith hint = some empty ∧
    (setSystem m empty).Run (fun _ _ => True) answers (self, values)

/-- **Every set that is built represents its values.** -/
theorem Built.represents (hlaw : m.Lawful) {self : CDSet Value} {values : List Value}
    (hbuilt : Built m self values) : Represents m self values := by
  obtain ⟨hint, empty, answers, hcreate, hrun⟩ := hbuilt
  apply System.Run.invariant (S := setSystem m empty)
    (I := fun _ state => Represents m state.1 state.2) (.create hcreate) _ hrun
  intro _ ⟨self, values⟩ call next emitted hself _ hstep
  obtain ⟨set, hcall, hset, -⟩ := Represents.call hlaw hself call
  obtain ⟨rfl, -⟩ := by simpa [setSystem, hcall] using hstep
  exact hset

theorem built_createSet : ∃ self, createSet = some self ∧ Built atom self [] := by
  obtain ⟨self, hcreate⟩ := Option.isSome_iff_exists.mp (by decide : createSet.isSome = true)
  exact ⟨self, hcreate, 4000, self, [], hcreate, .start⟩

/-- **A set keeps its members** in every sequence of calls, whatever the hint: no two
members are equivalent, each lies in the bucket of its hash, there are `length` of
them, and they are the values the set should hold.  Each next call returns what it
should; a put of an equivalent value only replaces the pointer, and a deletion that
finds nothing changes no member. -/
theorem set_keeps_members (hlaw : m.Lawful) {hint : BitVec 32} {empty self : CDSet Value}
    {values : List Value} {answers : List (SetAnswer Value)}
    (hcreate : createSetWith hint = some empty)
    (hrun : (setSystem m empty).Run (fun _ _ => True) answers (self, values)) :
    ∃ members, setMembers self = some members ∧ Apart m (members.map Prod.snd) ∧
      (∀ member ∈ members, member.1 = (m.hash member.2).toNat % self.size) ∧
      self.length = members.length ∧ (members.map Prod.snd).Perm values ∧
      (∀ call : SetCall Value, ∃ next, setCall m self call = some (next, call.answer m values)) ∧
      (∀ value, (∃ old ∈ values, m.cmp value old) →
        ∃ next, setPut m self value = some next ∧ next.length = self.length ∧
          setMembers next = some (members.map fun member =>
            (member.1, if m.cmp value member.2 then value else member.2))) ∧
      ∀ value, (¬∃ old ∈ values, m.cmp value old) →
        ∃ next, setDelete m self value = some (next, none) ∧ next.length = self.length ∧
          setMembers next = some members := by
  have hself : Represents m self values :=
    Built.represents hlaw ⟨hint, empty, answers, hcreate, hrun⟩
  obtain ⟨members, hmembers, hperm, hplaced⟩ := hself.setMembers
  refine ⟨members, hmembers, hself.apart.perm hlaw hperm.symm, hplaced, ?_, hperm,
    fun call => ?_, fun value hold => ?_, fun value hnew => ?_⟩
  · rw [hself.length_eq, ← hperm.length_eq, List.length_map]
  · obtain ⟨next, hcall, -⟩ := hself.call hlaw call
    exact ⟨next, hcall⟩
  · obtain ⟨old, hfind⟩ := Option.isSome_iff_exists.mp (List.find?_isSome.mpr hold)
    obtain ⟨next, hput, -, hlength', -, hnext⟩ := hself.put_found hlaw hfind
    exact ⟨next, hput, hlength', hnext members hmembers⟩
  · have hnone : values.find? (m.cmp value) = none := by
      apply List.find?_eq_none.mpr
      intro old hmem hcmp
      exact hnew ⟨old, hmem, hcmp⟩
    obtain ⟨next, hdelete, -, -, hkept⟩ := hself.delete hlaw value
    obtain ⟨hlength', hmembers'⟩ := hkept hnone
    exact ⟨next, hnone ▸ hdelete, hlength', hmembers'.trans hmembers⟩

/-- Numbers that are equivalent when they end in the same digit, with the digit as
hash. -/
def lastDigit : CDSetMethods ℕ where
  cmp := fun a b => a % 10 == b % 10
  hash := fun value => .ofNat 32 (value % 10)

theorem lastDigit_lawful : lastDigit.Lawful where
  refl := by simp [lastDigit]
  symm := by
    simp only [lastDigit, beq_iff_eq]
    intro value other hcmp
    exact hcmp.symm
  trans := by
    simp only [lastDigit, beq_iff_eq]
    intro value other third hfirst hsecond
    exact hfirst.trans hsecond
  hash := by
    simp only [lastDigit, beq_iff_eq]
    intro value other hcmp
    rw [hcmp]

/-- Two values put, one of them replaced, the other deleted. -/
def replacing : List (SetCall ℕ) :=
  [.put 3, .put 4, .put 13, .delete 24]

theorem set_keeps_members_replacing :
    ∃ empty self answers, createSetWith 2000 = some empty ∧
      (setSystem lastDigit empty).exec replacing (setSystem lastDigit empty).init =
        some ((self, [13]), answers) ∧
      ∃ members, setMembers self = some members ∧ (members.map Prod.snd).Perm [13] := by
  have hvalues : ((createSetWith 2000).bind fun empty =>
      (setSystem lastDigit empty).exec replacing (setSystem lastDigit empty).init).map
        (fun result => result.1.2) = some [13] := by
    decide
  obtain ⟨⟨⟨self, values⟩, answers⟩, hexec, rfl⟩ := Option.map_eq_some_iff.mp hvalues
  obtain ⟨empty, hcreate, hexec⟩ := Option.bind_eq_some_iff.mp hexec
  obtain ⟨members, hmembers, -, -, -, hperm, -⟩ := set_keeps_members lastDigit_lawful hcreate
    (System.Run.exec .start (System.execGuard_true _ _) hexec)
  exact ⟨empty, self, answers, hcreate, hexec, members, hmembers, hperm⟩

end Craftd.Containers
