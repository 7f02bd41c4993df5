import Craftd.Containers.SetMembers

/-!
# The operations on two sets

`CD_CloneSet`, `CD_SetIntersect`, `CD_SetMinus` and `CD_SetDifference` chain the
members of their result by hand: the new member is linked in front of the chain of
the bucket its value belongs in, but stored in the bucket `i` of the operand it
comes from.  `CD_SetUnion` clones its first operand, and so does the same.

Where each copied member belongs in the same bucket of the operand and of the
result, this is right and the result represents what it should
(`copyLoop_represents`).  Where one does not, it is stored behind the end of the
buckets, which has no outcome, or in a wrong bucket; once a member is in a wrong
bucket there always is one (`copyLoop_misplaced`, `putLoop_misplaced`), and no
such set is right (`not_correct_of_misplaced`).
-/

namespace Craftd.Containers

open ChainedTable StepSystem

variable {Value : Type} {m : CDSetMethods Value}

/-- A set that holds the values has a member equivalent to the value. -/
def Holds (m : CDSetMethods Value) (values : List Value) (value : Value) : Prop :=
  ∃ other ∈ values, m.cmp value other

/-- The value belongs in the same bucket of the set and of a set of the size. -/
def SameBucket (m : CDSetMethods Value) (self : CDSet Value) (size : ℕ) (value : Value) : Prop :=
  (m.hash value).toNat % self.size = (m.hash value).toNat % size

/-- An operation returned a set of the values in `wanted`: its members come from
`sources`, no two of them are equivalent, they are those wanted, `length` counts
them, and `CD_SetHas` answers what is wanted. -/
def Correct (m : CDSetMethods Value) (outcome : Option (CDSet Value)) (sources : List Value)
    (wanted : Value → Prop) : Prop :=
  ∃ result members, outcome = some result ∧ setMembers result = some members ∧
    (∀ member ∈ members, member.2 ∈ sources) ∧ Apart m (members.map Prod.snd) ∧
    (∀ value, wanted value ↔ Holds m (members.map Prod.snd) value) ∧
    result.length = members.length ∧
    ∀ value, ∃ answer, setHas m result value = some answer ∧ (answer = true ↔ wanted value)

variable {self result : CDSet Value} {values sources : List Value} {wanted : Value → Prop}
  {members : List (ℕ × Value)} {keep : Value → Option Bool} {kept : Value → Bool}

theorem holds_congr {others : List Value} (hperm : values.Perm others) {value : Value} :
    Holds m values value ↔ Holds m others value :=
  exists_congr fun _ => and_congr_left fun _ => hperm.mem_iff

theorem Represents.correct (hlaw : m.Lawful) (hresult : Represents m result values)
    (hsources : ∀ value ∈ values, value ∈ sources)
    (hwanted : ∀ value, wanted value ↔ Holds m values value) :
    Correct m (some result) sources wanted := by
  obtain ⟨members, hmembers, hperm, -⟩ := hresult.setMembers
  refine ⟨result, members, rfl, hmembers, fun member hmem => ?_,
    hresult.apart.perm hlaw hperm.symm, fun value => ?_, ?_,
    fun value => ⟨_, hresult.setHas hlaw value, ?_⟩⟩
  · exact hsources _ (hperm.subset (List.mem_map_of_mem hmem))
  · rw [hwanted, holds_congr hperm]
  · rw [hresult.length_eq, ← hperm.length_eq, List.length_map]
  · rw [hwanted, List.any_eq_true]
    rfl

/-! ## Members in the right bucket -/

/-- **Copying members into the bucket they belong in** adds those that pass the
test. -/
theorem copyLoop_represents (hlaw : m.Lawful) (hresult : Represents m result values)
    (hkeep : ∀ member ∈ members, keep member.2 = some (kept member.2))
    (hplaced : ∀ member ∈ members, kept member.2 → member.1 = m.index result member.2)
    (hapart : Apart m ((members.map Prod.snd).filter kept ++ values)) :
    ∃ next, copyLoop m keep members result = some next ∧
      Represents m next (((members.map Prod.snd).filter kept).reverse ++ values) ∧
      next.size = result.size := by
  induction members generalizing result values with
  | nil => exact ⟨result, rfl, hresult, rfl⟩
  | cons member rest ih =>
      obtain ⟨i, value⟩ := member
      have hrest := fun member hmem => hkeep member (.tail _ hmem)
      have hkeepValue := hkeep (i, value) (.head _)
      cases hvalue : kept value with
      | false =>
          -- the member is left out
          rw [List.map_cons, List.filter_cons_of_neg (by simp [hvalue])] at hapart
          obtain ⟨next, hcopy, hnext, hsize⟩ := ih hresult hrest
            (fun member hmem => hplaced member (.tail _ hmem)) hapart
          refine ⟨next, ?_, ?_, hsize⟩
          · simp only [hvalue] at hkeepValue
            simp [copyLoop, hkeepValue, hcopy]
          · rw [List.map_cons, List.filter_cons_of_neg (by simp [hvalue])]
            exact hnext
      | true =>
          rw [List.map_cons, List.filter_cons_of_pos hvalue, List.cons_append] at hapart
          -- the member is new to the result, and belongs in the bucket that it lay in
          have hnew : values.find? (m.cmp value) = none := by
            apply List.find?_eq_none.mpr
            intro other hmem hcmp
            rw [(List.pairwise_cons.mp hapart).1 other (List.mem_append_right _ hmem)] at hcmp
            cases hcmp
          obtain ⟨set, hchain, hset, hsize⟩ := hresult.chainMember hnew
          obtain rfl : i = m.index result value := hplaced (i, value) (.head _) hvalue
          have hindex : ∀ other, m.index set other = m.index result other := fun other => by
            rw [CDSetMethods.index, CDSetMethods.index, hsize]
          obtain ⟨next, hcopy, hnext, hsize'⟩ := ih hset hrest
            (fun member hmem hmember => (hplaced member (.tail _ hmem) hmember).trans
              (hindex member.2).symm)
            (hapart.perm hlaw List.perm_middle.symm)
          refine ⟨next, ?_, ?_, hsize'.trans hsize⟩
          · simp only [hvalue] at hkeepValue
            simp [copyLoop, hkeepValue, hchain, hcopy]
          · rw [List.map_cons, List.filter_cons_of_pos hvalue, List.reverse_cons,
              List.append_assoc]
            exact hnext

private theorem holds_put (hlaw : m.Lawful) (values : List Value) (value other : Value) :
    Holds m ((SetCall.put value).apply m values) other ↔
      m.cmp other value ∨ Holds m values other := by
  rw [SetCall.apply]
  split
  case isTrue hany =>
    obtain ⟨old, hold, hcmp⟩ := List.any_eq_true.mp hany
    constructor
    · rintro ⟨third, hmem, hthird⟩
      obtain ⟨before, hbefore, rfl⟩ := List.mem_map.mp hmem
      split at hthird
      · exact .inl hthird
      · exact .inr ⟨before, hbefore, hthird⟩
    · intro h
      rcases h with hvalue | ⟨before, hbefore, hcmp'⟩
      · exact ⟨value, List.mem_map.mpr ⟨old, hold, if_pos hcmp⟩, hvalue⟩
      · by_cases hreplaced : m.cmp value before
        · exact ⟨value, List.mem_map.mpr ⟨before, hbefore, if_pos hreplaced⟩,
            hlaw.trans _ _ _ hcmp' (hlaw.symm _ _ hreplaced)⟩
        · exact ⟨before, List.mem_map.mpr ⟨before, hbefore, if_neg hreplaced⟩, hcmp'⟩
  case isFalse =>
    simp [Holds]

private theorem mem_put {value other : Value} (hmem : other ∈ (SetCall.put value).apply m values) :
    other = value ∨ other ∈ values := by
  rw [SetCall.apply] at hmem
  split at hmem
  · obtain ⟨before, hbefore, rfl⟩ := List.mem_map.mp hmem
    split
    · exact .inl rfl
    · exact .inr hbefore
  · exact List.mem_cons.mp hmem

/-- **Putting members** into a set that represents its values. -/
theorem putLoop_represents (hlaw : m.Lawful) (hresult : Represents m result values)
    (members : List (ℕ × Value)) :
    ∃ next after, putLoop m members result = some next ∧ Represents m next after ∧
      (∀ value ∈ after, value ∈ values ++ members.map Prod.snd) ∧
      ∀ value, Holds m after value ↔
        Holds m values value ∨ Holds m (members.map Prod.snd) value := by
  induction members generalizing result values with
  | nil => exact ⟨result, values, rfl, hresult, by simp, by simp [Holds]⟩
  | cons member rest ih =>
      obtain ⟨i, value⟩ := member
      obtain ⟨set, hcall, hset, -⟩ := hresult.call hlaw (.put value)
      obtain ⟨_, hput, heq⟩ := Option.map_eq_some_iff.mp hcall
      obtain ⟨rfl, -⟩ := Prod.mk.inj heq
      obtain ⟨next, after, hputs, hnext, hsources, hholds⟩ := ih hset
      refine ⟨next, after, by simp [putLoop, hput, hputs], hnext, fun other hmem => ?_,
        fun other => ?_⟩
      · rcases List.mem_append.mp (hsources other hmem) with hold | hlater
        · rcases mem_put hold with rfl | hbefore
          · simp
          · exact List.mem_append_left _ hbefore
        · exact List.mem_append_right _ (.tail _ hlater)
      · rw [hholds, holds_put hlaw]
        simp only [Holds, List.map_cons, List.exists_mem_cons_iff]
        rw [or_assoc, or_left_comm]

/-! ## Members in a wrong bucket -/

/-- Each bucket holds a chain, whatever its members. -/
structure Chained (set : CDSet Value) : Prop where
  chain : ∀ i, ∃ cells, Chain set.heap (set.buckets i) cells
  fresh : ∀ address, set.created ≤ address → set.heap address = none
  sized : 0 < set.size

/-- A bucket holds a member that belongs in another one. -/
def Misplaced (m : CDSetMethods Value) (self : CDSet Value) : Prop :=
  ∃ i < self.size, ∃ cells, Chain self.heap (self.buckets i) cells ∧
    ∃ cell ∈ cells, m.index self cell.2 ≠ i

theorem Represents.chained (hself : Represents m self values) : Chained self := by
  obtain ⟨rows, htable, -⟩ := hself
  exact ⟨fun i => ⟨_, htable.linked.chain i⟩, htable.fresh, htable.sized⟩

/-- **A set with a misplaced member is not right**: `CD_SetHas` either does not find
the member, or finds another one that is equivalent. -/
theorem not_correct_of_misplaced (hlaw : m.Lawful) (hchained : Chained result)
    (hmisplaced : Misplaced m result) : ¬Correct m (some result) sources wanted := by
  intro ⟨_, members, heq, hmembers, _, hapart, hwanted, _, hhas⟩
  obtain rfl := Option.some.inj heq
  obtain ⟨rows, hrows⟩ := Classical.axiom_of_choice hchained.chain
  have hall : setMembers result = some _ := membersLoop_rows hchained.fresh fun i _ => hrows i
  obtain rfl := Option.some.inj (hall.symm.trans hmembers)
  obtain ⟨i, hi, cells, hcells, cell, hcell, hne⟩ := hmisplaced
  obtain rfl : cells = rows i := hcells.unique (hrows i)
  have hindex : m.index result cell.2 < result.size := Nat.mod_lt _ hchained.sized
  rw [List.map_flatMap] at hapart hwanted
  simp only [List.map_map, Function.comp_def] at hapart hwanted
  -- the member is wanted, so it is found in the bucket it belongs in
  obtain ⟨answer, hanswer, htrue⟩ := hhas cell.2
  have hcellWanted : wanted cell.2 := by
    rw [hwanted]
    refine ⟨cell.2, List.mem_flatMap.mpr ⟨i, List.mem_range.mpr hi, ?_⟩, hlaw.refl _⟩
    exact List.mem_map_of_mem hcell
  rw [htrue.mpr hcellWanted] at hanswer
  have hfind := findLoop_chain (m := m) cell.2 (hrows (m.index result cell.2))
    ((hrows (m.index result cell.2)).length_le hchained.fresh)
  have hsome : ((rows (m.index result cell.2)).find? (m.finds cell.2)).isSome := by
    simpa [setHas, CDSet.bucketAt, hindex, hfind] using hanswer
  obtain ⟨other, hother, hcmp⟩ := List.find?_isSome.mp hsome
  have hpairs := (List.pairwise_flatMap.mp hapart).2
  have : Std.Symm fun i j : ℕ => ∀ first ∈ (rows i).map Prod.snd,
      ∀ second ∈ (rows j).map Prod.snd, m.cmp first second = false :=
    ⟨fun _ _ hpair first hfirst second hsecond =>
      hlaw.symm_false (hpair second hsecond first hfirst)⟩
  have hdifferent := List.Pairwise.forall hpairs (List.mem_range.mpr hi)
    (List.mem_range.mpr hindex) hne.symm cell.2 (List.mem_map_of_mem hcell) other.2
    (List.mem_map_of_mem hother)
  have hsame : m.cmp cell.2 other.2 = true := hcmp
  rw [hdifferent] at hsame
  cases hsame

/-- An operation that never returns a set without a misplaced member is not right. -/
theorem not_correct_of_outcome {outcome : Option (CDSet Value)} (hlaw : m.Lawful)
    (hbad : ∀ next, outcome = some next → Chained next ∧ Misplaced m next) :
    ¬Correct m outcome sources wanted := by
  intro hcorrect
  obtain ⟨next, -, houtcome, -⟩ := id hcorrect
  obtain ⟨hchained, hmisplaced⟩ := hbad next houtcome
  rw [houtcome] at hcorrect
  exact not_correct_of_misplaced hlaw hchained hmisplaced hcorrect

/-- Chaining a member keeps the chains; a misplaced member stays one. -/
theorem chainMember_misplaced (hchained : Chained result) {bucket : ℕ} {value : Value}
    {next : CDSet Value}
    (hchain : result.chainMember bucket (m.index result value) value = some next) :
    Chained next ∧ next.size = result.size ∧
      (Misplaced m result ∨ m.index result value ≠ bucket → Misplaced m next) := by
  have hindex : m.index result value < result.size := Nat.mod_lt _ hchained.sized
  have hbucket : bucket < result.size := by
    by_contra hbucket
    simp [CDSet.chainMember, CDSet.bucketAt, hindex, hbucket] at hchain
  obtain rfl := Option.some.inj ((chainMember_eq value hbucket hindex).symm.trans hchain)
  have hfree : result.heap result.created = none := hchained.fresh _ le_rfl
  have hold : ∀ {start cells}, Chain result.heap start cells →
      Chain (Function.update result.heap result.created
        (some ⟨result.buckets (m.index result value), value⟩)) start cells :=
    fun hcells => hcells.update_of_notMem (hcells.notMem_of_none hfree) _
  obtain ⟨front, hfront⟩ := hchained.chain (m.index result value)
  have hnew := hfront.push hfree value
  refine ⟨⟨fun i => ?_, fun address haddress => ?_, hchained.sized⟩, rfl, fun hwrong => ?_⟩
  · by_cases hi : i = bucket
    · subst hi
      exact ⟨_, by simpa using hnew⟩
    · obtain ⟨cells, hcells⟩ := hchained.chain i
      exact ⟨cells, by simpa [hi] using hold hcells⟩
  · have hne : address ≠ result.created := Nat.ne_of_gt haddress
    exact (Function.update_of_ne hne _ _).trans
      (hchained.fresh address (Nat.le_of_succ_le haddress))
  · by_cases hplace : m.index result value = bucket
    · obtain ⟨i, hi, cells, hcells, cell, hcell, hne⟩ := hwrong.resolve_right (not_not_intro hplace)
      by_cases hhere : i = bucket
      · -- the new member is in front of the misplaced one
        obtain rfl : cells = front := hcells.unique (by rw [hhere, ← hplace]; exact hfront)
        exact ⟨i, hi, _, by simpa [hhere] using hnew, cell, .tail _ hcell, hne⟩
      · exact ⟨i, hi, cells, by simpa [hhere] using hold hcells, cell, hcell, hne⟩
    · exact ⟨bucket, hbucket, _, by simpa using hnew, (result.created, value), .head _,
        hplace⟩

/-- **Copying a member into a wrong bucket** leaves a misplaced member, where it has
an outcome. -/
theorem copyLoop_misplaced (hchained : Chained result)
    (hkeep : ∀ member ∈ members, keep member.2 = some (kept member.2))
    (hwrong : Misplaced m result ∨
      ∃ member ∈ members, kept member.2 ∧ m.index result member.2 ≠ member.1)
    {next : CDSet Value} (hcopy : copyLoop m keep members result = some next) :
    Chained next ∧ Misplaced m next := by
  induction members generalizing result with
  | nil =>
      obtain rfl := Option.some.inj hcopy
      exact ⟨hchained, hwrong.resolve_right (by simp)⟩
  | cons member rest ih =>
      obtain ⟨i, value⟩ := member
      have hrest := fun member hmem => hkeep member (.tail _ hmem)
      have hkeepValue := hkeep (i, value) (.head _)
      cases hvalue : kept value with
      | false =>
          simp only [hvalue] at hkeepValue
          simp only [copyLoop, hkeepValue, Option.bind_eq_bind, Option.bind_some,
            Bool.false_eq_true, if_false] at hcopy
          -- the member that belongs elsewhere was not the one left out
          refine ih hchained hrest (hwrong.imp_right fun ⟨member, hmem, hmember, hne⟩ => ?_) hcopy
          rcases List.mem_cons.mp hmem with rfl | hlater
          · rw [hvalue] at hmember
            cases hmember
          · exact ⟨member, hlater, hmember, hne⟩
      | true =>
          simp only [hvalue] at hkeepValue
          simp only [copyLoop, hkeepValue, Option.bind_eq_bind, Option.bind_some,
            if_true] at hcopy
          obtain ⟨set, hchain, hcopy⟩ := Option.bind_eq_some_iff.mp hcopy
          obtain ⟨hset, hsize, hmisplaced⟩ := chainMember_misplaced hchained hchain
          refine ih hset hrest ?_ hcopy
          -- what was misplaced stays so, and the member itself is if it belongs elsewhere
          rcases hwrong with hbefore | ⟨member, hmem, hmember, hne⟩
          · exact .inl (hmisplaced (.inl hbefore))
          · rcases List.mem_cons.mp hmem with rfl | hlater
            · exact .inl (hmisplaced (.inr hne))
            · refine .inr ⟨member, hlater, hmember, ?_⟩
              rwa [CDSetMethods.index, hsize]

private theorem setPut_misplaced (hlaw : m.Lawful) (hchained : Chained result)
    (hmisplaced : Misplaced m result) {value : Value} {next : CDSet Value}
    (hput : setPut m result value = some next) : Chained next ∧ Misplaced m next := by
  have hindex : m.index result value < result.size := Nat.mod_lt _ hchained.sized
  obtain ⟨row, hrow⟩ := hchained.chain (m.index result value)
  have hfind := findLoop_chain (m := m) value hrow (hrow.length_le hchained.fresh)
  cases hfound : row.find? (m.finds value) with
  | none =>
      rw [hfound] at hfind
      obtain ⟨set, hchain, rfl⟩ : ∃ set, result.chainMember (m.index result value)
          (m.index result value) value = some set ∧
          { set with timestamp := set.timestamp + 1 } = next := by
        simpa [setPut, CDSet.bucketAt, hindex, hfind, Option.bind_eq_some_iff] using hput
      obtain ⟨hset, -, hstill⟩ := chainMember_misplaced hchained hchain
      exact ⟨⟨hset.chain, hset.fresh, hset.sized⟩, hstill (.inl hmisplaced)⟩
  | some cell =>
      obtain ⟨member, old⟩ := cell
      rw [hfound] at hfind
      obtain ⟨link, hcell⟩ := hrow.exists_of_mem (List.mem_of_find?_eq_some hfound)
      have hold : m.finds value (member, old) := List.find?_some hfound
      obtain rfl : { result with
          heap := Function.update result.heap member (some ⟨link, value⟩)
          timestamp := result.timestamp + 1 } = next := by
        simpa [setPut, CDSet.bucketAt, hindex, hfind, hcell] using hput
      refine ⟨⟨fun i => ?_, fun address haddress => ?_, hchained.sized⟩, ?_⟩
      · obtain ⟨cells, hcells⟩ := hchained.chain i
        exact ⟨_, hcells.replace hcell value⟩
      · have hnone := hchained.fresh address haddress
        have hne : address ≠ member := fun heq => by simp [← heq, hnone] at hcell
        exact (Function.update_of_ne hne _ _).trans hnone
      · obtain ⟨i, hi, cells, hcells, cell, hmem, hne⟩ := hmisplaced
        refine ⟨i, hi, _, hcells.replace hcell value, _, List.mem_map_of_mem hmem, ?_⟩
        by_cases hmember : cell.1 = member
        · -- the new pointer has the hash of the old one
          obtain ⟨next, hthis⟩ := hcells.exists_of_mem hmem
          rw [hmember, hcell] at hthis
          obtain ⟨-, hvalue⟩ := Cell.mk.inj (Option.some.inj hthis)
          rw [if_pos hmember]
          have hhash : m.hash value = m.hash cell.2 := hlaw.hash _ _ (hvalue ▸ hold)
          rw [CDSetMethods.index] at hne ⊢
          rwa [hhash]
        · rw [if_neg hmember]
          exact hne

theorem putLoop_misplaced (hlaw : m.Lawful) (hchained : Chained result)
    (hmisplaced : Misplaced m result) {next : CDSet Value}
    (hputs : putLoop m members result = some next) : Chained next ∧ Misplaced m next := by
  induction members generalizing result with
  | nil =>
      obtain rfl := Option.some.inj hputs
      exact ⟨hchained, hmisplaced⟩
  | cons member rest ih =>
      obtain ⟨set, hput, hrest⟩ := Option.bind_eq_some_iff.mp hputs
      obtain ⟨hset, hsetMisplaced⟩ := setPut_misplaced hlaw hchained hmisplaced hput
      exact ih hset hsetMisplaced hrest

/-! ## Copying the members of a set -/

/-- The values of the result after the members of a set that pass the test were
copied, when each belongs in the same bucket. -/
theorem copy_represents (hlaw : m.Lawful) {done : List Value} (hself : Represents m self values)
    (hresult : Represents m result done) (hkeep : ∀ value, keep value = some (kept value))
    (hsame : ∀ value ∈ values, kept value → SameBucket m self result.size value)
    (hapart : Apart m (values.filter kept ++ done)) :
    ∃ next after, (setMembers self).bind (fun members => copyLoop m keep members result) =
        some next ∧
      Represents m next after ∧ after.Perm (values.filter kept ++ done) ∧
      next.size = result.size := by
  obtain ⟨members, hmembers, hperm, hplaced⟩ := hself.setMembers
  have hfilter : ((members.map Prod.snd).filter kept ++ done).Perm
      (values.filter kept ++ done) := (hperm.filter kept).append_right done
  obtain ⟨next, hcopy, hnext, hsize⟩ := copyLoop_represents hlaw hresult
    (fun member _ => hkeep member.2)
    (fun member hmem hmember => (hplaced member hmem).trans
      (hsame member.2 (hperm.subset (List.mem_map_of_mem hmem)) hmember))
    (hapart.perm hlaw hfilter.symm)
  exact ⟨next, _, by rw [hmembers, Option.bind_some, hcopy], hnext,
    ((List.reverse_perm _).append_right done).trans hfilter, hsize⟩

/-- One member that belongs in another bucket is enough to leave a misplaced one. -/
theorem copy_misplaced (hself : Represents m self values) (hchained : Chained result)
    (hkeep : ∀ value, keep value = some (kept value))
    (hwrong : Misplaced m result ∨
      ∃ value ∈ values, kept value ∧ ¬SameBucket m self result.size value) {next : CDSet Value}
    (hcopy : (setMembers self).bind (fun members => copyLoop m keep members result) = some next) :
    Chained next ∧ Misplaced m next := by
  obtain ⟨members, hmembers, hperm, hplaced⟩ := hself.setMembers
  rw [hmembers, Option.bind_some] at hcopy
  refine copyLoop_misplaced hchained (fun member _ => hkeep member.2) ?_ hcopy
  refine hwrong.imp_right fun ⟨value, hmem, hvalue, hother⟩ => ?_
  obtain ⟨member, hmember, rfl⟩ := List.mem_map.mp (hperm.symm.subset hmem)
  refine ⟨member, hmember, hvalue, fun heq => hother ?_⟩
  exact (hplaced member hmember).symm.trans heq.symm

/-- **Copying into an empty set** is right if and only if each copied member belongs
in the same bucket of both sets. -/
theorem copy_correct_iff (hlaw : m.Lawful) (hself : Represents m self values)
    (hempty : Represents m result []) (hkeep : ∀ value, keep value = some (kept value))
    (hsources : ∀ value ∈ values, value ∈ sources)
    (hwanted : ∀ value, wanted value ↔ Holds m (values.filter kept) value) :
    Correct m ((setMembers self).bind fun members => copyLoop m keep members result)
        sources wanted ↔
      ∀ value ∈ values, kept value → SameBucket m self result.size value := by
  constructor
  · intro hcorrect
    by_contra hwrong
    push Not at hwrong
    apply not_correct_of_outcome hlaw _ hcorrect
    intro next hcopy
    exact copy_misplaced hself hempty.chained hkeep (.inr hwrong) hcopy
  · intro hsame
    obtain ⟨next, after, hcopy, hnext, hperm, -⟩ := copy_represents hlaw hself hempty hkeep hsame
      (by rw [List.append_nil]; exact hself.apart.filter _)
    rw [List.append_nil] at hperm
    rw [hcopy]
    refine hnext.correct hlaw (fun value hmem => ?_) fun value => ?_
    · exact hsources value (List.mem_of_mem_filter (hperm.subset hmem))
    · rw [hwanted, holds_congr hperm]

theorem exists_createSetWith (m : CDSetMethods Value) {hint : BitVec 32}
    (hhint : ¬hint.slt 0) : ∃ empty : CDSet Value, createSetWith hint = some empty ∧
      empty.size = sizeFor hint ∧ Represents m empty [] := by
  have hcreate : (createSetWith hint : Option (CDSet Value)) = some _ := if_neg hhint
  exact ⟨_, hcreate, rfl, .create hcreate⟩

theorem size_not_negative {size : ℕ} (hsize : size < 2 ^ 31) :
    ¬(BitVec.ofNat 32 size).slt 0 := by
  have hint : (BitVec.ofNat 32 size).toInt = size := by
    have hmsb : (BitVec.ofNat 32 size).msb = false := by
      rw [BitVec.msb_eq_false_iff_two_mul_lt, BitVec.toNat_ofNat]
      omega
    rw [BitVec.toInt_eq_toNat_of_msb hmsb, BitVec.toNat_ofNat]
    omega
  simp [BitVec.slt, hint]

theorem Built.size_lt {values : List Value} (hlaw : m.Lawful) (hbuilt : Built m self values) :
    self.size < 2 ^ 31 := by
  obtain ⟨hint, empty, answers, hcreate, hrun⟩ := hbuilt
  have hempty : empty.size < 2 ^ 31 := by
    rw [createSetWith] at hcreate
    split at hcreate
    · cases hcreate
    · obtain rfl := Option.some.inj hcreate
      exact (sizeFor_bounds hint).2
  have hkept : Represents m self values ∧ self.size = empty.size := by
    apply System.Run.invariant (S := setSystem m empty)
      (I := fun _ state => Represents m state.1 state.2 ∧ state.1.size = empty.size)
      ⟨.create hcreate, rfl⟩ _ hrun
    rintro _ ⟨self, values⟩ call next emitted ⟨hself, hsize⟩ _ hstep
    obtain ⟨set, hcall, hset, hsetSize⟩ := Represents.call hlaw hself call
    obtain ⟨rfl, -⟩ := by simpa [setSystem, hcall] using hstep
    exact ⟨hset, hsetSize.trans hsize⟩
  rw [hkept.2]
  exact hempty

/-! ## The operations -/

theorem any_eq_true_iff (others : List Value) (value : Value) :
    others.any (m.cmp value) = true ↔ Holds m others value :=
  List.any_eq_true

theorem any_congr (hlaw : m.Lawful) (others : List Value) {value other : Value}
    (hcmp : m.cmp value other) : others.any (m.cmp value) = others.any (m.cmp other) := by
  rw [Bool.eq_iff_iff, any_eq_true_iff, any_eq_true_iff]
  constructor
  · intro ⟨third, hmem, hthird⟩
    exact ⟨third, hmem, hlaw.trans _ _ _ (hlaw.symm _ _ hcmp) hthird⟩
  · intro ⟨third, hmem, hthird⟩
    exact ⟨third, hmem, hlaw.trans _ _ _ hcmp hthird⟩

/-- What is held after a test that does not tell equivalent values apart. -/
theorem holds_filter {kept : Value → Bool} (values : List Value)
    (hkept : ∀ value other, m.cmp value other → kept value = kept other) (value : Value) :
    Holds m (values.filter kept) value ↔ Holds m values value ∧ kept value := by
  constructor
  · intro ⟨other, hmem, hcmp⟩
    obtain ⟨hother, htest⟩ := List.mem_filter.mp hmem
    exact ⟨⟨other, hother, hcmp⟩, (hkept value other hcmp).trans htest⟩
  · intro ⟨⟨other, hother, hcmp⟩, htest⟩
    exact ⟨other, List.mem_filter.mpr ⟨hother, (hkept value other hcmp).symm.trans htest⟩, hcmp⟩

section Operations

variable {a b : CDSet Value} {as bs : List Value}

/-- The test of `CD_SetMinus` and `CD_SetDifference`. -/
theorem Represents.setLacks (hlaw : m.Lawful) (hb : Represents m b bs) (value : Value) :
    setLacks m b value = some (!bs.any (m.cmp value)) := by
  rw [Containers.setLacks, hb.setHas hlaw, Option.map_some]

theorem lacks_iff (others : List Value) (value : Value) :
    (!others.any (m.cmp value)) = true ↔ ¬Holds m others value := by
  rw [Bool.not_eq_true', ← Bool.not_eq_true, any_eq_true_iff]

theorem holds_lacking (hlaw : m.Lawful) (as bs : List Value) (value : Value) :
    Holds m (as.filter fun value => !bs.any (m.cmp value)) value ↔
      Holds m as value ∧ ¬Holds m bs value := by
  rw [holds_filter as fun value other hcmp => by rw [any_congr hlaw bs hcmp], lacks_iff]

private theorem apart_lacking (hapartA : Apart m as) (hapartB : Apart m bs) :
    Apart m (as.filter (fun value => !bs.any (m.cmp value)) ++
      bs.filter fun value => !as.any (m.cmp value)) := by
  refine List.pairwise_append.mpr ⟨hapartA.filter _, hapartB.filter _, ?_⟩
  intro value hvalue other hother
  obtain ⟨-, hlacks⟩ := List.mem_filter.mp hvalue
  by_contra hcmp
  apply (lacks_iff bs value).mp hlacks
  exact ⟨other, List.mem_of_mem_filter hother, Bool.eq_true_of_not_eq_false hcmp⟩

/-- `CD_CloneSet` is right if and only if the hint is not negative and each member
belongs in the same bucket of both sets. -/
theorem cloneSet_correct_iff (hlaw : m.Lawful) (ha : Represents m a as) (hint : BitVec 32) :
    Correct m (cloneSet m a hint) as (Holds m as) ↔
      ¬hint.slt 0 ∧ ∀ value ∈ as, SameBucket m a (sizeFor hint) value := by
  by_cases hhint : hint.slt 0
  · have hcreate : (createSetWith hint : Option (CDSet Value)) = none := if_pos hhint
    rw [cloneSet, hcreate]
    exact iff_of_false (fun ⟨_, _, heq, _⟩ => nomatch heq) fun hright => hright.1 hhint
  · obtain ⟨empty, hcreate, hsize, hempty⟩ := exists_createSetWith m hhint
    simp only [cloneSet, hcreate, Option.bind_eq_bind, Option.bind_some]
    have hkeep : ∀ value : Value, some true = some ((fun _ => true) value) := fun _ => rfl
    rw [copy_correct_iff hlaw ha hempty hkeep (fun _ hmem => hmem) (by simp), hsize]
    exact ⟨fun hall => ⟨hhint, fun value hmem => hall value hmem rfl⟩,
      fun hall value hmem _ => hall.2 value hmem⟩

theorem setMinus_correct_iff (hlaw : m.Lawful) (ha : Represents m a as) (hb : Represents m b bs)
    (hsize : min a.size b.size < 2 ^ 31) :
    Correct m (setMinus m (some a) (some b)) as
        (fun value => Holds m as value ∧ ¬Holds m bs value) ↔
      ∀ value ∈ as, ¬Holds m bs value →
        SameBucket m a (sizeFor (.ofNat 32 (min a.size b.size))) value := by
  obtain ⟨empty, hcreate, hempty, hrep⟩ := exists_createSetWith m (size_not_negative hsize)
  simp only [setMinus, hcreate, Option.bind_eq_bind, Option.bind_some]
  rw [copy_correct_iff hlaw ha hrep (hb.setLacks hlaw) (fun _ hmem => hmem), hempty]
  · simp only [lacks_iff]
  · intro value
    rw [holds_lacking hlaw]

/-- `CD_SetIntersect` once `a` is not the shorter one. -/
theorem intersectLonger_correct_iff (hlaw : m.Lawful) (ha : Represents m a as)
    (hb : Represents m b bs) (hsize : min a.size b.size < 2 ^ 31)
    (hsources : ∀ value ∈ bs, value ∈ sources) :
    Correct m (intersectLonger m a b) sources
        (fun value => Holds m as value ∧ Holds m bs value) ↔
      ∀ value ∈ bs, Holds m as value →
        SameBucket m b (sizeFor (.ofNat 32 (min a.size b.size))) value := by
  obtain ⟨empty, hcreate, hempty, hrep⟩ := exists_createSetWith m (size_not_negative hsize)
  simp only [intersectLonger, hcreate, Option.bind_eq_bind, Option.bind_some]
  rw [copy_correct_iff hlaw hb hrep (ha.setHas hlaw) hsources, hempty]
  · simp only [any_eq_true_iff]
  · intro value
    rw [holds_filter bs fun value other hcmp => any_congr hlaw as hcmp, any_eq_true_iff]
    exact and_comm

/-- `CD_SetIntersect` copies the members of the shorter set, of `b` when none is. -/
theorem setIntersect_correct_iff (hlaw : m.Lawful) (ha : Represents m a as)
    (hb : Represents m b bs) (hsize : min a.size b.size < 2 ^ 31) :
    Correct m (setIntersect m (some a) (some b)) (as ++ bs)
        (fun value => Holds m as value ∧ Holds m bs value) ↔
      if as.length < bs.length then
        ∀ value ∈ as, Holds m bs value →
          SameBucket m a (sizeFor (.ofNat 32 (min a.size b.size))) value
      else
        ∀ value ∈ bs, Holds m as value →
          SameBucket m b (sizeFor (.ofNat 32 (min a.size b.size))) value := by
  rw [setIntersect, ha.length_eq, hb.length_eq]
  by_cases hshorter : as.length < bs.length
  · rw [if_pos hshorter, if_pos hshorter, min_comm]
    have hcomm : (fun value => Holds m as value ∧ Holds m bs value) =
        fun value => Holds m bs value ∧ Holds m as value := by
      funext value
      exact propext and_comm
    rw [hcomm]
    exact intersectLonger_correct_iff hlaw hb ha (min_comm a.size b.size ▸ hsize)
      fun _ hmem => List.mem_append_left _ hmem
  · rw [if_neg hshorter, if_neg hshorter]
    exact intersectLonger_correct_iff hlaw ha hb hsize fun _ hmem => List.mem_append_right _ hmem

private theorem setUnion_correct_iff (hlaw : m.Lawful) (ha : Represents m a as)
    (hb : Represents m b bs)
    (hsize : max a.size b.size < 2 ^ 31) :
    Correct m (setUnion m (some a) (some b)) (as ++ bs)
        (fun value => Holds m as value ∨ Holds m bs value) ↔
      ∀ value ∈ as, SameBucket m a (sizeFor (.ofNat 32 (max a.size b.size))) value := by
  obtain ⟨empty, hcreate, hempty, hrep⟩ := exists_createSetWith m (size_not_negative hsize)
  obtain ⟨members, hmembers, hmembersPerm, -⟩ := hb.setMembers
  have hkeep : ∀ value : Value, some true = some ((fun _ => true) value) := fun _ => rfl
  have hunfold : setUnion m (some a) (some b) =
      ((setMembers a).bind fun members => copyLoop m (fun _ => some true) members empty).bind
        fun result => putLoop m members result := by
    simp only [setUnion, cloneSet, hcreate, hmembers, Option.bind_eq_bind, Option.bind_some]
  rw [hunfold, ← hempty]
  constructor
  · intro hcorrect
    by_contra hwrong
    push Not at hwrong
    obtain ⟨value, hmem, hother⟩ := hwrong
    -- what the clone misplaced stays misplaced while the members of `b` are put
    apply not_correct_of_outcome hlaw _ hcorrect
    intro next hunion
    obtain ⟨cloned, hcopy, hputs⟩ := Option.bind_eq_some_iff.mp hunion
    obtain ⟨hchained, hmisplaced⟩ := copy_misplaced ha hrep.chained hkeep
      (.inr ⟨value, hmem, rfl, hother⟩) hcopy
    exact putLoop_misplaced hlaw hchained hmisplaced hputs
  · intro hsame
    obtain ⟨cloned, done, hcopy, hcloned, hperm, -⟩ := copy_represents hlaw ha hrep hkeep
      (fun value hmem _ => hsame value hmem) (by simpa using ha.apart)
    obtain ⟨next, after, hputs, hnext, hsources, hholds⟩ :=
      putLoop_represents hlaw hcloned members
    have hdone : done.Perm as := by simpa using hperm
    rw [hcopy, Option.bind_some, hputs]
    refine hnext.correct hlaw (fun value hmem => ?_) fun value => ?_
    · exact (hdone.append hmembersPerm).subset (hsources value hmem)
    · rw [hholds, holds_congr hdone, holds_congr hmembersPerm]

/-- The two copies of `CD_SetDifference`: first from `b`, then from `a`. -/
def copyBoth (m : CDSetMethods Value) (a b empty : CDSet Value) : Option (CDSet Value) :=
  ((setMembers b).bind fun members => copyLoop m (setLacks m a) members empty).bind fun first =>
    (setMembers a).bind fun members => copyLoop m (setLacks m b) members first

variable {empty : CDSet Value}

/-- When all members that are copied belong in the same bucket, the result has those
that one operand has and the other one lacks. -/
theorem copyBoth_represents (hlaw : m.Lawful) (ha : Represents m a as) (hb : Represents m b bs)
    (hempty : Represents m empty [])
    (hsameA : ∀ value ∈ as, ¬Holds m bs value → SameBucket m a empty.size value)
    (hsameB : ∀ value ∈ bs, ¬Holds m as value → SameBucket m b empty.size value) :
    ∃ next after, copyBoth m a b empty = some next ∧ Represents m next after ∧
      after.Perm (as.filter (fun value => !bs.any (m.cmp value)) ++
        bs.filter fun value => !as.any (m.cmp value)) := by
  obtain ⟨first, done, hfirst, hdone, hdonePerm, hfirstSize⟩ := copy_represents hlaw hb hempty
    (ha.setLacks hlaw) (fun value hmem hkept => hsameB value hmem ((lacks_iff as value).mp hkept))
    (by rw [List.append_nil]; exact hb.apart.filter _)
  rw [List.append_nil] at hdonePerm
  have hall : (as.filter (fun value => !bs.any (m.cmp value)) ++ done).Perm
      (as.filter (fun value => !bs.any (m.cmp value)) ++
        bs.filter fun value => !as.any (m.cmp value)) := hdonePerm.append_left _
  obtain ⟨next, after, hsecond, hnext, hperm, -⟩ := copy_represents hlaw ha hdone
    (hb.setLacks hlaw) (fun value hmem hkept => by
      rw [hfirstSize]
      exact hsameA value hmem ((lacks_iff bs value).mp hkept))
    ((apart_lacking ha.apart hb.apart).perm hlaw hall.symm)
  refine ⟨next, after, ?_, hnext, hperm.trans hall⟩
  rw [copyBoth, hfirst, Option.bind_some, hsecond]

/-- One member that belongs in another bucket spoils the result, whichever copy it is in. -/
theorem copyBoth_misplaced (hlaw : m.Lawful) (ha : Represents m a as) (hb : Represents m b bs)
    (hempty : Represents m empty [])
    (hwrong : ¬((∀ value ∈ as, ¬Holds m bs value → SameBucket m a empty.size value) ∧
      ∀ value ∈ bs, ¬Holds m as value → SameBucket m b empty.size value))
    {next : CDSet Value} (hcopies : copyBoth m a b empty = some next) :
    Chained next ∧ Misplaced m next := by
  obtain ⟨first, hfirst, hsecond⟩ := Option.bind_eq_some_iff.mp hcopies
  by_cases hgood : ∀ value ∈ bs, ¬Holds m as value → SameBucket m b empty.size value
  · -- the first copy is right, so the second one meets the member
    obtain ⟨_, done, hcopy, hdone, -, hfirstSize⟩ := copy_represents hlaw hb hempty
      (ha.setLacks hlaw) (fun value hmem hkept => hgood value hmem ((lacks_iff as value).mp hkept))
      (by rw [List.append_nil]; exact hb.apart.filter _)
    obtain rfl := Option.some.inj (hcopy.symm.trans hfirst)
    have hother : ¬∀ value ∈ as, ¬Holds m bs value → SameBucket m a empty.size value :=
      fun hall => hwrong ⟨hall, hgood⟩
    push Not at hother
    obtain ⟨value, hmem, hlacks, hne⟩ := hother
    apply copy_misplaced ha hdone.chained (hb.setLacks hlaw) (.inr ⟨value, hmem, _, _⟩) hsecond
    · exact (lacks_iff bs value).mpr hlacks
    · exact hfirstSize ▸ hne
  · -- the first copy misplaces the member, and the second one leaves it there
    push Not at hgood
    obtain ⟨value, hmem, hlacks, hne⟩ := hgood
    obtain ⟨hchained, hmisplaced⟩ := copy_misplaced hb hempty.chained (ha.setLacks hlaw)
      (.inr ⟨value, hmem, (lacks_iff as value).mpr hlacks, hne⟩) hfirst
    exact copy_misplaced ha hchained (hb.setLacks hlaw) (.inl hmisplaced) hsecond

private theorem setDifference_correct_iff (hlaw : m.Lawful) (ha : Represents m a as)
    (hb : Represents m b bs) (hsize : min a.size b.size < 2 ^ 31) :
    Correct m (setDifference m (some a) (some b)) (as ++ bs)
        (fun value => Holds m as value ∧ ¬Holds m bs value ∨
          Holds m bs value ∧ ¬Holds m as value) ↔
      (∀ value ∈ as, ¬Holds m bs value →
        SameBucket m a (sizeFor (.ofNat 32 (min a.size b.size))) value) ∧
      ∀ value ∈ bs, ¬Holds m as value →
        SameBucket m b (sizeFor (.ofNat 32 (min a.size b.size))) value := by
  obtain ⟨empty, hcreate, hempty, hrep⟩ := exists_createSetWith m (size_not_negative hsize)
  have hsplit : setDifference m (some a) (some b) = copyBoth m a b empty := by
    simp only [setDifference, copyBoth, hcreate, Option.bind_eq_bind, Option.bind_some,
      Option.bind_assoc]
  rw [hsplit, ← hempty]
  constructor
  · intro hcorrect
    by_contra hwrong
    apply not_correct_of_outcome hlaw _ hcorrect
    intro next hcopies
    exact copyBoth_misplaced hlaw ha hb hrep hwrong hcopies
  · intro ⟨hsameA, hsameB⟩
    obtain ⟨next, after, hcopies, hnext, hperm⟩ :=
      copyBoth_represents hlaw ha hb hrep hsameA hsameB
    rw [hcopies]
    refine hnext.correct hlaw (fun value hafter => ?_) fun value => ?_
    · rcases List.mem_append.mp (hperm.subset hafter) with hleft | hright
      · exact List.mem_append_left _ (List.mem_of_mem_filter hleft)
      · exact List.mem_append_right _ (List.mem_of_mem_filter hright)
    · rw [holds_congr hperm, ← holds_lacking hlaw, ← holds_lacking hlaw]
      simp only [Holds, List.mem_append, or_and_right, exists_or]

end Operations

/-- **The algebra of sets.**  For all sets that were built by calls with one `cmp` and
one `hash`, each operation is right if and only if every member that it copies by hand
belongs in the same bucket of the operand and of the result: all members of the set
cloned, all members of `a` in a union, the common members of the shorter operand in an
intersection, and the members of the difference otherwise. -/
theorem set_algebra_iff (hlaw : m.Lawful) {a b : CDSet Value} {as bs : List Value}
    (ha : Built m a as) (hb : Built m b bs) (hint : BitVec 32) :
    (Correct m (cloneSet m a hint) as (Holds m as) ↔
      ¬hint.slt 0 ∧ ∀ value ∈ as, SameBucket m a (sizeFor hint) value) ∧
    (Correct m (setUnion m (some a) (some b)) (as ++ bs)
        (fun value => Holds m as value ∨ Holds m bs value) ↔
      ∀ value ∈ as, SameBucket m a (sizeFor (.ofNat 32 (max a.size b.size))) value) ∧
    (Correct m (setIntersect m (some a) (some b)) (as ++ bs)
        (fun value => Holds m as value ∧ Holds m bs value) ↔
      if as.length < bs.length then
        ∀ value ∈ as, Holds m bs value →
          SameBucket m a (sizeFor (.ofNat 32 (min a.size b.size))) value
      else
        ∀ value ∈ bs, Holds m as value →
          SameBucket m b (sizeFor (.ofNat 32 (min a.size b.size))) value) ∧
    (Correct m (setMinus m (some a) (some b)) as
        (fun value => Holds m as value ∧ ¬Holds m bs value) ↔
      ∀ value ∈ as, ¬Holds m bs value →
        SameBucket m a (sizeFor (.ofNat 32 (min a.size b.size))) value) ∧
    (Correct m (setDifference m (some a) (some b)) (as ++ bs)
        (fun value => Holds m as value ∧ ¬Holds m bs value ∨
          Holds m bs value ∧ ¬Holds m as value) ↔
      (∀ value ∈ as, ¬Holds m bs value →
        SameBucket m a (sizeFor (.ofNat 32 (min a.size b.size))) value) ∧
      ∀ value ∈ bs, ¬Holds m as value →
        SameBucket m b (sizeFor (.ofNat 32 (min a.size b.size))) value) := by
  have hsizeA := ha.size_lt hlaw
  have hsizeB := hb.size_lt hlaw
  have hrepA := ha.represents hlaw
  have hrepB := hb.represents hlaw
  have hmin : min a.size b.size < 2 ^ 31 := (min_le_left _ _).trans_lt hsizeA
  have hmax : max a.size b.size < 2 ^ 31 := max_lt hsizeA hsizeB
  exact ⟨cloneSet_correct_iff hlaw hrepA hint, setUnion_correct_iff hlaw hrepA hrepB hmax,
    setIntersect_correct_iff hlaw hrepA hrepB hmin, setMinus_correct_iff hlaw hrepA hrepB hmin,
    setDifference_correct_iff hlaw hrepA hrepB hmin⟩

theorem exists_built (m : CDSetMethods Value) (hint : BitVec 32) (calls : List (SetCall Value))
    (values : List Value)
    (hvalues : ((createSetWith hint).bind fun empty =>
      (setSystem m empty).exec calls (setSystem m empty).init).map (fun result => result.1.2) =
        some values) :
    ∃ self, Built m self values ∧ ((createSetWith hint).bind fun empty =>
      (setSystem m empty).exec calls (setSystem m empty).init).map (fun result => result.1.1) =
        some self := by
  obtain ⟨⟨⟨self, _⟩, answers⟩, hcalls, rfl⟩ := Option.map_eq_some_iff.mp hvalues
  obtain ⟨empty, hcreate, hexec⟩ := Option.bind_eq_some_iff.mp hcalls
  exact ⟨self, ⟨hint, empty, answers, hcreate,
    System.Run.exec .start (System.execGuard_true _ _) hexec⟩, by rw [hcalls]; rfl⟩

/-- The hashes are below each size, so the operations are right whatever the hints. -/
theorem set_algebra_iff_digits :
    ∃ a b, Built lastDigit a [4, 3] ∧ Built lastDigit b [5, 14] ∧ a.size ≠ b.size ∧
      Correct lastDigit (setMinus lastDigit (some a) (some b)) [4, 3]
        fun value => Holds lastDigit [4, 3] value ∧ ¬Holds lastDigit [5, 14] value := by
  obtain ⟨a, ha, heqA⟩ := exists_built lastDigit 2000 [.put 3, .put 4] [4, 3] (by decide)
  obtain ⟨b, hb, heqB⟩ := exists_built lastDigit 0 [.put 14, .put 5] [5, 14] (by decide)
  have hsizeA : (some a).map CDSet.size = some 1021 := by
    rw [← heqA]
    decide
  have hsizeB : (some b).map CDSet.size = some 509 := by
    rw [← heqB]
    decide
  rw [Option.map_some, Option.some.injEq] at hsizeA hsizeB
  refine ⟨a, b, ha, hb, by rw [hsizeA, hsizeB]; decide, ?_⟩
  refine (set_algebra_iff lastDigit_lawful ha hb 0).2.2.2.1.mpr fun value _ _ => ?_
  have hsmall : (lastDigit.hash value).toNat < 509 := by
    simp only [lastDigit, BitVec.toNat_ofNat]
    omega
  have hsize : sizeFor (.ofNat 32 (min 1021 509)) = 509 := by decide
  rw [SameBucket, hsizeA, hsizeB, hsize, Nat.mod_eq_of_lt hsmall,
    Nat.mod_eq_of_lt (hsmall.trans (by decide))]

/-- Numbers that are their own hash. -/
def ownHash : CDSetMethods ℕ where
  cmp := fun a b => a == b
  hash := fun value => .ofNat 32 value

/-- A set of 1021 buckets holds 1021 in bucket 0.  Its clone of 509 buckets keeps the
member there, while `CD_SetHas` looks in bucket 3.  The value 600 is stored behind the
end of the clone's buckets. -/
theorem clone_misplaces :
    (∃ a, Built ownHash a [1021] ∧
      ¬Correct ownHash (cloneSet ownHash a 400) [1021] (Holds ownHash [1021])) ∧
    ∃ a, Built ownHash a [600] ∧ cloneSet ownHash a 400 = none := by
  obtain ⟨a, ha, heqA⟩ := exists_built ownHash 2000 [.put 1021] [1021] (by decide)
  obtain ⟨b, hb, heqB⟩ := exists_built ownHash 2000 [.put 600] [600] (by decide)
  refine ⟨⟨a, ha, fun hcorrect => ?_⟩, b, hb, ?_⟩
  · obtain ⟨result, members, hclone, -, -, -, -, -, hhas⟩ := hcorrect
    have hlost : (some a).bind (fun a => (cloneSet ownHash a 400).bind fun result =>
        setHas ownHash result 1021) = some false := by
      rw [← heqA]
      decide +kernel
    rw [Option.bind_some, hclone, Option.bind_some] at hlost
    obtain ⟨answer, hanswer, hwanted⟩ := hhas 1021
    rw [hlost] at hanswer
    obtain rfl := Option.some.inj hanswer
    exact nomatch hwanted.mpr ⟨1021, .head _, by decide⟩
  · have houtside : ((some b).bind fun b => cloneSet ownHash b 400).isNone = true := by
      rw [← heqB]
      decide +kernel
    rwa [Option.bind_some, Option.isNone_iff_eq_none] at houtside

end Craftd.Containers
