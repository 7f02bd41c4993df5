import Mathlib.Data.List.Induction
import Mathlib.Data.List.Sort

/-!
# Inserting one after the other

`insertAll r members` inserts the members one after the other into an empty list,
each before the first one that it is related to.  For a total preorder the result is
sorted, and among equals the order is reversed: a member goes in front of those it is
equal to (`filter_insertAll`).  Only a member that is related to none becomes the last
(`getLast?_orderedInsert`).
-/

namespace InsertionOrder

variable {Member : Type*} (r : Member → Member → Prop) [DecidableRel r]

/-- Insert the members one after the other. -/
def insertAll (members : List Member) : List Member :=
  members.foldl (fun inserted member => inserted.orderedInsert r member) []

theorem insertAll_concat (members : List Member) (member : Member) :
    insertAll r (members ++ [member]) = (insertAll r members).orderedInsert r member := by
  rw [insertAll, List.foldl_append]
  rfl

variable {r} {p : Member → Bool} {inserted : List Member} {member : Member}

theorem filter_orderedInsert (hmember : p member)
    (hrelated : ∀ other ∈ inserted, p other → r member other) :
    (inserted.orderedInsert r member).filter p = member :: inserted.filter p := by
  induction inserted with
  | nil => simp [hmember]
  | cons first rest ih =>
      by_cases hfirst : r member first
      · rw [List.orderedInsert_cons_of_le r _ hfirst, List.filter_cons_of_pos hmember]
      · have hnot : ¬p first = true := fun hp => hfirst (hrelated first (.head _) hp)
        rw [List.orderedInsert_of_not_le r _ hfirst, List.filter_cons_of_neg hnot,
          List.filter_cons_of_neg hnot, ih fun other hmem => hrelated other (.tail _ hmem)]

theorem filter_orderedInsert_of_not (hmember : ¬p member = true) :
    (inserted.orderedInsert r member).filter p = inserted.filter p := by
  induction inserted with
  | nil => simp [hmember]
  | cons first rest ih =>
      by_cases hfirst : r member first
      · rw [List.orderedInsert_cons_of_le r _ hfirst, List.filter_cons_of_neg hmember]
      · rw [List.orderedInsert_of_not_le r _ hfirst, List.filter_cons, List.filter_cons, ih]

theorem getLast?_orderedInsert (hbefore : ∃ other ∈ inserted, r member other) :
    (inserted.orderedInsert r member).getLast? = inserted.getLast? := by
  induction inserted with
  | nil =>
      obtain ⟨_, hmem, -⟩ := hbefore
      cases hmem
  | cons first rest ih =>
      by_cases hfirst : r member first
      · rw [List.orderedInsert_cons_of_le r _ hfirst, List.getLast?_cons_cons]
      · obtain ⟨other, hmem, hother⟩ := hbefore
        have hrest : other ∈ rest := by
          refine (List.mem_cons.mp hmem).resolve_left ?_
          rintro rfl
          exact hfirst hother
        have hlast := ih ⟨other, hrest, hother⟩
        rw [List.orderedInsert_of_not_le r _ hfirst, List.getLast?_cons, hlast,
          List.getLast?_cons]

theorem orderedInsert_of_forall_not (hbefore : ∀ other ∈ inserted, ¬r member other) :
    inserted.orderedInsert r member = inserted ++ [member] := by
  induction inserted with
  | nil => rfl
  | cons first rest ih =>
      rw [List.orderedInsert_of_not_le r _ (hbefore first (.head _)),
        ih fun other hmem => hbefore other (.tail _ hmem), List.cons_append]

variable (r) in
theorem insertAll_perm (members : List Member) : (insertAll r members).Perm members := by
  induction members using List.reverseRecOn with
  | nil => exact .refl _
  | append_singleton members member ih =>
      rw [insertAll_concat]
      exact (List.perm_orderedInsert r member _).trans
        ((ih.cons member).trans (List.perm_append_singleton member members).symm)

theorem pairwise_insertAll [Std.Total r] [IsTrans Member r] (members : List Member) :
    (insertAll r members).Pairwise r := by
  induction members using List.reverseRecOn with
  | nil => exact .nil
  | append_singleton members member ih =>
      rw [insertAll_concat]
      exact ih.orderedInsert member _

/-- Insertion into a sorted list commutes with keeping those that satisfy `p`. -/
theorem filter_orderedInsert_of_pos [IsTrans Member r] (hsorted : inserted.Pairwise r)
    (hmember : p member) :
    (inserted.orderedInsert r member).filter p = (inserted.filter p).orderedInsert r member := by
  induction inserted with
  | nil => simp [hmember]
  | cons first rest ih =>
      obtain ⟨hfirst, hrest⟩ := List.pairwise_cons.mp hsorted
      by_cases hbefore : r member first
      · -- all that is kept comes after `first`, so the member goes in front of it
        have hfront : ((first :: rest).filter p).orderedInsert r member =
            member :: (first :: rest).filter p := by
          cases hkept : (first :: rest).filter p with
          | nil => rfl
          | cons head kept =>
              have hhead : head ∈ first :: rest :=
                List.mem_of_mem_filter (hkept ▸ List.mem_cons_self)
              apply List.orderedInsert_cons_of_le
              cases List.mem_cons.mp hhead with
              | inl heq => rwa [heq]
              | inr hmem => exact Trans.trans hbefore (hfirst head hmem)
        rw [hfront, List.orderedInsert_cons_of_le r _ hbefore, List.filter_cons_of_pos hmember]
      · rw [List.orderedInsert_of_not_le r _ hbefore, List.filter_cons, List.filter_cons,
          ih hrest]
        by_cases hkept : p first
        · rw [if_pos hkept, if_pos hkept, List.orderedInsert_of_not_le r _ hbefore]
        · rw [if_neg hkept, if_neg hkept]

/-- **Leaving members out before or after the insertions is the same.** -/
theorem insertAll_filter [Std.Total r] [IsTrans Member r] (members : List Member) :
    insertAll r (members.filter p) = (insertAll r members).filter p := by
  induction members using List.reverseRecOn with
  | nil => rfl
  | append_singleton members member ih =>
      rw [insertAll_concat, List.filter_append]
      by_cases hmember : p member
      · rw [filter_orderedInsert_of_pos (pairwise_insertAll members) hmember, ← ih,
          List.filter_cons_of_pos hmember, List.filter_nil, insertAll_concat]
      · rw [filter_orderedInsert_of_not hmember, List.filter_cons_of_neg hmember,
          List.filter_nil, List.append_nil, ih]

/-- **Equals are reversed.** -/
theorem filter_insertAll (hequal : ∀ member other, p member → p other → r member other)
    (members : List Member) : (insertAll r members).filter p = (members.filter p).reverse := by
  induction members using List.reverseRecOn with
  | nil => rfl
  | append_singleton members member ih =>
      rw [insertAll_concat, List.filter_append, List.reverse_append]
      by_cases hmember : p member
      · rw [filter_orderedInsert hmember fun other _ hother => hequal member other hmember hother,
          ih]
        simp [hmember]
      · rw [filter_orderedInsert_of_not hmember, ih]
        simp [hmember]

end InsertionOrder
