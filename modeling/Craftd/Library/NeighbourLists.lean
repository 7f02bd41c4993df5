import Mathlib.Data.List.Nodup
import Mathlib.Logic.Function.Basic

/-!
# Lists of neighbours

A relation kept as a list of neighbours at each vertex, some of which have no
list.  An edge is made or taken away by changing the two lists one after the
other; each change is described by what it does to the relation, and keeps the
lists free of repetitions.
-/

namespace NeighbourLists

variable {Vertex : Type*}

/-- The lists of all vertices. -/
abbrev ListTable (Vertex : Type*) := Vertex → Option (List Vertex)

/-- The second vertex is in the list of the first. -/
def Sees (lists : ListTable Vertex) (vertex other : Vertex) : Prop :=
  ∃ list, lists vertex = some list ∧ other ∈ list

/-- No list has a repetition. -/
def Nodups (lists : ListTable Vertex) : Prop :=
  ∀ vertex list, lists vertex = some list → list.Nodup

/-- No list has a repetition, and two vertices see each other or neither does. -/
structure Mutual (lists : ListTable Vertex) : Prop where
  nodups : Nodups lists
  symm : ∀ vertex other, Sees lists vertex other → Sees lists other vertex

theorem Sees.isSome {lists : ListTable Vertex} {vertex other : Vertex}
    (h : Sees lists vertex other) : (lists vertex).isSome := by
  obtain ⟨list, hlist, -⟩ := h
  rw [hlist]
  rfl

theorem sees_iff_mem {lists : ListTable Vertex} {vertex other : Vertex} {list : List Vertex}
    (hlist : lists vertex = some list) : Sees lists vertex other ↔ other ∈ list := by
  constructor
  · rintro ⟨list', hlist', hmem⟩
    rw [hlist] at hlist'
    exact Option.some.inj hlist' ▸ hmem
  · intro hmem
    exact ⟨list, hlist, hmem⟩

variable [DecidableEq Vertex]

/-- Append to the list of a vertex. -/
def push (lists : ListTable Vertex) (owner item : Vertex) : ListTable Vertex :=
  Function.update lists owner ((lists owner).map (· ++ [item]))

/-- Remove every occurrence from the list of a vertex. -/
def deleteAll (lists : ListTable Vertex) (owner item : Vertex) : ListTable Vertex :=
  Function.update lists owner ((lists owner).map (List.filter (· ≠ item)))

variable {lists : ListTable Vertex} {owner item vertex other : Vertex}

@[simp] theorem isSome_push : (push lists owner item vertex).isSome = (lists vertex).isSome := by
  unfold push
  by_cases hvertex : vertex = owner
  · subst hvertex
    simp
  · simp [Function.update_of_ne hvertex]

@[simp] theorem isSome_deleteAll :
    (deleteAll lists owner item vertex).isSome = (lists vertex).isSome := by
  unfold deleteAll
  by_cases hvertex : vertex = owner
  · subst hvertex
    simp
  · simp [Function.update_of_ne hvertex]

theorem sees_push (howner : (lists owner).isSome) :
    Sees (push lists owner item) vertex other ↔
      Sees lists vertex other ∨ vertex = owner ∧ other = item := by
  obtain ⟨list, hlist⟩ := Option.isSome_iff_exists.mp howner
  by_cases hvertex : vertex = owner
  · subst hvertex
    have hpush : push lists vertex item vertex = some (list ++ [item]) := by simp [push, hlist]
    rw [sees_iff_mem hpush, sees_iff_mem hlist]
    simp
  · simp [Sees, push, hvertex]

theorem sees_deleteAll :
    Sees (deleteAll lists owner item) vertex other ↔
      Sees lists vertex other ∧ ¬ (vertex = owner ∧ other = item) := by
  by_cases hvertex : vertex = owner
  · subst hvertex
    cases hlist : lists vertex with
    | none => simp [Sees, deleteAll, hlist]
    | some list =>
        have hdelete : deleteAll lists vertex item vertex = some (list.filter (· ≠ item)) := by
          simp [deleteAll, hlist]
        rw [sees_iff_mem hdelete, sees_iff_mem hlist]
        simp
  · simp [Sees, deleteAll, hvertex]

theorem nodups_push (h : Nodups lists) (hnew : ¬ Sees lists owner item) :
    Nodups (push lists owner item) := by
  intro vertex list hlist
  by_cases hvertex : vertex = owner
  · subst hvertex
    cases hold : lists vertex with
    | none => simp [push, hold] at hlist
    | some old =>
        have heq : old ++ [item] = list := by simpa [push, hold] using hlist
        rw [← heq, List.nodup_append_comm]
        refine List.nodup_cons.mpr ⟨?_, h vertex old hold⟩
        rwa [sees_iff_mem hold] at hnew
  · rw [push, Function.update_of_ne hvertex] at hlist
    exact h vertex list hlist

theorem nodups_deleteAll (h : Nodups lists) : Nodups (deleteAll lists owner item) := by
  intro vertex list hlist
  by_cases hvertex : vertex = owner
  · subst hvertex
    cases hold : lists vertex with
    | none => simp [deleteAll, hold] at hlist
    | some old =>
        have heq : old.filter (· ≠ item) = list := by simpa [deleteAll, hold] using hlist
        rw [← heq]
        exact (h vertex old hold).filter _
  · rw [deleteAll, Function.update_of_ne hvertex] at hlist
    exact h vertex list hlist

/-! ## Edges -/

theorem sees_link (howner : (lists owner).isSome) (hitem : (lists item).isSome) :
    Sees (push (push lists owner item) item owner) vertex other ↔
      Sees lists vertex other ∨ vertex = owner ∧ other = item ∨ vertex = item ∧ other = owner := by
  rw [sees_push (by rwa [isSome_push]), sees_push howner, or_assoc]

theorem mutual_link (h : Mutual lists) (hne : owner ≠ item) (howner : (lists owner).isSome)
    (hitem : (lists item).isSome) (hnew : ¬ Sees lists owner item) :
    Mutual (push (push lists owner item) item owner) := by
  constructor
  · apply nodups_push (nodups_push h.nodups hnew)
    rw [sees_push howner]
    rintro (hsees | ⟨heq, -⟩)
    · exact hnew (h.symm item owner hsees)
    · exact hne heq.symm
  · intro vertex other hsees
    rw [sees_link howner hitem] at hsees ⊢
    rcases hsees with hsees | ⟨hvertex, hother⟩ | ⟨hvertex, hother⟩
    · exact Or.inl (h.symm vertex other hsees)
    · exact Or.inr (Or.inr ⟨hother, hvertex⟩)
    · exact Or.inr (Or.inl ⟨hother, hvertex⟩)

theorem sees_unlink :
    Sees (deleteAll (deleteAll lists owner item) item owner) vertex other ↔
      Sees lists vertex other ∧ ¬ (vertex = owner ∧ other = item) ∧
        ¬ (vertex = item ∧ other = owner) := by
  rw [sees_deleteAll, sees_deleteAll, and_assoc]

theorem mutual_unlink (h : Mutual lists) :
    Mutual (deleteAll (deleteAll lists owner item) item owner) := by
  constructor
  · exact nodups_deleteAll (nodups_deleteAll h.nodups)
  · intro vertex other hsees
    rw [sees_unlink] at hsees ⊢
    obtain ⟨hsees, hfirst, hsecond⟩ := hsees
    exact ⟨h.symm vertex other hsees, fun heq => hsecond heq.symm, fun heq => hfirst heq.symm⟩

end NeighbourLists
