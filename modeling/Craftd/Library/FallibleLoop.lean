import Mathlib.Data.Nat.Notation
import Mathlib.Tactic.Basic

/-!
# Loops that may fail

Rules for a loop over a list whose body may fail: `List.foldlM` in `Except`, and in
`Option` where no fault is told from another.  The invariant speaks of the items that are
done and of the state they led to.
-/

namespace FallibleLoop

variable {Item State Fault : Type*} {body : State → Item → Except Fault State}

/-- **Partial correctness.**  What the body keeps holds at the end of a loop that does not fail. -/
theorem invariant_of_ok {P : List Item → State → Prop} {items done : List Item}
    (hbody : ∀ done item state next, P done state → body state item = .ok next →
      P (done ++ [item]) next)
    {first last : State} (hfirst : P done first) (hloop : items.foldlM body first = .ok last) :
    P (done ++ items) last := by
  induction items generalizing done first with
  | nil =>
      rw [List.foldlM_nil] at hloop
      cases hloop
      simpa using hfirst
  | cons item rest ih =>
      rw [List.foldlM_cons] at hloop
      cases hnext : body first item with
      | error fault =>
          rw [hnext] at hloop
          cases hloop
      | ok next =>
          rw [hnext] at hloop
          have hlast := ih (hbody done item first next hfirst hnext) hloop
          simpa using hlast

theorem keeps_of_ok {P : State → Prop} {items : List Item}
    (hbody : ∀ item state next, P state → body state item = .ok next → P next)
    {first last : State} (hfirst : P first) (hloop : items.foldlM body first = .ok last) :
    P last :=
  @invariant_of_ok Item State Fault body (fun _ => P) items []
    (fun _ item state next hstate hnext => hbody item state next hstate hnext) first last hfirst
    hloop

/-- **Total correctness.**  If the invariant lets the body go on, then the loop does not fail. -/
theorem exists_ok {P : List Item → State → Prop} {items done : List Item}
    (hbody : ∀ done item state, item ∈ items → P done state →
      ∃ next, body state item = .ok next ∧ P (done ++ [item]) next)
    {first : State} (hfirst : P done first) :
    ∃ last, items.foldlM body first = .ok last ∧ P (done ++ items) last := by
  induction items generalizing done first with
  | nil => exact ⟨first, rfl, by simpa using hfirst⟩
  | cons item rest ih =>
      obtain ⟨next, hnext, hkept⟩ := hbody done item first List.mem_cons_self hfirst
      obtain ⟨last, hlast, hend⟩ := ih
        (fun done other state hother => hbody done other state (List.mem_cons_of_mem item hother))
        hkept
      refine ⟨last, ?_, by simpa using hend⟩
      rw [List.foldlM_cons, hnext]
      exact hlast

/-- A loop that keeps more beside its state is the plain loop on the state. -/
theorem map_foldlM {More : Type*} {withMore : More → Item → Except Fault More}
    {forget : More → State}
    (hbody : ∀ more item, (withMore more item).map forget = body (forget more) item)
    (items : List Item) (first : More) :
    (items.foldlM withMore first).map forget = items.foldlM body (forget first) := by
  induction items generalizing first with
  | nil => rfl
  | cons item rest ih =>
      rw [List.foldlM_cons, List.foldlM_cons, ← hbody]
      cases withMore first item with
      | error fault => rfl
      | ok next => exact ih next

/-- **Total correctness** of a loop whose body may have no outcome. -/
theorem exists_some {body : State → Item → Option State} {P : List Item → State → Prop}
    {items : List Item}
    (hbody : ∀ done item state, item ∈ items → P done state →
      ∃ next, body state item = some next ∧ P (done ++ [item]) next)
    {first : State} (hfirst : P [] first) :
    ∃ last, items.foldlM body first = some last ∧ P items last := by
  suffices hgeneral : ∀ done state, P done state →
      ∃ last, items.foldlM body state = some last ∧ P (done ++ items) last from
    hgeneral [] first hfirst
  clear hfirst
  induction items with
  | nil => exact fun done state hstate => ⟨state, rfl, by simpa using hstate⟩
  | cons item rest ih =>
      intro done state hstate
      obtain ⟨next, hnext, hkept⟩ := hbody done item state List.mem_cons_self hstate
      obtain ⟨last, hlast, hend⟩ := ih
        (fun done other state hother => hbody done other state (List.mem_cons_of_mem item hother))
        (done ++ [item]) next hkept
      refine ⟨last, ?_, by simpa using hend⟩
      rw [List.foldlM_cons, hnext]
      exact hlast

theorem item_of_prefix_range' {first number item : ℕ} {done : List ℕ}
    (hbefore : done ++ [item] <+: List.range' first number) :
    item = first + done.length ∧ done.length < number := by
  obtain ⟨rest, hrest⟩ := hbefore
  have hlt : done.length < number := by
    have hlength := congrArg List.length hrest
    simp only [List.length_append, List.length_singleton, List.length_range'] at hlength
    omega
  have hitem : (done ++ [item] ++ rest)[done.length]? = some item := by
    rw [List.append_assoc, List.getElem?_append_right (Nat.le_refl _), Nat.sub_self]
    rfl
  rw [hrest, List.getElem?_range' hlt, Nat.one_mul, Option.some.injEq] at hitem
  exact ⟨hitem.symm, hlt⟩

end FallibleLoop
