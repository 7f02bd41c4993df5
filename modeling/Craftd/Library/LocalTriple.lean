import Craftd.Library.FallibleLoop
import Mathlib.Data.List.Nodup

/-!
# Computations on one part of a state

A state is seen as a family of parts.  `Triple view key P body Q` says that from a part that
meets `P` the body has an outcome whose part meets `Q`, and that it leaves the other parts as
they were.  The rules follow the shape of the body; `exists_each` puts the parts together: a
loop over different parts does to each of them what its body does.
-/

namespace LocalTriple

universe u

variable {State Value : Type u} {Key Part Item : Type*} (view : State → Key → Part)

/-- Total correctness of a body for one part, and that it works on that part alone. -/
def Triple (key : Key) (P : Part → Prop) (body : State → Option State) (Q : Part → Prop) : Prop :=
  ∀ state, P (view state key) → ∃ next, body state = some next ∧ Q (view next key) ∧
    ∀ other, other ≠ key → view next other = view state other

variable {view} {key : Key} {P P' Q Q' R : Part → Prop} {first second : State → Option State}

theorem Triple.skip (himp : ∀ part, P part → Q part) : Triple view key P some Q :=
  fun state hstate => ⟨state, rfl, himp _ hstate, fun _ _ => rfl⟩

theorem Triple.conseq (htriple : Triple view key P first Q) (hpre : ∀ part, P' part → P part)
    (hpost : ∀ part, Q part → Q' part) : Triple view key P' first Q' := by
  intro state hstate
  obtain ⟨next, hnext, hpart, hframe⟩ := htriple state (hpre _ hstate)
  exact ⟨next, hnext, hpost _ hpart, hframe⟩

/-- A fact about the values around the body that the precondition gives. -/
theorem Triple.lift {fact : Prop} (hpre : ∀ part, P part → fact)
    (htriple : fact → Triple view key P first Q) : Triple view key P first Q :=
  fun state hstate => htriple (hpre _ hstate) state hstate

theorem Triple.seq (hfirst : Triple view key P first Q) (hsecond : Triple view key Q second R) :
    Triple view key P (fun state => first state >>= second) R := by
  intro state hstate
  obtain ⟨middle, hmiddle, hpart, hframe⟩ := hfirst state hstate
  obtain ⟨next, hnext, hlast, hkept⟩ := hsecond middle hpart
  refine ⟨next, ?_, hlast, fun other hother => (hkept other hother).trans (hframe other hother)⟩
  change (first state).bind second = some next
  rw [hmiddle, Option.bind_some, hnext]

theorem Triple.read {value : State → Option Value} (field : Part → Value)
    {body : Value → State → Option State}
    (hread : ∀ state, P (view state key) → value state = some (field (view state key)))
    (hbody : ∀ found, Triple view key (fun part => P part ∧ field part = found) (body found) Q) :
    Triple view key P (fun state => value state >>= fun found => body found state) Q := by
  intro state hstate
  obtain ⟨next, hnext, hrest⟩ := hbody (field (view state key)) state ⟨hstate, rfl⟩
  refine ⟨next, ?_, hrest⟩
  change (value state).bind (fun found => body found state) = some next
  rw [hread state hstate, Option.bind_some, hnext]

theorem Triple.assign (change : Part → Part)
    (hbody : ∀ state, P (view state key) → ∃ next, first state = some next ∧
      view next key = change (view state key) ∧
        ∀ other, other ≠ key → view next other = view state other)
    (hchange : ∀ part, P part → Q (change part)) : Triple view key P first Q := by
  intro state hstate
  obtain ⟨next, hnext, hpart, hframe⟩ := hbody state hstate
  refine ⟨next, hnext, ?_, hframe⟩
  rw [hpart]
  exact hchange _ hstate

theorem Triple.ite {test : Prop} [Decidable test] (hthen : test → Triple view key P first Q)
    (helse : ¬ test → Triple view key P second Q) :
    Triple view key P (fun state => if test then first state else second state) Q := by
  by_cases htest : test
  · simpa only [if_pos htest] using hthen htest
  · simpa only [if_neg htest] using helse htest

/-- A loop, with an invariant of the items that are done and of the part. -/
theorem Triple.loop {body : State → Item → Option State} {items : List Item}
    (I : List Item → Part → Prop)
    (hbody : ∀ done item, done ++ [item] <+: items →
      Triple view key (I done) (fun state => body state item) (I (done ++ [item]))) :
    Triple view key (I []) (fun state => items.foldlM body state) (I items) := by
  suffices hgeneral : ∀ rest done, done ++ rest = items →
      Triple view key (I done) (fun state => rest.foldlM body state) (I items) from
    hgeneral items [] rfl
  intro rest
  induction rest with
  | nil =>
      intro done hdone
      rw [List.append_nil] at hdone
      exact Triple.skip fun part hpart => hdone ▸ hpart
  | cons item rest ih =>
      intro done hdone
      have hbefore : done ++ [item] <+: items := ⟨rest, by rw [← hdone, List.append_assoc]; rfl⟩
      have htail := ih (done ++ [item]) (by rw [← hdone, List.append_assoc]; rfl)
      simpa only [List.foldlM_cons] using (hbody done item hbefore).seq htail

theorem Triple.loop_keeps {body : State → Item → Option State} {items : List Item}
    (hbody : ∀ item ∈ items, Triple view key P (fun state => body state item) P) :
    Triple view key P (fun state => items.foldlM body state) P :=
  Triple.loop (fun _ => P) fun _ item hbefore =>
    hbody item (hbefore.subset (List.mem_append_right _ List.mem_cons_self))

/-- **A loop over different parts** does to each what its body does. -/
theorem exists_each {body : State → Key → Option State} {keys : List Key} (hnodup : keys.Nodup)
    (hbody : ∀ key ∈ keys, Triple view key P (fun state => body state key) Q) {state : State}
    (hstate : ∀ key ∈ keys, P (view state key)) :
    ∃ last, keys.foldlM body state = some last ∧ ∀ key ∈ keys, Q (view last key) := by
  suffices hgeneral : ∃ last, keys.foldlM body state = some last ∧
      (∀ key ∈ keys, Q (view last key)) ∧ ∀ other ∉ keys, view last other = view state other by
    obtain ⟨last, hlast, hparts, -⟩ := hgeneral
    exact ⟨last, hlast, hparts⟩
  induction keys generalizing state with
  | nil => exact ⟨state, rfl, fun _ hkey => absurd hkey List.not_mem_nil, fun _ _ => rfl⟩
  | cons key rest ih =>
      obtain ⟨hnew, hrest⟩ := List.nodup_cons.mp hnodup
      obtain ⟨next, hnext, hpart, hframe⟩ :=
        hbody key List.mem_cons_self state (hstate key List.mem_cons_self)
      have hothers : ∀ other ∈ rest, P (view next other) := by
        intro other hother
        rw [hframe other fun heq => hnew (heq ▸ hother)]
        exact hstate other (List.mem_cons_of_mem key hother)
      obtain ⟨last, hlast, hparts, hkept⟩ := ih hrest
        (fun other hother => hbody other (List.mem_cons_of_mem key hother)) hothers
      refine ⟨last, ?_, fun other hother => ?_, fun other hother => ?_⟩
      · have hfirst : body state key = some next := hnext
        rw [List.foldlM_cons, hfirst]
        exact hlast
      · cases List.mem_cons.mp hother with
        | inl heq =>
            subst heq
            rw [hkept other hnew]
            exact hpart
        | inr hmem => exact hparts other hmem
      · rw [List.mem_cons, not_or] at hother
        exact (hkept other hother.2).trans (hframe other hother.1)

theorem bind_of_some {state next : State} (hfirst : first state = some next) :
    (first state >>= second) = second next := by
  rw [hfirst]
  rfl

end LocalTriple
