import Mathlib.Data.Int.Range
import Mathlib.Data.List.Nodup
import Mathlib.Tactic.Cases

/-!
# Loops that count

`for` loops over an integer variable whose body may fail.  The variable outlives its loop,
so a loop gives its last value beside the state: the first value that the test turns down.

Each loop is a fold over the values that it goes through (`up_eq`, `down_eq`).
-/

namespace CountingLoop

variable {State Fault : Type*} (body : State → ℤ → Except Fault State) (bound : ℤ)

/-- `for (; i <= bound; i++)`: the variable and the state behind the loop. -/
def up (i : ℤ) (state : State) : Except Fault (ℤ × State) :=
  if i ≤ bound then do
    let next ← body state i
    up (i + 1) next
  else .ok (i, state)
termination_by (bound + 1 - i).toNat

/-- `for (; i >= bound; i--)`: the variable and the state behind the loop. -/
def down (i : ℤ) (state : State) : Except Fault (ℤ × State) :=
  if bound ≤ i then do
    let next ← body state i
    down (i - 1) next
  else .ok (i, state)
termination_by (i + 1 - bound).toNat

/-! ## The values of the variable -/

theorem range_of_le {first last : ℤ} (h : last ≤ first) : Int.range first last = [] := by
  have hlength : (last - first).toNat = 0 := Int.toNat_of_nonpos (by omega)
  rw [Int.range, hlength]
  rfl

theorem range_cons {first last : ℤ} (h : first < last) :
    Int.range first last = first :: Int.range (first + 1) last := by
  have hlength : (last - first).toNat = (last - (first + 1)).toNat + 1 := by omega
  rw [Int.range, hlength, List.range_succ_eq_map, List.map_cons, List.map_map, Int.range]
  congr 1
  · exact Int.add_zero first
  · refine List.map_congr_left fun step _ => ?_
    calc first + ((step + 1 : ℕ) : ℤ) = first + 1 + step := by omega

theorem range_concat {first last : ℤ} (h : first ≤ last) :
    Int.range first (last + 1) = Int.range first last ++ [last] := by
  have hlength : (last + 1 - first).toNat = (last - first).toNat + 1 := by omega
  have hlast : first + ((last - first).toNat : ℤ) = last := by omega
  rw [Int.range, hlength, List.range_succ, List.map_append, List.map_singleton, hlast, Int.range]

theorem nodup_range (first last : ℤ) : (Int.range first last).Nodup :=
  List.nodup_range.map fun _ _ heq => Int.ofNat_inj.mp (Int.add_left_cancel heq)

/-! ## The loops as folds -/

variable {body bound}

theorem up_eq (i : ℤ) (state : State) :
    up body bound i state =
      (fun last => (max i (bound + 1), last)) <$> (Int.range i (bound + 1)).foldlM body state := by
  fun_induction up body bound i state with
  | case1 i state hguard ih =>
      rw [range_cons (by omega), List.foldlM_cons]
      cases hnext : body state i with
      | error fault => rfl
      | ok next =>
          calc up body bound (i + 1) next
              = (fun last => (max (i + 1) (bound + 1), last)) <$>
                  (Int.range (i + 1) (bound + 1)).foldlM body next := ih next
            _ = (fun last => (max i (bound + 1), last)) <$>
                  (Int.range (i + 1) (bound + 1)).foldlM body next := by
                    rw [max_eq_right (by omega), max_eq_right (by omega)]
  | case2 i state hguard =>
      rw [range_of_le (by omega), List.foldlM_nil, max_eq_left (by omega)]
      rfl

theorem down_eq (i : ℤ) (state : State) :
    down body bound i state =
      (fun last => (min i (bound - 1), last)) <$>
        (Int.range bound (i + 1)).reverse.foldlM body state := by
  fun_induction down body bound i state with
  | case1 i state hguard ih =>
      rw [range_concat hguard, List.reverse_append, List.reverse_singleton,
        List.singleton_append, List.foldlM_cons]
      cases hnext : body state i with
      | error fault => rfl
      | ok next =>
          calc down body bound (i - 1) next
              = (fun last => (min (i - 1) (bound - 1), last)) <$>
                  (Int.range bound (i - 1 + 1)).reverse.foldlM body next := ih next
            _ = (fun last => (min i (bound - 1), last)) <$>
                  (Int.range bound i).reverse.foldlM body next := by
                    rw [Int.sub_add_cancel, min_eq_right (by omega), min_eq_right (by omega)]
  | case2 i state hguard =>
      rw [range_of_le (by omega), List.reverse_nil, List.foldlM_nil, min_eq_left (by omega)]
      rfl

/-- A loop in a loop goes through the values of the inner one for each of the outer one. -/
theorem foldlM_flatMap {Value Item : Type*} (inner : Value → List Item)
    (body : State → Item → Except Fault State) (values : List Value) (state : State) :
    (values.flatMap inner).foldlM body state =
      values.foldlM (fun state value => (inner value).foldlM body state) state := by
  induction values generalizing state with
  | nil => rfl
  | cons value rest ih =>
      rw [List.flatMap_cons, List.foldlM_append, List.foldlM_cons]
      exact bind_congr ih

/-! ## Loops that collect -/

section Collect

variable {Item : Type*} {body : List Item → ℤ → Except Fault (List Item)} (part : ℤ → List Item)

theorem foldlM_append {values : List ℤ}
    (hbody : ∀ i ∈ values, ∀ items, body items i = .ok (items ++ part i)) (items : List Item) :
    values.foldlM body items = .ok (items ++ values.flatMap part) := by
  induction values generalizing items with
  | nil => rw [List.foldlM_nil, List.flatMap_nil, List.append_nil]; rfl
  | cons i rest ih =>
      rw [List.foldlM_cons, hbody i List.mem_cons_self, List.flatMap_cons, ← List.append_assoc]
      exact ih (fun j hj => hbody j (List.mem_cons_of_mem i hj)) _

theorem up_append {first : ℤ}
    (hbody : ∀ i, first ≤ i → i ≤ bound → ∀ items, body items i = .ok (items ++ part i))
    (items : List Item) :
    up body bound first items =
      .ok (max first (bound + 1), items ++ (Int.range first (bound + 1)).flatMap part) := by
  rw [up_eq, foldlM_append part]
  · rfl
  · intro i hi
    have hbounds := Int.mem_range_iff.mp hi
    exact hbody i hbounds.1 (by omega)

theorem down_append {first : ℤ}
    (hbody : ∀ i, bound ≤ i → i ≤ first → ∀ items, body items i = .ok (items ++ part i))
    (items : List Item) :
    down body bound first items =
      .ok (min first (bound - 1),
        items ++ (Int.range bound (first + 1)).reverse.flatMap part) := by
  rw [down_eq, foldlM_append part]
  · rfl
  · intro i hi
    have hbounds := Int.mem_range_iff.mp (List.mem_reverse.mp hi)
    exact hbody i hbounds.1 (by omega)

end Collect

end CountingLoop
