import Mathlib.Data.Int.Notation
import Mathlib.Data.Nat.Notation
import Mathlib.Logic.Function.Basic
import Mathlib.Tactic.SplitIfs

/-!
# Arrays of a fixed size

An array of `size` cells, read and written through indices that are any integers.  An access
outside has no outcome, so a computation that has one stayed inside.
-/

namespace BoundedArray

/-- An array of a fixed size. -/
abbrev Cells (Value : Type*) (size : ℕ) := Fin size → Value

variable {Value : Type*} {size : ℕ} {self : Cells Value size} {index : ℤ}

/-- The index of a cell. -/
def Inside (size : ℕ) (index : ℤ) : Prop := 0 ≤ index ∧ index < size

instance : Decidable (Inside size index) := inferInstanceAs (Decidable (_ ∧ _))

/-- The cell of an index. -/
def cellOf (h : Inside size index) : Fin size := ⟨index.toNat, by unfold Inside at h; omega⟩

/-- `self[index]`. -/
def readAt (self : Cells Value size) (index : ℤ) : Option Value :=
  if h : Inside size index then some (self (cellOf h)) else none

/-- `self[index] = value`. -/
def writeAt (self : Cells Value size) (index : ℤ) (value : Value) : Option (Cells Value size) :=
  if h : Inside size index then some (Function.update self (cellOf h) value) else none

theorem isSome_readAt_iff (self : Cells Value size) (index : ℤ) :
    (readAt self index).isSome ↔ Inside size index := by
  unfold readAt
  split_ifs with h
  · exact iff_of_true rfl h
  · exact iff_of_false (by simp) h

theorem readAt_cell (self : Cells Value size) {cell : Fin size} (h : index = cell.val) :
    readAt self index = some (self cell) := by
  have hinside : Inside size index := by
    unfold Inside
    omega
  have hcell : cellOf hinside = cell := Fin.ext (by simp [cellOf, h])
  rw [readAt, dif_pos hinside, hcell]

theorem writeAt_cell (self : Cells Value size) {cell : Fin size} (h : index = cell.val)
    (value : Value) : writeAt self index value = some (Function.update self cell value) := by
  have hinside : Inside size index := by
    unfold Inside
    omega
  have hcell : cellOf hinside = cell := Fin.ext (by simp [cellOf, h])
  rw [writeAt, dif_pos hinside, hcell]

theorem writeAt_outside (self : Cells Value size) (h : ¬Inside size index) (value : Value) :
    writeAt self index value = none := dif_neg h

/-! ## The values of all cells -/

/-- The values of the cells, the first one first. -/
def contents (self : Cells Value size) : List Value := List.ofFn self

@[simp] theorem length_contents (self : Cells Value size) : (contents self).length = size :=
  List.length_ofFn

theorem contents_getElem? (self : Cells Value size) (index : ℕ) :
    (contents self)[index]? = if h : index < size then some (self ⟨index, h⟩) else none :=
  List.getElem?_ofFn

theorem contents_update (self : Cells Value size) (cell : Fin size) (value : Value) :
    contents (Function.update self cell value) = (contents self).set cell value := by
  refine List.ext_getElem? fun index => ?_
  rw [List.getElem?_set, contents_getElem?, contents_getElem?, length_contents]
  by_cases hindex : index < size
  · simp only [dif_pos hindex, Function.update_apply, Fin.ext_iff]
    by_cases heq : index = cell
    · rw [if_pos heq, if_pos heq.symm, if_pos cell.isLt]
    · rw [if_neg heq, if_neg (Ne.symm heq)]
  · have hlt := cell.isLt
    have hne : cell.val ≠ index := by omega
    rw [dif_neg hindex, if_neg hne, dif_neg hindex]

variable {left right : List Value} {value : Value}

theorem readAt_contents (h : contents self = left ++ value :: right) :
    readAt self left.length = some value := by
  have hlt : left.length < size := by
    rw [← length_contents self, h, List.length_append, List.length_cons]
    omega
  have hcell : some (self ⟨left.length, hlt⟩) = some value :=
    calc some (self ⟨left.length, hlt⟩)
        = (contents self)[left.length]? := by rw [contents_getElem?, dif_pos hlt]
      _ = some value := by rw [h, List.getElem?_append_right (Nat.le_refl _), Nat.sub_self,
        List.getElem?_cons_zero]
  have hread : readAt self left.length = some (self ⟨left.length, hlt⟩) := readAt_cell self rfl
  rw [hread, hcell]

theorem writeAt_contents (h : contents self = left ++ value :: right) (written : Value) :
    ∃ after, writeAt self left.length written = some after ∧
      contents after = left ++ written :: right := by
  have hlt : left.length < size := by
    rw [← length_contents self, h, List.length_append, List.length_cons]
    omega
  have hwrite : writeAt self left.length written =
      some (Function.update self ⟨left.length, hlt⟩ written) := by
    refine writeAt_cell self ?_ written
    rfl
  refine ⟨_, hwrite, ?_⟩
  rw [contents_update, h, List.set_append_right _ _ (Nat.le_refl _), Nat.sub_self,
    List.set_cons_zero]

theorem writeAt_append (h : contents self = left ++ value :: right) (written : Value) :
    ∃ after, writeAt self left.length written = some after ∧
      contents after = left ++ [written] ++ right := by
  obtain ⟨after, hwrite, hafter⟩ := writeAt_contents h written
  exact ⟨after, hwrite, by rw [hafter, List.append_assoc, List.singleton_append]⟩

/-- A write behind all cells has no outcome. -/
theorem writeAt_full (h : contents self = left) (written : Value) :
    writeAt self left.length written = none := by
  refine writeAt_outside self ?_ written
  rw [← h, length_contents]
  exact fun hinside => Int.lt_irrefl _ hinside.2

end BoundedArray
