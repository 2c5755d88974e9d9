import Mathlib.Algebra.Order.Field.Basic
import Mathlib.Data.List.GetD
import Mathlib.Data.List.Sort
import Mathlib.Tactic.Linarith

/-!
# The middle of a list of numbers

The median: the element in the middle of the list in order, or the mean of the two in the middle. It
does not depend on the order that the elements come in (`middle_perm`), and lies between any bounds
of them (`le_middle`, `middle_le`).
-/

namespace List

section
variable {K : Type _} [LinearOrder K] {l l' : List K} {a : K}

/-- The elements in order. -/
def inOrder (l : List K) : List K := l.insertionSort (· ≤ ·)

/-- Sorting keeps the number of items. -/
@[simp] theorem length_inOrder (l : List K) : l.inOrder.length = l.length :=
  length_insertionSort _ l

/-- Sorting keeps the items. -/
@[simp] theorem mem_inOrder : a ∈ l.inOrder ↔ a ∈ l := mem_insertionSort _

/-- Sorting does not depend on the order before. -/
theorem inOrder_perm (h : l.Perm l') : l.inOrder = l'.inOrder := by
  have hperm : l.inOrder.Perm l'.inOrder :=
    ((perm_insertionSort _ l).trans h).trans (perm_insertionSort _ l').symm
  exact hperm.eq_of_sortedLE sortedLE_insertionSort sortedLE_insertionSort

variable [Field K]

/-- The mean of the elements before and after the middle of the list in order; of a list of odd
length they are one. -/
def middle (l : List K) : K :=
  (l.inOrder.getD ((l.length - 1) / 2) 0 + l.inOrder.getD (l.length / 2) 0) / 2

/-- The middle does not depend on the order before. -/
theorem middle_perm (h : l.Perm l') : l.middle = l'.middle := by
  rw [middle, middle, inOrder_perm h, h.length_eq]

/-- What stands at a place in order is an item. -/
theorem inOrder_getD_mem {i : Nat} (h : i < l.length) : l.inOrder.getD i 0 ∈ l := by
  have hi : i < l.inOrder.length := by rwa [length_inOrder]
  rw [getD_eq_getElem _ _ hi, ← mem_inOrder]
  exact getElem_mem hi

variable [IsStrictOrderedRing K]

/-- A bound from below bounds the middle. -/
theorem le_middle (hl : l ≠ []) (h : ∀ x ∈ l, a ≤ x) : a ≤ l.middle := by
  have hpos := length_pos_of_ne_nil hl
  have hbefore := h _ (inOrder_getD_mem (l := l) (i := (l.length - 1) / 2) (by omega))
  have hafter := h _ (inOrder_getD_mem (l := l) (i := l.length / 2) (by omega))
  rw [middle]
  linarith

/-- A bound from above bounds the middle. -/
theorem middle_le (hl : l ≠ []) (h : ∀ x ∈ l, x ≤ a) : l.middle ≤ a := by
  have hpos := length_pos_of_ne_nil hl
  have hbefore := h _ (inOrder_getD_mem (l := l) (i := (l.length - 1) / 2) (by omega))
  have hafter := h _ (inOrder_getD_mem (l := l) (i := l.length / 2) (by omega))
  rw [middle]
  linarith

end

end List
