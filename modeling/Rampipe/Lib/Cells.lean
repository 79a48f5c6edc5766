import Mathlib.Algebra.Order.Ring.Int
import Mathlib.Data.List.TakeDrop
import Mathlib.Data.Nat.Cast.Basic

/-!
# Position-indexed cells

A cache of one sequence, seen as the list of its occupied cells: pairs of a
position and a value. `layout k xs` fills consecutive positions from `k` with
the values of `xs`. Cutting a range of positions and shifting what lies behind
it down by the range's length is the same as cutting the values
(`shiftFrom_removeRange_layout`): the two operations a context shift is made of
keep a cache the layout of a list.
-/

namespace Cells

variable {α : Type*}

/-- The values of `xs` at the positions `k, k + 1, …`. -/
def layout (k : Int) : List α → List (Int × α)
  | [] => []
  | x :: xs => (k, x) :: layout (k + 1) xs

/-- Drops the cells at positions in `[p0, p1)`. -/
def removeRange (p0 p1 : Int) (cells : List (Int × α)) : List (Int × α) :=
  cells.filter fun cell => ¬ (p0 ≤ cell.1 ∧ cell.1 < p1)

/-- Moves the cells at positions from `p0` on by `delta`. -/
def shiftFrom (p0 delta : Int) (cells : List (Int × α)) : List (Int × α) :=
  cells.map fun cell => if p0 ≤ cell.1 then (cell.1 + delta, cell.2) else cell

@[simp] theorem layout_nil (k : Int) : layout k ([] : List α) = [] := rfl

@[simp] theorem length_layout (k : Int) (xs : List α) : (layout k xs).length = xs.length := by
  induction xs generalizing k with
  | nil => rfl
  | cons x xs ih => simp [layout, ih]

/-- Tokens are laid out one behind the other. -/
theorem layout_append (k : Int) (xs ys : List α) :
    layout k (xs ++ ys) = layout k xs ++ layout (k + xs.length) ys := by
  induction xs generalizing k with
  | nil => simp
  | cons x xs ih =>
    simp only [List.cons_append, layout, ih, List.length_cons, Nat.cast_add, Nat.cast_one]
    rw [add_assoc, add_comm (1 : Int)]

/-- Each at its own position. -/
theorem layout_eq_mapIdx (k : Int) (xs : List α) :
    layout k xs = xs.mapIdx fun i x => (k + i, x) := by
  induction xs generalizing k with
  | nil => rfl
  | cons x xs ih =>
    rw [layout, ih, List.mapIdx_cons]
    simp only [Nat.cast_zero, add_zero, Nat.cast_add, Nat.cast_one, add_assoc, add_comm (1 : Int)]

/-- Where a layout's cells lie. -/
theorem mem_layout_bounds {k : Int} {xs : List α} {cell : Int × α} (h : cell ∈ layout k xs) :
    k ≤ cell.1 ∧ cell.1 < k + xs.length := by
  induction xs generalizing k with
  | nil => cases h
  | cons x xs ih =>
    rcases List.mem_cons.mp h with rfl | h
    · simp only [List.length_cons]
      omega
    · have := ih h
      simp only [List.length_cons]
      omega

/-- A layout's cells are exactly its values at their positions. -/
theorem mem_layout_iff {k : Int} {xs : List α} {p : Int} {x : α} :
    (p, x) ∈ layout k xs ↔ ∃ i : Nat, p = k + i ∧ xs[i]? = some x := by
  induction xs generalizing k with
  | nil => simp
  | cons y ys ih =>
    -- the head is index 0; every other index is one less in the tail
    rw [layout, List.mem_cons, ih]
    constructor
    · rintro (h | ⟨i, hp, hx⟩)
      · simp only [Prod.mk.injEq] at h
        exact ⟨0, by simp [h.1], by simp [h.2]⟩
      · exact ⟨i + 1, by push_cast; omega, by simpa using hx⟩
    · rintro ⟨i, hp, hx⟩
      cases i with
      | zero =>
        left
        simp only [List.getElem?_cons_zero, Option.some.injEq] at hx
        simp [hp, hx]
      | succ i => exact .inr ⟨i, by push_cast at hp; omega, by simpa using hx⟩

@[simp] theorem removeRange_append (p0 p1 : Int) (a b : List (Int × α)) :
    removeRange p0 p1 (a ++ b) = removeRange p0 p1 a ++ removeRange p0 p1 b := by
  simp [removeRange]

@[simp] theorem shiftFrom_append (p0 delta : Int) (a b : List (Int × α)) :
    shiftFrom p0 delta (a ++ b) = shiftFrom p0 delta a ++ shiftFrom p0 delta b := by
  simp [shiftFrom]

/-- Cells outside the range stay. -/
theorem removeRange_of_disjoint {p0 p1 : Int} {cells : List (Int × α)}
    (h : ∀ cell ∈ cells, cell.1 < p0 ∨ p1 ≤ cell.1) : removeRange p0 p1 cells = cells := by
  refine List.filter_eq_self.mpr fun cell hMem => ?_
  have := h cell hMem
  simp only [decide_eq_true_eq]
  omega

/-- Cells inside the range go. -/
theorem removeRange_of_inside {p0 p1 : Int} {cells : List (Int × α)}
    (h : ∀ cell ∈ cells, p0 ≤ cell.1 ∧ cell.1 < p1) : removeRange p0 p1 cells = [] := by
  refine List.filter_eq_nil_iff.mpr fun cell hMem => ?_
  have := h cell hMem
  simp only [decide_eq_true_eq]
  omega

/-- Cells before the cut stay where they are. -/
theorem shiftFrom_of_before {p0 delta : Int} {cells : List (Int × α)}
    (h : ∀ cell ∈ cells, cell.1 < p0) : shiftFrom p0 delta cells = cells := by
  refine (List.map_congr_left fun cell hMem => ?_).trans (List.map_id _)
  have := h cell hMem
  rw [if_neg (by omega)]
  rfl

/-- A layout behind the point that is shifted from moves as a whole. -/
theorem shiftFrom_layout {p0 delta k : Int} (h : p0 ≤ k) (xs : List α) :
    shiftFrom p0 delta (layout k xs) = layout (k + delta) xs := by
  induction xs generalizing k with
  | nil => rfl
  | cons x xs ih =>
    have hRest := ih (k := k + 1) (by omega)
    simp only [shiftFrom] at hRest
    simp only [shiftFrom, layout, List.map_cons, if_pos h, hRest]
    rw [add_right_comm]

/-- **A context shift.** Removing a span's cells and closing the gap leaves the
layout of what surrounds the span. -/
theorem shiftFrom_removeRange_layout (k : Int) (front span back : List α) :
    shiftFrom (k + front.length + span.length) (-span.length)
      (removeRange (k + front.length) (k + front.length + span.length)
        (layout k (front ++ span ++ back))) = layout k (front ++ back) := by
  -- the three pieces lie before, in and behind the removed range
  have hFront : ∀ cell ∈ layout k front, cell.1 < k + front.length :=
    fun cell hMem => (mem_layout_bounds hMem).2
  have hSpan : ∀ cell ∈ layout (k + front.length) span,
      k + front.length ≤ cell.1 ∧ cell.1 < k + front.length + span.length :=
    fun cell hMem => mem_layout_bounds hMem
  have hBack : ∀ cell ∈ layout (k + front.length + span.length) back,
      k + front.length + span.length ≤ cell.1 := fun cell hMem => (mem_layout_bounds hMem).1
  have hLen : (k : Int) + ((front ++ span).length : Nat) = k + front.length + span.length := by
    simp only [List.length_append, Nat.cast_add]
    omega
  -- the front is not touched, the span goes, and the back moves down by its length
  rw [layout_append, layout_append, hLen, removeRange_append, removeRange_append,
    removeRange_of_disjoint fun cell hMem => .inl (hFront cell hMem),
    removeRange_of_inside hSpan,
    removeRange_of_disjoint fun cell hMem => .inr (hBack cell hMem),
    List.append_nil, shiftFrom_append,
    shiftFrom_of_before fun cell hMem => by have := hFront cell hMem; omega,
    shiftFrom_layout (le_refl _), layout_append]
  congr 2
  omega

/-- The same, with the span given by the indices where it starts and stops. -/
theorem shiftFrom_removeRange_take_drop (k : Int) (xs : List α) {i j : Nat} (hIj : i ≤ j)
    (hj : j ≤ xs.length) :
    shiftFrom (k + j) (-(j - i : Int)) (removeRange (k + i) (k + j) (layout k xs)) =
      layout k (xs.take i ++ xs.drop j) := by
  -- cut the list where the span starts and where it stops
  have hSplit : xs.take i ++ (xs.drop i).take (j - i) ++ xs.drop j = xs := by
    rw [List.append_assoc]
    conv_lhs => rw [show j = i + (j - i) by omega, Nat.add_sub_cancel_left,
      List.drop_take_append_drop, List.take_append_drop]
  have hShift := shiftFrom_removeRange_layout k (xs.take i) ((xs.drop i).take (j - i)) (xs.drop j)
  have hFront : (xs.take i).length = i := List.length_take_of_le (by omega)
  have hSpan : ((xs.drop i).take (j - i)).length = j - i :=
    List.length_take_of_le (by rw [List.length_drop]; omega)
  have hStop : k + (i : Int) + ((j - i : Nat) : Int) = k + j := by omega
  have hRemoved : ((j - i : Nat) : Int) = j - i := by omega
  rwa [hSplit, hFront, hSpan, hStop, hRemoved] at hShift

end Cells
