import Mathlib.Algebra.Order.BigOperators.Group.List
import Mathlib.Algebra.BigOperators.Group.List.Lemmas
import Mathlib.Order.Interval.Finset.SuccPred
import Mathlib.Data.Int.ConditionallyCompleteOrder
import Mathlib.Data.Int.Interval
import Mathlib.Tactic.Ring

/-!
# Weighted draws

Elements with positive weights divide the numbers below the total of the weights among themselves:
each gets an interval as long as its weight, one after the other. A number below the total is a draw
of the element whose interval it falls into.

## Main definitions

* `WeightedDraw.total`, `WeightedDraw.upTo` — the weights of all elements, and of those before one
* `WeightedDraw.position` — the element a number falls on

## Main results

* `WeightedDraw.position_lt` — a number below the total falls on some element
* `WeightedDraw.position_eq_iff` — the numbers of an element are an interval
* `WeightedDraw.card_position` — an element has as many numbers as its weight says
-/

namespace Foundations.WeightedDraw

variable {α : Type*} (weight : α → ℤ)

def total (xs : List α) : ℤ := (xs.map weight).sum

/-- The weights of the elements before a position. -/
def upTo (xs : List α) (i : ℕ) : ℤ := total weight (xs.take i)

/-- The position a number falls on: the first whose weights up to and including it exceed it. -/
def position (p : ℤ) : List α → ℕ
  | [] => 0
  | x :: xs => if p < weight x then 0 else position (p - weight x) xs + 1

variable {weight} {x : α} {xs : List α} {p : ℤ} {i : ℕ}

@[simp] theorem total_nil : total weight [] = 0 := rfl

@[simp] theorem total_cons : total weight (x :: xs) = weight x + total weight xs := List.sum_cons

@[simp] theorem upTo_zero : upTo weight xs 0 = 0 := rfl

@[simp] theorem upTo_cons : upTo weight (x :: xs) (i + 1) = weight x + upTo weight xs i := by
  rw [upTo, List.take_succ_cons, total_cons, upTo]

theorem upTo_succ (hi : i < xs.length) :
    upTo weight xs (i + 1) = upTo weight xs i + weight xs[i] := by
  rw [upTo, List.take_add_one, List.getElem?_eq_getElem hi, total, List.map_append, List.sum_append]
  simp [upTo, total]

theorem total_nonneg (hw : ∀ x ∈ xs, 0 < weight x) : 0 ≤ total weight xs := by
  refine List.sum_nonneg fun w hmem => ?_
  obtain ⟨x, hx, rfl⟩ := List.mem_map.mp hmem
  exact (hw x hx).le

theorem upTo_nonneg (hw : ∀ x ∈ xs, 0 < weight x) (i : ℕ) : 0 ≤ upTo weight xs i :=
  total_nonneg fun x hx => hw x (List.mem_of_mem_take hx)

theorem upTo_le_total (hw : ∀ x ∈ xs, 0 < weight x) (i : ℕ) :
    upTo weight xs i ≤ total weight xs := by
  have hsplit : total weight xs = upTo weight xs i + total weight (xs.drop i) := by
    conv_lhs => rw [← List.take_append_drop i xs]
    rw [total, List.map_append, List.sum_append, upTo, total, total]
  have hrest : 0 ≤ total weight (xs.drop i) :=
    total_nonneg fun x hx => hw x (List.mem_of_mem_drop hx)
  omega

theorem total_pos (hne : xs ≠ []) (hw : ∀ x ∈ xs, 0 < weight x) : 0 < total weight xs := by
  cases xs with
  | nil => exact absurd rfl hne
  | cons x xs =>
    have hx := hw x List.mem_cons_self
    have hxs := total_nonneg fun y hy => hw y (List.mem_cons_of_mem x hy)
    rw [total_cons]
    omega

/-- A number below the total falls on some element. -/
theorem position_lt (hp : 0 ≤ p) (hlt : p < total weight xs) :
    position weight p xs < xs.length := by
  induction xs generalizing p with
  | nil => exact absurd hlt hp.not_gt
  | cons x xs ih =>
    rw [position, List.length_cons]
    rw [total_cons] at hlt
    by_cases hx : p < weight x
    · rw [if_pos hx]
      exact Nat.succ_pos _
    · rw [if_neg hx]
      exact Nat.succ_lt_succ (ih (by omega) (by omega))

/-- **The numbers of an element** are an interval. -/
theorem position_eq_iff (hw : ∀ x ∈ xs, 0 < weight x) (hp : 0 ≤ p) (hi : i < xs.length) :
    position weight p xs = i ↔ upTo weight xs i ≤ p ∧ p < upTo weight xs (i + 1) := by
  induction xs generalizing p i with
  | nil => exact absurd hi (Nat.not_lt_zero i)
  | cons x xs ih =>
    have hrest : ∀ y ∈ xs, 0 < weight y := fun y hy => hw y (List.mem_cons_of_mem x hy)
    rw [position]
    cases i with
    | zero =>
      rw [upTo_zero, upTo_cons, upTo_zero]
      by_cases hx : p < weight x
      · rw [if_pos hx]
        exact iff_of_true rfl ⟨hp, by omega⟩
      · rw [if_neg hx]
        exact iff_of_false (Nat.succ_ne_zero _) fun h => hx (by omega)
    | succ i =>
      rw [upTo_cons, upTo_cons]
      have hnonneg := upTo_nonneg hrest i
      by_cases hx : p < weight x
      · rw [if_pos hx]
        exact iff_of_false (Nat.succ_ne_zero i).symm fun h => absurd h.1 (by omega)
      · rw [if_neg hx, Nat.succ_inj, ih hrest (by omega) (Nat.lt_of_succ_lt_succ hi)]
        constructor <;> rintro ⟨hlow, hhigh⟩ <;> constructor <;> omega

/-- **Weighted**: of the numbers below the total as many fall on an element as its weight says. -/
theorem card_position (hw : ∀ x ∈ xs, 0 < weight x) (hi : i < xs.length) :
    (((Finset.Ico 0 (total weight xs)).filter fun p => position weight p xs = i).card : ℤ) =
      weight xs[i] := by
  have hinterval : ((Finset.Ico 0 (total weight xs)).filter fun p => position weight p xs = i) =
      Finset.Ico (upTo weight xs i) (upTo weight xs (i + 1)) := by
    ext p
    rw [Finset.mem_filter, Finset.mem_Ico, Finset.mem_Ico]
    have hlow := upTo_nonneg hw i
    have hhigh := upTo_le_total hw (i + 1)
    constructor
    · rintro ⟨⟨hp, _⟩, heq⟩
      exact (position_eq_iff hw hp hi).mp heq
    · rintro ⟨hle, hlt⟩
      have hp : 0 ≤ p := hlow.trans hle
      exact ⟨⟨hp, hlt.trans_le hhigh⟩, (position_eq_iff hw hp hi).mpr ⟨hle, hlt⟩⟩
  have hpos := hw _ (List.getElem_mem hi)
  rw [hinterval, Int.card_Ico, upTo_succ hi]
  omega

end Foundations.WeightedDraw
