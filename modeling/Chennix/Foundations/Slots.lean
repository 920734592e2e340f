import Mathlib.Algebra.BigOperators.Group.List.Basic
import Mathlib.Algebra.Ring.Int.Defs
import Mathlib.Tactic.Common

/-!
# Lists of slots

A list whose entries belong to parties that come one after another and stay: a party is added at the
end, and its entry is replaced when it moves.

## Main results

* `Slots.sum_map_set`, `Slots.countP_set` — what a replaced entry adds to a sum or a count
* `Slots.forall_set`, `Slots.getElem?_set_cases` — what holds of the entries after a replacement
-/

namespace Foundations

namespace Slots

variable {α : Type} {l : List α} {i j : ℕ} {a b : α}

theorem sum_map_set (h : l[i]? = some a) (f : α → ℤ) {d : ℤ} (hb : f b = f a + d) :
    ((l.set i b).map f).sum = (l.map f).sum + d := by
  induction l generalizing i with
  | nil => cases h
  | cons x xs ih =>
    cases i with
    | zero =>
      cases h
      simp only [List.set_cons_zero, List.map_cons, List.sum_cons, hb]
      omega
    | succ i =>
      have := ih (i := i) h
      simp only [List.set_cons_succ, List.map_cons, List.sum_cons, this]
      omega

/-- An entry is replaced by one that looks the same. -/
theorem map_set_same {β : Type} (h : l[i]? = some a) {f : α → β} (hf : f b = f a) :
    (l.set i b).map f = l.map f := by
  obtain ⟨hi, rfl⟩ := List.getElem?_eq_some_iff.mp h
  rw [List.map_set, hf, ← List.getElem_map f (h := by simpa using hi), List.set_getElem_self]

/-- What a replaced entry changes of a count. -/
theorem countP_set (h : l[i]? = some a) (p : α → Bool) :
    (l.set i b).countP p + (if p a then 1 else 0) = l.countP p + if p b then 1 else 0 := by
  induction l generalizing i with
  | nil => cases h
  | cons x xs ih =>
    cases i with
    | zero =>
      cases h
      rw [List.set_cons_zero, List.countP_cons, List.countP_cons]
      omega
    | succ i =>
      have := ih (i := i) h
      rw [List.set_cons_succ, List.countP_cons, List.countP_cons]
      omega

theorem forall_set {P : α → Prop} (h : ∀ x ∈ l, P x) (hb : P b) : ∀ x ∈ l.set i b, P x := by
  intro x hx
  rcases List.mem_or_eq_of_mem_set hx with hx | rfl
  · exact h x hx
  · exact hb

theorem forall_concat {P : α → Prop} (h : ∀ x ∈ l, P x) (hb : P b) : ∀ x ∈ l ++ [b], P x := by
  intro x hx
  rcases List.mem_append.mp hx with hx | hx
  · exact h x hx
  · rwa [List.mem_singleton.mp hx]

/-- An entry is the new one, or it stands elsewhere and stood there before. -/
theorem getElem?_set_cases {x : α} (h : (l.set i b)[j]? = some x) :
    j = i ∧ x = b ∨ j ≠ i ∧ l[j]? = some x := by
  rw [List.getElem?_set] at h
  split at h
  · rename_i hij
    split at h
    · exact .inl ⟨hij.symm, (Option.some.inj h).symm⟩
    · cases h
  · rename_i hij
    exact .inr ⟨Ne.symm hij, h⟩

end Slots

end Foundations
