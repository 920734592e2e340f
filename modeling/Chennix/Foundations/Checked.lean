import Mathlib.Algebra.Group.Nat.Defs
import Mathlib.Data.Nat.Notation
import Mathlib.Tactic.Common

/-!
# Checked additions

An addition of machine words as a debug build makes it has no result where the sum does not fit. A
computation with such additions has a result exactly where all of its sums fit, and it is then the
result of the release build, whose additions wrap.

## Main definitions

* `checkedAdd` — the addition of a debug build
* `Checks` — where a computation has a result, and which

## Main results

* `checks_add` — one addition
* `Checks.bind` — one computation after another
-/

namespace Foundations

/-- `a + b`, unless it overflows. -/
def checkedAdd (a b : UInt64) : Option UInt64 :=
  if a.toNat + b.toNat < 2 ^ 64 then some (a + b) else none

/-- The computation has the result `a` where `P` holds, and otherwise none. -/
structure Checks {α : Type} (P : Prop) (a : α) (x : Option α) : Prop where
  eq_some : P → x = some a
  eq_none : ¬P → x = none

/-- A sum that fits does not wrap. -/
theorem toNat_add_of_lt {a b : UInt64} (h : a.toNat + b.toNat < 2 ^ 64) :
    (a + b).toNat = a.toNat + b.toNat := by
  rw [UInt64.toNat_add, Nat.mod_eq_of_lt h]

theorem checks_add (a b : UInt64) :
    Checks (a.toNat + b.toNat < 2 ^ 64) (a + b) (checkedAdd a b) := by
  refine ⟨fun h => ?_, fun h => ?_⟩
  · rw [checkedAdd, if_pos h]
  · rw [checkedAdd, if_neg h]

namespace Checks

variable {α β : Type} {P Q : Prop} {a : α} {b : β} {x : Option α}

theorem isSome_iff (h : Checks P a x) : x.isSome ↔ P := by
  by_cases hP : P
  · simp [h.eq_some hP, hP]
  · simp [h.eq_none hP, hP]

theorem congr (h : Checks P a x) (hPQ : P ↔ Q) : Checks Q a x := by
  rwa [propext hPQ] at h

/-- A result without an addition. -/
theorem pure (a : α) : Checks True a (some a) := ⟨fun _ => rfl, fun h => absurd trivial h⟩

/-- **One after another.** The second is looked at where the first has its result. -/
theorem bind {f : α → Option β} (h : Checks P a x) (hf : P → Checks Q b (f a)) :
    Checks (P ∧ Q) b (x >>= f) := by
  refine ⟨fun hPQ => ?_, fun hPQ => ?_⟩
  · rw [h.eq_some hPQ.1]
    exact (hf hPQ.1).eq_some hPQ.2
  · by_cases hP : P
    · rw [h.eq_some hP]
      exact (hf hP).eq_none fun hQ => hPQ ⟨hP, hQ⟩
    · rw [h.eq_none hP]
      rfl

/-- What is made of a result. -/
theorem map (h : Checks P a x) (f : α → β) : Checks P (f a) (x >>= fun y => some (f y)) :=
  (h.bind fun _ => pure (f a)).congr (iff_of_eq (and_true P))

end Checks

end Foundations
