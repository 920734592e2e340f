import Chennix.Foundations.Path
import Mathlib.Data.List.Induction

/-!
# What has happened in a run

A state need not show how it has come about. To say that something was so when it mattered, one says
that it was so at some step of the run that has led to the state; and what has happened once has
happened for good.

## Main definitions

* `Machine.Once` — at some step of the run a condition was met

## Main results

* `Machine.run_history` — invariants that refer to the run so far
-/

namespace Foundations

namespace Machine

variable {σ ℓ : Type} {step : σ → ℓ → Option σ} {C D : σ → ℓ → Prop} {s₀ s s' : σ} {ls : List ℓ}
  {l : ℓ}

/-- Some step of the run from `s₀` has met `C`, in the state it was taken from. -/
def Once (step : σ → ℓ → Option σ) (C : σ → ℓ → Prop) (s₀ : σ) (ls : List ℓ) : Prop :=
  ∃ ls₁ l ls₂ s, ls = ls₁ ++ l :: ls₂ ∧ run step s₀ ls₁ = some s ∧ C s l

/-- It has just been met. -/
theorem Once.now (hrun : run step s₀ ls = some s) (h : C s l) : Once step C s₀ (ls ++ [l]) :=
  ⟨ls, l, [], s, rfl, hrun, h⟩

/-- What has happened has happened for good. -/
theorem Once.later (h : Once step C s₀ ls) (ms : List ℓ) : Once step C s₀ (ls ++ ms) := by
  obtain ⟨ls₁, l, ls₂, s, rfl, hrun, hC⟩ := h
  exact ⟨ls₁, l, ls₂ ++ ms, s, by simp, hrun, hC⟩

theorem Once.mono (h : Once step C s₀ ls) (hCD : ∀ s l, C s l → D s l) : Once step D s₀ ls := by
  obtain ⟨ls₁, l, ls₂, s, hls, hrun, hC⟩ := h
  exact ⟨ls₁, l, ls₂, s, hls, hrun, hCD s l hC⟩

/-- **Invariants of a state and the run that has led to it.** -/
theorem run_history {I : List ℓ → σ → Prop}
    (hstep : ∀ ls s l s', run step s₀ ls = some s → I ls s → step s l = some s' → I (ls ++ [l]) s')
    (hrun : run step s₀ ls = some s) (h : I [] s₀) : I ls s := by
  induction ls using List.reverseRecOn generalizing s with
  | nil =>
    cases hrun
    exact h
  | append_singleton ls l ih =>
    obtain ⟨s₁, hfirst, hlast⟩ := run_append.mp hrun
    obtain ⟨s₂, hs₂, hend⟩ := run_cons.mp hlast
    cases hend
    exact hstep ls s₁ l s hfirst (ih hfirst) hs₂

end Machine

end Foundations
