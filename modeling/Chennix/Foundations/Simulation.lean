import Chennix.Foundations.Path

/-!
# A machine that runs another

A machine with more detail does what another does, if each of its steps is either a step of the
other or not seen there. Its runs then are runs of the other, with the labels left out that are not
seen, and what holds of those holds here.

Where the states of the two do not determine each other, a relation takes the place of the function,
and a step may take several of the other machine.

## Main definitions

* `Machine.Refines` — each step is one of the other machine, or none
* `Machine.Simulates` — each step is a run of the other machine

## Main results

* `Machine.Refines.run`, `Machine.Simulates.run` — runs of the one are runs of the other
-/

namespace Foundations

namespace Machine

variable {σ τ ℓ m : Type}

/-- A step whose label is none of the other machine is not seen there through `f`, and any other is
the step that its label is. -/
structure Refines (step : σ → ℓ → Option σ) (step' : τ → m → Option τ) (f : σ → τ)
    (label : ℓ → Option m) : Prop where
  unseen : ∀ {s l s'}, label l = none → step s l = some s' → f s' = f s
  seen : ∀ {s l s' l'}, label l = some l' → step s l = some s' → step' (f s) l' = some (f s')

/-- **Runs** of the one machine are runs of the other. -/
theorem Refines.run {step : σ → ℓ → Option σ} {step' : τ → m → Option τ} {f : σ → τ}
    {label : ℓ → Option m} (h : Refines step step' f label) {s s' : σ} {ls : List ℓ}
    (hrun : Machine.run step s ls = some s') :
    Machine.run step' (f s) (ls.filterMap label) = some (f s') := by
  induction ls generalizing s with
  | nil =>
    cases hrun
    rfl
  | cons l ls ih =>
    obtain ⟨s₁, hstep, hrest⟩ := run_cons.mp hrun
    cases hl : label l with
    | none => rw [List.filterMap_cons_none hl, ← h.unseen hl hstep, ih hrest]
    | some l' =>
      rw [List.filterMap_cons_some hl]
      exact run_cons.mpr ⟨_, h.seen hl hstep, ih hrest⟩

/-- From states that `R` relates, a step that `C` admits is a run of the other machine. Where the
step meets `D`, the steps of that run meet `D'`. -/
structure Simulates (step : σ → ℓ → Option σ) (step' : τ → m → Option τ) (R : σ → τ → Prop)
    (C D : σ → ℓ → Prop) (D' : τ → m → Prop) : Prop where
  step : ∀ {s l s' t}, C s l → R s t → step s l = some s' →
    ∃ ms t', Machine.run step' t ms = some t' ∧ R s' t' ∧ (D s l → Along step' D' t ms)

/-- **Runs** of the one machine are runs of the other. -/
theorem Simulates.run {step : σ → ℓ → Option σ} {step' : τ → m → Option τ} {R : σ → τ → Prop}
    {C D : σ → ℓ → Prop} {D' : τ → m → Prop} (h : Simulates step step' R C D D') {s s' : σ}
    {t : τ} {ls : List ℓ} (hrun : Machine.run step s ls = some s') (halong : Along step C s ls)
    (hR : R s t) :
    ∃ ms t', Machine.run step' t ms = some t' ∧ R s' t' ∧
      (Along step D s ls → Along step' D' t ms) := by
  induction ls generalizing s t with
  | nil =>
    cases hrun
    exact ⟨[], t, rfl, hR, id⟩
  | cons l ls ih =>
    obtain ⟨s₁, hstep, hrest⟩ := run_cons.mp hrun
    obtain ⟨ms, t₁, hms, hR₁, hD⟩ := h.step halong.1 hR hstep
    obtain ⟨ns, t', hns, hR', hD'⟩ := ih hrest (halong.2 s₁ hstep) hR₁
    exact ⟨ms ++ ns, t', run_append.mpr ⟨t₁, hms, hns⟩, hR', fun hall =>
      (hD hall.1).trans hms (hD' (hall.2 s₁ hstep))⟩

end Machine

end Foundations
