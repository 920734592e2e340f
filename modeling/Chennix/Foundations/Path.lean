import Mathlib.Data.List.Basic
import Mathlib.Tactic.Common

/-!
# Runs of a labelled machine

A machine is a partial step function: a label is refused, or it takes the state to the next one.
A run is the fold of the step over a list of labels. Conditions on the environment are conditions
on single steps, read in the state they are taken from, and asked of a whole run by `Along`.

## Main definitions

* `Machine.run` — the state a list of labels leads to, if none is refused
* `Machine.Along` — every step of the run meets a condition

## Main results

* `Machine.run_invariant` — what every admitted step preserves holds wherever a run has got to
* `Machine.invariant_iff_along` — where only such steps preserve it, the converse as well
* `Machine.property_iff_along` — the same for what an invariant makes hold
* `Machine.run_append`, `Machine.Along.append`, `Machine.Along.trans` — runs compose
-/

namespace Foundations

namespace Machine

variable {σ ℓ : Type} {step : σ → ℓ → Option σ} {C : σ → ℓ → Prop}

/-- The state after the labels of a list, `none` once a label is refused. -/
def run (step : σ → ℓ → Option σ) : σ → List ℓ → Option σ
  | s, [] => some s
  | s, l :: ls => (step s l).bind fun s' => run step s' ls

/-- Every step of the run meets `C` in the state it is taken from. -/
def Along (step : σ → ℓ → Option σ) (C : σ → ℓ → Prop) : σ → List ℓ → Prop
  | _, [] => True
  | s, l :: ls => C s l ∧ ∀ s', step s l = some s' → Along step C s' ls

instance decidableAlong [∀ s l, Decidable (C s l)] :
    (s : σ) → (ls : List ℓ) → Decidable (Along step C s ls)
  | _, [] => .isTrue trivial
  | s, l :: ls =>
    match h : step s l with
    | none => decidable_of_iff (C s l) (by simp [Along, h])
    | some s' =>
      have := decidableAlong s' ls
      decidable_of_iff (C s l ∧ Along step C s' ls) (by simp [Along, h])

@[simp] theorem run_nil (s : σ) : run step s [] = some s := rfl

theorem run_cons {s s' : σ} {l : ℓ} {ls : List ℓ} :
    run step s (l :: ls) = some s' ↔ ∃ s₁, step s l = some s₁ ∧ run step s₁ ls = some s' := by
  simp [run, Option.bind_eq_some_iff]

theorem run_append {s s' : σ} {ls ms : List ℓ} :
    run step s (ls ++ ms) = some s' ↔ ∃ s₁, run step s ls = some s₁ ∧ run step s₁ ms = some s' := by
  induction ls generalizing s with
  | nil => simp
  | cons l ls ih =>
    simp only [List.cons_append, run_cons, ih]
    constructor
    · rintro ⟨s₁, h₁, s₂, h₂, h₃⟩
      exact ⟨s₂, ⟨s₁, h₁, h₂⟩, h₃⟩
    · rintro ⟨s₂, ⟨s₁, h₁, h₂⟩, h₃⟩
      exact ⟨s₁, h₁, s₂, h₂, h₃⟩

theorem Along.append {s s₁ : σ} {ls ms : List ℓ} (hrun : run step s ls = some s₁)
    (h : Along step C s (ls ++ ms)) : Along step C s ls ∧ Along step C s₁ ms := by
  induction ls generalizing s with
  | nil => cases hrun; exact ⟨trivial, h⟩
  | cons l ls ih =>
    obtain ⟨s₂, hstep, hrest⟩ := run_cons.mp hrun
    refine ⟨⟨h.1, fun s' hs' => ?_⟩, (ih hrest (h.2 s₂ hstep)).2⟩
    obtain rfl : s₂ = s' := Option.some.inj (hstep ▸ hs')
    exact (ih hrest (h.2 s₂ hstep)).1

theorem Along.trans {s s₁ : σ} {ls ms : List ℓ} (h : Along step C s ls)
    (hrun : run step s ls = some s₁) (h₁ : Along step C s₁ ms) : Along step C s (ls ++ ms) := by
  induction ls generalizing s with
  | nil => cases hrun; exact h₁
  | cons l ls ih =>
    obtain ⟨s₂, hstep, hrest⟩ := run_cons.mp hrun
    refine ⟨h.1, fun s' hs' => ih (h.2 s' hs') ?_⟩
    rwa [show s' = s₂ from Option.some.inj (hs'.symm.trans hstep)]

theorem Along.and {D : σ → ℓ → Prop} {s : σ} {ls : List ℓ} (h : Along step C s ls)
    (h' : Along step D s ls) : Along step (fun s l => C s l ∧ D s l) s ls := by
  induction ls generalizing s with
  | nil => trivial
  | cons l ls ih => exact ⟨⟨h.1, h'.1⟩, fun s' hs' => ih (h.2 s' hs') (h'.2 s' hs')⟩

/-- A condition that speaks of labels only is asked of each label of the list. -/
theorem along_of_labels {P : ℓ → Prop} {s : σ} {ls : List ℓ} (h : ∀ l ∈ ls, P l) :
    Along step (fun _ l => P l) s ls := by
  induction ls generalizing s with
  | nil => trivial
  | cons l ls ih =>
    exact ⟨h l List.mem_cons_self, fun _ _ => ih fun m hm => h m (List.mem_cons_of_mem l hm)⟩

/-- Every step of a run leads on to its end. -/
theorem along_towards {s s' : σ} {ls : List ℓ} (hrun : run step s ls = some s') :
    Along step (fun s l => ∀ s₁, step s l = some s₁ → ∃ ms, run step s₁ ms = some s') s ls := by
  induction ls generalizing s with
  | nil => trivial
  | cons l ls ih =>
    obtain ⟨s₁, hstep, hrest⟩ := run_cons.mp hrun
    have hsame : ∀ s₂, step s l = some s₂ → s₂ = s₁ := fun _ hs₂ =>
      Option.some.inj (hs₂.symm.trans hstep)
    exact ⟨fun s₂ hs₂ => ⟨ls, hsame s₂ hs₂ ▸ hrest⟩, fun s₂ hs₂ => ih (hsame s₂ hs₂ ▸ hrest)⟩

/-- **Invariants.** What holds at the start and is kept by every admitted step holds at the end
of every run of admitted steps. -/
theorem run_invariant {I : σ → Prop} {s s' : σ} {ls : List ℓ}
    (hstep : ∀ s l s', C s l → I s → step s l = some s' → I s')
    (hrun : run step s ls = some s') (halong : Along step C s ls) (h : I s) : I s' := by
  induction ls generalizing s with
  | nil => cases hrun; exact h
  | cons l ls ih =>
    obtain ⟨s₁, h₁, hrest⟩ := run_cons.mp hrun
    exact ih hrest (halong.2 s₁ h₁) (hstep s l s₁ halong.1 h h₁)

/-- Invariants of unrestricted runs. -/
theorem run_invariant' {I : σ → Prop} {s s' : σ} {ls : List ℓ}
    (hstep : ∀ s l s', I s → step s l = some s' → I s')
    (hrun : run step s ls = some s') (h : I s) : I s' :=
  run_invariant (C := fun _ _ => True) (fun s l s' _ => hstep s l s') hrun
    (along_of_labels (P := fun _ => True) fun _ _ => trivial) h

/-- **Invariants, exactly.** Where each step keeps `I` if and only if it meets the condition, `I`
holds wherever a run gets to if and only if all its steps meet it. The invariant `J` holds in any
case. -/
theorem invariant_iff_along {I J : σ → Prop} (htotal : ∀ s l, ∃ s', step s l = some s')
    (hJ : ∀ s l s', J s → step s l = some s' → J s')
    (hI : ∀ s l s', J s → I s → step s l = some s' → (I s' ↔ C s l)) {s : σ} {ls : List ℓ}
    (hj : J s) (h : I s) :
    (∀ ls' s', ls' <+: ls → run step s ls' = some s' → I s') ↔ Along step C s ls := by
  induction ls generalizing s with
  | nil =>
    refine ⟨fun _ => trivial, fun _ ls' s' hpre hrun => ?_⟩
    rw [List.prefix_nil.mp hpre] at hrun
    cases hrun
    exact h
  | cons l ls ih =>
    obtain ⟨s₁, hs₁⟩ := htotal s l
    constructor
    · intro hall
      have h₁ : I s₁ := hall [l] s₁ ⟨ls, rfl⟩ (run_cons.mpr ⟨s₁, hs₁, rfl⟩)
      refine ⟨(hI s l s₁ hj h hs₁).mp h₁, fun s₂ hs₂ => ?_⟩
      cases hs₁.symm.trans hs₂
      refine (ih (hJ s l _ hj hs₁) h₁).mp fun ls' s' hpre hrun => ?_
      exact hall (l :: ls') s' (List.cons_prefix_cons.mpr ⟨rfl, hpre⟩)
        (run_cons.mpr ⟨_, hs₁, hrun⟩)
    · rintro ⟨hC, hrest⟩ ls' s' hpre hrun
      have h₁ : I s₁ := (hI s l s₁ hj h hs₁).mpr hC
      cases ls' with
      | nil =>
        cases hrun
        exact h
      | cons l' ls' =>
        obtain ⟨rfl, htail⟩ := List.cons_prefix_cons.mp hpre
        obtain ⟨s₂, hs₂, hrun⟩ := run_cons.mp hrun
        cases hs₁.symm.trans hs₂
        exact (ih (hJ s _ _ hj hs₁) h₁).mpr (hrest _ hs₁) ls' s' htail hrun

/-- **Properties, exactly.** Where the environment keeps to `D`, let `I` make the property `P` hold,
let the steps that meet `C` keep `I`, and let every other step lose `P`. Then `P` holds wherever a
run gets to if and only if all its steps meet `C`. The invariant `J` holds in any case. -/
theorem property_iff_along {D : σ → ℓ → Prop} {I J P : σ → Prop}
    (hJ : ∀ s l s', D s l → J s → step s l = some s' → J s') (hP : ∀ s, J s → I s → P s)
    (hI : ∀ s l s', D s l → C s l → J s → I s → step s l = some s' → I s')
    (hC : ∀ s l s', D s l → J s → I s → step s l = some s' → P s' → C s l) {s s' : σ} {ls : List ℓ}
    (hrun : run step s ls = some s') (hD : Along step D s ls) (hj : J s) (hi : I s) :
    (∀ ls' s₁, ls' <+: ls → run step s ls' = some s₁ → P s₁) ↔ Along step C s ls := by
  induction ls generalizing s with
  | nil =>
    refine ⟨fun _ => trivial, fun _ ls' s₁ hpre hrun => ?_⟩
    rw [List.prefix_nil.mp hpre] at hrun
    cases hrun
    exact hP s hj hi
  | cons l ls ih =>
    obtain ⟨s₂, hstep, hrest⟩ := run_cons.mp hrun
    have hj' := hJ s l s₂ hD.1 hj hstep
    constructor
    · intro hall
      have hcond : C s l := hC s l s₂ hD.1 hj hi hstep
        (hall [l] s₂ ⟨ls, rfl⟩ (run_cons.mpr ⟨s₂, hstep, rfl⟩))
      refine ⟨hcond, fun s₃ hs₃ => ?_⟩
      cases hstep.symm.trans hs₃
      refine (ih hrest (hD.2 _ hstep) hj' (hI s l _ hD.1 hcond hj hi hstep)).mp
        fun ls' s₁ hpre hrun => ?_
      exact hall (l :: ls') s₁ (List.cons_prefix_cons.mpr ⟨rfl, hpre⟩)
        (run_cons.mpr ⟨_, hstep, hrun⟩)
    · rintro ⟨hcond, halong⟩ ls' s₁ hpre hpart
      cases ls' with
      | nil =>
        cases hpart
        exact hP s hj hi
      | cons l' ls' =>
        obtain ⟨rfl, htail⟩ := List.cons_prefix_cons.mp hpre
        obtain ⟨s₃, hs₃, hpart⟩ := run_cons.mp hpart
        cases hstep.symm.trans hs₃
        exact (ih hrest (hD.2 _ hstep) hj' (hI s _ _ hD.1 hcond hj hi hstep)).mpr
          (halong _ hstep) ls' s₁ htail hpart

end Machine

end Foundations
