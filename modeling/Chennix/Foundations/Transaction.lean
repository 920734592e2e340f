import Mathlib.Data.List.Nodup
import Mathlib.Tactic.Common

/-!
# Transactions

Statements that read and write a state, and leave it as it was when they fail. What a sequence of
them keeps is what each of them keeps.

## Main definitions

* `Keeps` — a statement that succeeds keeps a property of the state

## Main results

* `bind_ok`, `pure_ok`, `get_ok` — when a sequence succeeds, and with what
* `bind_of_ok`, `bind_of_error` — a sequence whose first statement is known
* `Keeps.bind`, `Keeps.forM` — invariants of sequences and loops
* `forM_ok_of_fresh` — when a loop of insertions with a uniqueness check succeeds
* `forM_ok_of_stable` — when a loop of checks that no round disturbs succeeds
-/

namespace Foundations.Transaction

variable {σ ε α β : Type}

theorem bind_ok {x : StateT σ (Except ε) α} {f : α → StateT σ (Except ε) β} {s : σ} {r : β × σ} :
    (x >>= f) s = .ok r ↔ ∃ a s₁, x s = .ok (a, s₁) ∧ f a s₁ = .ok r := by
  show (x s >>= fun p => f p.1 p.2) = .ok r ↔ _
  rcases x s with e | ⟨a, s₁⟩
  · constructor
    · intro h
      cases h
    · rintro ⟨a, s₁, h, _⟩
      cases h
  · constructor
    · intro h
      exact ⟨a, s₁, rfl, h⟩
    · rintro ⟨_, _, h, h'⟩
      cases h
      exact h'

theorem bind_of_ok {x : StateT σ (Except ε) α} {f : α → StateT σ (Except ε) β} {s s₁ : σ} {a : α}
    (h : x s = .ok (a, s₁)) : (x >>= f) s = f a s₁ := by
  show (x s >>= fun p => f p.1 p.2) = f a s₁
  rw [h]
  rfl

theorem bind_of_error {x : StateT σ (Except ε) α} {f : α → StateT σ (Except ε) β} {s : σ} {e : ε}
    (h : x s = .error e) : (x >>= f) s = .error e := by
  show (x s >>= fun p => f p.1 p.2) = .error e
  rw [h]
  rfl

theorem get_ok {s : σ} {r : σ × σ} :
    (get : StateT σ (Except ε) σ) s = .ok r ↔ r = (s, s) := by
  show (Except.ok (s, s) : Except ε (σ × σ)) = .ok r ↔ _
  rw [Except.ok.injEq, eq_comm]

theorem pure_ok {a : α} {s : σ} {r : α × σ} :
    (pure a : StateT σ (Except ε) α) s = .ok r ↔ r = (a, s) := by
  show (Except.ok (a, s) : Except ε (α × σ)) = .ok r ↔ _
  rw [Except.ok.injEq, eq_comm]

/-- Where the statement succeeds, a property of the state is kept. -/
def Keeps (I : σ → Prop) (x : StateT σ (Except ε) α) : Prop :=
  ∀ s a s', x s = .ok (a, s') → I s → I s'

namespace Keeps

variable {I : σ → Prop}

theorem pure (a : α) : Keeps I (pure a : StateT σ (Except ε) α) := by
  intro s a' s' h hI
  cases pure_ok.mp h
  exact hI

theorem bind {x : StateT σ (Except ε) α} {f : α → StateT σ (Except ε) β} (hx : Keeps I x)
    (hf : ∀ a, Keeps I (f a)) : Keeps I (x >>= f) := by
  intro s b s' h hI
  obtain ⟨a, s₁, h₁, h₂⟩ := bind_ok.mp h
  exact hf a s₁ b s' h₂ (hx s a s₁ h₁ hI)

/-- **Loops** keep what their body keeps. -/
theorem forM {f : β → StateT σ (Except ε) PUnit} {xs : List β} (h : ∀ x ∈ xs, Keeps I (f x)) :
    Keeps I (xs.forM f) := by
  induction xs with
  | nil => exact pure _
  | cons x xs ih =>
    exact (h x List.mem_cons_self).bind fun _ => ih fun y hy => h y (List.mem_cons_of_mem x hy)

end Keeps

theorem forM_cons_ok {f : β → StateT σ (Except ε) PUnit} {x : β} {xs : List β} {s : σ}
    {r : PUnit × σ} :
    (x :: xs).forM f s = .ok r ↔ ∃ s₁, f x s = .ok ((), s₁) ∧ xs.forM f s₁ = .ok r := by
  show (f x >>= fun _ => xs.forM f) s = _ ↔ _
  rw [bind_ok]
  constructor
  · rintro ⟨_, s₁, h, hrest⟩
    exact ⟨s₁, h, hrest⟩
  · rintro ⟨s₁, h, hrest⟩
    exact ⟨(), s₁, h, hrest⟩

section Loops

variable {γ : Type} {f : β → StateT σ (Except ε) PUnit} {xs : List β} {s s' : σ}

/-- What each round appends, where all rounds keep to a property. -/
theorem forM_append {P : σ → Prop} {obs : σ → List γ} {name : β → γ} (hkeeps : ∀ x, Keeps P (f x))
    (happend : ∀ x s s', P s → f x s = .ok ((), s') → obs s' = obs s ++ [name x])
    (h : xs.forM f s = .ok ((), s')) (hP : P s) : obs s' = obs s ++ xs.map name := by
  induction xs generalizing s with
  | nil =>
    cases pure_ok.mp h
    rw [List.map_nil, List.append_nil]
  | cons x xs ih =>
    obtain ⟨s₁, h₁, hrest⟩ := forM_cons_ok.mp h
    rw [ih hrest (hkeeps x s () s₁ h₁ hP), happend x s s₁ hP h₁, List.append_assoc, List.map_cons,
      List.singleton_append]

/-- A round succeeds where its name is new. -/
theorem forM_ok_of_fresh {obs : σ → List γ} {name : β → γ}
    (hok : ∀ x s, (∃ s', f x s = .ok ((), s')) ↔ name x ∉ obs s)
    (happend : ∀ x s s', f x s = .ok ((), s') → obs s' = obs s ++ [name x]) :
    (∃ s', xs.forM f s = .ok ((), s')) ↔ (xs.map name).Nodup ∧ ∀ x ∈ xs, name x ∉ obs s := by
  induction xs generalizing s with
  | nil => exact ⟨fun _ => ⟨List.nodup_nil, fun _ => List.not_mem_nil.elim⟩, fun _ => ⟨s, rfl⟩⟩
  | cons x xs ih =>
    rw [List.map_cons, List.nodup_cons, List.forall_mem_cons, List.mem_map]
    constructor
    · rintro ⟨s', h⟩
      obtain ⟨s₁, h₁, hrest⟩ := forM_cons_ok.mp h
      obtain ⟨hnodup, hfresh⟩ := ih.mp ⟨s', hrest⟩
      rw [happend x s s₁ h₁] at hfresh
      refine ⟨⟨?_, hnodup⟩, (hok x s).mp ⟨s₁, h₁⟩, fun y hy hmem => ?_⟩
      · rintro ⟨y, hy, hname⟩
        exact hfresh y hy (List.mem_append_right _ (List.mem_singleton.mpr hname))
      · exact hfresh y hy (List.mem_append_left _ hmem)
    · rintro ⟨⟨hx, hnodup⟩, hfresh, hrest⟩
      obtain ⟨s₁, h₁⟩ := (hok x s).mpr hfresh
      have hfresh' : ∀ y ∈ xs, name y ∉ obs s₁ := by
        intro y hy hmem
        rw [happend x s s₁ h₁] at hmem
        rcases List.mem_append.mp hmem with hmem | hmem
        · exact hrest y hy hmem
        · exact hx ⟨y, hy, List.mem_singleton.mp hmem⟩
      obtain ⟨s', h'⟩ := ih.mpr ⟨hnodup, hfresh'⟩
      exact ⟨s', forM_cons_ok.mpr ⟨s₁, h₁, h'⟩⟩

/-- A round succeeds where its condition holds, and no round changes the conditions. -/
theorem forM_ok_of_stable {C : β → σ → Prop} (hok : ∀ x s, (∃ s', f x s = .ok ((), s')) ↔ C x s)
    (hstable : ∀ x s s', f x s = .ok ((), s') → ∀ y, C y s' ↔ C y s) :
    (∃ s', xs.forM f s = .ok ((), s')) ↔ ∀ x ∈ xs, C x s := by
  induction xs generalizing s with
  | nil => exact ⟨fun _ _ => List.not_mem_nil.elim, fun _ => ⟨s, rfl⟩⟩
  | cons x xs ih =>
    rw [List.forall_mem_cons]
    constructor
    · rintro ⟨s', h⟩
      obtain ⟨s₁, h₁, hrest⟩ := forM_cons_ok.mp h
      refine ⟨(hok x s).mp ⟨s₁, h₁⟩, fun y hy => ?_⟩
      exact (hstable x s s₁ h₁ y).mp (ih.mp ⟨s', hrest⟩ y hy)
    · rintro ⟨hx, hrest⟩
      obtain ⟨s₁, h₁⟩ := (hok x s).mpr hx
      obtain ⟨s', h'⟩ := ih.mpr fun y hy => (hstable x s s₁ h₁ y).mpr (hrest y hy)
      exact ⟨s', forM_cons_ok.mpr ⟨s₁, h₁, h'⟩⟩

end Loops

end Foundations.Transaction
