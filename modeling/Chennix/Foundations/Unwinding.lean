import Mathlib.Tactic.Common

/-!
# What an observer learns

A machine takes one input after the other and answers each. Whoever gives the inputs learns the
answers, and nothing else: two states are alike to them where no list of inputs tells them apart.
For this a relation is found that every input keeps and that makes the answers agree.

## Main definitions

* `Responder.serve` — the answers to a list of inputs, and the state in the end
* `Responder.Unwinds` — related states answer alike and stay related

## Main results

* `Responder.serve_keeps` — what every input leaves alone, a list of them leaves alone
* `Responder.Unwinds.serve` — related states answer alike to the end
-/

namespace Foundations

namespace Responder

variable {σ ι ο α : Type}

/-- The answers to a list of inputs, and the state in the end. -/
def serve (step : ι → σ → ο × σ) : List ι → σ → List ο × σ
  | [], s => ([], s)
  | i :: is, s =>
    let (answer, s') := step i s
    let (answers, last) := serve step is s'
    (answer :: answers, last)

variable {step : ι → σ → ο × σ}

@[simp] theorem serve_nil (s : σ) : serve step [] s = ([], s) := rfl

@[simp] theorem serve_cons (i : ι) (is : List ι) (s : σ) :
    serve step (i :: is) s =
      ((step i s).1 :: (serve step is (step i s).2).1, (serve step is (step i s).2).2) := rfl

/-- What every input leaves alone, a list of them leaves alone. -/
theorem serve_keeps {view : σ → α} (h : ∀ i s, view (step i s).2 = view s) (is : List ι) (s : σ) :
    view (serve step is s).2 = view s := by
  induction is generalizing s with
  | nil => rfl
  | cons i is ih => rw [serve_cons, ih, h]

/-- Related states answer alike and stay related. -/
structure Unwinds (step : ι → σ → ο × σ) (R : σ → σ → Prop) : Prop where
  answers : ∀ {i s s'}, R s s' → (step i s).1 = (step i s').1
  next : ∀ {i s s'}, R s s' → R (step i s).2 (step i s').2

/-- **Unwinding.** Related states answer alike to the end, and end related. -/
theorem Unwinds.serve {R : σ → σ → Prop} (h : Unwinds step R) (is : List ι) {s s' : σ}
    (hs : R s s') :
    (Responder.serve step is s).1 = (Responder.serve step is s').1 ∧
      R (Responder.serve step is s).2 (Responder.serve step is s').2 := by
  induction is generalizing s s' with
  | nil => exact ⟨rfl, hs⟩
  | cons i is ih =>
    obtain ⟨hrest, hlast⟩ := ih (h.next (i := i) hs)
    exact ⟨by rw [serve_cons, serve_cons, h.answers hs, hrest], hlast⟩

end Responder

end Foundations
