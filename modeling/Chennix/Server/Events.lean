import Chennix.Foundations.Path
import Chennix.Server.Admin

/-!
# Runs of the server

What can happen to a running server, one event at a time: a proxy request reads the snapshot, a
running request makes its next call, an administrator calls a handler, the recovery loop comes
round, time passes. Requests are programs over their calls, so a run of the server is any
interleaving of any number of them.

## Main definitions

* `Event`, `AppState.step` — the events and what they do
* `Libraries` — the functions the server takes from elsewhere

## Main results

* `AppState.step_admin` — a handler that fails leaves the server as it was
* `AppState.run_of_exec` — the calls a program makes, one after another, are a run
-/

namespace Chennix

open Foundations Calendar

/-- The functions of other libraries. -/
structure Libraries where
  /-- Lower case. -/
  lower : String → String
  /-- The value of a pricing expression. -/
  evaluator : BillingExpr.Evaluator

/-- The events. -/
inductive Event
  /-- `proxy_request` reads the snapshot, before it resolves the name of the model. -/
  | request (chance : Chance)
  /-- A running request makes a call and gets its reply. -/
  | call (a : ExecCall) (chance : Chance)
  | admin (call : AdminCall) (chance : Chance)
  /-- The background loop comes round. -/
  | recover
  /-- Time passes, in nanoseconds. -/
  | elapse (duration : ℕ)

namespace AppState

variable (lib : Libraries)

/-- The state a handler leaves: a handler that fails leaves the one it found. -/
def administer (call : AdminCall) (chance : Chance) (s : AppState) : AppState :=
  match call.handle lib.lower chance.rank lib.evaluator s with
  | .ok (_, s') => s'
  | .error _ => s

/-- One event. -/
def step (s : AppState) : Event → Option AppState
  | .request chance => some (ConfigCache.get lib.lower chance.rank s).2
  | .call a chance => some (s.answer lib.lower chance a.1 a.2).2
  | .admin call chance => some (s.administer lib call chance)
  | .recover => some s.checkRecoveries
  | .elapse duration => some { s with now := s.now + duration }

variable {lib}

/-- A handler has failed and left everything alone, or has succeeded. -/
theorem step_admin {s s' : AppState} {call : AdminCall} {chance : Chance}
    (h : s.step lib (.admin call chance) = some s') :
    s' = s ∨ ∃ body, call.handle lib.lower chance.rank lib.evaluator s = .ok (body, s') := by
  have h' : s.administer lib call chance = s' := Option.some.inj h
  rw [administer] at h'
  rcases hr : call.handle lib.lower chance.rank lib.evaluator s with e | ⟨body, s₁⟩
  · left
    rw [hr] at h'
    exact h'.symm
  · right
    rw [hr] at h'
    exact ⟨body, by rw [← h']⟩

/-- How the server answers the calls of a program: an upstream may reply anything. -/
def serve (lib : Libraries) (chance : Chance) : Handler ExecReq ExecReq.Resp AppState :=
  fun q s r s' => s.answer lib.lower chance q r = (r, s')

/-- **Requests as runs**: the calls a program makes are a run of the server. -/
theorem run_of_exec {α : Type} {chance : Chance} {p p' : ExecM α} {s s' : AppState}
    {t : List ExecCall} (h : Program.Exec (serve lib chance) p s t p' s') :
    Machine.run (step lib) s (t.map fun a => .call a chance) = some s' := by
  induction h with
  | refl p s => rfl
  | @call q k s s₁ s₂ r t p hq _ ih =>
    rw [List.map_cons, Machine.run_cons]
    refine ⟨s₁, ?_, ih⟩
    show some (s.answer lib.lower chance q r).2 = some s₁
    rw [show s.answer lib.lower chance q r = (r, s₁) from hq]

end AppState

end Chennix
