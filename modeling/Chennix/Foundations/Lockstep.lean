import Chennix.Foundations.Program

/-!
# Two programs side by side

Two programs over one interface, each run from a state of its own by an environment that determines
the replies, may be compared by what they do as well as by what they answer. What they do is read
off their calls by a view, and calls the view does not show are free.

## Main definitions

* `Program.Lockstep` — two runs that show the same, and whose ends are related

## Main results

* `Program.Lockstep.call`, `Program.Lockstep.bind` — one call on either side, and composition
* `Program.Lockstep.same_bind` — a program beside itself
* `Program.Lockstep.unseen` — a program that shows nothing, on one side only
-/

namespace Foundations

namespace Program

variable {Req : Type} {Resp : Req → Type} {α α' β β' σ ω : Type}

/-- The runs of two programs show the same calls under `view`, and `post` relates their ends. -/
structure Lockstep (env : (q : Req) → σ → Resp q × σ) (view : Answered Req Resp → Option ω)
    (p : Program Req Resp α) (p' : Program Req Resp α') (post : α → α' → σ → σ → Prop)
    (s s' : σ) : Prop where
  shown : (p.run env s).trace.filterMap view = (p'.run env s').trace.filterMap view
  ends : post (p.run env s).answer (p'.run env s').answer (p.run env s).state (p'.run env s').state

namespace Lockstep

variable {env : (q : Req) → σ → Resp q × σ} {view : Answered Req Resp → Option ω}
  {p : Program Req Resp α} {p' : Program Req Resp α'} {post : α → α' → σ → σ → Prop} {s s' : σ}

theorem pure {a : α} {a' : α'} (h : post a a' s s') :
    Lockstep env view (.pure a) (.pure a') post s s' :=
  ⟨rfl, h⟩

/-- One call on either side, shown alike. -/
theorem call {q q' : Req} {k : Resp q → Program Req Resp α} {k' : Resp q' → Program Req Resp α'}
    (hview : view ⟨q, (env q s).1⟩ = view ⟨q', (env q' s').1⟩)
    (h : Lockstep env view (k (env q s).1) (k' (env q' s').1) post (env q s).2 (env q' s').2) :
    Lockstep env view (.call q k) (.call q' k') post s s' := by
  refine ⟨?_, h.ends⟩
  show List.filterMap view (_ :: _) = List.filterMap view (_ :: _)
  simp only [List.filterMap_cons, hview, h.shown]

/-- **Composition.** The ends of the first two must make the next two behave. -/
theorem bind {f : α → Program Req Resp β} {f' : α' → Program Req Resp β'}
    {post' : β → β' → σ → σ → Prop}
    (h : Lockstep env view p p' (fun a a' => Lockstep env view (f a) (f' a') post') s s') :
    Lockstep env view (p >>= f) (p' >>= f') post' s s' := by
  obtain ⟨hshown, hrest, hpost⟩ := h
  refine ⟨?_, ?_⟩
  · simp only [run_bind, List.filterMap_append, hshown, hrest]
  · simpa only [run_bind] using hpost

theorem mono {post' : α → α' → σ → σ → Prop} (h : Lockstep env view p p' post s s')
    (hpost : ∀ a a' s s', post a a' s s' → post' a a' s s') :
    Lockstep env view p p' post' s s' :=
  ⟨h.shown, hpost _ _ _ _ h.ends⟩

/-- A program beside itself from the same state, and what follows it on either side. -/
theorem same_bind {q : Program Req Resp β} {f : β → Program Req Resp α}
    {f' : β → Program Req Resp α'} (h : ∀ b s, Lockstep env view (f b) (f' b) post s s) :
    Lockstep env view (q >>= f) (q >>= f') post s s :=
  bind ⟨rfl, h _ _⟩

/-- A program whose calls are not shown may run on one side alone. -/
theorem unseen {A : Req → Prop} (hA : ∀ q, A q → ∀ r, view ⟨q, r⟩ = none)
    {q : Program Req Resp β} (hq : q.Only A) {f : β → Program Req Resp α}
    (h : Lockstep env view (f (q.run env s).answer) p' post (q.run env s).state s') :
    Lockstep env view (q >>= f) p' post s s' := by
  induction q generalizing s with
  | pure b => exact h
  | call q k ih =>
    obtain ⟨hshown, hpost⟩ := ih _ (hq.2 (env q s).1) h
    refine ⟨?_, hpost⟩
    show List.filterMap view (_ :: _) = _
    rw [List.filterMap_cons_none (hA q hq.1 _)]
    exact hshown

end Lockstep

end Program

end Foundations
