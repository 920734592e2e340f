import Mathlib.Logic.Basic
import Mathlib.Data.List.Basic
import Mathlib.Data.Nat.Notation
import Mathlib.Tactic.Common

/-!
# Programs made of atomic calls

An asynchronous function that reaches shared state only through a fixed interface is a tree: it
either has an answer, or it performs one call of the interface and continues with the reply. Every
`.await` of such a function is one node, so the tree is at once its sequential meaning (follow the
replies), its set of suspension points (the nodes) and its share of any interleaving (one node at
a time).

Nothing here knows what the calls are. The interface is `Req` with a reply type for each request;
what a call does to a state is a `Handler`, a relation, so that a reply may be left open.

## Main definitions

* `Program` — the trees, a monad
* `Program.Exec` — a partial run, with the calls answered so far
* `Program.Throughout` — an assertion at every suspension point of every run, and one at the end
* `Program.Follows`, `Program.Always` — the same two when nothing is known of who answers
* `Program.run` — the whole run where the replies are determined
* `Program.Shows` — what a whole run shows of its calls, and how it ends
* `Program.embed` — a program of one interface inside a larger one

## Main results

* `Program.Throughout.sound` — what `Throughout` says of partial runs
* `Program.Always.of_follows` — and the converse, where nothing is known of who answers
* `Program.Throughout.bind` — the rule of composition
* `Program.Throughout.of_only` — a program that makes only harmless calls keeps an invariant
* `Program.Shows.bind` — composition, for what whole runs show
* `Program.Always.embed` — specifications carry over to larger interfaces
-/

namespace Foundations

/-- A program that answers with an `α` after finitely many calls. -/
inductive Program (Req : Type) (Resp : Req → Type) (α : Type) : Type
  | pure (a : α) : Program Req Resp α
  | call (q : Req) (k : Resp q → Program Req Resp α) : Program Req Resp α

/-- What a call does: the replies it may give in a state, and the state it leaves. -/
abbrev Handler (Req : Type) (Resp : Req → Type) (σ : Type) : Type :=
  (q : Req) → σ → Resp q → σ → Prop

/-- A call together with its reply. -/
abbrev Answered (Req : Type) (Resp : Req → Type) : Type := (q : Req) × Resp q

namespace Program

variable {Req : Type} {Resp : Req → Type} {α β γ σ : Type}

/-- Continue with `f` once the answer is there. -/
protected def bind : Program Req Resp α → (α → Program Req Resp β) → Program Req Resp β
  | .pure a, f => f a
  | .call q k, f => .call q fun r => (k r).bind f

instance : Monad (Program Req Resp) where
  pure := .pure
  bind := Program.bind

/-- The program that makes one call and answers with its reply. -/
def perform (q : Req) : Program Req Resp (Resp q) := .call q .pure

@[simp] theorem pure_def (a : α) : (Pure.pure a : Program Req Resp α) = .pure a := rfl

@[simp] theorem pure_bind (a : α) (f : α → Program Req Resp β) :
    (.pure a : Program Req Resp α) >>= f = f a := rfl

@[simp] theorem call_bind (q : Req) (k : Resp q → Program Req Resp α)
    (f : α → Program Req Resp β) : (.call q k) >>= f = .call q fun r => k r >>= f := rfl

@[simp] theorem perform_bind (q : Req) (f : Resp q → Program Req Resp β) :
    perform q >>= f = .call q f := rfl

/-! ### Partial runs -/

/-- `Exec H p s t p' s'`: from state `s` the program `p` makes the calls of `t`, answered as `t`
says, and stands at `p'` with the state `s'`. -/
inductive Exec (H : Handler Req Resp σ) :
    Program Req Resp α → σ → List (Answered Req Resp) → Program Req Resp α → σ → Prop
  | refl (p : Program Req Resp α) (s : σ) : Exec H p s [] p s
  | call {q : Req} {k : Resp q → Program Req Resp α} {s s₁ s₂ : σ} {r : Resp q}
      {t : List (Answered Req Resp)} {p : Program Req Resp α} (h : H q s r s₁)
      (rest : Exec H (k r) s₁ t p s₂) : Exec H (.call q k) s (⟨q, r⟩ :: t) p s₂

variable {H : Handler Req Resp σ}

theorem Exec.snoc {p : Program Req Resp α} {q : Req} {k : Resp q → Program Req Resp α}
    {t : List (Answered Req Resp)} {s s₁ s₂ : σ} {r : Resp q} (h : Exec H p s t (.call q k) s₁)
    (hq : H q s₁ r s₂) : Exec H p s (t ++ [⟨q, r⟩]) (k r) s₂ := by
  generalize hp' : Program.call q k = p' at h
  induction h with
  | refl p s => subst hp'; exact .call hq (.refl _ _)
  | call h _ ih => exact .call h (ih hq hp')

theorem Exec.append {p p₁ p₂ : Program Req Resp α} {t t₁ : List (Answered Req Resp)}
    {s s₁ s₂ : σ} (h : Exec H p s t p₁ s₁) (h₁ : Exec H p₁ s₁ t₁ p₂ s₂) :
    Exec H p s (t ++ t₁) p₂ s₂ := by
  induction h with
  | refl p s => exact h₁
  | call h _ ih => exact .call h (ih h₁)

/-- The interface about which nothing is known: every reply is possible. -/
def anyReply : Handler Req Resp Unit := fun _ _ _ _ => True

/-- `Follows p t p'`: answered as `t` says, whoever answers, `p` comes to stand at `p'`. -/
abbrev Follows (p : Program Req Resp α) (t : List (Answered Req Resp))
    (p' : Program Req Resp α) : Prop := Exec anyReply p () t p' ()

theorem Follows.snoc {p : Program Req Resp α} {q : Req} {k : Resp q → Program Req Resp α}
    {t : List (Answered Req Resp)} (h : Follows p t (.call q k)) (r : Resp q) :
    Follows p (t ++ [⟨q, r⟩]) (k r) :=
  Exec.snoc h trivial

/-- The first `n` calls of the program, with an environment that determines the replies: the
answered calls, what is left of the program, and the state. -/
def drive (env : (q : Req) → σ → Resp q × σ) :
    ℕ → Program Req Resp α → σ → List (Answered Req Resp) × Program Req Resp α × σ
  | 0, p, s => ([], p, s)
  | _ + 1, .pure a, s => ([], .pure a, s)
  | n + 1, .call q k, s =>
    let (r, s') := env q s
    let (t, p, s'') := drive env n (k r) s'
    (⟨q, r⟩ :: t, p, s'')

theorem drive_exec {env : (q : Req) → σ → Resp q × σ} (henv : ∀ q s, H q s (env q s).1 (env q s).2)
    (n : ℕ) (p : Program Req Resp α) (s : σ) :
    Exec H p s (drive env n p s).1 (drive env n p s).2.1 (drive env n p s).2.2 := by
  induction n generalizing p s with
  | zero => exact .refl p s
  | succ n ih =>
    cases p with
    | pure a => exact .refl _ s
    | call q k => exact .call (henv q s) (ih _ _)

/-- The answer of a program that has none of its calls left. -/
def answer? : Program Req Resp α → Option α
  | .pure a => some a
  | .call _ _ => none

theorem answer?_eq_some {p : Program Req Resp α} {a : α} (h : p.answer? = some a) :
    p = .pure a := by
  cases p with
  | pure b => exact congrArg _ (Option.some.inj h)
  | call q k => cases h

/-! ### Whole runs -/

/-- What a whole run comes to: the answered calls, the answer and the state at the end. -/
structure Run (Req : Type) (Resp : Req → Type) (α σ : Type) where
  trace : List (Answered Req Resp)
  answer : α
  state : σ

/-- The whole run, with an environment that determines the replies. -/
def run (env : (q : Req) → σ → Resp q × σ) : Program Req Resp α → σ → Run Req Resp α σ
  | .pure a, s => ⟨[], a, s⟩
  | .call q k, s =>
    let rest := run env (k (env q s).1) (env q s).2
    { rest with trace := ⟨q, (env q s).1⟩ :: rest.trace }

variable {env : (q : Req) → σ → Resp q × σ}

/-- A run of a composition is a run of the one program and then of the other. -/
theorem run_bind (p : Program Req Resp α) (f : α → Program Req Resp β) (s : σ) :
    run env (p >>= f) s =
      { run env (f (run env p s).answer) (run env p s).state with
        trace := (run env p s).trace ++
          (run env (f (run env p s).answer) (run env p s).state).trace } := by
  induction p generalizing s with
  | pure a => rfl
  | call q k ih => simp only [call_bind, run, ih, List.cons_append]

/-! ### Assertions at every suspension point -/

/-- At every suspension point of every run of the program from the trace `t` and the state `s` the
assertion `φ` holds of the trace and the state, and `post` holds where a run ends. -/
def Throughout (H : Handler Req Resp σ) (φ : List (Answered Req Resp) → σ → Prop) :
    Program Req Resp α → (α → List (Answered Req Resp) → σ → Prop) →
      List (Answered Req Resp) → σ → Prop
  | .pure a, post, t, s => post a t s
  | .call q k, post, t, s =>
      φ t s ∧ ∀ r s', H q s r s' → Throughout H φ (k r) post (t ++ [⟨q, r⟩]) s'

variable {φ : List (Answered Req Resp) → σ → Prop}

/-- The assertion holds wherever a partial run has got to. -/
theorem Throughout.sound {p p' : Program Req Resp α}
    {post : α → List (Answered Req Resp) → σ → Prop} {t t' : List (Answered Req Resp)}
    {s s' : σ} (h : Throughout H φ p post t s) (hrun : Exec H p s t' p' s') :
    Throughout H φ p' post (t ++ t') s' := by
  induction hrun generalizing t with
  | refl p s => simpa using h
  | call hq _ ih => simpa using ih (h.2 _ _ hq)

/-- **Composition.** What holds at the end of `p` must make `f` behave. -/
theorem Throughout.bind {p : Program Req Resp α} {f : α → Program Req Resp β}
    {post : β → List (Answered Req Resp) → σ → Prop} {t : List (Answered Req Resp)} {s : σ}
    (h : Throughout H φ p (fun a => Throughout H φ (f a) post) t s) :
    Throughout H φ (p >>= f) post t s := by
  induction p generalizing t s with
  | pure a => exact h
  | call q k ih => exact ⟨h.1, fun r s' hq => ih r (h.2 r s' hq)⟩

theorem Throughout.mono {p : Program Req Resp α} {t : List (Answered Req Resp)} {s : σ}
    {post post' : α → List (Answered Req Resp) → σ → Prop}
    (h : Throughout H φ p post t s) (hpost : ∀ a t s, post a t s → post' a t s) :
    Throughout H φ p post' t s := by
  induction p generalizing t s with
  | pure a => exact hpost _ _ _ h
  | call q k ih => exact ⟨h.1, fun r s' hq => ih r (h.2 r s' hq)⟩

theorem Throughout.imp {φ' : List (Answered Req Resp) → σ → Prop} {p : Program Req Resp α}
    {post : α → List (Answered Req Resp) → σ → Prop} {t : List (Answered Req Resp)} {s : σ}
    (h : Throughout H φ p post t s) (hφ : ∀ t s, φ t s → φ' t s) : Throughout H φ' p post t s := by
  induction p generalizing t s with
  | pure a => exact h
  | call q k ih => exact ⟨hφ _ _ h.1, fun r s' hq => ih r (h.2 r s' hq)⟩

/-- **Conjunction.** Two assertions hold together. -/
theorem Throughout.and {φ' : List (Answered Req Resp) → σ → Prop} {p : Program Req Resp α}
    {post post' : α → List (Answered Req Resp) → σ → Prop} {t : List (Answered Req Resp)} {s : σ}
    (h : Throughout H φ p post t s) (h' : Throughout H φ' p post' t s) :
    Throughout H (fun t s => φ t s ∧ φ' t s) p (fun a t s => post a t s ∧ post' a t s) t s := by
  induction p generalizing t s with
  | pure a => exact ⟨h, h'⟩
  | call q k ih => exact ⟨⟨h.1, h'.1⟩, fun r s' hq => ih r (h.2 r s' hq) (h'.2 r s' hq)⟩

/-- The trace a run starts from stays where it is. -/
theorem Throughout.grows {p : Program Req Resp α}
    {post : α → List (Answered Req Resp) → σ → Prop} {t : List (Answered Req Resp)} {s : σ}
    (h : Throughout H φ p post t s) :
    Throughout H (fun t' s => φ t' s ∧ t <+: t') p (fun a t' s => post a t' s ∧ t <+: t') t s := by
  suffices ∀ t₀, t₀ <+: t → Throughout H (fun t' s => φ t' s ∧ t₀ <+: t') p
      (fun a t' s => post a t' s ∧ t₀ <+: t') t s from this t (List.prefix_refl t)
  intro t₀ hpre
  induction p generalizing t s with
  | pure a => exact ⟨h, hpre⟩
  | call q k ih =>
    exact ⟨⟨h.1, hpre⟩, fun r s' hq => ih r (h.2 r s' hq) (hpre.trans (List.prefix_append ..))⟩

/-- An assertion on traces that holds whoever answers, at every suspension point and at the end. -/
abbrev Always (φ : List (Answered Req Resp) → Prop) (p : Program Req Resp α)
    (post : α → List (Answered Req Resp) → Prop) (t : List (Answered Req Resp)) : Prop :=
  Throughout anyReply (fun t _ => φ t) p (fun a t _ => post a t) t ()

/-- An assertion holds throughout if it holds wherever the program can get to. -/
theorem Always.of_follows {φ : List (Answered Req Resp) → Prop} {p : Program Req Resp α}
    {post : α → List (Answered Req Resp) → Prop} {t : List (Answered Req Resp)}
    (hφ : ∀ t' p', Follows p t' p' → φ (t ++ t'))
    (hpost : ∀ t' a, Follows p t' (.pure a) → post a (t ++ t')) : Always φ p post t := by
  induction p generalizing t with
  | pure a =>
    have hend := hpost [] a (.refl _ _)
    rwa [List.append_nil] at hend
  | call q k ih =>
    refine ⟨by simpa using hφ [] _ (.refl _ _), fun r _ _ => ih r ?_ ?_⟩
    · intro t' p' hfollows
      simpa using hφ (⟨q, r⟩ :: t') p' (.call trivial hfollows)
    · intro t' a hfollows
      simpa using hpost (⟨q, r⟩ :: t') a (.call trivial hfollows)

/-! ### Calls a program never makes -/

/-- Every call the program can ever make is one of `A`. -/
def Only (A : Req → Prop) : Program Req Resp α → Prop
  | .pure _ => True
  | .call q k => A q ∧ ∀ r, Only A (k r)

theorem Only.bind {A : Req → Prop} {p : Program Req Resp α} {f : α → Program Req Resp β}
    (hp : Only A p) (hf : ∀ a, Only A (f a)) : Only A (p >>= f) := by
  induction p with
  | pure a => exact hf a
  | call q k ih => exact ⟨hp.1, fun r => ih r (hp.2 r)⟩

theorem Only.mono {A B : Req → Prop} {p : Program Req Resp α} (h : Only A p)
    (hAB : ∀ q, A q → B q) : Only B p := by
  induction p with
  | pure a => trivial
  | call q k ih => exact ⟨hAB q h.1, fun r => ih r (h.2 r)⟩

theorem Only.calls {A : Req → Prop} {p p' : Program Req Resp α} {t : List (Answered Req Resp)}
    {s s' : σ} (h : Only A p) (hrun : Exec H p s t p' s') : ∀ a ∈ t, A a.1 := by
  induction hrun with
  | refl p s => simp
  | call _ _ ih =>
    intro a ha
    rcases List.mem_cons.mp ha with rfl | ha
    · exact h.1
    · exact ih (h.2 _) a ha

/-- What the calls keep, a whole run keeps. -/
theorem Only.run_keeps {A : Req → Prop} {I : σ → Prop} {env : (q : Req) → σ → Resp q × σ}
    (hI : ∀ q s, A q → I s → I (env q s).2) {p : Program Req Resp α} (hp : Only A p) {s : σ}
    (h : I s) : I (p.run env s).state := by
  induction p generalizing s with
  | pure a => exact h
  | call q k ih => exact ih _ (hp.2 _) (hI q s hp.1 h)

/-- A program whose calls all keep `I` keeps it throughout. -/
theorem Throughout.of_only {A : Req → Prop} {I : List (Answered Req Resp) → σ → Prop}
    (hI : ∀ q r t s s', A q → H q s r s' → I t s → I (t ++ [⟨q, r⟩]) s')
    (hφ : ∀ t s, I t s → φ t s) {p : Program Req Resp α} (hp : Only A p)
    {t : List (Answered Req Resp)} {s : σ} (h : I t s) :
    Throughout H φ p (fun _ => I) t s := by
  induction p generalizing t s with
  | pure a => exact h
  | call q k ih => exact ⟨hφ _ _ h, fun r s' hq => ih r (hp.2 r) (hI q r t s s' hp.1 hq h)⟩

/-! ### What a whole run shows -/

section Shows

variable {ω : Type} {env : (q : Req) → σ → Resp q × σ} {view : Answered Req Resp → Option ω}
  {p : Program Req Resp α} {s : σ}

/-- What the calls of the whole run show under `view`, its answer and its last state satisfy
`post`. -/
def Shows (env : (q : Req) → σ → Resp q × σ) (view : Answered Req Resp → Option ω)
    (p : Program Req Resp α) (post : List ω → α → σ → Prop) (s : σ) : Prop :=
  post ((p.run env s).trace.filterMap view) (p.run env s).answer (p.run env s).state

theorem Shows.mono {post post' : List ω → α → σ → Prop} (h : Shows env view p post s)
    (hpost : ∀ l a s, post l a s → post' l a s) : Shows env view p post' s :=
  hpost _ _ _ h

theorem Shows.pure {a : α} {post : List ω → α → σ → Prop} (h : post [] a s) :
    Shows env view (.pure a) post s := h

/-- A call that is not shown. -/
theorem Shows.unseen {q : Req} {k : Resp q → Program Req Resp α} {post : List ω → α → σ → Prop}
    (hview : view ⟨q, (env q s).1⟩ = none)
    (h : Shows env view (k (env q s).1) post (env q s).2) : Shows env view (.call q k) post s := by
  show post (List.filterMap view (_ :: _)) _ _
  rw [List.filterMap_cons_none hview]
  exact h

/-- A call that is shown. -/
theorem Shows.seen {q : Req} {k : Resp q → Program Req Resp α} {post : List ω → α → σ → Prop}
    {w : ω} (hview : view ⟨q, (env q s).1⟩ = some w)
    (h : Shows env view (k (env q s).1) (fun l => post (w :: l)) (env q s).2) :
    Shows env view (.call q k) post s := by
  show post (List.filterMap view (_ :: _)) _ _
  rw [List.filterMap_cons_some hview]
  exact h

/-- **Composition.** What the first program shows comes before what the second shows. -/
theorem Shows.bind {f : α → Program Req Resp β} {post : List ω → β → σ → Prop}
    (h : Shows env view p (fun l a s => Shows env view (f a) (fun l' => post (l ++ l')) s) s) :
    Shows env view (p >>= f) post s := by
  rw [Shows, run_bind, List.filterMap_append]
  exact h

/-- A program whose calls are not shown shows nothing. -/
theorem Only.shows_nil {A : Req → Prop} (hA : ∀ q, A q → ∀ r, view ⟨q, r⟩ = none) (hp : p.Only A) :
    (p.run env s).trace.filterMap view = [] := by
  induction p generalizing s with
  | pure a => rfl
  | call q k ih =>
    show List.filterMap view (_ :: _) = []
    rw [List.filterMap_cons_none (hA q hp.1 _)]
    exact ih _ (hp.2 _)

/-- Such a program, and what follows it. -/
theorem Shows.quiet_bind {A : Req → Prop} (hA : ∀ q, A q → ∀ r, view ⟨q, r⟩ = none)
    (hp : p.Only A) {f : α → Program Req Resp β} {post : List ω → β → σ → Prop}
    (h : Shows env view (f (p.run env s).answer) post (p.run env s).state) :
    Shows env view (p >>= f) post s := by
  refine Shows.bind ?_
  rw [Shows, hp.shows_nil hA]
  exact h

end Shows

/-! ### Programs of one interface inside another -/

section Embed

variable {Req' : Type} {Resp' : Req' → Type} {ι : Req → Req'} {g : ∀ q, Resp' (ι q) → Resp q}

/-- The program as one of a larger interface, where `ι` names its calls and `g` reads the
replies. -/
def embed (ι : Req → Req') (g : ∀ q, Resp' (ι q) → Resp q) :
    Program Req Resp α → Program Req' Resp' α
  | .pure a => .pure a
  | .call q k => .call (ι q) fun r => embed ι g (k (g q r))

@[simp] theorem embed_pure (a : α) : embed ι g (.pure a : Program Req Resp α) = .pure a := rfl

/-- Inside another program, the calls are those that `ι` names. -/
theorem Only.embed (p : Program Req Resp α) :
    Only (fun q' => ∃ q, q' = ι q) (p.embed ι g) := by
  induction p with
  | pure a => trivial
  | call q k ih => exact ⟨⟨q, rfl⟩, fun r => ih (g q r)⟩

/-- What holds of a program whoever answers holds of it inside another, where its own trace is
what `proj` reads off the larger one. -/
theorem Always.embed {H : Handler Req' Resp' σ}
    (proj : Answered Req' Resp' → Option (Answered Req Resp))
    (hproj : ∀ q r, proj ⟨ι q, r⟩ = some ⟨q, g q r⟩)
    {φ : List (Answered Req Resp) → Prop} {p : Program Req Resp α}
    {post : α → List (Answered Req Resp) → Prop} {t : List (Answered Req' Resp')} {s : σ}
    (h : Always φ p post (t.filterMap proj)) :
    Throughout H (fun t _ => φ (t.filterMap proj)) (p.embed ι g)
      (fun a t _ => post a (t.filterMap proj)) t s := by
  induction p generalizing t s with
  | pure a => exact h
  | call q k ih =>
    refine ⟨h.1, fun r s' _ => ih (g q r) ?_⟩
    rw [List.filterMap_append, List.filterMap_cons_some (hproj q r), List.filterMap_nil]
    exact h.2 (g q r) () trivial

end Embed

end Program

end Foundations
