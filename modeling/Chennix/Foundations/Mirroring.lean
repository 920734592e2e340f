import Chennix.Foundations.Program

/-!
# Programs that cannot tell

Rename what passes between a program and its environment: its calls, and the replies to them. A
second program mirrors the first if it makes the renamed calls whenever it gets the renamed replies.
A program that mirrors itself cannot tell what the renaming changes, and nothing that it does apart
from the renamed calls depends on it.

## Main definitions

* `Program.Mirrors` — one program does under a renaming what another does without it

## Main results

* `Program.Mirrors.follows` — a renamed trace leads to the mirror image of where the trace leads
* `Program.Mirrors.bind`, `Program.Mirrors.of_only` — composition, and programs that are not
  concerned
-/

namespace Foundations

namespace Program

variable {Req : Type} {Resp : Req → Type} {α α' β β' : Type}

/-- Whatever the first program calls, the second calls its image under `d`, and with the image of
the reply it goes on as the first does. Their answers are related by `post`. -/
def Mirrors (d : Answered Req Resp → Answered Req Resp) (post : α → α' → Prop) :
    Program Req Resp α → Program Req Resp α' → Prop
  | .pure a, .pure a' => post a a'
  | .call q k, .call q' k' => ∀ r, ∃ r', d ⟨q, r⟩ = ⟨q', r'⟩ ∧ Mirrors d post (k r) (k' r')
  | _, _ => False

variable {d : Answered Req Resp → Answered Req Resp} {post : α → α' → Prop}
  {p p₁ : Program Req Resp α} {p' : Program Req Resp α'}

/-- **Traces** are mirrored call by call. -/
theorem Mirrors.follows (h : Mirrors d post p p') {t : List (Answered Req Resp)}
    (hrun : Follows p t p₁) : ∃ p₁', Follows p' (t.map d) p₁' ∧ Mirrors d post p₁ p₁' := by
  induction t generalizing p p' with
  | nil =>
    cases hrun
    exact ⟨p', .refl _ _, h⟩
  | cons a t ih =>
    cases hrun with
    | @call q k _ _ _ r _ _ hq hrest =>
      cases p' with
      | pure a' => exact h.elim
      | call q' k' =>
        obtain ⟨r', hd, hk⟩ := h r
        obtain ⟨p₁', hrun', hend⟩ := ih hk hrest
        refine ⟨p₁', ?_, hend⟩
        rw [List.map_cons, hd]
        exact .call trivial hrun'

/-- A whole run is mirrored by a whole run. -/
theorem Mirrors.follows_pure (h : Mirrors d post p p') {t : List (Answered Req Resp)} {a : α}
    (hrun : Follows p t (.pure a)) : ∃ a', Follows p' (t.map d) (.pure a') ∧ post a a' := by
  obtain ⟨p₁', hrun', hend⟩ := h.follows hrun
  cases p₁' with
  | pure a' => exact ⟨a', hrun', hend⟩
  | call q' k' => exact hend.elim

/-- One call, mirrored by its image. -/
theorem Mirrors.call {q q' : Req} {k : Resp q → Program Req Resp α}
    {k' : Resp q' → Program Req Resp α'}
    (h : ∀ r, ∃ r', d ⟨q, r⟩ = ⟨q', r'⟩ ∧ Mirrors d post (k r) (k' r')) :
    Mirrors d post (.call q k) (.call q' k') := h

/-- A call that the renaming leaves alone. -/
theorem Mirrors.same_call {q : Req} (hd : ∀ r : Resp q, d ⟨q, r⟩ = ⟨q, r⟩)
    {k : Resp q → Program Req Resp α} {k' : Resp q → Program Req Resp α'}
    (h : ∀ r, Mirrors d post (k r) (k' r)) : Mirrors d post (.call q k) (.call q k') :=
  fun r => ⟨r, hd r, h r⟩

/-- **Composition.** -/
theorem Mirrors.bind {f : α → Program Req Resp β} {f' : α' → Program Req Resp β'}
    {post' : β → β' → Prop}
    (h : Mirrors d (fun a a' => Mirrors d post' (f a) (f' a')) p p') :
    Mirrors d post' (p >>= f) (p' >>= f') := by
  induction p generalizing p' with
  | pure a =>
    cases p' with
    | pure a' => exact h
    | call q' k' => exact h.elim
  | call q k ih =>
    cases p' with
    | pure a' => exact h.elim
    | call q' k' =>
      intro r
      obtain ⟨r', hd, hk⟩ := h r
      exact ⟨r', hd, ih r hk⟩

theorem Mirrors.mono {post' : α → α' → Prop} (h : Mirrors d post p p')
    (hpost : ∀ a a', post a a' → post' a a') : Mirrors d post' p p' := by
  induction p generalizing p' with
  | pure a =>
    cases p' with
    | pure a' => exact hpost a a' h
    | call q' k' => exact h.elim
  | call q k ih =>
    cases p' with
    | pure a' => exact h.elim
    | call q' k' =>
      intro r
      obtain ⟨r', hd, hk⟩ := h r
      exact ⟨r', hd, ih r hk⟩

/-- A program whose calls the renaming leaves alone mirrors itself. -/
theorem Mirrors.of_only {A : Req → Prop} (hA : ∀ q, A q → ∀ r : Resp q, d ⟨q, r⟩ = ⟨q, r⟩)
    (h : p.Only A) : Mirrors d (· = ·) p p := by
  induction p with
  | pure a => rfl
  | call q k ih => exact fun r => ⟨r, hA q h.1 r, ih r (h.2 r)⟩

/-- Such a program, and what follows it on either side. -/
theorem Mirrors.same_bind {A : Req → Prop} (hA : ∀ q, A q → ∀ r : Resp q, d ⟨q, r⟩ = ⟨q, r⟩)
    (hp : p.Only A) {f : α → Program Req Resp β} {f' : α → Program Req Resp β'}
    {post' : β → β' → Prop} (h : ∀ a, Mirrors d post' (f a) (f' a)) :
    Mirrors d post' (p >>= f) (p >>= f') :=
  .bind ((Mirrors.of_only hA hp).mono fun a _ heq => heq ▸ h a)

section Embed

variable {Req' : Type} {Resp' : Req' → Type} {ι : Req → Req'} {g : ∀ q, Resp' (ι q) → Resp q}
  {d' : Answered Req' Resp' → Answered Req' Resp'}

/-- Programs that mirror each other do so inside larger ones, where the larger renaming acts on
their calls as the smaller one does. -/
theorem Mirrors.embed (hd : ∀ q q' (r : Resp' (ι q)) (r' : Resp q'), d ⟨q, g q r⟩ = ⟨q', r'⟩ →
      ∃ r'' : Resp' (ι q'), d' ⟨ι q, r⟩ = ⟨ι q', r''⟩ ∧ g q' r'' = r')
    (h : Mirrors d post p p') : Mirrors d' post (p.embed ι g) (p'.embed ι g) := by
  induction p generalizing p' with
  | pure a =>
    cases p' with
    | pure a' => exact h
    | call q' k' => exact h.elim
  | call q k ih =>
    cases p' with
    | pure a' => exact h.elim
    | call q' k' =>
      intro r
      obtain ⟨r', hr', hk⟩ := h (g q r)
      obtain ⟨r'', hr'', rfl⟩ := hd q q' r r' hr'
      exact ⟨r'', hr'', ih _ hk⟩

end Embed

end Program

end Foundations
