import Mathlib.Data.List.Basic
import Mathlib.Tactic.Common

/-!
# Framing

A buffer grows as parts of a stream arrive; complete frames are cut off its front as long as there
are any, and what is left waits for more. If a cut does not depend on what comes later, the frames
do not depend on how the stream is cut into parts.

## Main definitions

* `Framing` — how the first frame is cut off a buffer
* `Framing.frames` — all complete frames of a buffer, and what is left
* `Framing.atDouble` — frames that end at a double separator

## Main results

* `Framing.frames_eq` — the frames are the first one and those behind it
* `Framing.frames_append` — frames of a buffer that grows
-/

namespace Foundations

/-- How the first frame is cut off a buffer, if it is complete. -/
structure Framing (α β : Type) where
  cut : List α → Option (β × List α)
  cut_shortens : ∀ {l f r}, cut l = some (f, r) → r.length < l.length
  /-- What comes later changes nothing. -/
  cut_append : ∀ {l f r}, cut l = some (f, r) → ∀ t, cut (l ++ t) = some (f, r ++ t)

namespace Framing

variable {α β : Type} (F : Framing α β)

/-- At most so many frames. -/
def framesUpTo : ℕ → List α → List β × List α
  | 0, l => ([], l)
  | n + 1, l =>
    match F.cut l with
    | none => ([], l)
    | some (f, r) => (f :: (framesUpTo n r).1, (framesUpTo n r).2)

/-- The complete frames of a buffer, and what is left. -/
def frames (l : List α) : List β × List α := F.framesUpTo l.length l

variable {F}

theorem framesUpTo_of_length_le {n : ℕ} {l : List α} (h : l.length ≤ n) :
    F.framesUpTo n l = F.frames l := by
  induction hlen : l.length using Nat.strongRecOn generalizing n l with
  | ind k ih =>
    subst hlen
    cases hcut : F.cut l with
    | none =>
      have hnone : ∀ m, F.framesUpTo m l = ([], l) := by
        intro m
        cases m with
        | zero => rfl
        | succ m => rw [framesUpTo, hcut]
      rw [frames, hnone, hnone]
    | some fr =>
      obtain ⟨f, r⟩ := fr
      have hr := F.cut_shortens hcut
      have hsome : ∀ m, l.length ≤ m →
          F.framesUpTo m l = (f :: (F.frames r).1, (F.frames r).2) := by
        intro m hm
        obtain ⟨m, rfl⟩ : ∃ m', m = m' + 1 := ⟨m - 1, by omega⟩
        rw [framesUpTo, hcut]
        simp only [ih r.length hr (n := m) (l := r) (by omega) rfl]
      rw [frames, hsome n h, hsome _ (Nat.le_refl _)]

theorem frames_of_none {l : List α} (h : F.cut l = none) : F.frames l = ([], l) := by
  rw [frames]
  cases l.length with
  | zero => rfl
  | succ n => rw [framesUpTo, h]

/-- The first frame, and those behind it. -/
theorem frames_eq {l r : List α} {f : β} (h : F.cut l = some (f, r)) :
    F.frames l = (f :: (F.frames r).1, (F.frames r).2) := by
  have hr := F.cut_shortens h
  obtain ⟨n, hn⟩ : ∃ n, l.length = n + 1 := ⟨l.length - 1, by omega⟩
  rw [frames, hn, framesUpTo, h]
  simp only [framesUpTo_of_length_le (show r.length ≤ n by omega)]

/-- Along the frames. -/
theorem frames_induction {P : List α → Prop} (hnone : ∀ l, F.cut l = none → P l)
    (hsome : ∀ l f r, F.cut l = some (f, r) → P r → P l) (l : List α) : P l := by
  induction hlen : l.length using Nat.strongRecOn generalizing l with
  | ind k ih =>
    subst hlen
    cases hcut : F.cut l with
    | none => exact hnone l hcut
    | some fr => exact hsome l fr.1 fr.2 hcut (ih _ (F.cut_shortens hcut) _ rfl)

/-- **A buffer that grows**: its frames are those it had, and those of what was left and what came
later. -/
theorem frames_append (l t : List α) :
    F.frames (l ++ t) = ((F.frames l).1 ++ (F.frames ((F.frames l).2 ++ t)).1,
      (F.frames ((F.frames l).2 ++ t)).2) := by
  induction l using frames_induction (F := F) with
  | hnone l h => rw [frames_of_none h, List.nil_append]
  | hsome l f r h ih => rw [frames_eq h, frames_eq (F.cut_append h t), ih, List.cons_append]

/-- What is left has no complete frame. -/
theorem cut_rest (l : List α) : F.cut (F.frames l).2 = none := by
  induction l using frames_induction (F := F) with
  | hnone l h => rwa [frames_of_none h]
  | hsome l f r h ih => rwa [frames_eq h]

/-! ### Double separators -/

variable [DecidableEq α]

/-- What stands before the first double separator, and what stands behind it. -/
def cutAtDouble (sep : α) : List α → Option (List α × List α)
  | a :: b :: l =>
    if a = sep ∧ b = sep then some ([], l)
    else (cutAtDouble sep (b :: l)).map fun fr => (a :: fr.1, fr.2)
  | _ => none

theorem cutAtDouble_eq {sep : α} {l f r : List α} (h : cutAtDouble sep l = some (f, r)) :
    l = f ++ sep :: sep :: r := by
  induction l generalizing f r with
  | nil => cases h
  | cons a l ih =>
    cases l with
    | nil => cases h
    | cons b l =>
      rw [cutAtDouble] at h
      split at h
      · next hab =>
        obtain ⟨rfl, rfl⟩ := Prod.mk.inj (Option.some.inj h)
        rw [hab.1, hab.2, List.nil_append]
      · obtain ⟨⟨f', r'⟩, hcut, heq⟩ := Option.map_eq_some_iff.mp h
        obtain ⟨rfl, rfl⟩ := Prod.mk.inj heq
        rw [ih hcut, List.cons_append]

theorem cutAtDouble_append {sep : α} {l f r : List α} (h : cutAtDouble sep l = some (f, r))
    (t : List α) : cutAtDouble sep (l ++ t) = some (f, r ++ t) := by
  induction l generalizing f r with
  | nil => cases h
  | cons a l ih =>
    cases l with
    | nil => cases h
    | cons b l =>
      rw [cutAtDouble] at h
      rw [List.cons_append, List.cons_append, cutAtDouble]
      split at h
      · next hab =>
        obtain ⟨rfl, rfl⟩ := Prod.mk.inj (Option.some.inj h)
        rw [if_pos hab]
      · next hab =>
        obtain ⟨⟨f', r'⟩, hcut, heq⟩ := Option.map_eq_some_iff.mp h
        obtain ⟨rfl, rfl⟩ := Prod.mk.inj heq
        rw [if_neg hab, ← List.cons_append, ih hcut]
        rfl

/-- What has no separator stands before it. -/
theorem cutAtDouble_append_left {sep : α} {a rest : List α} (ha : sep ∉ a) (hrest : rest ≠ []) :
    cutAtDouble sep (a ++ rest) = (cutAtDouble sep rest).map fun fr => (a ++ fr.1, fr.2) := by
  induction a with
  | nil => simp
  | cons x a ih =>
    rw [List.mem_cons, not_or] at ha
    obtain ⟨y, l, hl⟩ := List.exists_cons_of_ne_nil (List.append_ne_nil_of_right_ne_nil a hrest)
    rw [List.cons_append, hl, cutAtDouble, if_neg fun h => ha.1 h.1.symm, ← hl, ih ha.2,
      Option.map_map]
    rfl

/-- A separator before a piece that is not empty is single. -/
theorem cutAtDouble_cons {sep : α} {a rest : List α} (ha : sep ∉ a) (hne : a ≠ []) :
    cutAtDouble sep (sep :: a ++ rest) =
      (cutAtDouble sep (a ++ rest)).map fun fr => (sep :: fr.1, fr.2) := by
  obtain ⟨x, a, rfl⟩ := List.exists_cons_of_ne_nil hne
  rw [List.mem_cons, not_or] at ha
  rw [List.cons_append, List.cons_append, cutAtDouble, if_neg fun h => ha.1 h.2.symm]

/-- Frames that end at a double separator. -/
def atDouble (sep : α) : Framing α (List α) where
  cut := cutAtDouble sep
  cut_shortens := by
    intro l f r h
    rw [cutAtDouble_eq h]
    simp
    omega
  cut_append := cutAtDouble_append

/-- Where nothing is left of a buffer, it was empty or ended in a separator. -/
theorem rest_eq_nil {sep : α} {l : List α} (h : ((atDouble sep).frames l).2 = []) :
    l = [] ∨ ∃ m, l = m ++ [sep] := by
  induction l using frames_induction (F := atDouble sep) with
  | hnone l hl =>
    rw [frames_of_none hl] at h
    exact .inl h
  | hsome l f r hl ih =>
    rw [frames_eq hl] at h
    rw [cutAtDouble_eq hl]
    rcases ih h with rfl | ⟨m, rfl⟩
    · exact .inr ⟨f ++ [sep], by simp⟩
    · exact .inr ⟨f ++ sep :: sep :: m, by simp⟩

end Framing

end Foundations
