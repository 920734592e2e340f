import Chennix.Foundations.Slots
import Mathlib.Data.Int.Notation
import Mathlib.Tactic.Linarith

/-!
# A shared budget with a mark for the end

An account shared by any number of clients. A client reserves an amount, and later either gives it
back or replaces it by a cost; in the second case it then looks at what remains, and marks the
account as used up if nothing does. Looking and marking are two steps, and other clients move the
account in between.

The mark is right as long as clients look only when nothing is reserved that could come back: the
remaining amount plus all reservations, which no step increases, is then an upper bound for what
remains ever after.

## Main definitions

* `Budget`, `Budget.View` — the account and what each client is about to do
* `Budget.Move` — what one client does to the account

## Main results

* `Budget.Sound.move` — the invariant, step by step
* `Budget.Sound.mark_iff` — with no client left in between, the mark says whether anything remains
-/

namespace Foundations

/-- What a client is about to do. -/
inductive Budget.View
  /-- Nothing. -/
  | clear
  /-- Give back or replace a reservation. -/
  | holding (h : ℤ)
  /-- Look at what remains. -/
  | reading
  /-- Set the mark. -/
  | marking
  deriving DecidableEq

namespace Budget

/-- The reservation of a client. -/
def View.held : View → ℤ
  | holding h => h
  | _ => 0

/-- The amount that remains after all reservations come back. -/
def potential (remain : ℤ) (views : List View) : ℤ := remain + (views.map View.held).sum

/-- One client moves, from an account `remain`, `marked` to an account `remain'`, `marked'`. -/
inductive Move : ℤ → Prop → View → View → ℤ → Prop → Prop
  | idle {remain marked v} : Move remain marked v v remain marked
  | reserve {remain marked h} (h0 : 0 ≤ h) (hle : h = 0 ∨ h ≤ remain) :
    Move remain marked .clear (.holding h) (remain - h) marked
  | replace {remain marked h a} (h0 : 0 ≤ a) :
    Move remain marked (.holding h) .reading (remain + h - a) marked
  | giveBack {remain marked h} : Move remain marked (.holding h) .clear (remain + h) marked
  | seeSome {remain marked} (hpos : 0 < remain) : Move remain marked .reading .clear remain marked
  | seeNone {remain marked} (hneg : remain ≤ 0) :
    Move remain marked .reading .marking remain marked
  | mark {remain marked marked'} (hmarked : marked') :
    Move remain marked .marking .clear remain marked'

theorem Move.le_of_see {remain remain' : ℤ} {marked marked' : Prop}
    (h : Move remain marked .reading .marking remain' marked') : remain ≤ 0 := by
  cases h with
  | seeNone hneg => exact hneg

/-- A client stands between replacing its reservation and setting the mark. -/
def Closing (views : List View) : Prop := .reading ∈ views ∨ .marking ∈ views

/-- The invariant of the account. -/
structure Sound (remain : ℤ) (marked : Prop) (views : List View) : Prop where
  nonneg : ∀ h, .holding h ∈ views → 0 ≤ h
  /-- Once the mark is set, or about to be, nothing remains, whatever comes back. -/
  spent : marked ∨ .marking ∈ views → potential remain views ≤ 0
  /-- Only a cost above its reservation takes the account below zero. -/
  below : remain < 0 → marked ∨ Closing views
  /-- An account at zero is marked, or will be looked at, or gets something back. -/
  empty : remain ≤ 0 → marked ∨ Closing views ∨ ∃ h, 0 < h ∧ .holding h ∈ views

variable {remain remain' : ℤ} {marked marked' : Prop} {views : List View} {i : ℕ} {v v' : View}

theorem mem_set_of_ne {w : View} (hv : views[i]? = some v) (hw : w ∈ views) (hne : w ≠ v) :
    w ∈ views.set i v' := by
  obtain ⟨j, hj⟩ := List.mem_iff_getElem?.mp hw
  have hij : i ≠ j := by
    rintro rfl
    rw [hv] at hj
    exact hne (Option.some.inj hj).symm
  exact List.mem_iff_getElem?.mpr ⟨j, by rw [List.getElem?_set_ne hij, hj]⟩

theorem mem_set_self (hv : views[i]? = some v) : v' ∈ views.set i v' :=
  List.mem_set (List.getElem?_eq_some_iff.mp hv).1 v'

theorem sum_held_set (hv : views[i]? = some v) :
    ((views.set i v').map View.held).sum = (views.map View.held).sum - v.held + v'.held := by
  rw [Slots.sum_map_set hv View.held (show v'.held = v.held + (v'.held - v.held) by omega)]
  omega

theorem Closing.set (hc : Closing views) (hv : views[i]? = some v) (hr : v ≠ .reading)
    (hm : v ≠ .marking) : Closing (views.set i v') := by
  rcases hc with h | h
  · exact .inl (mem_set_of_ne hv h hr.symm)
  · exact .inr (mem_set_of_ne hv h hm.symm)

theorem mem_marking_set (views : List View) (i : ℕ) (hv : v ≠ .marking)
    (h : .marking ∈ views.set i v) : .marking ∈ views := by
  rcases List.mem_or_eq_of_mem_set h with h | h
  · exact h
  · exact absurd h.symm hv

/-- What all hold is not negative, if it is so for the one that moves. -/
theorem nonneg_set (hviews : ∀ h, .holding h ∈ views → 0 ≤ h)
    (hv' : ∀ h, v' = .holding h → 0 ≤ h) : ∀ h, .holding h ∈ views.set i v' → 0 ≤ h := by
  intro h hmem
  rcases List.mem_or_eq_of_mem_set hmem with hmem | heq
  · exact hviews h hmem
  · exact hv' h heq.symm

/-- **The invariant.** A move keeps it, where a client that sees nothing left sees the truth: what
is still reserved does not bring the account back above zero. -/
theorem Sound.move (hs : Sound remain marked views) (hv : views[i]? = some v)
    (hmove : Move remain marked v v' remain' marked')
    (hsee : v = .reading → v' = .marking → potential remain views ≤ 0) :
    Sound remain' marked' (views.set i v') := by
  have hpot : potential remain' (views.set i v') =
      potential remain views + (remain' - remain) - v.held + v'.held := by
    simp only [potential, sum_held_set hv]
    omega
  cases hmove with
  | idle =>
    obtain ⟨hlt, rfl⟩ := List.getElem?_eq_some_iff.mp hv
    rwa [List.set_getElem_self hlt]
  | @reserve h h0 hle =>
    have hmark := mem_marking_set views i (v := .holding h) (by simp)
    simp only [View.held] at hpot
    refine ⟨nonneg_set hs.nonneg fun h' heq => ?_, fun hm => ?_, fun hneg => ?_, fun hneg => ?_⟩
    · cases heq
      exact h0
    · have := hs.spent (hm.imp_right hmark)
      omega
    · have hbelow := hs.below (by omega)
      exact hbelow.imp_right fun hc => hc.set hv (by simp) (by simp)
    · by_cases hzero : h = 0
      · rcases hs.empty (by omega) with hm | hc | ⟨h', hpos, hmem⟩
        · exact .inl hm
        · exact .inr (.inl (hc.set hv (by simp) (by simp)))
        · exact .inr (.inr ⟨h', hpos, mem_set_of_ne hv hmem (by simp)⟩)
      · exact .inr (.inr ⟨h, by omega, mem_set_self hv⟩)
  | @replace h a h0 =>
    have hmark := mem_marking_set views i (v := .reading) (by simp)
    have hclosing : Closing (views.set i .reading) := .inl (mem_set_self hv)
    simp only [View.held] at hpot
    refine ⟨nonneg_set hs.nonneg (by simp), fun hm => ?_, fun _ => .inr hclosing,
      fun _ => .inr (.inl hclosing)⟩
    have := hs.spent (hm.imp_right hmark)
    omega
  | @giveBack h =>
    have hmark := mem_marking_set views i (v := .clear) (by simp)
    have h0 : 0 ≤ h := hs.nonneg h (List.mem_of_getElem? hv)
    simp only [View.held] at hpot
    refine ⟨nonneg_set hs.nonneg (by simp), fun hm => ?_, fun hneg => ?_, fun hneg => ?_⟩
    · have := hs.spent (hm.imp_right hmark)
      omega
    · have hbelow := hs.below (by omega)
      exact hbelow.imp_right fun hc => hc.set hv (by simp) (by simp)
    · by_cases hzero : h = 0
      · rcases hs.empty (by omega) with hm | hc | ⟨h', hpos, hmem⟩
        · exact .inl hm
        · exact .inr (.inl (hc.set hv (by simp) (by simp)))
        · refine .inr (.inr ⟨h', hpos, mem_set_of_ne hv hmem ?_⟩)
          rintro heq
          cases heq
          omega
      · rcases hs.below (by omega) with hm | hc
        · exact .inl hm
        · exact .inr (.inl (hc.set hv (by simp) (by simp)))
  | seeSome hpos =>
    have hmark := mem_marking_set views i (v := .clear) (by simp)
    simp only [View.held] at hpot
    refine ⟨nonneg_set hs.nonneg (by simp), fun hm => ?_, fun hneg => by omega,
      fun hneg => by omega⟩
    have := hs.spent (hm.imp_right hmark)
    omega
  | seeNone hneg =>
    have hclosing : Closing (views.set i .marking) := .inr (mem_set_self hv)
    simp only [View.held] at hpot
    refine ⟨nonneg_set hs.nonneg (by simp), fun _ => ?_, fun _ => .inr hclosing,
      fun _ => .inr (.inl hclosing)⟩
    have := hsee rfl rfl
    omega
  | mark hmarked =>
    simp only [View.held] at hpot
    refine ⟨nonneg_set hs.nonneg (by simp), fun _ => ?_, fun _ => .inl hmarked,
      fun _ => .inl hmarked⟩
    have := hs.spent (.inr (List.mem_of_getElem? hv))
    omega

/-- A new client does not matter. -/
theorem Sound.arrive (hs : Sound remain marked views) :
    Sound remain marked (views ++ [.clear]) := by
  have hmem : ∀ w : View, w ≠ .clear → w ∈ views ++ [.clear] → w ∈ views := by
    intro w hw h
    rcases List.mem_append.mp h with h | h
    · exact h
    · exact absurd (List.mem_singleton.mp h) hw
  have hpot : potential remain (views ++ [.clear]) = potential remain views := by
    simp [potential, View.held]
  have hclosing : Closing views → Closing (views ++ [.clear]) :=
    Or.imp (List.mem_append_left _) (List.mem_append_left _)
  refine ⟨fun h hm => hs.nonneg h (hmem _ (by simp) hm), fun hm => ?_,
    fun hneg => (hs.below hneg).imp_right hclosing, fun hneg => ?_⟩
  · rw [hpot]
    exact hs.spent (hm.imp_right (hmem _ (by simp)))
  · rcases hs.empty hneg with hm | hc | ⟨h, hpos, hm⟩
    · exact .inl hm
    · exact .inr (.inl (hclosing hc))
    · exact .inr (.inr ⟨h, hpos, List.mem_append_left _ hm⟩)

/-- An account with something in it, no mark and no client. -/
theorem Sound.init (h : 0 < remain) (hm : ¬marked) : Sound remain marked [] :=
  ⟨by simp, by simp [hm], fun _ => by omega, fun _ => by omega⟩

/-- **The mark is right.** With no client left in between, it says that nothing remains. -/
theorem Sound.mark_iff (hs : Sound remain marked views) (hclear : ∀ v ∈ views, v = .clear) :
    marked ↔ remain ≤ 0 := by
  have hsum : (views.map View.held).sum = 0 := by
    refine List.sum_eq_zero fun x hx => ?_
    obtain ⟨v, hv, rfl⟩ := List.mem_map.mp hx
    rw [hclear v hv]
    rfl
  constructor
  · intro hm
    have := hs.spent (.inl hm)
    simpa [potential, hsum] using this
  · intro hneg
    rcases hs.empty hneg with hm | hc | ⟨h, -, hmem⟩
    · exact hm
    · rcases hc with hc | hc
      · cases hclear _ hc
      · cases hclear _ hc
    · cases hclear _ hmem

end Budget

end Foundations
