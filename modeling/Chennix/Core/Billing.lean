import Chennix.Common.Types
import Chennix.Foundations.Program
import Mathlib.Algebra.BigOperators.Group.List.Basic
import Mathlib.Algebra.Ring.Int.Defs

/-!
# Billing: pre-charge, settle, refund

The billing manager over its repository interface. Each repository method is one atomic call, so
the three operations are programs over the calls, and a billing session is whatever interleaves
with others between them.

The calls that move quota are read off a trace as charges. What an operation has charged so far is
then a sum over its own trace, and the sequential specifications below say what that sum is at
every suspension point and at the end, whoever answers the calls.

## Main definitions

* `BillingReq` — the repository interface
* `BillingManager.preCharge`, `BillingManager.settle`, `BillingManager.refund` — the operations
* `Charge`, `chargeOf`, `charged` — the quota a trace of calls has moved

## Main results

* `preCharge_moves`, `settle_moves`, `refund_moves` — exactly which calls move quota, and when
* `preCharge_spec` — a pre-charge moves its estimate or nothing, and answers accordingly
* `settle_spec` — a settlement brings what its session has charged to the actual cost
* `refund_spec` — a refund brings it to zero
-/

namespace Chennix

open Foundations

/-- A handle on a pre-charge: created by `preCharge`, closed by `settle` or `refund`. -/
structure BillingSession where
  userId : ℤ
  tokenId : ℤ
  preCharged : ℤ
  settled : Bool
  /-- The token layer was skipped at the pre-charge. -/
  tokenUnlimited : Bool
  deriving DecidableEq, Repr

/-- The calls of the billing repository. -/
inductive BillingReq
  | getUserQuota (userId : ℤ)
  | getTokenRemainQuota (tokenId : ℤ)
  | updateTokenStatus (tokenId status : ℤ)
  | getTokenUnlimited (tokenId : ℤ)
  | preChargeAtomic (userId tokenId amount : ℤ) (tokenUnlimited : Bool)
  | settleAtomic (userId tokenId delta : ℤ) (tokenUnlimited : Bool)
  | refundAtomic (userId tokenId amount : ℤ) (tokenUnlimited : Bool)
  deriving DecidableEq, Repr

namespace BillingReq

/-- What each call replies. -/
@[reducible] def Resp : BillingReq → Type
  | getUserQuota _ => ProxyResult (Option ℤ)
  | getTokenRemainQuota _ => ProxyResult (Option ℤ)
  | updateTokenStatus _ _ => ProxyResult Unit
  | getTokenUnlimited _ => ProxyResult (Option Bool)
  | preChargeAtomic _ _ _ _ => ProxyResult Unit
  | settleAtomic _ _ _ _ => ProxyResult Unit
  | refundAtomic _ _ _ _ => ProxyResult Unit

/-- The reply of a call that failed. -/
def failure (e : ProxyError) : (q : BillingReq) → q.Resp
  | getUserQuota _ => .error e
  | getTokenRemainQuota _ => .error e
  | updateTokenStatus _ _ => .error e
  | getTokenUnlimited _ => .error e
  | preChargeAtomic _ _ _ _ => .error e
  | settleAtomic _ _ _ _ => .error e
  | refundAtomic _ _ _ _ => .error e

end BillingReq

/-- Programs over the billing repository. -/
abbrev BillingM (α : Type) : Type := Program BillingReq BillingReq.Resp α

/-- A billing call with its reply. -/
abbrev BillingCall : Type := Answered BillingReq BillingReq.Resp

namespace BillingManager

/-- The end of a pre-charge: the reservation itself. -/
def reserve (userId tokenId estimatedCost : ℤ) (unlimited : Bool) :
    BillingM (ProxyResult BillingSession) :=
  .call (.preChargeAtomic userId tokenId estimatedCost unlimited) fun
    | .error e => .pure (.error e)
    | .ok () => .pure (.ok ⟨userId, tokenId, estimatedCost, false, unlimited⟩)

/-- Reserve an estimated cost on the user layer and, for a limited token, on the token layer. -/
def preCharge (userId tokenId estimatedCost : ℤ) : BillingM (ProxyResult BillingSession) :=
  if estimatedCost < 0 then
    .pure (.error (.config s!"estimated_cost must be non-negative, got {estimatedCost}"))
  else
    .call (.getTokenUnlimited tokenId) fun
      | .error e => .pure (.error e)
      | .ok none => .pure (.error (.config s!"token {tokenId} not found"))
      | .ok (some unlimited) =>
        if estimatedCost = 0 then
          .pure (.ok ⟨userId, tokenId, 0, false, unlimited⟩)
        else reserve userId tokenId estimatedCost unlimited

/-- The last call of a settlement that found the token's budget used up. -/
def markExhausted (session : BillingSession) : BillingM (ProxyResult Unit × BillingSession) :=
  .call (.updateTokenStatus session.tokenId 3) fun
    | .error e => .pure (.error e, session)
    | .ok () => .pure (.ok (), { session with settled := true })

/-- The end of a settlement: a limited token whose budget is used up is marked exhausted. -/
def settleExhausted (session : BillingSession) : BillingM (ProxyResult Unit × BillingSession) :=
  if session.tokenUnlimited then .pure (.ok (), { session with settled := true })
  else
    .call (.getTokenRemainQuota session.tokenId) fun
      | .error e => .pure (.error e, session)
      | .ok none => .pure (.ok (), { session with settled := true })
      | .ok (some remaining) =>
        if remaining ≤ 0 then markExhausted session
        else .pure (.ok (), { session with settled := true })

/-- True up a session to the actual cost. The session comes back as the call leaves it. -/
def settle (session : BillingSession) (actualCost : ℤ) :
    BillingM (ProxyResult Unit × BillingSession) :=
  if session.settled then
    .pure (.error (.config "billing session already settled"), session)
  else if actualCost < 0 then
    .pure (.error (.config s!"actual_cost must be non-negative, got {actualCost}"), session)
  else if actualCost - session.preCharged ≠ 0 then
    .call (.settleAtomic session.userId session.tokenId (actualCost - session.preCharged)
        session.tokenUnlimited) fun
      | .error e => .pure (.error e, session)
      | .ok () => settleExhausted session
  else settleExhausted session

/-- Give the whole pre-charge back. -/
def refund (session : BillingSession) : BillingM (ProxyResult Unit) :=
  if session.preCharged = 0 then .pure (.ok ())
  else
    .call (.refundAtomic session.userId session.tokenId session.preCharged
        session.tokenUnlimited) fun
      | .error e => .pure (.error e)
      | .ok () => .pure (.ok ())

end BillingManager

/-! ### Charges -/

/-- Quota moved by one call: `amount` onto the user, and onto the token if it is limited. -/
structure Charge where
  userId : ℤ
  tokenId : ℤ
  amount : ℤ
  tokenUnlimited : Bool
  deriving DecidableEq, Repr

namespace Charge

/-- What the charge adds to the used quota of user `u`. -/
def onUser (u : ℤ) (c : Charge) : ℤ := if c.userId = u then c.amount else 0

/-- What the charge adds to the used quota of token `t`, and takes off its remaining quota. -/
def onToken (t : ℤ) (c : Charge) : ℤ :=
  if c.tokenId = t ∧ c.tokenUnlimited = false then c.amount else 0

end Charge

/-- The charge an answered call made. -/
def chargeOf : BillingCall → Option Charge
  | ⟨.preChargeAtomic userId tokenId amount unlimited, .ok ()⟩ =>
    some ⟨userId, tokenId, amount, unlimited⟩
  | ⟨.settleAtomic userId tokenId delta unlimited, .ok ()⟩ =>
    some ⟨userId, tokenId, delta, unlimited⟩
  | ⟨.refundAtomic userId tokenId amount unlimited, .ok ()⟩ =>
    some ⟨userId, tokenId, -amount, unlimited⟩
  | _ => none

/-- The transactions that close a session, committed. -/
def closes : BillingCall → Bool
  | ⟨.settleAtomic _ _ _ _, .ok ()⟩ => true
  | ⟨.refundAtomic _ _ _ _, .ok ()⟩ => true
  | _ => false

/-- The sum of a quantity over the charges of a trace. -/
def charged (on : Charge → ℤ) (t : List BillingCall) : ℤ := ((t.filterMap chargeOf).map on).sum

@[simp] theorem charged_nil (on : Charge → ℤ) : charged on [] = 0 := rfl

theorem charged_append (on : Charge → ℤ) (t t' : List BillingCall) :
    charged on (t ++ t') = charged on t + charged on t' := by
  simp [charged]

theorem charged_snoc (on : Charge → ℤ) (t : List BillingCall) (a : BillingCall) :
    charged on (t ++ [a]) = charged on t + ((chargeOf a).map on).getD 0 := by
  rw [charged_append]
  cases h : chargeOf a <;> simp [charged, h]

theorem chargeOf_failure (e : ProxyError) (q : BillingReq) :
    chargeOf ⟨q, q.failure e⟩ = none := by
  cases q <;> rfl

/-- The calls of a trace that moved quota. -/
def moves (t : List BillingCall) : List BillingCall := t.filter fun a => (chargeOf a).isSome

@[simp] theorem moves_append (t t' : List BillingCall) : moves (t ++ t') = moves t ++ moves t' :=
  List.filter_append ..

theorem moves_snoc_none {t : List BillingCall} {a : BillingCall} (ha : chargeOf a = none) :
    moves (t ++ [a]) = moves t := by
  simp [moves, ha]

theorem moves_snoc {t : List BillingCall} {a : BillingCall} {c : Charge}
    (ha : chargeOf a = some c) : moves (t ++ [a]) = moves t ++ [a] := by
  simp [moves, ha]

theorem filterMap_moves (t : List BillingCall) :
    (moves t).filterMap chargeOf = t.filterMap chargeOf := by
  rw [moves, List.filterMap_filter]
  congr 1
  funext a
  cases chargeOf a <;> simp

theorem charged_moves (on : Charge → ℤ) (t : List BillingCall) :
    charged on (moves t) = charged on t := by
  rw [charged, filterMap_moves, charged]

/-! ### What the operations charge -/

/-- A trace that has moved no quota. -/
def NoCharge (t : List BillingCall) : Prop := t.filterMap chargeOf = []

theorem NoCharge.charged_eq {t : List BillingCall} (h : NoCharge t) (on : Charge → ℤ) :
    charged on t = 0 := by
  simp only [NoCharge] at h
  simp [charged, h]

theorem noCharge_iff {t : List BillingCall} : NoCharge t ↔ moves t = [] := by
  simp [NoCharge, moves, List.filterMap_eq_nil_iff, List.filter_eq_nil_iff]

namespace BillingSession

/-- The charge that moves `amount` on behalf of a session. -/
def charge (s : BillingSession) (amount : ℤ) : Charge :=
  ⟨s.userId, s.tokenId, amount, s.tokenUnlimited⟩

/-- The committed reservation of a session: none if there is nothing to reserve. -/
def reserveMoves (s : BillingSession) : List BillingCall :=
  if s.preCharged = 0 then []
  else [⟨.preChargeAtomic s.userId s.tokenId s.preCharged s.tokenUnlimited, .ok ()⟩]

/-- The committed adjustment of a session to an actual cost. -/
def adjustMoves (s : BillingSession) (actualCost : ℤ) : List BillingCall :=
  if actualCost = s.preCharged then []
  else [⟨.settleAtomic s.userId s.tokenId (actualCost - s.preCharged) s.tokenUnlimited, .ok ()⟩]

/-- The committed refund of a session. -/
def refundMoves (s : BillingSession) : List BillingCall :=
  if s.preCharged = 0 then []
  else [⟨.refundAtomic s.userId s.tokenId s.preCharged s.tokenUnlimited, .ok ()⟩]

theorem moves_reserveMoves (s : BillingSession) : moves s.reserveMoves = s.reserveMoves := by
  unfold reserveMoves
  split <;> rfl

/-- The trace has moved `amount` on behalf of the session, and nothing on behalf of others. -/
structure Moved (s : BillingSession) (amount : ℤ) (t : List BillingCall) : Prop where
  own : ∀ c ∈ t.filterMap chargeOf, ∃ x, c = s.charge x
  total : charged Charge.amount t = amount

variable {s : BillingSession} {x y : ℤ} {t t' : List BillingCall} {a : BillingCall}

theorem Moved.of_noCharge (h : NoCharge t) : s.Moved 0 t where
  own := by
    simp only [NoCharge] at h
    simp [h]
  total := h.charged_eq _

theorem Moved.snoc (h : s.Moved x t) (ha : chargeOf a = some (s.charge y)) :
    s.Moved (x + y) (t ++ [a]) where
  own := by
    intro c hc
    rw [List.filterMap_append, List.mem_append] at hc
    rcases hc with hc | hc
    · exact h.own c hc
    · simp only [List.filterMap_cons, ha, List.filterMap_nil, List.mem_singleton] at hc
      exact ⟨y, hc⟩
  total := by rw [charged_snoc, h.total, ha]; rfl

/-- What a trace has moved depends on the calls that move quota only. -/
theorem Moved.of_moves (h : s.Moved x t) (hm : moves t' = moves t) : s.Moved x t' where
  own := by rw [← filterMap_moves, hm, filterMap_moves]; exact h.own
  total := by rw [← charged_moves, hm, charged_moves]; exact h.total

theorem Moved.reserve (h : NoCharge t) (hm : moves t' = s.reserveMoves) :
    s.Moved s.preCharged t' := by
  by_cases hzero : s.preCharged = 0
  · rw [hzero]
    rw [reserveMoves, if_pos hzero] at hm
    exact .of_noCharge (noCharge_iff.mpr hm)
  · have hmoved : s.Moved (0 + s.preCharged)
        (t ++ [⟨.preChargeAtomic s.userId s.tokenId s.preCharged s.tokenUnlimited, .ok ()⟩]) :=
      (Moved.of_noCharge h).snoc rfl
    rw [zero_add] at hmoved
    refine hmoved.of_moves ?_
    rw [hm, reserveMoves, if_neg hzero, moves_snoc rfl, noCharge_iff.mp h]
    rfl

theorem Moved.adjust {actualCost : ℤ} (h : s.Moved s.preCharged t)
    (hm : moves t' = moves t ++ s.adjustMoves actualCost) : s.Moved actualCost t' := by
  by_cases hsame : actualCost = s.preCharged
  · rw [adjustMoves, if_pos hsame, List.append_nil] at hm
    rw [hsame]
    exact h.of_moves hm
  · have hmoved : s.Moved (s.preCharged + (actualCost - s.preCharged)) (t ++ [⟨.settleAtomic
        s.userId s.tokenId (actualCost - s.preCharged) s.tokenUnlimited, .ok ()⟩]) := h.snoc rfl
    rw [add_sub_cancel] at hmoved
    refine hmoved.of_moves ?_
    rw [hm, adjustMoves, if_neg hsame, moves_snoc rfl]

theorem Moved.refund (h : s.Moved s.preCharged t) (hm : moves t' = moves t ++ s.refundMoves) :
    s.Moved 0 t' := by
  by_cases hzero : s.preCharged = 0
  · rw [refundMoves, if_pos hzero, List.append_nil] at hm
    rw [hzero] at h
    exact h.of_moves hm
  · have hmoved : s.Moved (s.preCharged + -s.preCharged) (t ++ [⟨.refundAtomic s.userId s.tokenId
        s.preCharged s.tokenUnlimited, .ok ()⟩]) := h.snoc rfl
    rw [add_neg_cancel] at hmoved
    refine hmoved.of_moves ?_
    rw [hm, refundMoves, if_neg hzero, moves_snoc rfl]

/-- A quantity that is the amount of the charge or nothing, depending on whose charge it is. -/
theorem Moved.charged_eq {on : Charge → ℤ} {P : Prop} [Decidable P] (h : s.Moved x t)
    (hon : ∀ x, on (s.charge x) = if P then x else 0) : charged on t = if P then x else 0 := by
  obtain ⟨hown, rfl⟩ := h
  unfold charged
  generalize t.filterMap chargeOf = cs at hown ⊢
  induction cs with
  | nil => simp
  | cons c cs ih =>
    obtain ⟨y, rfl⟩ := hown c List.mem_cons_self
    have ih := ih fun c hc => hown c (List.mem_cons_of_mem _ hc)
    simp only [List.map_cons, List.sum_cons, ih, hon]
    split <;> simp [charge]

theorem Moved.onUser (h : s.Moved x t) (u : ℤ) :
    charged (Charge.onUser u) t = if s.userId = u then x else 0 :=
  h.charged_eq fun _ => rfl

theorem Moved.onToken (h : s.Moved x t) (k : ℤ) :
    charged (Charge.onToken k) t =
      if s.tokenId = k ∧ s.tokenUnlimited = false then x else 0 :=
  h.charged_eq fun _ => rfl

end BillingSession

namespace BillingReq

/-- The calls that answer an error only when the repository itself fails. -/
def Infallible : BillingReq → Prop
  | preChargeAtomic _ _ _ _ => False
  | _ => True

end BillingReq

/-- Some call failed that only a failing repository refuses. -/
def Faulty (t : List BillingCall) : Prop :=
  ∃ q e, q.Infallible ∧ (⟨q, q.failure e⟩ : BillingCall) ∈ t

theorem Faulty.of_last {t : List BillingCall} {q : BillingReq} (hq : q.Infallible)
    (e : ProxyError) : Faulty (t ++ [⟨q, q.failure e⟩]) :=
  ⟨q, e, hq, by simp⟩

namespace BillingManager

open BillingSession

variable {t m : List BillingCall}

/-! ### The calls that move quota -/

/-- What a pre-charge answers, and which calls have moved quota by then. -/
def PreCharged (userId tokenId estimatedCost : ℤ) (m : List BillingCall) :
    ProxyResult BillingSession → List BillingCall → Prop
  | .error _, t => moves t = m
  | .ok s, t =>
    s.userId = userId ∧ s.tokenId = tokenId ∧ s.preCharged = estimatedCost ∧ 0 ≤ estimatedCost ∧
      s.settled = false ∧ moves t = m ++ s.reserveMoves ∧
      (⟨.getTokenUnlimited tokenId, .ok (some s.tokenUnlimited)⟩ : BillingCall) ∈ t

theorem preCharge_moves (userId tokenId estimatedCost : ℤ) (ht : moves t = m) :
    Program.Always (moves · = m) (preCharge userId tokenId estimatedCost)
      (PreCharged userId tokenId estimatedCost m) t := by
  unfold preCharge
  split
  · exact ht
  · rename_i hpos
    refine ⟨ht, fun r _ _ => ?_⟩
    have ht' : moves (t ++ [⟨.getTokenUnlimited tokenId, r⟩]) = m := (moves_snoc_none rfl).trans ht
    match r with
    | .error e => exact ht'
    | .ok none => exact ht'
    | .ok (some unlimited) =>
      have hpos : 0 ≤ estimatedCost := by omega
      by_cases hzero : estimatedCost = 0
      · subst hzero
        exact ⟨rfl, rfl, rfl, hpos, rfl, by simp [reserveMoves, ht'], by simp⟩
      · simp only [if_neg hzero]
        refine ⟨ht', fun r _ _ => ?_⟩
        match r with
        | .error e => exact (moves_snoc_none rfl).trans ht'
        | .ok () =>
          refine ⟨rfl, rfl, rfl, hpos, rfl, ?_, by simp⟩
          rw [moves_snoc rfl, ht', reserveMoves, if_neg hzero]

/-- What a settlement answers, and which calls have moved quota by then. -/
def Adjusts (s : BillingSession) (actualCost : ℤ) (m : List BillingCall) :
    ProxyResult Unit × BillingSession → List BillingCall → Prop
  | (.ok (), s'), t =>
    0 ≤ actualCost ∧ moves t = m ++ s.adjustMoves actualCost ∧ s' = { s with settled := true }
  | (.error _, _), t => (actualCost < 0 ∧ moves t = m) ∨
      ((moves t = m ∨ moves t = m ++ s.adjustMoves actualCost) ∧ Faulty t)

/-- The closing part of a settlement moves nothing. -/
theorem settleExhausted_moves {s : BillingSession} {actualCost : ℤ} (h0 : 0 ≤ actualCost)
    (ht : moves t = m ++ s.adjustMoves actualCost) :
    Program.Always (moves · = m ++ s.adjustMoves actualCost) (settleExhausted s)
      (Adjusts s actualCost m) t := by
  unfold settleExhausted
  split
  · exact ⟨h0, ht, rfl⟩
  · refine ⟨ht, fun r _ _ => ?_⟩
    have ht' := (moves_snoc_none (a := ⟨.getTokenRemainQuota s.tokenId, r⟩) rfl).trans ht
    match r with
    | .error e =>
      exact .inr ⟨.inr ht', Faulty.of_last (q := .getTokenRemainQuota s.tokenId) trivial e⟩
    | .ok none => exact ⟨h0, ht', rfl⟩
    | .ok (some remaining) =>
      by_cases hr : remaining ≤ 0
      · simp only [if_pos hr]
        refine ⟨ht', fun r _ _ => ?_⟩
        have ht'' := (moves_snoc_none (a := ⟨.updateTokenStatus s.tokenId 3, r⟩) rfl).trans ht'
        match r with
        | .error e =>
          exact .inr ⟨.inr ht'', Faulty.of_last (q := .updateTokenStatus s.tokenId 3) trivial e⟩
        | .ok () => exact ⟨h0, ht'', rfl⟩
      · simp only [if_neg hr]
        exact ⟨h0, ht', rfl⟩

theorem settle_moves {s : BillingSession} (actualCost : ℤ) (hs : s.settled = false)
    (ht : moves t = m) :
    Program.Always
      (fun t => 0 ≤ actualCost ∧ (moves t = m ∨ moves t = m ++ s.adjustMoves actualCost))
      (settle s actualCost) (Adjusts s actualCost m) t := by
  unfold settle
  rw [hs]
  simp only [Bool.false_eq_true, if_false]
  split
  · rename_i hneg
    exact .inl ⟨hneg, ht⟩
  · rename_i hpos
    have h0 : 0 ≤ actualCost := by omega
    have hclose : ∀ t, moves t = m ++ s.adjustMoves actualCost → Program.Always
        (fun t => 0 ≤ actualCost ∧ (moves t = m ∨ moves t = m ++ s.adjustMoves actualCost))
        (settleExhausted s) (Adjusts s actualCost m) t :=
      fun t ht => (settleExhausted_moves h0 ht).imp fun _ _ h => ⟨h0, .inr h⟩
    split
    · rename_i hdiff
      refine ⟨⟨h0, .inl ht⟩, fun r _ _ => ?_⟩
      match r with
      | .error e => exact .inr ⟨.inl ((moves_snoc_none rfl).trans ht), Faulty.of_last
          (q := .settleAtomic s.userId s.tokenId (actualCost - s.preCharged) s.tokenUnlimited)
          trivial e⟩
      | .ok () =>
        refine hclose _ ?_
        rw [moves_snoc rfl, ht, adjustMoves, if_neg (by omega)]
    · rename_i hsame
      exact hclose t (by rw [ht, adjustMoves, if_pos (by omega), List.append_nil])

/-- What a refund answers, and which calls have moved quota by then. -/
def GivesBack (s : BillingSession) (m : List BillingCall) :
    ProxyResult Unit → List BillingCall → Prop
  | .ok (), t => moves t = m ++ s.refundMoves
  | .error _, t => moves t = m ∧ Faulty t

theorem refund_moves {s : BillingSession} (ht : moves t = m) :
    Program.Always (moves · = m) (refund s) (GivesBack s m) t := by
  unfold refund
  split
  · rename_i hzero
    show moves t = m ++ s.refundMoves
    rw [ht, refundMoves, if_pos hzero, List.append_nil]
  · rename_i hpos
    refine ⟨ht, fun r _ _ => ?_⟩
    match r with
    | .error e => exact ⟨(moves_snoc_none rfl).trans ht, Faulty.of_last
        (q := .refundAtomic s.userId s.tokenId s.preCharged s.tokenUnlimited) trivial e⟩
    | .ok () =>
      show moves _ = m ++ s.refundMoves
      rw [moves_snoc rfl, ht, refundMoves, if_neg hpos]

/-! ### The quota they move -/

/-- What a pre-charge answers, and what its trace has moved by then. -/
def Opened (userId tokenId estimatedCost : ℤ) :
    ProxyResult BillingSession → List BillingCall → Prop
  | .error _, t => NoCharge t
  | .ok s, t =>
    s.userId = userId ∧ s.tokenId = tokenId ∧ s.preCharged = estimatedCost ∧ 0 ≤ estimatedCost ∧
      s.settled = false ∧ s.Moved estimatedCost t ∧
      (⟨.getTokenUnlimited tokenId, .ok (some s.tokenUnlimited)⟩ : BillingCall) ∈ t

/-- **Pre-charge.** It moves nothing before its end; there it has moved its estimate, or refused
and moved nothing. -/
theorem preCharge_spec (userId tokenId estimatedCost : ℤ) (ht : NoCharge t) :
    Program.Always NoCharge (preCharge userId tokenId estimatedCost)
      (Opened userId tokenId estimatedCost) t := by
  have hmoves := preCharge_moves userId tokenId estimatedCost (noCharge_iff.mp ht)
  refine (hmoves.imp fun _ _ => noCharge_iff.mpr).mono fun r t' _ hpost => ?_
  match r with
  | .error e => exact noCharge_iff.mpr hpost
  | .ok s =>
    obtain ⟨huser, htoken, hpre, hpos, hset, hm, hflag⟩ := hpost
    exact ⟨huser, htoken, hpre, hpos, hset, hpre ▸ Moved.reserve ht hm, hflag⟩

/-- What a settlement answers, and what the trace of its session has moved by then. -/
def Settled (s : BillingSession) (actualCost : ℤ) :
    ProxyResult Unit × BillingSession → List BillingCall → Prop
  | (.ok (), s'), t => 0 ≤ actualCost ∧ s.Moved actualCost t ∧ s' = { s with settled := true }
  | (.error _, _), t => (actualCost < 0 ∧ s.Moved s.preCharged t) ∨
      ((s.Moved s.preCharged t ∨ s.Moved actualCost t) ∧ Faulty t)

/-- The adjustment of a settlement has been committed. -/
def Adjusted (s : BillingSession) (t : List BillingCall) : Prop :=
  ∃ delta, (⟨.settleAtomic s.userId s.tokenId delta s.tokenUnlimited, .ok ()⟩ : BillingCall) ∈ t

/-- The calls of a settlement that have moved quota say what has been moved. -/
theorem moved_or_adjusted {s : BillingSession} {actualCost : ℤ} {t' : List BillingCall}
    (ht : s.Moved s.preCharged t)
    (hm : moves t' = moves t ∨ moves t' = moves t ++ s.adjustMoves actualCost) :
    s.Moved s.preCharged t' ∨ s.Moved actualCost t' ∧ Adjusted s t' := by
  rcases hm with hm | hm
  · exact .inl (ht.of_moves hm)
  · by_cases hsame : actualCost = s.preCharged
    · rw [adjustMoves, if_pos hsame, List.append_nil] at hm
      exact .inl (ht.of_moves hm)
    · refine .inr ⟨ht.adjust hm, actualCost - s.preCharged, ?_⟩
      rw [adjustMoves, if_neg hsame] at hm
      exact List.mem_of_mem_filter (hm ▸ List.mem_append_right _ List.mem_cons_self)

/-- **Settlement.** A session that has moved its pre-charge has moved the actual cost when its
settlement succeeds; a settlement fails for a negative cost, moving nothing, or for a fault. -/
theorem settle_spec {s : BillingSession} (actualCost : ℤ) (hs : s.settled = false)
    (ht : s.Moved s.preCharged t) :
    Program.Always
      (fun t => 0 ≤ actualCost ∧ (s.Moved s.preCharged t ∨ s.Moved actualCost t ∧ Adjusted s t))
      (settle s actualCost) (Settled s actualCost) t := by
  have hmoves := settle_moves actualCost hs (rfl : moves t = moves t)
  refine (hmoves.imp fun t' _ h => ⟨h.1, moved_or_adjusted ht h.2⟩).mono fun r t' _ hpost => ?_
  match r with
  | (.ok (), s') => exact ⟨hpost.1, ht.adjust hpost.2.1, hpost.2.2⟩
  | (.error e, s') =>
    refine hpost.imp (fun h => ⟨h.1, ht.of_moves h.2⟩) fun h => ⟨?_, h.2⟩
    exact h.1.imp (fun hm => ht.of_moves hm) fun hm => ht.adjust hm

/-- What a refund answers, and what the trace of its session has moved by then. -/
def Refunded (s : BillingSession) : ProxyResult Unit → List BillingCall → Prop
  | .ok (), t => s.Moved 0 t
  | .error _, t => s.Moved s.preCharged t ∧ Faulty t

/-- **Refund.** A session that has moved its pre-charge has moved nothing once it is refunded. -/
theorem refund_spec {s : BillingSession} (ht : s.Moved s.preCharged t) :
    Program.Always (s.Moved s.preCharged) (refund s) (Refunded s) t := by
  have hmoves := refund_moves (s := s) (rfl : moves t = moves t)
  refine (hmoves.imp fun t' _ hm => ht.of_moves hm).mono fun r t' _ hpost => ?_
  match r with
  | .ok () => exact ht.refund hpost
  | .error e => exact ⟨ht.of_moves hpost.1, hpost.2⟩

end BillingManager

end Chennix
