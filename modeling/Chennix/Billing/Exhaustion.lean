import Chennix.Billing.Conservation
import Chennix.Foundations.Budget

/-!
# The exhausted status of a token

A settlement marks its token exhausted when it reads a remaining quota of zero or less. What it
reads has the reservations of other sessions taken out, and a refund gives quota back without
looking at the status, so the mark can outlive its reason. Where every settlement that reads zero
or less does so with no reservation open that could bring the token back above zero, the mark is
right whenever no session of the token is open.

Seen from one token, the system is a shared budget: each request is a client that holds a
reservation, looks at what remains, or sets the mark.

## Main definitions

* `Request.view` — what a request is about to do to a token
* `Billing.ReadsLast` — the condition on the reads of settlements

## Main results

* `Billing.budget_step` — every step is a move of the budget, or an arrival
* `Billing.exhausted_accurate` — the status at rest
* `Billing.exhausted_inaccurate` — a run that leaves a token exhausted with quota remaining
-/

namespace Chennix

open Foundations BillingManager

/-! ### Where the operations stand -/

namespace BillingManager

variable {userId tokenId estimate : ℤ} {t : List BillingCall}

/-- Where a pre-charge about to make a call stands. -/
theorem preCharge_at {q : BillingReq} {k : q.Resp → BillingM (ProxyResult BillingSession)}
    (h : Program.Follows (preCharge userId tokenId estimate) t (.call q k)) :
    .call q k = preCharge userId tokenId estimate ∨
      ∃ unlimited, .call q k = reserve userId tokenId estimate unlimited ∧ 0 < estimate ∧
        (⟨.getTokenUnlimited tokenId, .ok (some unlimited)⟩ : BillingCall) ∈ t := by
  generalize hp : preCharge userId tokenId estimate = p at h
  cases h with
  | refl => exact .inl rfl
  | @call q' k' _ _ _ r t' _ _ rest =>
    unfold preCharge at hp
    split at hp
    · cases hp
    · injection hp with hq hk
      subst hq
      subst hk
      match r, rest with
      | .error e, rest => cases rest
      | .ok none, rest => cases rest
      | .ok (some unlimited), rest =>
        by_cases hzero : estimate = 0
        · simp only [if_pos hzero] at rest
          cases rest
        · simp only [if_neg hzero] at rest
          refine .inr ⟨unlimited, ?_, by omega, List.mem_cons_self⟩
          unfold reserve at rest ⊢
          cases rest with
          | refl => rfl
          | @call _ _ _ _ _ r' _ _ _ rest' =>
            match r', rest' with
            | .error e, rest' => cases rest'
            | .ok (), rest' => cases rest'

variable {session : BillingSession} {actual : ℤ}

/-- Where a settlement stands that is about to set the mark. -/
theorem markExhausted_at {q : BillingReq}
    {k : q.Resp → BillingM (ProxyResult Unit × BillingSession)}
    (h : Program.Follows (markExhausted session) t (.call q k)) :
    .call q k = markExhausted session := by
  unfold markExhausted at h ⊢
  cases h with
  | refl => rfl
  | @call _ _ _ _ _ r _ _ _ rest =>
    match r, rest with
    | .error e, rest => cases rest
    | .ok (), rest => cases rest

/-- Where a settlement stands that looks at what remains. -/
theorem settleExhausted_at {q : BillingReq}
    {k : q.Resp → BillingM (ProxyResult Unit × BillingSession)}
    (h : Program.Follows (settleExhausted session) t (.call q k)) :
    .call q k = settleExhausted session ∨ .call q k = markExhausted session := by
  generalize hp : settleExhausted session = p at h
  cases h with
  | refl => exact .inl rfl
  | @call q' k' _ _ _ r t' _ _ rest =>
    unfold settleExhausted at hp
    split at hp
    · cases hp
    · injection hp with hq hk
      subst hq
      subst hk
      match r, rest with
      | .error e, rest => cases rest
      | .ok none, rest => cases rest
      | .ok (some remaining), rest =>
        by_cases hr : remaining ≤ 0
        · simp only [if_pos hr] at rest
          exact .inr (markExhausted_at rest)
        · simp only [if_neg hr] at rest
          cases rest

/-- Where a settlement about to make a call stands. -/
theorem settle_at {q : BillingReq} {k : q.Resp → BillingM (ProxyResult Unit × BillingSession)}
    (h : Program.Follows (settle session actual) t (.call q k)) :
    .call q k = settle session actual ∨ .call q k = settleExhausted session ∨
      .call q k = markExhausted session := by
  generalize hp : settle session actual = p at h
  cases h with
  | refl => exact .inl rfl
  | @call q' k' _ _ _ r t' _ _ rest =>
    unfold settle at hp
    split at hp
    · cases hp
    split at hp
    · cases hp
    split at hp
    · injection hp with hq hk
      subst hq
      subst hk
      match r, rest with
      | .error e, rest => cases rest
      | .ok (), rest => exact .inr (settleExhausted_at rest)
    · have hf : Program.Follows (settleExhausted session) (⟨q', r⟩ :: t') (.call q k) := by
        rw [hp]
        exact .call trivial rest
      exact .inr (settleExhausted_at hf)

/-- Where a refund about to make a call stands. -/
theorem refund_at {q : BillingReq} {k : q.Resp → BillingM (ProxyResult Unit)}
    (h : Program.Follows (refund session) t (.call q k)) : .call q k = refund session := by
  generalize hp : refund session = p at h
  cases h with
  | refl => rfl
  | @call q' k' _ _ _ r t' _ _ rest =>
    unfold refund at hp
    split at hp
    · cases hp
    · injection hp with hq hk
      subst hq
      subst hk
      match r, rest with
      | .error e, rest => cases rest
      | .ok (), rest => cases rest

end BillingManager

/-! ### The token's budget -/

/-- What a session in this phase is about to do to its token. -/
def Phase.view : Phase → Budget.View
  | .opened session => .holding session.preCharged
  | .settling session _ (.settleAtomic _ _ _ _) _ => .holding session.preCharged
  | .settling _ _ (.getTokenRemainQuota _) _ => .reading
  | .settling _ _ (.updateTokenStatus _ _) _ => .marking
  | .refunding session _ _ => .holding session.preCharged
  | _ => .clear

/-- What a session of token `tokenId` is about to do to token `k`. -/
def Phase.viewOf (k tokenId : ℤ) (phase : Phase) : Budget.View :=
  if tokenId = k then phase.view else .clear

/-- What a request is about to do to token `k`. -/
def Request.view (k : ℤ) (r : Request) : Budget.View := r.phase.viewOf k r.tokenId

/-- The token's row moves from `row` as a budget does when the view of one client changes. -/
def Moves (k : ℤ) (row : TokenRow) (v v' : Budget.View) (db' : Db) : Prop :=
  ∃ row', db'.tokens.find? k = some row' ∧ row'.unlimitedQuota = row.unlimitedQuota ∧
    (row'.status = 3 ∨ row'.status = row.status) ∧
    Budget.Move row.remainQuota (row.status = 3) v v' row'.remainQuota (row'.status = 3)

namespace Moves

variable {k : ℤ} {row : TokenRow} {v v' : Budget.View} {db db' : Db} {now : String}

theorem of_same (hrow : db'.tokens.find? k = some row)
    (h : Budget.Move row.remainQuota (row.status = 3) v v' row.remainQuota (row.status = 3)) :
    Moves k row v v' db' :=
  ⟨row, hrow, rfl, .inr rfl, h⟩

/-- A charge moves the row by the share that falls on the token. -/
theorem of_charge (hrow : db.tokens.find? k = some row) (c : Charge)
    (h : Budget.Move row.remainQuota (row.status = 3) v v' (row.remainQuota - c.onToken k)
      (row.status = 3)) : Moves k row v v' (db.applyCharge now c) := by
  have hfind := @Db.find?_tokens_applyCharge now db c k
  rw [hrow, Option.map_some] at hfind
  refine ⟨_, hfind, by split <;> rfl, .inr (by split <;> rfl), ?_⟩
  have hid : row.id = k := Table.key_of_find? hrow
  by_cases hc : (row.id == c.tokenId && !c.tokenUnlimited) = true
  · have hon : c.onToken k = c.amount := by
      simp only [Bool.and_eq_true, beq_iff_eq, Bool.not_eq_true'] at hc
      rw [Charge.onToken, if_pos ⟨hc.1.symm.trans hid, hc.2⟩]
    rw [hon] at h
    simp only [hc, if_true]
    exact h
  · have hon : c.onToken k = 0 := by
      rw [Charge.onToken, if_neg]
      rintro ⟨htok, hlim⟩
      simp [hid, htok, hlim] at hc
    rw [hon, sub_zero] at h
    simp only [hc, Bool.false_eq_true, if_false]
    exact h

end Moves

/-! ### Each operation moves the budget -/

section Operations

variable {k : ℤ} {row : TokenRow} {db db' : Db} {now : String} {userId tokenId estimate : ℤ}
  {t : List BillingCall} {s : BillingSession} {a : ℤ} {q : BillingReq}

theorem moves_clear {tokenId : ℤ} {phase : Phase} (hrow : db'.tokens.find? k = some row)
    (hview : phase.view = .clear) : Moves k row .clear (phase.viewOf k tokenId) db' := by
  refine .of_same hrow ?_
  rw [Phase.viewOf, hview, ite_self]
  exact .idle

/-- A charge on the session's own token moves it; on another token it leaves this one alone. -/
theorem moves_charge {c : Charge} {phase phase' : Phase} (hrow : db.tokens.find? k = some row)
    (htoken : c.tokenId = tokenId) (hlim : tokenId = k → c.tokenUnlimited = false)
    (h : tokenId = k → Budget.Move row.remainQuota (row.status = 3) phase.view phase'.view
      (row.remainQuota - c.amount) (row.status = 3)) :
    Moves k row (phase.viewOf k tokenId) (phase'.viewOf k tokenId) (db.applyCharge now c) := by
  refine .of_charge hrow c ?_
  by_cases hk : tokenId = k
  · rw [Charge.onToken, if_pos ⟨htoken.trans hk, hlim hk⟩, Phase.viewOf, Phase.viewOf, if_pos hk,
      if_pos hk]
    exact h hk
  · have hne : ¬(c.tokenId = k ∧ c.tokenUnlimited = false) := fun h => hk (htoken.symm.trans h.1)
    rw [Charge.onToken, if_neg hne, sub_zero, Phase.viewOf, Phase.viewOf, if_neg hk, if_neg hk]
    exact .idle

theorem moves_preCharge {q' : BillingReq} {k' : q'.Resp → BillingM (ProxyResult BillingSession)}
    {kont : q.Resp → BillingM (ProxyResult BillingSession)} {reply : q.Resp}
    (hrow : db.tokens.find? k = some row)
    (hflag : ∀ b, (⟨.getTokenUnlimited k, .ok (some b)⟩ : BillingCall) ∈ t → b = false)
    (h : Program.Follows (preCharge userId tokenId estimate) t (.call q kont))
    (hserve : q.answer now db = (reply, db')) :
    Moves k row ((Phase.charging q' k').viewOf k tokenId)
      ((Phase.ofPreCharge (kont reply)).viewOf k tokenId) db' := by
  have hclear : (Phase.charging q' k').viewOf k tokenId = .clear := ite_self _
  rcases preCharge_at h with heq | ⟨unlimited, heq, hpos, hmem⟩
  · unfold preCharge at heq
    split at heq
    · cases heq
    · injection heq with hq hk
      subst hq
      subst hk
      rw [hclear]
      match reply, hserve with
      | .error e, hserve => cases hserve
      | .ok none, hserve =>
        obtain ⟨-, rfl⟩ := Prod.mk.inj hserve
        exact moves_clear hrow rfl
      | .ok (some unlimited), hserve =>
        obtain ⟨-, rfl⟩ := Prod.mk.inj hserve
        by_cases hzero : estimate = 0
        · refine .of_same hrow ?_
          simp only [if_pos hzero, Phase.ofPreCharge, Phase.viewOf, Phase.view]
          split
          · simpa using @Budget.Move.reserve row.remainQuota (row.status = 3) 0 le_rfl (.inl rfl)
          · exact .idle
        · simp only [if_neg hzero]
          exact moves_clear hrow rfl
  · injection heq with hq hk
    subst hq
    subst hk
    rcases StorageAdapter.preChargeAtomic_cases now db userId tokenId estimate unlimited with
      ⟨hok, -, hafford⟩ | ⟨e, herr⟩
    · obtain ⟨rfl, rfl⟩ := Prod.mk.inj (hok.symm.trans hserve)
      have hlim : tokenId = k → unlimited = false := fun hk => hflag unlimited (hk ▸ hmem)
      refine moves_charge hrow rfl hlim fun hk => .reserve hpos.le (.inr ?_)
      obtain ⟨row', hrow', hle⟩ := hafford (hlim hk)
      rw [hk, hrow] at hrow'
      cases hrow'
      exact hle
    · obtain ⟨rfl, rfl⟩ := Prod.mk.inj (herr.symm.trans hserve)
      rw [hclear]
      exact moves_clear hrow rfl

/-- The move that opens the last part of a settlement of a limited token. -/
theorem view_settleExhausted (hlim : s.tokenUnlimited = false) :
    (Phase.ofSettle s a (settleExhausted s)).view = .reading := by
  unfold settleExhausted
  rw [hlim]
  rfl

/-- The read of a settlement: a limited token is seen as it is. -/
theorem moves_read {kont : q.Resp → BillingM (ProxyResult Unit × BillingSession)} {reply : q.Resp}
    (hrow : db.tokens.find? k = some row) (heq : .call q kont = settleExhausted s)
    (hserve : q.answer now db = (reply, db')) :
    Moves k row ((Phase.settling s a q kont).viewOf k s.tokenId)
      ((Phase.ofSettle s a (kont reply)).viewOf k s.tokenId) db' := by
  unfold settleExhausted at heq
  split at heq
  · cases heq
  injection heq with hq hk
  subst hq
  subst hk
  obtain ⟨rfl, rfl⟩ := Prod.mk.inj hserve
  refine .of_same hrow ?_
  by_cases hk : s.tokenId = k
  · have hread : StorageAdapter.getTokenRemainQuota s.tokenId db = .ok (some row.remainQuota) := by
      rw [hk, StorageAdapter.getTokenRemainQuota, hrow, Option.map_some]
    simp only [hread, Phase.viewOf, if_pos hk]
    by_cases hneg : row.remainQuota ≤ 0
    · simp only [if_pos hneg]
      exact .seeNone hneg
    · simp only [if_neg hneg]
      exact .seeSome (by omega)
  · simp only [Phase.viewOf, if_neg hk]
    exact .idle

theorem moves_mark {kont : q.Resp → BillingM (ProxyResult Unit × BillingSession)} {reply : q.Resp}
    (hrow : db.tokens.find? k = some row) (heq : .call q kont = markExhausted s)
    (hserve : q.answer now db = (reply, db')) :
    Moves k row ((Phase.settling s a q kont).viewOf k s.tokenId)
      ((Phase.ofSettle s a (kont reply)).viewOf k s.tokenId) db' := by
  injection heq with hq hk
  subst hq
  subst hk
  obtain ⟨rfl, rfl⟩ := Prod.mk.inj hserve
  have hfind := @Db.find?_tokens_setTokenStatus now db s.tokenId 3 k
  rw [hrow, Option.map_some] at hfind
  have hid : row.id = k := Table.key_of_find? hrow
  by_cases hk : s.tokenId = k
  · rw [if_pos (by simp [hid, hk])] at hfind
    refine ⟨_, hfind, rfl, .inl rfl, ?_⟩
    simp only [Phase.viewOf, if_pos hk]
    exact .mark rfl
  · rw [if_neg (by simpa [hid] using Ne.symm hk)] at hfind
    refine .of_same hfind ?_
    simp only [Phase.viewOf, if_neg hk]
    exact .idle

theorem moves_settle {kont : q.Resp → BillingM (ProxyResult Unit × BillingSession)}
    {reply : q.Resp} (hrow : db.tokens.find? k = some row) (h0 : 0 ≤ a)
    (hlim : s.tokenId = k → s.tokenUnlimited = false)
    (h : Program.Follows (settle s a) t (.call q kont))
    (hserve : q.answer now db = (reply, db')) :
    Moves k row ((Phase.settling s a q kont).viewOf k s.tokenId)
      ((Phase.ofSettle s a (kont reply)).viewOf k s.tokenId) db' := by
  rcases settle_at h with heq | heq | heq
  · unfold settle at heq
    split at heq
    · cases heq
    split at heq
    · cases heq
    split at heq
    · injection heq with hq hk
      subst hq
      subst hk
      obtain ⟨rfl, rfl⟩ :=
        Prod.mk.inj ((BillingReq.answer_settleAtomic now db ..).symm.trans hserve)
      refine moves_charge hrow rfl hlim fun hk => ?_
      rw [view_settleExhausted (hlim hk),
        show row.remainQuota - (a - s.preCharged) = row.remainQuota + s.preCharged - a by omega]
      exact .replace h0
    · exact moves_read hrow heq hserve
  · exact moves_read hrow heq hserve
  · exact moves_mark hrow heq hserve

theorem moves_refund {kont : q.Resp → BillingM (ProxyResult Unit)} {reply : q.Resp}
    (hrow : db.tokens.find? k = some row) (hlim : s.tokenId = k → s.tokenUnlimited = false)
    (h : Program.Follows (refund s) t (.call q kont)) (hserve : q.answer now db = (reply, db')) :
    Moves k row ((Phase.refunding s q kont).viewOf k s.tokenId)
      ((Phase.ofRefund s (kont reply)).viewOf k s.tokenId) db' := by
  have heq := refund_at h
  unfold refund at heq
  split at heq
  · cases heq
  injection heq with hq hk
  subst hq
  subst hk
  obtain ⟨rfl, rfl⟩ := Prod.mk.inj ((BillingReq.answer_refundAtomic now db ..).symm.trans hserve)
  refine moves_charge hrow rfl hlim fun _ => ?_
  rw [sub_neg_eq_add]
  exact .giveBack

/-- Entering a settlement replaces the reservation at once where the estimate was exact. -/
theorem moves_startSettle (hrow : db.tokens.find? k = some row) (hs : s.settled = false)
    (h0 : 0 ≤ a) (hlim : s.tokenId = k → s.tokenUnlimited = false) :
    Moves k row ((Phase.opened s).viewOf k s.tokenId)
      ((Phase.ofSettle s a (settle s a)).viewOf k s.tokenId) db := by
  refine .of_same hrow ?_
  by_cases hk : s.tokenId = k
  · simp only [Phase.viewOf, if_pos hk]
    have hneg : ¬a < 0 := by omega
    by_cases hsame : a - s.preCharged ≠ 0
    · obtain ⟨kont, hkont⟩ : ∃ kont, settle s a = .call (.settleAtomic s.userId s.tokenId
          (a - s.preCharged) s.tokenUnlimited) kont := by
        rw [settle, if_neg (by simp [hs]), if_neg hneg, if_pos hsame]
        exact ⟨_, rfl⟩
      rw [hkont]
      exact .idle
    · have : settle s a = settleExhausted s := by
        rw [settle, if_neg (by simp [hs]), if_neg hneg, if_neg hsame]
      rw [this, view_settleExhausted (hlim hk)]
      have hmove := @Budget.Move.replace row.remainQuota (row.status = 3) s.preCharged a h0
      rwa [show row.remainQuota + s.preCharged - a = row.remainQuota by omega] at hmove
  · simp only [Phase.viewOf, if_neg hk]
    exact .idle

theorem moves_startRefund (hrow : db.tokens.find? k = some row) :
    Moves k row ((Phase.opened s).viewOf k s.tokenId)
      ((Phase.ofRefund s (refund s)).viewOf k s.tokenId) db := by
  refine .of_same hrow ?_
  by_cases hk : s.tokenId = k
  · simp only [Phase.viewOf, if_pos hk]
    unfold refund
    split
    · rename_i hzero
      have hmove := @Budget.Move.giveBack row.remainQuota (row.status = 3) s.preCharged
      rwa [show row.remainQuota + s.preCharged = row.remainQuota by omega] at hmove
    · exact .idle
  · simp only [Phase.viewOf, if_neg hk]
    exact .idle

/-- A call of a request moves the budget of any limited token. -/
theorem moves_call {r : Request} {kont : q.Resp → Phase} {reply : q.Resp} (hv : r.Valid)
    (hnext : r.phase.next = some ⟨q, kont⟩) (hrow : db.tokens.find? k = some row)
    (hserve : q.answer now db = (reply, db'))
    (hflag : ∀ b, (⟨.getTokenUnlimited k, .ok (some b)⟩ : BillingCall) ∈ r.trace → b = false) :
    Moves k row (r.view k) ((kont reply).viewOf k r.tokenId) db' := by
  obtain ⟨userId, tokenId, estimate, phase, trace⟩ := r
  have hlim : ∀ {session : BillingSession} {x : ℤ}, session.Holds userId tokenId x trace →
      session.tokenId = k → session.tokenUnlimited = false := fun h hk =>
    hflag _ (hk ▸ h.token ▸ h.flag)
  simp only [Request.Valid, Request.view] at hv hnext hflag ⊢
  cases hv with
  | charging h =>
    cases hnext
    exact moves_preCharge hrow hflag h hserve
  | @settling t t' s a q k' hopen h =>
    cases hnext
    have ho := Phase.ReachedBy.opened_spec hopen
    have hh := Phase.ReachedBy.holds_of_opened ho
    have h0 := ((settle_spec a ho.2.2.2.2.1 hh.moved).sound h).1.1
    rw [← hh.token]
    exact moves_settle hrow h0
      (fun hk => hflag _ (List.mem_append_left _ (hk ▸ hh.token ▸ hh.flag)))
      h hserve
  | @refunding t t' s q k' hopen h =>
    cases hnext
    have hh := Phase.ReachedBy.holds_of_opened (Phase.ReachedBy.opened_spec hopen)
    rw [← hh.token]
    exact moves_refund hrow
      (fun hk => hflag _ (List.mem_append_left _ (hk ▸ hh.token ▸ hh.flag))) h hserve
  | _ => cases hnext

end Operations

/-! ### Runs -/

/-- The session of a request is open: charged, and neither settled nor refunded. -/
def Request.isOpen (r : Request) : Bool :=
  match r.phase with
  | .opened _ => true
  | .settling _ _ _ _ => true
  | .refunding _ _ _ => true
  | _ => false

theorem Request.view_of_closed {k : ℤ} {r : Request} (h : r.tokenId = k → r.isOpen = false) :
    r.view k = .clear := by
  rw [view, Phase.viewOf]
  split
  · rename_i hk
    have := h hk
    unfold isOpen at this
    cases hphase : r.phase with
    | opened s => simp [hphase] at this
    | settling s a q k => simp [hphase] at this
    | refunding s q k => simp [hphase] at this
    | _ => rfl
  · rfl

namespace Billing

variable {s₀ s s' : Billing} {l : Label} {ls : List Label} {k : ℤ} {row row₀ : TokenRow}

/-- What each request is about to do to token `k`. -/
def views (k : ℤ) (s : Billing) : List Budget.View := s.requests.map (Request.view k)

/-- What open sessions hold of token `k` and may still give back. -/
def heldOf (k : ℤ) (s : Billing) : ℤ := (s.requests.map fun r => (r.view k).held).sum

theorem potential_views (remain : ℤ) :
    Budget.potential remain (s.views k) = remain + s.heldOf k := by
  rw [Budget.potential, views, List.map_map, heldOf]
  rfl

/-- What request `i` is about to do to token `k`. -/
def viewAt (k : ℤ) (s : Billing) (i : ℕ) : Budget.View := ((s.views k)[i]?).getD .clear

/-- What remains of token `k`. -/
def remainOf (k : ℤ) (s : Billing) : ℤ :=
  ((s.db.tokens.find? k).map fun row => row.remainQuota).getD 0

/-- A settlement reads a used-up token only when no open session can bring it back. -/
def ReadsLast (k : ℤ) (s : Billing) : Label → Prop
  | .call i _ _ => s.viewAt k i = .reading → s.remainOf k ≤ 0 → s.remainOf k + s.heldOf k ≤ 0
  | _ => True

instance (k : ℤ) (s : Billing) : (l : Label) → Decidable (s.ReadsLast k l)
  | .call i _ _ => inferInstanceAs (Decidable
      (s.viewAt k i = .reading → s.remainOf k ≤ 0 → s.remainOf k + s.heldOf k ≤ 0))
  | .arrive _ _ _ => .isTrue trivial
  | .settle _ _ => .isTrue trivial
  | .refund _ => .isTrue trivial

theorem views_setRequest (i : ℕ) (r : Request) :
    (s.setRequest i r).views k = (s.views k).set i (r.view k) := by
  rw [views, setRequest, List.map_set]
  rfl

/-- Every session of a limited token has read it as limited. -/
theorem flag_of_limited {r : Request} (hfl : Flags s₀ s) (hr : r ∈ s.requests)
    (hrow₀ : s₀.db.tokens.find? k = some row₀) (hlim : row₀.unlimitedQuota = false) (b : Bool)
    (hread : (⟨.getTokenUnlimited k, .ok (some b)⟩ : BillingCall) ∈ r.trace) : b = false := by
  obtain ⟨row, hrow, rfl⟩ := hfl r hr k b hread
  rw [hrow₀] at hrow
  cases hrow
  exact hlim

/-- **The token's budget.** A step is an arrival or the move of one request. -/
theorem budget_step (h : step s l = some s') (hl : l.Clean) (hv : ∀ r ∈ s.requests, r.Valid)
    (hfl : Flags s₀ s) (hrow₀ : s₀.db.tokens.find? k = some row₀)
    (hlim : row₀.unlimitedQuota = false) (hrow : s.db.tokens.find? k = some row) :
    (s'.views k = s.views k ++ [.clear] ∧ s'.db = s.db) ∨
    ∃ (i : ℕ) (r r' : Request), s.requests[i]? = some r ∧
      s'.views k = (s.views k).set i (r'.view k) ∧
      Moves k row (r.view k) (r'.view k) s'.db ∧
      (r.view k = .reading → ∃ now fault, l = .call i now fault) := by
  rcases step_cases h with ⟨u, k', e, -, rfl⟩ | ⟨i, r, session, hr, hphase, hstart⟩ |
    ⟨i, now, fault, r, q, kont, reply, db, rfl, hr, hnext, hserve, rfl⟩
  · refine .inl ⟨?_, rfl⟩
    have hclear : Request.view k ⟨u, k', e, .ofPreCharge (preCharge u k' e), []⟩ = .clear := by
      refine Request.view_of_closed fun _ => ?_
      unfold preCharge
      split <;> rfl
    rw [views, List.map_append, List.map_singleton, hclear]
    rfl
  · have hmem := List.mem_of_getElem? hr
    have hopen := hv r hmem
    rw [Request.Valid, hphase] at hopen
    have hholds := hopen.opened_holds
    have ho := Phase.ReachedBy.opened_spec hopen.opened_follows
    have hlim' : session.tokenId = k → session.tokenUnlimited = false := fun hk =>
      flag_of_limited hfl hmem hrow₀ hlim _ (hk ▸ hholds.token ▸ hholds.flag)
    have hview : r.view k = (Phase.opened session).viewOf k session.tokenId := by
      rw [Request.view, hphase, hholds.token]
    have hnot : r.view k ≠ .reading := by
      rw [hview, Phase.viewOf, Phase.view]
      split <;> simp
    rcases hstart with ⟨a, rfl, rfl⟩ | ⟨-, rfl⟩
    · refine .inr ⟨i, r, _, hr, views_setRequest i _, ?_, fun hread => absurd hread hnot⟩
      rw [hview, Request.view, ← hholds.token]
      exact moves_startSettle hrow ho.2.2.2.2.1 hl hlim'
    · refine .inr ⟨i, r, _, hr, views_setRequest i _, ?_, fun hread => absurd hread hnot⟩
      rw [hview, Request.view, ← hholds.token]
      exact moves_startRefund hrow
  · obtain rfl : fault = none := hl
    have hmem := List.mem_of_getElem? hr
    refine .inr ⟨i, r, { r with phase := kont reply, trace := r.trace ++ [⟨q, reply⟩] }, hr,
      views_setRequest (s := { s with db := db }) i _, ?_, fun _ => ⟨now, none, rfl⟩⟩
    exact moves_call (hv r hmem) hnext hrow hserve (flag_of_limited hfl hmem hrow₀ hlim)

/-- The token's row, and the budget its requests make of it. -/
def BudgetSound (k : ℤ) (s : Billing) : Prop :=
  ∃ row, s.db.tokens.find? k = some row ∧ (row.status = 1 ∨ row.status = 3) ∧
    Budget.Sound row.remainQuota (row.status = 3) (s.views k)

theorem budgetSound_step (h : step s l = some s') (hl : l.Clean) (hreads : s.ReadsLast k l)
    (hv : ∀ r ∈ s.requests, r.Valid) (hfl : Flags s₀ s)
    (hrow₀ : s₀.db.tokens.find? k = some row₀) (hlim : row₀.unlimitedQuota = false)
    (hs : BudgetSound k s) : BudgetSound k s' := by
  obtain ⟨row, hrow, hstatus, hsound⟩ := hs
  rcases budget_step h hl hv hfl hrow₀ hlim hrow with ⟨hviews, hdb⟩ |
    ⟨i, r, r', hr, hviews, ⟨row', hrow', -, hstatus', hmove⟩, hcall⟩
  · exact ⟨row, hdb ▸ hrow, hstatus, hviews ▸ hsound.arrive⟩
  · refine ⟨row', hrow', ?_, ?_⟩
    · rcases hstatus' with h3 | hsame
      · exact .inr h3
      · rwa [hsame]
    · rw [hviews]
      refine hsound.move (v := r.view k) (by simp [views, hr]) hmove fun hread hmark => ?_
      obtain ⟨now, fault, rfl⟩ := hcall hread
      rw [potential_views]
      rw [hread, hmark] at hmove
      have hat : s.viewAt k i = .reading := by simp [viewAt, views, hr, hread]
      have hremain : s.remainOf k = row.remainQuota := by simp [remainOf, hrow]
      rw [← hremain] at hmove ⊢
      exact hreads hat hmove.le_of_see

/-- **The status at rest.** A limited token that starts enabled with quota remaining, in a run
without failures whose settlements read it last: when no session of the token is open, it is
exhausted if nothing remains and enabled otherwise. -/
theorem exhausted_accurate (h₀ : s₀.requests = []) (hls : ∀ l ∈ ls, l.Clean)
    (hrun : Machine.run step s₀ ls = some s) (hrow₀ : s₀.db.tokens.find? k = some row₀)
    (hlim : row₀.unlimitedQuota = false) (hstatus : row₀.status = 1) (hpos : 0 < row₀.remainQuota)
    (hreads : Machine.Along step (ReadsLast k) s₀ ls)
    (hclosed : ∀ r ∈ s.requests, r.tokenId = k → r.isOpen = false) :
    ∃ row, s.db.tokens.find? k = some row ∧ (row.status = 3 ↔ row.remainQuota ≤ 0) ∧
      (row.status ≠ 3 → row.status = 1) := by
  have hinit : BudgetSound k s₀ := by
    refine ⟨row₀, hrow₀, .inl hstatus, ?_⟩
    rw [views, h₀]
    exact .init hpos (by omega)
  have hlabels : Machine.Along step (fun _ l => l.Clean) s₀ ls := Machine.along_of_labels hls
  obtain ⟨-, -, -, row, hrow, hstatus', hsound⟩ := Machine.run_invariant
    (I := fun s => (∀ r ∈ s.requests, r.Valid) ∧ Accounts s₀ s ∧ Flags s₀ s ∧ BudgetSound k s)
    (fun _ _ _ hl hs h => ⟨valid_step h hs.1, accounts_step h hs.2.1,
      flags_step h hs.2.1 hs.2.2.1,
      budgetSound_step h hl.1 hl.2 hs.1 hs.2.2.1 hrow₀ hlim hs.2.2.2⟩)
    hrun (hlabels.and hreads)
    ⟨by simp [h₀], accounts_init h₀, by simp [Flags, h₀], hinit⟩
  refine ⟨row, hrow, hsound.mark_iff fun v hmem => ?_, fun hne => hstatus'.resolve_right hne⟩
  obtain ⟨r, hr, rfl⟩ := List.mem_map.mp hmem
  exact Request.view_of_closed (hclosed r hr)

/-- One request uses the whole token up. -/
def lastRun : List Label :=
  [.arrive 1 7 50, .call 0 "" none, .call 0 "" none, .settle 0 50, .call 0 "" none,
    .call 0 "" none]

theorem exhausted_accurate_sample :
    ∃ s, Machine.run step sample lastRun = some s ∧
      ∃ row, s.db.tokens.find? 7 = some row ∧ (row.status = 3 ↔ row.remainQuota ≤ 0) ∧
        (row.status ≠ 3 → row.status = 1) := by
  obtain ⟨s, hrun⟩ := Option.isSome_iff_exists.mp
    (by decide : (Machine.run step sample lastRun).isSome = true)
  have hclosed : ∀ r ∈ s.requests, r.tokenId = 7 → r.isOpen = false := by
    have hall : ((Machine.run step sample lastRun).map fun s =>
        s.requests.all fun r => !r.isOpen) = some true := by decide
    simp only [hrun, Option.map_some, Option.some.injEq, List.all_eq_true, Bool.not_eq_true']
      at hall
    exact fun r hr _ => hall r hr
  exact ⟨s, hrun, exhausted_accurate rfl (by decide) hrun rfl rfl rfl (by decide) (by decide)
    hclosed⟩

/-- Two requests reserve the token between them; the one that settles reads zero and marks the
token, the other is refunded. -/
def earlyRun : List Label :=
  [.arrive 1 7 40, .arrive 1 7 10, .call 0 "" none, .call 0 "" none, .call 1 "" none,
    .call 1 "" none, .settle 1 10, .call 1 "" none, .call 1 "" none, .refund 0, .call 0 "" none]

/-- The token is exhausted with 40 remaining, and no session is open. -/
theorem exhausted_inaccurate :
    (∀ l ∈ earlyRun, l.Clean) ∧
      ((sample.db.tokens.find? 7).map fun row =>
        (row.unlimitedQuota, row.status, row.remainQuota)) = some (false, 1, 50) ∧
      ∃ s, Machine.run step sample earlyRun = some s ∧ (∀ r ∈ s.requests, r.isOpen = false) ∧
        ∃ row, s.db.tokens.find? 7 = some row ∧ row.status = 3 ∧ row.remainQuota = 40 := by
  refine ⟨by decide, by decide, _, rfl, by decide, _, rfl, by decide, by decide⟩

end Billing

end Chennix
