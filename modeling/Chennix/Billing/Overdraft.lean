import Chennix.Billing.Sessions

/-!
# Pre-charges never overdraw

A pre-charge commits only what both layers can afford at that instant, and a session that settles
at no more than its pre-charge only ever gives back. So no interleaving takes a balance below zero.
A pre-charge that answers an error has changed nothing, whichever layer refused it and whatever
happened in between.

## Main definitions

* `Db.Solvent` — no user above its quota, no limited token below zero
* `Billing.Modest` — the condition on settlements
* `BillingReq.GivesBack` — the calls that lower no balance

## Main results

* `Billing.solvent_run` — solvency in every reachable state
* `Billing.no_overdraft` — solvency, and refusals without effect
-/

namespace Chennix

open Foundations BillingManager

/-- No user has used more than its quota, and no limited token is below zero. -/
def Db.Solvent (db : Db) : Prop :=
  (∀ u row, db.users.find? u = some row → row.usedQuota ≤ row.quota) ∧
    ∀ k row, db.tokens.find? k = some row → row.unlimitedQuota = false → 0 ≤ row.remainQuota

/-- A call that lowers no balance, or checks the balances it lowers. -/
def BillingReq.GivesBack : BillingReq → Prop
  | .settleAtomic _ _ delta _ => delta ≤ 0
  | .refundAtomic _ _ amount _ => 0 ≤ amount
  | _ => True

/-- The calls of a pre-charge. -/
def BillingReq.OfPreCharge : BillingReq → Prop
  | .getTokenUnlimited _ => True
  | .preChargeAtomic _ _ _ _ => True
  | _ => False

namespace BillingManager

theorem preCharge_only (userId tokenId estimatedCost : ℤ) :
    Program.Only BillingReq.OfPreCharge (preCharge userId tokenId estimatedCost) := by
  unfold preCharge
  split
  · trivial
  · refine ⟨trivial, fun r => ?_⟩
    match r with
    | .error e => trivial
    | .ok none => trivial
    | .ok (some unlimited) =>
      by_cases hzero : estimatedCost = 0
      · simp only [if_pos hzero]
        trivial
      · simp only [if_neg hzero]
        refine ⟨trivial, fun r => ?_⟩
        match r with
        | .error e => trivial
        | .ok () => trivial

theorem settleExhausted_only (session : BillingSession) :
    Program.Only BillingReq.GivesBack (settleExhausted session) := by
  unfold settleExhausted
  split
  · trivial
  · refine ⟨trivial, fun r => ?_⟩
    match r with
    | .error e => trivial
    | .ok none => trivial
    | .ok (some remaining) =>
      by_cases hr : remaining ≤ 0
      · simp only [if_pos hr]
        refine ⟨trivial, fun r => ?_⟩
        match r with
        | .error e => trivial
        | .ok () => trivial
      · simp only [if_neg hr]
        trivial

theorem settle_only {session : BillingSession} {actual : ℤ} (h : actual ≤ session.preCharged) :
    Program.Only BillingReq.GivesBack (settle session actual) := by
  unfold settle
  split
  · trivial
  · split
    · trivial
    · split
      · refine ⟨show actual - session.preCharged ≤ 0 by omega, fun r => ?_⟩
        match r with
        | .error e => trivial
        | .ok () => exact settleExhausted_only session
      · exact settleExhausted_only session

theorem refund_only {session : BillingSession} (h : 0 ≤ session.preCharged) :
    Program.Only BillingReq.GivesBack (refund session) := by
  unfold refund
  split
  · trivial
  · refine ⟨h, fun r => ?_⟩
    match r with
    | .error e => trivial
    | .ok () => trivial

end BillingManager

/-! ### Solvency -/

namespace Db

variable {now : String} {db db' : Db}

/-- A charge both layers can afford, or one that gives back, keeps the accounts solvent. -/
theorem Solvent.applyCharge {c : Charge} (h : db.Solvent)
    (huser : c.amount ≤ 0 ∨ ∀ row, db.users.find? c.userId = some row →
      c.amount ≤ row.quota - row.usedQuota)
    (htoken : c.amount ≤ 0 ∨ (c.tokenUnlimited = false → ∀ row,
      db.tokens.find? c.tokenId = some row → c.amount ≤ row.remainQuota)) :
    (db.applyCharge now c).Solvent := by
  constructor
  · intro u row hrow
    rw [find?_users_applyCharge] at hrow
    obtain ⟨r, hr, rfl⟩ := Option.map_eq_some_iff.mp hrow
    have hle := h.1 u r hr
    split
    · rename_i hid
      have hid : c.userId = u := by
        rw [← Table.key_of_find? hr]
        exact (beq_iff_eq.mp hid).symm
      simp only [UserRow.addUsed]
      rcases huser with hneg | hafford
      · omega
      · have := hafford r (hid ▸ hr)
        omega
    · exact hle
  · intro k row hrow hlim
    rw [find?_tokens_applyCharge] at hrow
    obtain ⟨r, hr, rfl⟩ := Option.map_eq_some_iff.mp hrow
    by_cases hcond : (r.id == c.tokenId && !c.tokenUnlimited) = true
    · simp only [hcond, if_true, TokenRow.addUsed] at hlim ⊢
      have hle := h.2 k r hr hlim
      simp only [Bool.and_eq_true, beq_iff_eq, Bool.not_eq_true'] at hcond
      have hid : c.tokenId = k := by
        rw [← Table.key_of_find? hr]
        exact hcond.1.symm
      rcases htoken with hneg | hafford
      · omega
      · have := hafford hcond.2 r (hid ▸ hr)
        omega
    · simp only [hcond, Bool.false_eq_true, if_false] at hlim ⊢
      exact h.2 k r hr hlim

theorem Solvent.setTokenStatus {k status : ℤ} (h : db.Solvent) :
    (db.setTokenStatus now k status).Solvent := by
  refine ⟨h.1, fun k' row hrow hlim => ?_⟩
  rw [find?_tokens_setTokenStatus] at hrow
  obtain ⟨r, hr, rfl⟩ := Option.map_eq_some_iff.mp hrow
  split at hlim
  · simpa [TokenRow.setStatus, *] using h.2 k' r hr hlim
  · simpa [*] using h.2 k' r hr hlim

end Db

/-- Every call a session can still make in this phase is one of `A`. -/
def Phase.Only (A : BillingReq → Prop) : Phase → Prop
  | .charging q k => Program.Only A (.call q k)
  | .settling _ _ q k => Program.Only A (.call q k)
  | .refunding _ q k => Program.Only A (.call q k)
  | _ => True

namespace Phase

variable {A : BillingReq → Prop} {session : BillingSession} {actual : ℤ}

theorem only_ofPreCharge {p : BillingM (ProxyResult BillingSession)} (h : Program.Only A p) :
    (ofPreCharge p).Only A := by
  match p with
  | .pure (.ok _) => trivial
  | .pure (.error _) => trivial
  | .call q k => exact h

theorem only_ofSettle {p : BillingM (ProxyResult Unit × BillingSession)} (h : Program.Only A p) :
    (ofSettle session actual p).Only A := by
  match p with
  | .pure (.ok (), _) => trivial
  | .pure (.error _, _) => trivial
  | .call q k => exact h

theorem only_ofRefund {p : BillingM (ProxyResult Unit)} (h : Program.Only A p) :
    (ofRefund session p).Only A := by
  match p with
  | .pure (.ok ()) => trivial
  | .pure (.error _) => trivial
  | .call q k => exact h

theorem Only.next {phase : Phase} {q : BillingReq} {k : q.Resp → Phase} (h : phase.Only A)
    (hnext : phase.next = some ⟨q, k⟩) : A q ∧ ∀ reply, (k reply).Only A := by
  cases phase with
  | charging q k => cases hnext; exact ⟨h.1, fun reply => only_ofPreCharge (h.2 reply)⟩
  | settling session a q k => cases hnext; exact ⟨h.1, fun reply => only_ofSettle (h.2 reply)⟩
  | refunding session q k => cases hnext; exact ⟨h.1, fun reply => only_ofRefund (h.2 reply)⟩
  | _ => cases hnext

end Phase

namespace BillingReq

variable {now : String} {fault : Option ProxyError} {db db' : Db} {q : BillingReq} {r : q.Resp}

theorem givesBack_of_preCharge (h : q.OfPreCharge) : q.GivesBack := by
  cases q with
  | settleAtomic u k delta unlimited => exact h.elim
  | refundAtomic u k amount unlimited => exact h.elim
  | _ => trivial

/-- A call that gives back or checks first keeps the accounts solvent. -/
theorem solvent_answer (h : q.answer now db = (r, db')) (hq : q.GivesBack) (hs : db.Solvent) :
    db'.Solvent := by
  rcases answer_cases h with ⟨c, hc, rfl, hafford⟩ | ⟨-, ⟨k, status, -, rfl⟩ | rfl⟩
  · match q, r, hc with
    | .preChargeAtomic u k amount unlimited, .ok (), hc =>
      cases hc
      obtain ⟨⟨row, hrow, hle⟩, htoken⟩ := hafford
      refine hs.applyCharge (.inr fun row' hrow' => ?_) (.inr fun hlim row' hrow' => ?_)
      · rw [hrow] at hrow'
        cases hrow'
        exact hle
      · obtain ⟨trow, htrow, hle⟩ := htoken hlim
        rw [htrow] at hrow'
        cases hrow'
        exact hle
    | .settleAtomic u k delta unlimited, .ok (), hc =>
      cases hc
      exact hs.applyCharge (.inl hq) (.inl hq)
    | .refundAtomic u k amount unlimited, .ok (), hc =>
      cases hc
      have hneg : -amount ≤ 0 := by
        have : 0 ≤ amount := hq
        omega
      exact hs.applyCharge (.inl hneg) (.inl hneg)
  · exact hs.setTokenStatus
  · exact hs

/-- A call of a pre-charge that charges nothing changes nothing. -/
theorem serve_same (h : Billing.serve now fault q db = (r, db')) (hq : q.OfPreCharge)
    (hc : chargeOf ⟨q, r⟩ = none) : db' = db := by
  cases fault with
  | some e => exact (Prod.mk.inj h).2.symm
  | none =>
    rcases answer_cases h with ⟨c, hc', -, -⟩ | ⟨-, ⟨k, status, rfl, -⟩ | rfl⟩
    · rw [hc] at hc'
      cases hc'
    · exact hq.elim
    · rfl

end BillingReq

namespace Billing

variable {s₀ s s' : Billing} {l : Label} {ls : List Label}

/-- What the session of request `i` holds in reserve. -/
def reservedAt (s : Billing) (i : ℕ) : ℤ := ((s.requests[i]?).map fun r => r.phase.reserved).getD 0

/-- Sessions settle between zero and their pre-charge. -/
def Modest (s : Billing) : Label → Prop
  | .settle i actual => 0 ≤ actual ∧ actual ≤ s.reservedAt i
  | _ => True

instance (s : Billing) : (l : Label) → Decidable (s.Modest l)
  | .settle i actual => inferInstanceAs (Decidable (0 ≤ actual ∧ actual ≤ s.reservedAt i))
  | .arrive _ _ _ => .isTrue trivial
  | .refund _ => .isTrue trivial
  | .call _ _ _ => .isTrue trivial

theorem only_setRequest {A : BillingReq → Prop} {i : ℕ} {r : Request}
    (hs : ∀ r ∈ s.requests, r.phase.Only A) (hr : r.phase.Only A) :
    ∀ r' ∈ (s.setRequest i r).requests, r'.phase.Only A :=
  Slots.forall_set hs hr

/-- Under modest settlements, every call still to come gives back or checks first. -/
theorem givesBack_step (h : step s l = some s') (hl : s.Modest l)
    (hv : ∀ r ∈ s.requests, r.Valid) (hs : ∀ r ∈ s.requests, r.phase.Only BillingReq.GivesBack) :
    ∀ r ∈ s'.requests, r.phase.Only BillingReq.GivesBack := by
  rcases step_cases h with ⟨u, k, e, -, rfl⟩ | ⟨i, r, session, hr, hphase, hstart⟩ |
    ⟨i, now, fault, r, q, k, reply, db, -, hr, hnext, -, rfl⟩
  · intro r hmem
    rcases List.mem_append.mp hmem with hmem | hmem
    · exact hs r hmem
    · rw [List.mem_singleton.mp hmem]
      exact Phase.only_ofPreCharge
        ((preCharge_only u k e).mono fun _ => BillingReq.givesBack_of_preCharge)
  · rcases hstart with ⟨a, rfl, rfl⟩ | ⟨-, rfl⟩
    · simp only [Modest, reservedAt, hr, Option.map_some, hphase, Option.getD_some] at hl
      exact only_setRequest hs (Phase.only_ofSettle (settle_only hl.2))
    · have hopen := hv r (List.mem_of_getElem? hr)
      rw [Request.Valid, hphase] at hopen
      have ho := Phase.ReachedBy.opened_spec hopen.opened_follows
      have h0 : 0 ≤ session.preCharged := ho.2.2.1 ▸ ho.2.2.2.1
      exact only_setRequest hs (Phase.only_ofRefund (refund_only h0))
  · exact only_setRequest (s := { s with db := db }) hs
      (((hs r (List.mem_of_getElem? hr)).next hnext).2 reply)

theorem solvent_step (h : step s l = some s')
    (hg : ∀ r ∈ s.requests, r.phase.Only BillingReq.GivesBack) (hs : s.db.Solvent) :
    s'.db.Solvent := by
  rcases step_cases h with ⟨u, k, e, -, rfl⟩ | ⟨i, r, session, hr, hphase, hstart⟩ |
    ⟨i, now, fault, r, q, k, reply, db, -, hr, hnext, hserve, rfl⟩
  · exact hs
  · rcases hstart with ⟨a, -, rfl⟩ | ⟨-, rfl⟩
    · exact hs
    · exact hs
  · cases fault with
    | none =>
      exact BillingReq.solvent_answer hserve ((hg r (List.mem_of_getElem? hr)).next hnext).1 hs
    | some e =>
      obtain ⟨-, rfl⟩ := Prod.mk.inj hserve
      exact hs

/-- Solvency in every reachable state. -/
theorem solvent_run (h₀ : s₀.requests = []) (hsolvent : s₀.db.Solvent)
    (hls : Machine.Along step Modest s₀ ls) (hrun : Machine.run step s₀ ls = some s) :
    s.db.Solvent :=
  (Machine.run_invariant (I := fun s => (∀ r ∈ s.requests, r.Valid) ∧
      (∀ r ∈ s.requests, r.phase.Only BillingReq.GivesBack) ∧ s.db.Solvent)
    (fun _ _ _ hl hs h => ⟨valid_step h hs.1, givesBack_step h hl hs.1 hs.2.1,
      solvent_step h hs.2.1 hs.2.2⟩) hrun hls (by simp [h₀, hsolvent])).2.2

/-! ### Refusals -/

/-- Requests keep their place, and their traces only grow. -/
theorem trace_step (h : step s l = some s') {i : ℕ} {r : Request} (hr : s.requests[i]? = some r) :
    ∃ r', s'.requests[i]? = some r' ∧ r.trace <+: r'.trace := by
  have hset : ∀ (db : Db) j (r₁ r₂ : Request), s.requests[j]? = some r₁ → r₁.trace <+: r₂.trace →
      ∃ r', (setRequest { s with db := db } j r₂).requests[i]? = some r' ∧
        r.trace <+: r'.trace := by
    intro db j r₁ r₂ hj hpre
    simp only [setRequest, List.getElem?_set]
    by_cases hij : j = i
    · subst hij
      rw [hr] at hj
      cases hj
      have hlt : j < s.requests.length := (List.getElem?_eq_some_iff.mp hr).1
      exact ⟨r₂, by simp [hlt], hpre⟩
    · exact ⟨r, by simp [hij, hr], List.prefix_refl _⟩
  rcases step_cases h with ⟨u, k, e, -, rfl⟩ | ⟨j, r', session, hr', hphase, hstart⟩ |
    ⟨j, now, fault, r', q, k, reply, db, -, hr', hnext, -, rfl⟩
  · exact ⟨r, List.getElem?_append_left (List.getElem?_eq_some_iff.mp hr).1 |>.trans hr,
      List.prefix_refl _⟩
  · rcases hstart with ⟨a, -, rfl⟩ | ⟨-, rfl⟩
    · exact hset s.db j r' _ hr' (List.prefix_refl _)
    · exact hset s.db j r' _ hr' (List.prefix_refl _)
  · exact hset db j r' _ hr' (List.prefix_append _ _)

theorem trace_run (hrun : Machine.run step s ls = some s') {i : ℕ} {r : Request}
    (hr : s.requests[i]? = some r) : ∃ r', s'.requests[i]? = some r' ∧ r.trace <+: r'.trace := by
  refine Machine.run_invariant' (I := fun s' => ∃ r', s'.requests[i]? = some r' ∧
    r.trace <+: r'.trace) (fun s₁ l s₂ ⟨r₁, hr₁, hpre⟩ h => ?_) hrun ⟨r, hr, List.prefix_refl _⟩
  obtain ⟨r₂, hr₂, hpre'⟩ := trace_step h hr₁
  exact ⟨r₂, hr₂, hpre.trans hpre'⟩

/-- Each call of a request whose pre-charge is refused, now or later, leaves the database as it
was. -/
theorem refused_same (h₀ : s₀.requests = []) {ls₁ ls₂ : List Label} {s₁ s₂ : Billing} {i : ℕ}
    {now : String} {fault : Option ProxyError} {r : Request} {e : ProxyError}
    (hrun₁ : Machine.run step s₀ ls₁ = some s₁) (hstep : step s₁ (.call i now fault) = some s₂)
    (hrun₂ : Machine.run step s₂ ls₂ = some s) (hr : s.requests[i]? = some r)
    (hphase : r.phase = .refused e) : s₂.db = s₁.db := by
  rcases step_cases hstep with ⟨_, _, _, hl, -⟩ | ⟨_, _, _, _, _, ⟨_, hl, -⟩ | ⟨hl, -⟩⟩ |
    ⟨j, now', fault', r₁, q, k, reply, db, hl, hr₁, hnext, hserve, rfl⟩
  · cases hl
  · cases hl
  · cases hl
  cases hl
  -- the call stands in the trace of the refused request
  have hr₂ : (setRequest { s₁ with db := db } i
      { r₁ with phase := k reply, trace := r₁.trace ++ [⟨q, reply⟩] }).requests[i]? =
        some { r₁ with phase := k reply, trace := r₁.trace ++ [⟨q, reply⟩] } := by
    have hlt : i < s₁.requests.length := (List.getElem?_eq_some_iff.mp hr₁).1
    simp [setRequest, hlt]
  obtain ⟨r', hr', hpre⟩ := trace_run hrun₂ hr₂
  rw [hr] at hr'
  cases hr'
  have hmem : (⟨q, reply⟩ : BillingCall) ∈ r.trace := hpre.subset (by simp)
  have hrun : Machine.run step s₀ (ls₁ ++ .call i now fault :: ls₂) = some s :=
    Machine.run_append.mpr ⟨s₁, hrun₁, Machine.run_cons.mpr ⟨_, hstep, hrun₂⟩⟩
  have hv := valid_run h₀ hrun r (List.mem_of_getElem? hr)
  rw [Request.Valid, hphase] at hv
  have hno : chargeOf ⟨q, reply⟩ = none := by
    have := hv.refused_spec
    rw [NoCharge, List.filterMap_eq_nil_iff] at this
    exact this _ hmem
  rw [setRequest_db]
  exact BillingReq.serve_same hserve ((preCharge_only _ _ _).calls hv.refused_follows _ hmem) hno

/-- **No overdraft.** From solvent accounts, as long as sessions settle within their pre-charge, the
accounts stay solvent; and no call of a pre-charge that is refused changes the database. -/
theorem no_overdraft (h₀ : s₀.requests = []) (hrun : Machine.run step s₀ ls = some s) :
    (s₀.db.Solvent → Machine.Along step Modest s₀ ls → s.db.Solvent) ∧
    (∀ i r e, s.requests[i]? = some r → r.phase = .refused e →
      ∀ ls₁ now fault ls₂ s₁ s₂, ls = ls₁ ++ .call i now fault :: ls₂ →
        Machine.run step s₀ ls₁ = some s₁ → step s₁ (.call i now fault) = some s₂ →
          s₂.db = s₁.db) := by
  refine ⟨fun hsolvent hls => solvent_run h₀ hsolvent hls hrun, ?_⟩
  rintro i r e hr hphase ls₁ now fault ls₂ s₁ s₂ rfl hrun₁ hstep
  obtain ⟨s₁', hrun₁', hrest⟩ := Machine.run_append.mp hrun
  obtain rfl : s₁ = s₁' := Option.some.inj (hrun₁ ▸ hrun₁')
  obtain ⟨s₂', hstep', hrun₂⟩ := Machine.run_cons.mp hrest
  obtain rfl : s₂ = s₂' := Option.some.inj (hstep ▸ hstep')
  exact refused_same h₀ hrun₁ hstep hrun₂ hr hphase

/-- One request settles within its pre-charge; the token layer refuses the other. -/
def modestRun : List Label :=
  [.arrive 1 7 20, .arrive 1 7 60, .call 0 "" none, .call 0 "" none, .call 1 "" none,
    .call 1 "" none, .settle 0 15, .call 0 "" none]

theorem no_overdraft_sample :
    ∃ s, Machine.run step sample modestRun = some s ∧ s.db.Solvent ∧
      ∀ r e, s.requests[1]? = some r → r.phase = .refused e →
        ∀ s₁ s₂, Machine.run step sample (modestRun.take 5) = some s₁ →
          step s₁ (.call 1 "" none) = some s₂ → s₂.db = s₁.db := by
  obtain ⟨s, hrun⟩ := Option.isSome_iff_exists.mp
    (by decide : (Machine.run step sample modestRun).isSome = true)
  have hsolvent : sample.db.Solvent := by
    constructor
    · intro u row hrow
      have := Table.mem_of_find? hrow
      simp only [sample, Db.sample, List.mem_singleton] at this
      subst this
      decide
    · intro k row hrow hlim
      have := Table.mem_of_find? hrow
      simp only [sample, Db.sample, List.mem_cons, List.not_mem_nil, or_false] at this
      rcases this with rfl | rfl
      · decide
      · cases hlim
  obtain ⟨hkeeps, hrefused⟩ := no_overdraft rfl hrun
  exact ⟨s, hrun, hkeeps hsolvent (by decide), fun r e hr hphase s₁ s₂ =>
    hrefused 1 r e hr hphase (modestRun.take 5) "" none (modestRun.drop 6) s₁ s₂ rfl⟩

end Billing

end Chennix
