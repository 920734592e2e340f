import Chennix.Billing.Sessions

/-!
# Conservation of quota

Whatever the interleaving, a user has used what its open sessions reserve and its settled sessions
cost, and a limited token has paid the same out of its budget.

The argument has two halves that do not meet before the end. Between requests: a call moves the
accounts by what it charges, so the accounts are always the initial ones plus what all traces have
charged. Within a request: its trace has charged what its phase says, a fact about the three
operations alone. The flag a session read at its pre-charge ties the two layers together: it is the
flag of the row, because no call changes it.

## Main definitions

* `Billing.Accounts` — the accounts are the initial ones plus what the traces have charged
* `Billing.sumOf` — the sum of a quantity over the sessions of a user, or of a token
* `Billing.AtRest` — no session is between its closing transaction and its return

## Main results

* `Billing.accounts_run` — the accounts in every reachable state
* `Billing.conservation` — the accounts at rest, in terms of open and settled sessions
-/

namespace Chennix

open Foundations BillingManager

namespace Billing

variable {s₀ s s' : Billing} {l : Label}

/-- What all traces together have charged. -/
def charged (s : Billing) (on : Charge → ℤ) : ℤ :=
  (s.requests.map fun r => Chennix.charged on r.trace).sum

/-- The accounts are those of `s₀` plus what the traces have charged. -/
structure Accounts (s₀ s : Billing) : Prop where
  users : ∀ u, Option.Rel (UserRow.Charged (s.charged (Charge.onUser u)))
    (s₀.db.users.find? u) (s.db.users.find? u)
  tokens : ∀ k, Option.Rel (TokenRow.Charged (s.charged (Charge.onToken k)))
    (s₀.db.tokens.find? k) (s.db.tokens.find? k)

theorem users_serve {now : String} {fault : Option ProxyError} {q : BillingReq} {db db' : Db}
    {reply : q.Resp} (h : serve now fault q db = (reply, db')) (u : ℤ) :
    Option.Rel (UserRow.Charged (Chennix.charged (Charge.onUser u) [⟨q, reply⟩]))
      (db.users.find? u) (db'.users.find? u) := by
  cases fault with
  | none => exact Db.users_answer h u
  | some e =>
    cases h
    cases db.users.find? u with
    | none => exact .none
    | some x => exact .some (by constructor <;> simp [Chennix.charged, chargeOf_failure])

theorem tokens_serve {now : String} {fault : Option ProxyError} {q : BillingReq} {db db' : Db}
    {reply : q.Resp} (h : serve now fault q db = (reply, db')) (k : ℤ) :
    Option.Rel (TokenRow.Charged (Chennix.charged (Charge.onToken k) [⟨q, reply⟩]))
      (db.tokens.find? k) (db'.tokens.find? k) := by
  cases fault with
  | none => exact Db.tokens_answer h k
  | some e =>
    cases h
    cases db.tokens.find? k with
    | none => exact .none
    | some x => exact .some (by constructor <;> simp [Chennix.charged, chargeOf_failure])

/-- A call adds its own charge to what the traces have charged. -/
theorem charged_setRequest {i : ℕ} {r : Request} {phase : Phase} {t : List BillingCall}
    (hr : s.requests[i]? = some r) (on : Charge → ℤ) :
    (s.setRequest i { r with phase := phase, trace := r.trace ++ t }).charged on =
      s.charged on + Chennix.charged on t :=
  Slots.sum_map_set hr _ (charged_append on r.trace t)

theorem accounts_init (h : s₀.requests = []) : Accounts s₀ s₀ := by
  have h0 : ∀ on, s₀.charged on = 0 := fun on => by simp [charged, h]
  constructor
  · intro u
    rw [h0]
    cases s₀.db.users.find? u with
    | none => exact .none
    | some x => exact .some ⟨(add_zero _).symm, rfl⟩
  · intro k
    rw [h0]
    cases s₀.db.tokens.find? k with
    | none => exact .none
    | some x => exact .some ⟨(sub_zero _).symm, (add_zero _).symm, rfl⟩

/-- Every step moves the accounts by what it adds to the traces. -/
theorem accounts_step (h : step s l = some s') (hs : Accounts s₀ s) : Accounts s₀ s' := by
  rcases step_cases h with ⟨u, k, e, -, rfl⟩ | ⟨i, r, session, hr, hphase, hl⟩ |
    ⟨i, now, fault, r, q, k, reply, db, -, hr, hnext, hserve, rfl⟩
  · have hsum : ∀ on, charged ⟨s.db, s.requests ++
        [⟨u, k, e, .ofPreCharge (preCharge u k e), []⟩]⟩ on = s.charged on := fun on => by
      simp [charged]
    exact ⟨fun u => by rw [hsum]; exact hs.users u, fun k => by rw [hsum]; exact hs.tokens k⟩
  · have hsum : ∀ phase on, (s.setRequest i { r with phase := phase }).charged on =
        s.charged on := fun phase on => by
      simpa using charged_setRequest (t := []) hr on
    rcases hl with ⟨a, -, rfl⟩ | ⟨-, rfl⟩
    · exact ⟨fun u => by rw [hsum]; exact hs.users u, fun k => by rw [hsum]; exact hs.tokens k⟩
    · exact ⟨fun u => by rw [hsum]; exact hs.users u, fun k => by rw [hsum]; exact hs.tokens k⟩
  · have hsum : ∀ on, charged (setRequest { s with db := db } i
        { r with phase := k reply, trace := r.trace ++ [⟨q, reply⟩] }) on =
          s.charged on + Chennix.charged on [⟨q, reply⟩] :=
      charged_setRequest (s := { s with db := db }) hr
    constructor
    · intro u
      rw [hsum, setRequest_db]
      exact UserRow.Charged.trans (hs.users u) (users_serve hserve u)
    · intro k
      rw [hsum, setRequest_db]
      exact TokenRow.Charged.trans (hs.tokens k) (tokens_serve hserve k)

/-- **The accounts of a run.** -/
theorem accounts_run {ls : List Label} (h₀ : s₀.requests = [])
    (hrun : Machine.run step s₀ ls = some s) : Accounts s₀ s :=
  Machine.run_invariant' (fun _ _ _ hs h => accounts_step h hs) hrun (accounts_init h₀)

/-! ### The flag a session read -/

/-- Every flag the traces have read is the flag of the token's row. -/
def Flags (s₀ s : Billing) : Prop :=
  ∀ r ∈ s.requests, ∀ k b, (⟨.getTokenUnlimited k, .ok (some b)⟩ : BillingCall) ∈ r.trace →
    ∃ row₀, s₀.db.tokens.find? k = some row₀ ∧ row₀.unlimitedQuota = b

theorem flags_setRequest {i : ℕ} {r : Request} {phase : Phase} {t : List BillingCall}
    (hr : s.requests[i]? = some r) (hs : Flags s₀ s)
    (ht : ∀ k b, (⟨.getTokenUnlimited k, .ok (some b)⟩ : BillingCall) ∈ t →
      ∃ row₀, s₀.db.tokens.find? k = some row₀ ∧ row₀.unlimitedQuota = b) :
    Flags s₀ (s.setRequest i { r with phase := phase, trace := r.trace ++ t }) := by
  intro r' hmem k b hread
  rcases List.mem_or_eq_of_mem_set hmem with hmem | rfl
  · exact hs r' hmem k b hread
  · rcases List.mem_append.mp hread with hread | hread
    · exact hs r (List.mem_of_getElem? hr) k b hread
    · exact ht k b hread

theorem flags_step (h : step s l = some s') (ha : Accounts s₀ s) (hs : Flags s₀ s) :
    Flags s₀ s' := by
  rcases step_cases h with ⟨u, k, e, -, rfl⟩ | ⟨i, r, session, hr, hphase, hl⟩ |
    ⟨i, now, fault, r, q, next, reply, db, -, hr, hnext, hserve, rfl⟩
  · intro r hmem k b hread
    rcases List.mem_append.mp hmem with hmem | hmem
    · exact hs r hmem k b hread
    · rw [List.mem_singleton.mp hmem] at hread
      cases hread
  · have hset : ∀ phase, Flags s₀ (s.setRequest i { r with phase := phase }) := fun phase => by
      simpa using flags_setRequest (t := []) hr hs (by simp)
    rcases hl with ⟨a, -, rfl⟩ | ⟨-, rfl⟩
    · exact hset _
    · exact hset _
  · refine flags_setRequest (s := { s with db := db }) hr hs fun k b hread => ?_
    rw [List.mem_singleton] at hread
    cases hread
    cases fault with
    | some e => cases hserve
    | none =>
      obtain ⟨row, hrow, rfl⟩ : ∃ row, s.db.tokens.find? k = some row ∧ row.unlimitedQuota = b := by
        simp only [serve, BillingReq.answer, StorageAdapter.getTokenUnlimited,
          StorageAdapter.getTokenById, Prod.mk.injEq, Except.ok.injEq, Option.map_map] at hserve
        obtain ⟨row, hrow, hb⟩ := Option.map_eq_some_iff.mp hserve.1
        exact ⟨row, hrow, hb⟩
      have := ha.tokens k
      rw [hrow] at this
      generalize hrow₀ : s₀.db.tokens.find? k = o at this
      cases this with
      | some h => exact ⟨_, rfl, h.unlimited.symm⟩

theorem flags_run {ls : List Label} (h₀ : s₀.requests = [])
    (hrun : Machine.run step s₀ ls = some s) : Flags s₀ s :=
  (Machine.run_invariant' (I := fun s => Accounts s₀ s ∧ Flags s₀ s)
    (fun _ _ _ hs h => ⟨accounts_step h hs.1, flags_step h hs.1 hs.2⟩) hrun
    ⟨accounts_init h₀, by simp [Flags, h₀]⟩).2

/-! ### Runs without failures -/

/-- No repository failure, and no negative actual cost. -/
def Label.Clean : Label → Prop
  | .arrive _ _ _ => True
  | .settle _ actual => 0 ≤ actual
  | .refund _ => True
  | .call _ _ fault => fault = none

instance : (l : Label) → Decidable l.Clean
  | .arrive _ _ _ => .isTrue trivial
  | .settle _ actual => inferInstanceAs (Decidable (0 ≤ actual))
  | .refund _ => .isTrue trivial
  | .call _ _ fault => inferInstanceAs (Decidable (fault = none))

/-- A request no operation of which has failed for a fault. -/
def Unfaulted (r : Request) : Prop := ¬Faulty r.trace ∧ ∀ session e, r.phase ≠ .failed session e

theorem not_faulty_append {t t' : List BillingCall} (h : ¬Faulty t) (h' : ¬Faulty t') :
    ¬Faulty (t ++ t') := by
  rintro ⟨q, e, hq, hmem⟩
  rcases List.mem_append.mp hmem with hmem | hmem
  · exact h ⟨q, e, hq, hmem⟩
  · exact h' ⟨q, e, hq, hmem⟩

theorem not_faulty_answer {now : String} {q : BillingReq} {db db' : Db} {reply : q.Resp}
    (h : q.answer now db = (reply, db')) : ¬Faulty [⟨q, reply⟩] := by
  rintro ⟨q', e, hq, hmem⟩
  rw [List.mem_singleton] at hmem
  cases hmem
  exact BillingReq.answer_ne_failure hq h e rfl

theorem unfaulted_setRequest {i : ℕ} {r : Request} (hs : ∀ r ∈ s.requests, Unfaulted r)
    (hr : Unfaulted r) : ∀ r' ∈ (s.setRequest i r).requests, Unfaulted r' :=
  Slots.forall_set hs hr

/-- A closing operation does not fail before its first call, unless the cost is negative. -/
theorem ofSettle_ne_failed {session : BillingSession} {a : ℤ} {t : List BillingCall}
    (hs : session.settled = false) (hm : session.Moved session.preCharged t) (ha : 0 ≤ a)
    (hf : ¬Faulty t) (session' : BillingSession) (e : ProxyError) :
    Phase.ofSettle session a (settle session a) ≠ .failed session' e := by
  intro h
  have hspec := settle_spec a hs hm
  match hp : settle session a with
  | .pure (.ok (), s') => simp [Phase.ofSettle, hp] at h
  | .call q k => simp [Phase.ofSettle, hp] at h
  | .pure (.error e', s') =>
    rw [hp] at hspec
    rcases hspec with ⟨hneg, -⟩ | ⟨-, hfaulty⟩
    · omega
    · exact hf hfaulty

theorem ofRefund_ne_failed {session : BillingSession} {t : List BillingCall}
    (hm : session.Moved session.preCharged t) (hf : ¬Faulty t) (session' : BillingSession)
    (e : ProxyError) : Phase.ofRefund session (refund session) ≠ .failed session' e := by
  intro h
  have hspec := refund_spec hm
  match hp : refund session with
  | .pure (.ok ()) => simp [Phase.ofRefund, hp] at h
  | .call q k => simp [Phase.ofRefund, hp] at h
  | .pure (.error e') =>
    rw [hp] at hspec
    exact hf hspec.2

theorem unfaulted_step (h : step s l = some s') (hl : l.Clean) (hv : ∀ r ∈ s.requests, r.Valid)
    (hs : ∀ r ∈ s.requests, Unfaulted r) : ∀ r ∈ s'.requests, Unfaulted r := by
  rcases step_cases h with ⟨u, k, e, -, rfl⟩ | ⟨i, r, session, hr, hphase, hstart⟩ |
    ⟨i, now, fault, r, q, k, reply, db, rfl, hr, hnext, hserve, rfl⟩
  · intro r hmem
    rcases List.mem_append.mp hmem with hmem | hmem
    · exact hs r hmem
    · rw [List.mem_singleton.mp hmem]
      refine ⟨by simp [Faulty], fun session e' => ?_⟩
      cases hp : preCharge u k e with
      | pure a => cases a <;> simp [Phase.ofPreCharge]
      | call q k => simp [Phase.ofPreCharge]
  · have hmem := List.mem_of_getElem? hr
    have hopen := hv r hmem
    rw [Request.Valid, hphase] at hopen
    have ho := Phase.ReachedBy.opened_spec hopen.opened_follows
    have hm := hopen.opened_holds.moved
    rcases hstart with ⟨a, rfl, rfl⟩ | ⟨-, rfl⟩
    · exact unfaulted_setRequest hs
        ⟨(hs r hmem).1, ofSettle_ne_failed ho.2.2.2.2.1 hm hl (hs r hmem).1⟩
    · exact unfaulted_setRequest hs ⟨(hs r hmem).1, ofRefund_ne_failed hm (hs r hmem).1⟩
  · have hmem := List.mem_of_getElem? hr
    obtain rfl : fault = none := hl
    have hf := not_faulty_append (hs r hmem).1 (not_faulty_answer hserve)
    exact unfaulted_setRequest (s := { s with db := db }) hs
      ⟨hf, fun session e hfail => hf ((hv r hmem).next_failed hnext hfail)⟩

theorem unfaulted_run {ls : List Label} (h₀ : s₀.requests = []) (hls : ∀ l ∈ ls, l.Clean)
    (hrun : Machine.run step s₀ ls = some s) : ∀ r ∈ s.requests, Unfaulted r :=
  (Machine.run_invariant
    (I := fun s => (∀ r ∈ s.requests, r.Valid) ∧ ∀ r ∈ s.requests, Unfaulted r)
    (fun _ _ _ hl hs h => ⟨valid_step h hs.1, unfaulted_step h hl hs.1 hs.2⟩) hrun
    (Machine.along_of_labels hls) (by simp [h₀])).2

end Billing

/-! ### The accounts at rest -/

/-- Between its closing transaction and its return. -/
def Request.midClose (r : Request) : Bool :=
  match r.phase with
  | .settling _ _ _ _ => r.trace.any closes
  | .refunding _ _ _ => r.trace.any closes
  | _ => false

namespace Request

variable {r : Request}

/-- A request has moved its reserve, or its cost once it is settled. -/
theorem moved (hv : r.Valid) (hf : ∀ session e, r.phase ≠ .failed session e)
    (hrest : r.midClose = false) :
    (NoCharge r.trace ∧ r.phase.reserved = 0 ∧ r.phase.spent = 0) ∨
      ∃ session : BillingSession,
        session.Holds r.userId r.tokenId (r.phase.reserved + r.phase.spent) r.trace := by
  unfold Request.Valid at hv
  unfold midClose at hrest
  cases hphase : r.phase with
  | charging q k =>
    rw [hphase] at hv
    exact .inl ⟨hv.charging_spec, rfl, rfl⟩
  | refused e =>
    rw [hphase] at hv
    exact .inl ⟨hv.refused_spec, rfl, rfl⟩
  | opened session =>
    rw [hphase] at hv
    exact .inr ⟨session, by simpa [Phase.reserved, Phase.spent] using hv.opened_holds⟩
  | settling session a q k =>
    rw [hphase] at hv hrest
    rcases hv.settling_holds with h | ⟨-, delta, hmem⟩
    · exact .inr ⟨session, by simpa [Phase.reserved, Phase.spent] using h⟩
    · simp only [List.any_eq_false] at hrest
      exact absurd rfl (hrest _ hmem)
  | settled session a =>
    rw [hphase] at hv
    exact .inr ⟨session, by simpa [Phase.reserved, Phase.spent] using hv.settled_holds.1⟩
  | refunding session q k =>
    rw [hphase] at hv
    exact .inr ⟨session, by simpa [Phase.reserved, Phase.spent] using hv.refunding_holds⟩
  | refunded session =>
    rw [hphase] at hv
    exact .inr ⟨session, by simpa [Phase.reserved, Phase.spent] using hv.refunded_holds⟩
  | failed session e => exact absurd hphase (hf session e)

end Request

namespace Billing

/-- The sum of a quantity over the requests that meet a condition. -/
def sumOf (s : Billing) (p : Request → Bool) (f : Phase → ℤ) : ℤ :=
  (s.requests.map fun r => if p r then f r.phase else 0).sum

/-- No session is between its closing transaction and its return. -/
def AtRest (s : Billing) : Prop := ∀ r ∈ s.requests, r.midClose = false

variable {s₀ s : Billing} {ls : List Label}

theorem sumOf_add (p : Request → Bool) (f g : Phase → ℤ) :
    (s.requests.map fun r => if p r then f r.phase + g r.phase else 0).sum =
      s.sumOf p f + s.sumOf p g := by
  rw [sumOf, sumOf, ← List.sum_map_add]
  congr 1
  refine List.map_congr_left fun r _ => ?_
  split <;> simp

/-- What all traces have charged a user, at rest. -/
theorem charged_user (hv : ∀ r ∈ s.requests, r.Valid) (hf : ∀ r ∈ s.requests, Unfaulted r)
    (hrest : s.AtRest) (u : ℤ) :
    s.charged (Charge.onUser u) =
      s.sumOf (fun r => r.userId == u) Phase.reserved +
        s.sumOf (fun r => r.userId == u) Phase.spent := by
  rw [← sumOf_add, charged]
  congr 1
  refine List.map_congr_left fun r hr => ?_
  rcases Request.moved (hv r hr) (hf r hr).2 (hrest r hr) with ⟨hno, h0, h0'⟩ | ⟨session, h⟩
  · simp [hno.charged_eq, h0, h0']
  · simp [h.moved.onUser, h.user]

/-- The flag a request's session read is the flag of the token. -/
theorem flag_of_holds {r : Request} {session : BillingSession} {x k : ℤ} {row₀ : TokenRow}
    (hfl : Flags s₀ s) (hr : r ∈ s.requests) (h : session.Holds r.userId r.tokenId x r.trace)
    (hrow : s₀.db.tokens.find? k = some row₀) (hk : r.tokenId = k) :
    session.tokenUnlimited = row₀.unlimitedQuota := by
  obtain ⟨row, hrow', hflag⟩ := hfl r hr _ _ h.flag
  rw [hk, hrow] at hrow'
  cases hrow'
  exact hflag.symm

/-- What all traces have charged a limited token, at rest. -/
theorem charged_token (hv : ∀ r ∈ s.requests, r.Valid) (hf : ∀ r ∈ s.requests, Unfaulted r)
    (hrest : s.AtRest) (hfl : Flags s₀ s) {k : ℤ} {row₀ : TokenRow}
    (hrow : s₀.db.tokens.find? k = some row₀) (hlim : row₀.unlimitedQuota = false) :
    s.charged (Charge.onToken k) =
      s.sumOf (fun r => r.tokenId == k) Phase.reserved +
        s.sumOf (fun r => r.tokenId == k) Phase.spent := by
  rw [← sumOf_add, charged]
  congr 1
  refine List.map_congr_left fun r hr => ?_
  rcases Request.moved (hv r hr) (hf r hr).2 (hrest r hr) with ⟨hno, h0, h0'⟩ | ⟨session, h⟩
  · simp [hno.charged_eq, h0, h0']
  · rw [h.moved.onToken, h.token]
    by_cases hk : r.tokenId = k
    · have := flag_of_holds hfl hr h hrow hk
      simp [hk, this, hlim]
    · simp [hk]

/-- In a request that has not failed, every charge is its session's. -/
theorem holds_or_noCharge {r : Request} (hv : r.Valid) (hf : Unfaulted r) :
    NoCharge r.trace ∨ ∃ (session : BillingSession) (x : ℤ),
      session.Holds r.userId r.tokenId x r.trace := by
  unfold Request.Valid at hv
  cases hphase : r.phase with
  | charging q k => rw [hphase] at hv; exact .inl hv.charging_spec
  | refused e => rw [hphase] at hv; exact .inl hv.refused_spec
  | opened session => rw [hphase] at hv; exact .inr ⟨session, _, hv.opened_holds⟩
  | settling session a q k =>
    rw [hphase] at hv
    rcases hv.settling_holds with h | ⟨h, -⟩
    · exact .inr ⟨session, _, h⟩
    · exact .inr ⟨session, _, h⟩
  | settled session a => rw [hphase] at hv; exact .inr ⟨session, _, hv.settled_holds.1⟩
  | refunding session q k => rw [hphase] at hv; exact .inr ⟨session, _, hv.refunding_holds⟩
  | refunded session => rw [hphase] at hv; exact .inr ⟨session, _, hv.refunded_holds⟩
  | failed session e => exact absurd hphase (hf.2 session e)

/-- An unlimited token is never charged. -/
theorem charged_unlimited (hv : ∀ r ∈ s.requests, r.Valid) (hf : ∀ r ∈ s.requests, Unfaulted r)
    (hfl : Flags s₀ s) {k : ℤ} {row₀ : TokenRow} (hrow : s₀.db.tokens.find? k = some row₀)
    (hun : row₀.unlimitedQuota = true) : s.charged (Charge.onToken k) = 0 := by
  rw [charged]
  refine List.sum_eq_zero fun x hx => ?_
  obtain ⟨r, hr, rfl⟩ := List.mem_map.mp hx
  rcases holds_or_noCharge (hv r hr) (hf r hr) with hno | ⟨session, y, h⟩
  · exact hno.charged_eq _
  · rw [h.moved.onToken, h.token]
    by_cases hk : r.tokenId = k
    · simp [flag_of_holds hfl hr h hrow hk, hun]
    · simp [hk]

/-- **Conservation.** After any run without failures: at rest, a user has used its initial amount
plus the reserves of its open sessions plus the costs of its settled ones, and a limited token has
used the same over its own sessions, out of its budget; an unlimited token is untouched, at rest or
not. -/
theorem conservation (h₀ : s₀.requests = []) (hls : ∀ l ∈ ls, l.Clean)
    (hrun : Machine.run step s₀ ls = some s) :
    (s.AtRest →
      (∀ u row₀, s₀.db.users.find? u = some row₀ → ∃ row, s.db.users.find? u = some row ∧
        row.usedQuota = row₀.usedQuota + s.sumOf (fun r => r.userId == u) Phase.reserved +
          s.sumOf (fun r => r.userId == u) Phase.spent) ∧
      (∀ k row₀, s₀.db.tokens.find? k = some row₀ → row₀.unlimitedQuota = false →
        ∃ row, s.db.tokens.find? k = some row ∧
          row.remainQuota + row.usedQuota = row₀.remainQuota + row₀.usedQuota ∧
          row.usedQuota = row₀.usedQuota + s.sumOf (fun r => r.tokenId == k) Phase.reserved +
            s.sumOf (fun r => r.tokenId == k) Phase.spent)) ∧
    (∀ k row₀, s₀.db.tokens.find? k = some row₀ → row₀.unlimitedQuota = true →
      ∃ row, s.db.tokens.find? k = some row ∧ row.remainQuota = row₀.remainQuota ∧
        row.usedQuota = row₀.usedQuota) := by
  have ha := accounts_run h₀ hrun
  have hv := valid_run h₀ hrun
  have hf := unfaulted_run h₀ hls hrun
  have hfl := flags_run h₀ hrun
  refine ⟨fun hrest => ⟨fun u row₀ hrow => ?_, fun k row₀ hrow hlim => ?_⟩,
    fun k row₀ hrow hun => ?_⟩
  · have hrel := ha.users u
    rw [hrow, charged_user hv hf hrest u] at hrel
    obtain ⟨row, hrow', hrel⟩ := rel_some hrel
    exact ⟨row, hrow', by rw [hrel.used]; omega⟩
  · have hrel := ha.tokens k
    rw [hrow, charged_token hv hf hrest hfl hrow hlim] at hrel
    obtain ⟨row, hrow', hrel⟩ := rel_some hrel
    exact ⟨row, hrow', by rw [hrel.used, hrel.remain]; omega, by rw [hrel.used]; omega⟩
  · have hrel := ha.tokens k
    rw [hrow, charged_unlimited hv hf hfl hrow hun] at hrel
    obtain ⟨row, hrow', hrel⟩ := rel_some hrel
    exact ⟨row, hrow', by rw [hrel.remain]; omega, by rw [hrel.used]; omega⟩

/-- Two requests of one user over both tokens: the first settles above its estimate while the
second is open. -/
def sampleRun : List Label :=
  [.arrive 1 7 20, .arrive 1 8 30, .call 0 "" none, .call 1 "" none, .call 1 "" none,
    .call 0 "" none, .settle 0 25, .call 0 "" none, .call 0 "" none]

theorem conservation_sample :
    ∃ s, Machine.run step sample sampleRun = some s ∧
      ∃ row, s.db.users.find? 1 = some row ∧
        row.usedQuota = 10 + s.sumOf (fun r => r.userId == 1) Phase.reserved +
          s.sumOf (fun r => r.userId == 1) Phase.spent := by
  have hclean : ∀ l ∈ sampleRun, l.Clean := by decide
  obtain ⟨s, hrun⟩ := Option.isSome_iff_exists.mp
    (by decide : (Machine.run step sample sampleRun).isSome = true)
  have hrest : s.AtRest := by
    have hall : ((Machine.run step sample sampleRun).map fun s =>
        s.requests.all fun r => !r.midClose) = some true := by decide
    simpa [hrun, AtRest] using hall
  have h := ((conservation rfl hclean hrun).1 hrest).1 1 _ rfl
  exact ⟨s, hrun, h⟩

end Billing

end Chennix
