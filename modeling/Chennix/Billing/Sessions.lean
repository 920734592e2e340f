import Chennix.Foundations.Path
import Chennix.Foundations.Slots
import Chennix.Server.Pipeline

/-!
# Interleaved billing sessions

Any number of requests, each running a pre-charge and then at most one settlement or refund, over
one database. The repository calls of different requests interleave freely; a call is one atomic
step. A request that has been charged may stay open for as long as its environment likes.

Each request carries the trace of the calls it has made. The trace is not part of the program: it
is where the invariants read off what the request has charged so far.

## Main definitions

* `Phase`, `Request`, `Billing` — where a session stands, a request, the whole system
* `Billing.Label`, `Billing.step` — the steps, a failing call included
* `Request.Valid` — the phase of a request is where its trace leads

## Main results

* `Billing.step_cases` — the one inversion of the step relation
* `Billing.valid_step` — requests stay valid
* `Request.Valid.moved` — what a request has charged, phase by phase
-/

namespace Chennix

open Foundations BillingManager

/-- Where the session of a request stands. -/
inductive Phase
  /-- In `preCharge`, about to make a call. -/
  | charging (q : BillingReq) (k : q.Resp → BillingM (ProxyResult BillingSession))
  /-- `preCharge` answered an error. -/
  | refused (e : ProxyError)
  /-- `preCharge` answered the session. -/
  | opened (session : BillingSession)
  /-- In `settle`, about to make a call. -/
  | settling (session : BillingSession) (actual : ℤ) (q : BillingReq)
      (k : q.Resp → BillingM (ProxyResult Unit × BillingSession))
  /-- `settle` succeeded. -/
  | settled (session : BillingSession) (actual : ℤ)
  /-- In `refund`, about to make a call. -/
  | refunding (session : BillingSession) (q : BillingReq)
      (k : q.Resp → BillingM (ProxyResult Unit))
  /-- `refund` succeeded. -/
  | refunded (session : BillingSession)
  /-- `settle` or `refund` answered an error. -/
  | failed (session : BillingSession) (e : ProxyError)

namespace Phase

/-- The phase of a request inside `preCharge`. -/
def ofPreCharge : BillingM (ProxyResult BillingSession) → Phase
  | .pure (.ok session) => .opened session
  | .pure (.error e) => .refused e
  | .call q k => .charging q k

/-- The phase of a request inside `settle`. -/
def ofSettle (session : BillingSession) (actual : ℤ) :
    BillingM (ProxyResult Unit × BillingSession) → Phase
  | .pure (.ok (), session') => .settled session' actual
  | .pure (.error e, session') => .failed session' e
  | .call q k => .settling session actual q k

/-- The phase of a request inside `refund`. -/
def ofRefund (session : BillingSession) : BillingM (ProxyResult Unit) → Phase
  | .pure (.ok ()) => .refunded session
  | .pure (.error e) => .failed session e
  | .call q k => .refunding session q k

/-- The next call, and the phase after its reply. -/
def next : Phase → Option ((q : BillingReq) × (q.Resp → Phase))
  | .charging q k => some ⟨q, fun r => ofPreCharge (k r)⟩
  | .settling session actual q k => some ⟨q, fun r => ofSettle session actual (k r)⟩
  | .refunding session q k => some ⟨q, fun r => ofRefund session (k r)⟩
  | _ => none

/-- What an open session holds in reserve. -/
def reserved : Phase → ℤ
  | .opened session => session.preCharged
  | .settling session _ _ _ => session.preCharged
  | .refunding session _ _ => session.preCharged
  | _ => 0

/-- What a settled session has cost. -/
def spent : Phase → ℤ
  | .settled _ actual => actual
  | _ => 0

end Phase

/-- A request with its billing session and the calls it has made. -/
structure Request where
  userId : ℤ
  tokenId : ℤ
  estimate : ℤ
  phase : Phase
  trace : List BillingCall

/-- The database and the requests over it. -/
structure Billing where
  db : Db
  requests : List Request

namespace Billing

/-- The steps of the system. -/
inductive Label
  /-- A request arrives and enters `preCharge`. -/
  | arrive (userId tokenId estimate : ℤ)
  /-- An open session enters `settle`. -/
  | settle (i : ℕ) (actual : ℤ)
  /-- An open session enters `refund`. -/
  | refund (i : ℕ)
  /-- A request makes its next call, at a time, perhaps failing. -/
  | call (i : ℕ) (now : String) (fault : Option ProxyError)

/-- The reply of a call and the database after it. A failing call changes nothing. -/
def serve (now : String) (fault : Option ProxyError) (q : BillingReq) (db : Db) : q.Resp × Db :=
  match fault with
  | none => q.answer now db
  | some e => (q.failure e, db)

/-- The system with request `i` replaced. -/
def setRequest (s : Billing) (i : ℕ) (r : Request) : Billing :=
  { s with requests := s.requests.set i r }

@[simp] theorem setRequest_db (s : Billing) (i : ℕ) (r : Request) :
    (s.setRequest i r).db = s.db := rfl

/-- One step. -/
def step (s : Billing) : Label → Option Billing
  | .arrive userId tokenId estimate => some { s with
      requests := s.requests ++
        [⟨userId, tokenId, estimate, .ofPreCharge (preCharge userId tokenId estimate), []⟩] }
  | .settle i actual =>
    match s.requests[i]? with
    | some r => match r.phase with
      | .opened session =>
        some (s.setRequest i { r with phase := .ofSettle session actual (settle session actual) })
      | _ => none
    | none => none
  | .refund i =>
    match s.requests[i]? with
    | some r => match r.phase with
      | .opened session =>
        some (s.setRequest i { r with phase := .ofRefund session (refund session) })
      | _ => none
    | none => none
  | .call i now fault =>
    match s.requests[i]? with
    | some r => match r.phase.next with
      | some ⟨q, k⟩ =>
        let (reply, db) := serve now fault q s.db
        some (setRequest { s with db := db } i
          { r with phase := k reply, trace := r.trace ++ [⟨q, reply⟩] })
      | none => none
    | none => none

/-- What a step does: a request arrives, an open session starts to close, or a request makes its
next call. -/
theorem step_cases {s s' : Billing} {l : Label} (h : step s l = some s') :
    (∃ u k e, l = .arrive u k e ∧
      s' = ⟨s.db, s.requests ++ [⟨u, k, e, .ofPreCharge (preCharge u k e), []⟩]⟩) ∨
    (∃ i r session, s.requests[i]? = some r ∧ r.phase = .opened session ∧
      ((∃ a, l = .settle i a ∧
          s' = s.setRequest i { r with phase := .ofSettle session a (settle session a) }) ∨
        (l = .refund i ∧
          s' = s.setRequest i { r with phase := .ofRefund session (refund session) }))) ∨
    (∃ i now fault r q k reply db, l = .call i now fault ∧ s.requests[i]? = some r ∧
      r.phase.next = some ⟨q, k⟩ ∧ serve now fault q s.db = (reply, db) ∧
      s' = setRequest { s with db := db } i
        { r with phase := k reply, trace := r.trace ++ [⟨q, reply⟩] }) := by
  cases l with
  | arrive u k e => exact .inl ⟨u, k, e, rfl, (Option.some.inj h).symm⟩
  | settle i a =>
    simp only [step] at h
    split at h
    · rename_i r hr
      split at h
      · rename_i session hphase
        exact .inr (.inl ⟨i, r, session, hr, hphase, .inl ⟨a, rfl, (Option.some.inj h).symm⟩⟩)
      · cases h
    · cases h
  | refund i =>
    simp only [step] at h
    split at h
    · rename_i r hr
      split at h
      · rename_i session hphase
        exact .inr (.inl ⟨i, r, session, hr, hphase, .inr ⟨rfl, (Option.some.inj h).symm⟩⟩)
      · cases h
    · cases h
  | call i now fault =>
    simp only [step] at h
    split at h
    · rename_i r hr
      split at h
      · rename_i q k hnext
        exact .inr (.inr ⟨i, now, fault, r, q, k, _, _, rfl, hr, hnext, rfl,
          (Option.some.inj h).symm⟩)
      · cases h
    · cases h

end Billing

/-! ### The phase of a request is where its trace leads -/

/-- The phases a request comes to, by the calls it has made. -/
inductive Phase.ReachedBy (userId tokenId estimate : ℤ) : List BillingCall → Phase → Prop
  | charging {t q k} (h : Program.Follows (preCharge userId tokenId estimate) t (.call q k)) :
    ReachedBy userId tokenId estimate t (.charging q k)
  | refused {t e} (h : Program.Follows (preCharge userId tokenId estimate) t (.pure (.error e))) :
    ReachedBy userId tokenId estimate t (.refused e)
  | opened {t s} (h : Program.Follows (preCharge userId tokenId estimate) t (.pure (.ok s))) :
    ReachedBy userId tokenId estimate t (.opened s)
  | settling {t t' s a q k}
      (hopen : Program.Follows (preCharge userId tokenId estimate) t (.pure (.ok s)))
      (h : Program.Follows (settle s a) t' (.call q k)) :
    ReachedBy userId tokenId estimate (t ++ t') (.settling s a q k)
  | settled {t t' s s' a}
      (hopen : Program.Follows (preCharge userId tokenId estimate) t (.pure (.ok s)))
      (h : Program.Follows (settle s a) t' (.pure (.ok (), s'))) :
    ReachedBy userId tokenId estimate (t ++ t') (.settled s' a)
  | refunding {t t' s q k}
      (hopen : Program.Follows (preCharge userId tokenId estimate) t (.pure (.ok s)))
      (h : Program.Follows (refund s) t' (.call q k)) :
    ReachedBy userId tokenId estimate (t ++ t') (.refunding s q k)
  | refunded {t t' s}
      (hopen : Program.Follows (preCharge userId tokenId estimate) t (.pure (.ok s)))
      (h : Program.Follows (refund s) t' (.pure (.ok ()))) :
    ReachedBy userId tokenId estimate (t ++ t') (.refunded s)
  | failedSettle {t t' s s' a e}
      (hopen : Program.Follows (preCharge userId tokenId estimate) t (.pure (.ok s)))
      (h : Program.Follows (settle s a) t' (.pure (.error e, s'))) :
    ReachedBy userId tokenId estimate (t ++ t') (.failed s' e)
  | failedRefund {t t' s e}
      (hopen : Program.Follows (preCharge userId tokenId estimate) t (.pure (.ok s)))
      (h : Program.Follows (refund s) t' (.pure (.error e))) :
    ReachedBy userId tokenId estimate (t ++ t') (.failed s e)

namespace Phase.ReachedBy

variable {userId tokenId estimate : ℤ} {t t' : List BillingCall} {session : BillingSession} {a : ℤ}

theorem ofPreCharge {p : BillingM (ProxyResult BillingSession)}
    (h : Program.Follows (preCharge userId tokenId estimate) t p) :
    ReachedBy userId tokenId estimate t (.ofPreCharge p) := by
  match p with
  | .pure (.ok session) => exact .opened h
  | .pure (.error e) => exact .refused h
  | .call q k => exact .charging h

theorem ofSettle {p : BillingM (ProxyResult Unit × BillingSession)}
    (hopen : Program.Follows (preCharge userId tokenId estimate) t (.pure (.ok session)))
    (h : Program.Follows (settle session a) t' p) :
    ReachedBy userId tokenId estimate (t ++ t') (.ofSettle session a p) := by
  match p with
  | .pure (.ok (), session') => exact .settled hopen h
  | .pure (.error e, session') => exact .failedSettle hopen h
  | .call q k => exact .settling hopen h

theorem ofRefund {p : BillingM (ProxyResult Unit)}
    (hopen : Program.Follows (preCharge userId tokenId estimate) t (.pure (.ok session)))
    (h : Program.Follows (refund session) t' p) :
    ReachedBy userId tokenId estimate (t ++ t') (.ofRefund session p) := by
  match p with
  | .pure (.ok ()) => exact .refunded hopen h
  | .pure (.error e) => exact .failedRefund hopen h
  | .call q k => exact .refunding hopen h

/-- A call takes a request to the phase its longer trace leads to, whatever is replied. -/
theorem next {phase : Phase} {q : BillingReq} {k : q.Resp → Phase}
    (h : ReachedBy userId tokenId estimate t phase) (hnext : phase.next = some ⟨q, k⟩)
    (reply : q.Resp) : ReachedBy userId tokenId estimate (t ++ [⟨q, reply⟩]) (k reply) := by
  cases h with
  | charging h =>
    cases hnext
    exact ofPreCharge (h.snoc reply)
  | settling hopen h =>
    cases hnext
    rw [List.append_assoc]
    exact ofSettle hopen (h.snoc reply)
  | refunding hopen h =>
    cases hnext
    rw [List.append_assoc]
    exact ofRefund hopen (h.snoc reply)
  | _ => cases hnext

/-! ### What a request has charged -/

end Phase.ReachedBy

/-- The trace opened the session for the request, and has since moved `x` on its behalf. -/
structure BillingSession.Holds (s : BillingSession) (userId tokenId : ℤ) (x : ℤ)
    (t : List BillingCall) : Prop where
  user : s.userId = userId
  token : s.tokenId = tokenId
  moved : s.Moved x t
  /-- The token's flag is the one the session read. -/
  flag : (⟨.getTokenUnlimited tokenId, .ok (some s.tokenUnlimited)⟩ : BillingCall) ∈ t

namespace Phase.ReachedBy

variable {userId tokenId estimate : ℤ} {t : List BillingCall} {s : BillingSession} {a : ℤ}
  {q : BillingReq}

theorem preCharge_always :
    Program.Always NoCharge (preCharge userId tokenId estimate) (Opened userId tokenId estimate)
      [] :=
  preCharge_spec userId tokenId estimate rfl

/-- What a trace that opened a session has moved. -/
theorem opened_spec
    (h : Program.Follows (preCharge userId tokenId estimate) t (.pure (.ok s))) :
    Opened userId tokenId estimate (.ok s) t :=
  preCharge_always.sound h

theorem holds_of_opened (h : Opened userId tokenId estimate (.ok s) t) :
    s.Holds userId tokenId s.preCharged t :=
  ⟨h.1, h.2.1, h.2.2.1 ▸ h.2.2.2.2.2.1, h.2.2.2.2.2.2⟩

theorem charging_spec {k : q.Resp → BillingM (ProxyResult BillingSession)}
    (h : ReachedBy userId tokenId estimate t (.charging q k)) : NoCharge t := by
  cases h with
  | charging h => exact (preCharge_always.sound h).1

theorem refused_follows {e : ProxyError} (h : ReachedBy userId tokenId estimate t (.refused e)) :
    Program.Follows (preCharge userId tokenId estimate) t (.pure (.error e)) := by
  cases h with
  | refused h => exact h

theorem refused_spec {e : ProxyError} (h : ReachedBy userId tokenId estimate t (.refused e)) :
    NoCharge t :=
  preCharge_always.sound h.refused_follows

theorem opened_follows (h : ReachedBy userId tokenId estimate t (.opened s)) :
    Program.Follows (preCharge userId tokenId estimate) t (.pure (.ok s)) := by
  cases h with
  | opened h => exact h

theorem opened_holds (h : ReachedBy userId tokenId estimate t (.opened s)) :
    s.Holds userId tokenId s.preCharged t :=
  holds_of_opened (opened_spec h.opened_follows)

/-- A session being settled has moved its pre-charge, or the actual cost once the adjustment is
committed. -/
theorem settling_holds {k : q.Resp → BillingM (ProxyResult Unit × BillingSession)}
    (h : ReachedBy userId tokenId estimate t (.settling s a q k)) :
    s.Holds userId tokenId s.preCharged t ∨ s.Holds userId tokenId a t ∧ Adjusted s t := by
  cases h with
  | settling hopen h =>
    have ho := opened_spec hopen
    have hh := holds_of_opened ho
    have hm := ((settle_spec a ho.2.2.2.2.1 hh.moved).sound h).1
    rcases hm.2 with hm | ⟨hm, hadj⟩
    · exact .inl ⟨hh.user, hh.token, hm, List.mem_append_left _ hh.flag⟩
    · exact .inr ⟨⟨hh.user, hh.token, hm, List.mem_append_left _ hh.flag⟩, hadj⟩

theorem settled_holds (h : ReachedBy userId tokenId estimate t (.settled s a)) :
    s.Holds userId tokenId a t ∧ 0 ≤ a := by
  cases h with
  | settled hopen h =>
    have ho := opened_spec hopen
    have hh := holds_of_opened ho
    obtain ⟨h0, hm, rfl⟩ := (settle_spec a ho.2.2.2.2.1 hh.moved).sound h
    exact ⟨⟨hh.user, hh.token, ⟨hm.own, hm.total⟩, List.mem_append_left _ hh.flag⟩, h0⟩

theorem refunding_holds {k : q.Resp → BillingM (ProxyResult Unit)}
    (h : ReachedBy userId tokenId estimate t (.refunding s q k)) :
    s.Holds userId tokenId s.preCharged t := by
  cases h with
  | refunding hopen h =>
    have hh := holds_of_opened (opened_spec hopen)
    exact ⟨hh.user, hh.token, ((refund_spec hh.moved).sound h).1, List.mem_append_left _ hh.flag⟩

theorem refunded_holds (h : ReachedBy userId tokenId estimate t (.refunded s)) :
    s.Holds userId tokenId 0 t := by
  cases h with
  | refunded hopen h =>
    have hh := holds_of_opened (opened_spec hopen)
    exact ⟨hh.user, hh.token, (refund_spec hh.moved).sound h, List.mem_append_left _ hh.flag⟩

/-- A closing operation that has started to make calls fails only for a fault. -/
theorem next_failed {phase : Phase} {k : q.Resp → Phase} {reply : q.Resp} {e : ProxyError}
    (h : ReachedBy userId tokenId estimate t phase) (hnext : phase.next = some ⟨q, k⟩)
    (hfail : k reply = .failed s e) : Faulty (t ++ [⟨q, reply⟩]) := by
  cases h with
  | @charging t q k h =>
    cases hnext
    cases hk : k reply with
    | pure r => cases r <;> simp [Phase.ofPreCharge, hk] at hfail
    | call q k => simp [Phase.ofPreCharge, hk] at hfail
  | @settling t t' s' a q k hopen h =>
    cases hnext
    have ho := opened_spec hopen
    obtain ⟨⟨h0, -⟩, hrest⟩ := (settle_spec a ho.2.2.2.2.1 (holds_of_opened ho).moved).sound h
    have hrest := hrest reply () trivial
    match hk : k reply with
    | .pure (.ok (), s') => simp [Phase.ofSettle, hk] at hfail
    | .call q k => simp [Phase.ofSettle, hk] at hfail
    | .pure (.error e', s') =>
      rw [hk] at hrest
      rcases hrest with ⟨hneg, -⟩ | ⟨-, hf⟩
      · omega
      · exact hf
  | @refunding t t' s' q k hopen h =>
    cases hnext
    have ho := opened_spec hopen
    have hrest := ((refund_spec (holds_of_opened ho).moved).sound h).2 reply () trivial
    match hk : k reply with
    | .pure (.ok ()) => simp [Phase.ofRefund, hk] at hfail
    | .call q k => simp [Phase.ofRefund, hk] at hfail
    | .pure (.error e') =>
      rw [hk] at hrest
      exact hrest.2
  | _ => cases hnext

end Phase.ReachedBy

namespace Request

/-- The phase of a request is where its trace leads. -/
def Valid (r : Request) : Prop := r.phase.ReachedBy r.userId r.tokenId r.estimate r.trace

end Request

namespace Billing

variable {s s' : Billing} {l : Label}

theorem valid_setRequest {i : ℕ} {r : Request} (hs : ∀ r ∈ s.requests, r.Valid) (hr : r.Valid) :
    ∀ r' ∈ (s.setRequest i r).requests, r'.Valid :=
  Slots.forall_set hs hr

/-- Requests stay valid. -/
theorem valid_step (h : step s l = some s') (hs : ∀ r ∈ s.requests, r.Valid) :
    ∀ r ∈ s'.requests, r.Valid := by
  rcases step_cases h with ⟨u, k, e, -, rfl⟩ | ⟨i, r, session, hr, hphase, hl⟩ |
    ⟨i, now, fault, r, q, k, reply, db, -, hr, hnext, -, rfl⟩
  · intro r hmem
    rcases List.mem_append.mp hmem with h | h
    · exact hs r h
    · rw [List.mem_singleton.mp h]
      exact Phase.ReachedBy.ofPreCharge (.refl _ _)
  · have hopen := hs r (List.mem_of_getElem? hr)
    rw [Request.Valid, hphase] at hopen
    rcases hl with ⟨a, -, rfl⟩ | ⟨-, rfl⟩
    · have := Phase.ReachedBy.ofSettle (a := a) hopen.opened_follows (.refl _ _)
      rw [List.append_nil] at this
      exact valid_setRequest hs this
    · have := Phase.ReachedBy.ofRefund hopen.opened_follows (.refl _ _)
      rw [List.append_nil] at this
      exact valid_setRequest hs this
  · exact valid_setRequest (s := { s with db := db }) hs
      ((hs r (List.mem_of_getElem? hr)).next hnext reply)

theorem valid_run {s₀ : Billing} {ls : List Label} (h₀ : s₀.requests = [])
    (hrun : Machine.run step s₀ ls = some s) : ∀ r ∈ s.requests, r.Valid :=
  Machine.run_invariant' (I := fun s => ∀ r ∈ s.requests, r.Valid)
    (fun _ _ _ hs h => valid_step h hs) hrun (by simp [h₀])

end Billing

/-! ### A small system -/

/-- One user with a balance of 90, a limited token and an unlimited one. -/
def Db.sample : Db where
  users := ⟨[⟨⟨1, "alice", 1, 1, 100, 10, "default"⟩, ""⟩], by decide⟩
  tokens := ⟨[⟨⟨7, 1, "sk-7", none, 50, 0, false, -1, false, none, 1, none⟩, ""⟩,
    ⟨⟨8, 1, "sk-8", none, 0, 0, true, -1, false, none, 1, none⟩, ""⟩], by decide⟩

/-- The small database before any request. -/
def Billing.sample : Billing := ⟨.sample, []⟩

end Chennix
