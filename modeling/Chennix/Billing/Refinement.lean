import Chennix.Billing.Books
import Chennix.Billing.Overdraft
import Chennix.Foundations.Simulation

/-!
# The server bills by sessions

The machine of billing sessions says what requests may do to the accounts, and nothing of why they
do it. The server does no more than that. Between its billing calls a request asks upstreams, looks
at the health of keys and writes rows, and a stream hands its session over from the handler to a
task; but its billing calls are those of one session, so that a run of the server is a run of the
sessions as far as the accounts can tell.

A session says what it reserves when it comes, and what it settles for before the first call of the
settlement. The server finds out as it goes. The traces at the end of its run tell both beforehand:
the sessions come all at once, and each decides when the first call is due that follows from its
decision.

## Main definitions

* `Phase.Goes` — the way of a session, by calls and decisions
* `Sessional`, `Holding` — the calls of a session, and of one that is open
* `Service.InStep` — the sessions have come as far as the server

## Main results

* `serveRequest_sessional` — the billing calls of a request are those of a session
* `Service.simulates` — the sessions go along with the server
* `Service.bills_by_sessions` — a run of the server is a run of the sessions
* `Service.overdraws_nobody` — and so it keeps the accounts solvent
-/

namespace Chennix

open Foundations Program BillingManager

/-! ### The way of a session -/

namespace Phase

/-- A session goes on by its calls, and by decisions that call nobody. -/
inductive Goes : Phase → List BillingCall → Phase → Prop
  | refl (p : Phase) : Goes p [] p
  | call {p p' : Phase} {q : BillingReq} {k : q.Resp → Phase} {r : q.Resp} {t : List BillingCall}
      (hnext : p.next = some ⟨q, k⟩) (rest : Goes (k r) t p') : Goes p (⟨q, r⟩ :: t) p'
  | settle {session : BillingSession} {p' : Phase} {t : List BillingCall} (actual : ℤ)
      (rest : Goes (ofSettle session actual (BillingManager.settle session actual)) t p') :
      Goes (opened session) t p'
  | refund {session : BillingSession} {p' : Phase} {t : List BillingCall}
      (rest : Goes (ofRefund session (BillingManager.refund session)) t p') :
      Goes (opened session) t p'

variable {p p' p'' : Phase} {t t' : List BillingCall} {session : BillingSession} {a : ℤ}

theorem Goes.trans (h : Goes p t p') (h' : Goes p' t' p'') : Goes p (t ++ t') p'' := by
  induction h with
  | refl p => exact h'
  | call hnext _ ih => exact .call hnext (ih h')
  | settle a _ ih => exact .settle a (ih h')
  | refund _ ih => exact .refund (ih h')

section Programs

variable {σ : Type} {H : Handler BillingReq BillingReq.Resp σ} {s s' : σ}

/-- Where a program leads to, its phases lead to. -/
theorem goes_of_exec {α : Type} {phase : BillingM α → Phase}
    (hphase : ∀ q k, (phase (.call q k)).next = some ⟨q, fun r => phase (k r)⟩) {m m' : BillingM α}
    (h : Exec H m s t m' s') : Goes (phase m) t (phase m') := by
  induction h with
  | refl m s => exact .refl _
  | call _ _ ih => exact .call (hphase _ _) ih

theorem goes_ofPreCharge {m m' : BillingM (ProxyResult BillingSession)} (h : Exec H m s t m' s') :
    Goes (ofPreCharge m) t (ofPreCharge m') :=
  goes_of_exec (fun _ _ => rfl) h

theorem goes_ofSettle {m m' : BillingM (ProxyResult Unit × BillingSession)}
    (h : Exec H m s t m' s') : Goes (ofSettle session a m) t (ofSettle session a m') :=
  goes_of_exec (fun _ _ => rfl) h

theorem goes_ofRefund {m m' : BillingM (ProxyResult Unit)} (h : Exec H m s t m' s') :
    Goes (ofRefund session m) t (ofRefund session m') :=
  goes_of_exec (fun _ _ => rfl) h

end Programs

/-- A session that is not open has nothing to decide. -/
theorem Goes.next_of_ne {q : BillingReq} {r : q.Resp} (h : Goes p (⟨q, r⟩ :: t) p')
    (hp : ∀ session, p ≠ opened session) : ∃ k, p.next = some ⟨q, k⟩ ∧ Goes (k r) t p' := by
  cases h with
  | call hnext rest => exact ⟨_, hnext, rest⟩
  | @settle session => exact absurd rfl (hp session)
  | @refund session => exact absurd rfl (hp session)

theorem ofSettle_ne_opened (m : BillingM (ProxyResult Unit × BillingSession))
    (other : BillingSession) : ofSettle session a m ≠ opened other := by
  match m with
  | .pure (.ok (), _) => exact Phase.noConfusion
  | .pure (.error _, _) => exact Phase.noConfusion
  | .call _ _ => exact Phase.noConfusion

theorem ofRefund_ne_opened (m : BillingM (ProxyResult Unit)) (other : BillingSession) :
    ofRefund session m ≠ opened other := by
  match m with
  | .pure (.ok ()) => exact Phase.noConfusion
  | .pure (.error _) => exact Phase.noConfusion
  | .call _ _ => exact Phase.noConfusion

end Phase

/-! ### Steps of the sessions -/

/-- The call takes no more of an account than has been reserved. -/
def BillingReq.Modest : BillingReq → Prop
  | settleAtomic _ _ delta _ => delta ≤ 0
  | _ => True

instance : DecidablePred BillingReq.Modest
  | .settleAtomic _ _ delta _ => inferInstanceAs (Decidable (delta ≤ 0))
  | .getUserQuota _ | .getTokenRemainQuota _ | .updateTokenStatus _ _ | .getTokenUnlimited _
  | .preChargeAtomic _ _ _ _ | .refundAtomic _ _ _ _ => .isTrue trivial

/-- The first call of a settlement tells whether it is modest. -/
theorem modest_of_settle {session : BillingSession} {a : ℤ} {q : BillingReq} {k : q.Resp → Phase}
    (h : (Phase.ofSettle session a (settle session a)).next = some ⟨q, k⟩) (hq : q.Modest) :
    0 ≤ a ∧ a ≤ session.preCharged := by
  unfold settle at h
  split at h
  · cases h
  · split at h
    · cases h
    · rename_i hneg
      split at h
      · cases h
        have hdelta : a - session.preCharged ≤ 0 := hq
        omega
      · omega

namespace Billing

variable {b : Billing} {i : ℕ} {r : Request} {q : BillingReq} {reply : q.Resp} {db : Db}
  {session : BillingSession} {now : String}

theorem step_settle (hr : b.requests[i]? = some r) (hphase : r.phase = .opened session) (a : ℤ) :
    step b (.settle i a) = some (b.setRequest i
      { r with phase := .ofSettle session a (BillingManager.settle session a) }) := by
  simp only [step, hr, hphase]

theorem step_refund (hr : b.requests[i]? = some r) (hphase : r.phase = .opened session) :
    step b (.refund i) = some (b.setRequest i
      { r with phase := .ofRefund session (BillingManager.refund session) }) := by
  simp only [step, hr, hphase]

theorem step_call {k : q.Resp → Phase} (hr : b.requests[i]? = some r)
    (hnext : r.phase.next = some ⟨q, k⟩) (hans : q.answer now b.db = (reply, db)) :
    step b (.call i now none) = some (setRequest { b with db := db } i
      { r with phase := k reply, trace := r.trace ++ [⟨q, reply⟩] }) := by
  simp only [step, hr, hnext, serve, hans]

/-- A decision and the call that follows from it. -/
theorem step_decided {p : Phase} {l : Label} {k : q.Resp → Phase} (hr : b.requests[i]? = some r)
    (hdecide : step b l = some (b.setRequest i { r with phase := p }))
    (hnext : p.next = some ⟨q, k⟩) (hans : q.answer now b.db = (reply, db)) :
    Machine.run step b [l, .call i now none] = some (setRequest { b with db := db } i
      { r with phase := k reply, trace := r.trace ++ [⟨q, reply⟩] }) := by
  have hlt : i < b.requests.length := (List.getElem?_eq_some_iff.mp hr).1
  have hr' : (b.setRequest i { r with phase := p }).requests[i]? = some { r with phase := p } := by
    simp [setRequest, hlt]
  refine Machine.run_cons.mpr ⟨_, hdecide, Machine.run_cons.mpr ⟨_, step_call hr' hnext hans, ?_⟩⟩
  simp [setRequest]

/-- **The next call** on the way of a session is a step of it, after a decision perhaps. -/
theorem exists_run_of_goes {p : Phase} {t : List BillingCall} (hr : b.requests[i]? = some r)
    (hgoes : r.phase.Goes (⟨q, reply⟩ :: t) p) (hans : q.answer now b.db = (reply, db)) :
    ∃ ms p₁, Machine.run step b ms = some (setRequest { b with db := db } i
        { r with phase := p₁, trace := r.trace ++ [⟨q, reply⟩] }) ∧
      p₁.Goes t p ∧ (q.Modest → Machine.Along step Modest b ms) := by
  generalize hphase : r.phase = phase at hgoes
  cases hgoes with
  | call hnext rest =>
    exact ⟨[.call i now none], _, Machine.run_cons.mpr ⟨_, step_call hr (hphase ▸ hnext) hans, rfl⟩,
      rest, fun _ => ⟨trivial, fun _ _ => trivial⟩⟩
  | @settle session _ _ a rest =>
    obtain ⟨k, hnext, rest⟩ := rest.next_of_ne (Phase.ofSettle_ne_opened _)
    refine ⟨_, _, step_decided hr (step_settle hr hphase a) hnext hans, rest, fun hq => ?_⟩
    refine ⟨?_, fun _ _ => ⟨trivial, fun _ _ => trivial⟩⟩
    have hreserved : b.reservedAt i = session.preCharged := by
      simp only [reservedAt, hr, Option.map_some, hphase, Phase.reserved, Option.getD_some]
    rw [Modest, hreserved]
    exact modest_of_settle hnext hq
  | refund rest =>
    obtain ⟨k, hnext, rest⟩ := rest.next_of_ne (Phase.ofRefund_ne_opened _)
    exact ⟨_, _, step_decided hr (step_refund hr hphase) hnext hans, rest,
      fun _ => ⟨trivial, fun _ _ => ⟨trivial, fun _ _ => trivial⟩⟩⟩

end Billing

/-! ### A request -/

/-- The calls are those of a session, as far as they go. -/
def Sessional (userId tokenId : ℤ) (t : List BillingCall) : Prop :=
  ∃ estimate p, (Phase.ofPreCharge (preCharge userId tokenId estimate)).Goes t p

/-- They are those of a session that is open. -/
def Holding (userId tokenId : ℤ) (session : BillingSession) (t : List BillingCall) : Prop :=
  ∃ estimate, (Phase.ofPreCharge (preCharge userId tokenId estimate)).Goes t (.opened session)

section Calls

variable {userId tokenId : ℤ} {session : BillingSession} {t : List BillingCall}

theorem Holding.sessional (h : Holding userId tokenId session t) : Sessional userId tokenId t := by
  obtain ⟨estimate, h⟩ := h
  exact ⟨estimate, _, h⟩

theorem sessional_nil (userId tokenId : ℤ) : Sessional userId tokenId [] := ⟨0, _, .refl _⟩

theorem preCharge_sessional (userId tokenId estimate : ℤ) :
    Always (Sessional userId tokenId) (preCharge userId tokenId estimate)
      (fun r t => match r with
        | .ok session => Holding userId tokenId session t
        | .error _ => Sessional userId tokenId t) [] := by
  refine .of_follows (fun t m h => ⟨estimate, _, Phase.goes_ofPreCharge h⟩) fun t r h => ?_
  cases r with
  | ok session => exact ⟨estimate, Phase.goes_ofPreCharge h⟩
  | error e => exact ⟨estimate, _, Phase.goes_ofPreCharge h⟩

theorem settle_sessional (h : Holding userId tokenId session t) (a : ℤ) :
    Always (Sessional userId tokenId) (settle session a) (fun _ => Sessional userId tokenId) t := by
  obtain ⟨estimate, h⟩ := h
  have hway : ∀ t' m, Program.Follows (settle session a) t' m →
      Sessional userId tokenId (t ++ t') := fun t' m hm =>
    ⟨estimate, _, h.trans (.settle a (Phase.goes_ofSettle hm))⟩
  exact .of_follows hway fun t' r hr => hway t' _ hr

theorem refund_sessional (h : Holding userId tokenId session t) :
    Always (Sessional userId tokenId) (refund session) (fun _ => Sessional userId tokenId) t := by
  obtain ⟨estimate, h⟩ := h
  have hway : ∀ t' m, Program.Follows (refund session) t' m → Sessional userId tokenId (t ++ t') :=
    fun t' m hm => ⟨estimate, _, h.trans (.refund (Phase.goes_ofRefund hm))⟩
  exact .of_follows hway fun t' r hr => hway t' _ hr

end Calls

namespace ExecutionContext

variable (ctx : ExecutionContext)

/-- What the execution has billed are calls of a session. -/
def Bills (t : List ExecCall) : Prop := Sessional ctx.userId ctx.tokenId (billingCalls t)

/-- They are those of a session that is open. -/
def Holds (session : BillingSession) (t : List ExecCall) : Prop :=
  Holding ctx.userId ctx.tokenId session (billingCalls t)

end ExecutionContext

/-- The call does not bill. -/
def ExecReq.Beside : ExecReq → Prop
  | billing _ => False
  | _ => True

section Execution

variable {ctx : ExecutionContext} {session : BillingSession} {t : List ExecCall}

theorem billingCalls_beside {q : ExecReq} (hq : q.Beside) (r : q.Resp) (t : List ExecCall) :
    billingCalls (t ++ [⟨q, r⟩]) = billingCalls t := by
  refine billingCalls_snoc_none ?_ t
  cases q with
  | billing q => exact hq.elim
  | _ => rfl

theorem ExecutionContext.Holds.beside (h : ctx.Holds session t) {q : ExecReq} (hq : q.Beside)
    (r : q.Resp) : ctx.Holds session (t ++ [⟨q, r⟩]) := by
  rwa [ExecutionContext.Holds, billingCalls_beside hq]

theorem ExecutionContext.Bills.beside (h : ctx.Bills t) {q : ExecReq} (hq : q.Beside)
    (r : q.Resp) : ctx.Bills (t ++ [⟨q, r⟩]) := by
  rwa [ExecutionContext.Bills, billingCalls_beside hq]

theorem ExecutionContext.Holds.bills (h : ctx.Holds session t) : ctx.Bills t := h.sessional

theorem refundAndFail_sessional {α : Type} (h : ctx.Holds session t)
    (failure : ExecutionFailure) :
    Always ctx.Bills (refundAndFail session failure : ExecM (Except ExecutionFailure α))
      (fun r t => r = .error failure ∧ ctx.Bills t) t :=
  Throughout.bind ((Always.embed billingCall? (fun _ _ => rfl) (refund_sessional h)).mono
    fun _ _ _ h => ⟨rfl, h⟩)

theorem billing_settle_sessional (h : ctx.Holds session t) (cost : ℤ) :
    Always ctx.Bills (billing (settle session cost)) (fun _ => ctx.Bills) t :=
  Always.embed billingCall? (fun _ _ => rfl) (settle_sessional h cost)

theorem trackSuccess_sessional (h : ctx.Bills t) (rk : RoutedKey) (usage : Usage) (cost : ℤ) :
    Always ctx.Bills (Tracker.trackSuccess ctx rk usage cost "chat") (fun _ => ctx.Bills) t := by
  refine Throughout.of_only (A := ExecReq.Beside) (fun _ r _ _ _ hq _ h => h.beside hq r)
    (fun _ _ h => h) ?_ h
  refine ⟨trivial, fun _ => ⟨trivial, fun _ => ⟨trivial, fun _ => ?_⟩⟩⟩
  refine ((accumulateSmallModelQuota_calls _ _ usage).mono fun q hq => ?_).bind fun _ => trivial
  cases q <;> first | exact hq.elim | trivial

namespace Executor

variable {executor : Executor} {entryFormat : EntryFormat} {body : Json}

theorem actualPricing_sessional (h : ctx.Holds session t) (first : RoutedKey)
    (modelPricing : Option ChannelModelPricing) (rk : RoutedKey) :
    Always ctx.Bills (actualPricing ctx first modelPricing rk) (fun _ => ctx.Holds session) t := by
  unfold actualPricing
  split
  · exact h
  · refine throughout_await h.bills fun r _ _ => ?_
    have hkept := h.beside (q := .getChannelModelPricing ctx.modelId rk.channel.id
      rk.upstreamModelName) trivial r
    cases r <;> exact hkept

theorem settleAndReturn_sessional (h : ctx.Holds session t) (first : RoutedKey)
    (modelPricing : Option ChannelModelPricing) (rk : RoutedKey) (provider : ChannelProvider)
    (reply : ℕ × Bytes) (attempted : List String) :
    Always ctx.Bills (executor.settleAndReturn ctx entryFormat session first modelPricing rk
      provider reply attempted) (fun _ => ctx.Bills) t := by
  refine Throughout.bind ((actualPricing_sessional h first modelPricing rk).mono fun _ t _ h => ?_)
  refine Throughout.bind ((billing_settle_sessional h _).mono fun _ t _ h => ?_)
  refine Throughout.bind ((trackSuccess_sessional h rk _ _).mono fun _ t _ h => ?_)
  split <;> exact h

/-- An execution opens one session, and its exchanges and refunds close it. -/
theorem execution_sessional {ρ α : Type} {post : Except ExecutionFailure α → List ExecCall → Prop}
    {exchange : RoutedKey → Option ChannelModelPricing → BillingSession → Exchange ρ α}
    (hends : ∀ e t, ctx.Bills t → post (.error e) t)
    (hsend : ∀ first pricing session rk reqBody t, ctx.Holds session t →
      Always ctx.Bills ((exchange first pricing session).send rk reqBody)
        (fun reply t => (exchange first pricing session).Leaves anyReply (fun t _ => ctx.Bills t)
          (fun t _ => ctx.Holds session t) (fun r t _ => post r t) rk reply t ()) t) :
    Always ctx.Bills (executor.execution ctx entryFormat body exchange) post [] := by
  have hnone : ctx.Bills [] := sessional_nil _ _
  refine throughout_await hnone fun routed _ _ => ?_
  match routed with
  | .error e => exact hends _ _ hnone
  | .ok [] => exact hends _ _ hnone
  | .ok (binding :: bindings) =>
    refine throughout_await hnone fun pricing _ _ => ?_
    match pricing with
    | .error e => exact hends _ _ hnone
    | .ok pricing =>
      refine Throughout.bind ((Always.embed billingCall? (fun _ _ => rfl)
        (preCharge_sessional ctx.userId ctx.tokenId _)).mono fun r t _ hpost => ?_)
      match r with
      | .error e => exact hends _ _ hpost
      | .ok session =>
        refine tryAll_rule (I := fun t _ => ctx.Holds session t)
          ⟨fun _ _ h => h.bills, fun q r t _ _ hq _ h => h.beside ?_ r,
            fun failure t _ h => (refundAndFail_sessional h failure).mono ?_,
            fun rk reqBody t _ h => hsend _ _ session rk reqBody t h⟩ _ hpost
        · cases q <;> first | exact hq.elim | trivial
        · rintro _ t _ ⟨rfl, h⟩
          exact hends _ _ h

theorem execute_sessional :
    Always ctx.Bills (executor.execute ctx entryFormat body) (fun _ => ctx.Bills) [] := by
  refine execution_sessional (fun _ _ h => h) fun first pricing session rk reqBody t h => ?_
  refine throughout_await h.bills fun reply _ _ => ?_
  have h := h.beside (q := .adaptorExecute rk reqBody) trivial reply
  match reply with
  | none => exact h
  | some (.error e) => exact h
  | some (.ok reply) =>
    exact fun attempted => settleAndReturn_sessional h first pricing rk _ reply attempted

/-- What `executeStream` leaves: the session is open if a stream has begun. -/
theorem executeStream_sessional :
    Always ctx.Bills (executor.executeStream ctx entryFormat body)
      (fun r t => match r with
        | .ok bootstrap => ctx.Holds bootstrap.session t
        | .error _ => ctx.Bills t) [] := by
  refine execution_sessional (fun _ _ h => h) fun first pricing session rk reqBody t h => ?_
  refine throughout_await h.bills fun reply _ _ => ?_
  have h := h.beside (q := .adaptorExecuteStream rk reqBody) trivial reply
  match reply with
  | none => exact h
  | some (.error e) => exact h
  | some (.ok response) =>
    exact fun attempted => Throughout.bind (actualPricing_sessional h first pricing rk)

end Executor

end Execution

/-- What a request has billed are calls of a session. -/
def Incoming.Bills (r : Incoming) (t : List ProxyCall) : Prop :=
  Sessional r.auth.user.id r.auth.token.id (billingCalls (execCalls t))

/-- What the handler leaves: the session is open if there is a stream to relay. -/
def Incoming.HandsOver (r : Incoming) (answer : ProxyResult Response) (t : List ProxyCall) : Prop :=
  match answer with
  | .ok (.sse bootstrap _ _) =>
    Holding r.auth.user.id r.auth.token.id bootstrap.session (billingCalls (execCalls t))
  | _ => r.Bills t

section Request

variable {executor : Executor} {r : Incoming} {modelName : String} {model : ℤ × String}
  {t : List ProxyCall}

theorem executing_sessional {α : Type} {p : ExecM α} {post : α → List ExecCall → Prop}
    (h : Always (r.context model).Bills p post (execCalls t)) :
    Always r.Bills (executing p) (fun a t => post a (execCalls t)) t :=
  Always.embed execCall? (fun _ _ => rfl) h

theorem logRequestEntry_sessional (h : r.Bills t) (entry : RequestLogEntry) :
    Always r.Bills (logRequestEntry entry) (fun _ => r.Bills) t := by
  refine ⟨h, fun reply _ _ => ?_⟩
  show Sessional _ _ (billingCalls (execCalls (t ++ [_])))
  rwa [execCalls_append, show execCalls [⟨.logRequest entry, reply⟩] = [] from rfl,
    List.append_nil]

theorem proxyModel_sessional (hexec : execCalls t = []) :
    Always r.Bills (proxyModel executor r modelName model) r.HandsOver t := by
  have hnone : r.Bills t := by
    rw [Incoming.Bills, hexec]
    exact sessional_nil _ _
  unfold proxyModel
  split
  · exact Throughout.bind ((logRequestEntry_sessional hnone _).mono fun _ _ _ h => h)
  · split
    · refine Throughout.bind ((executing_sessional (hexec ▸
        Executor.executeStream_sessional)).mono fun out t _ hpost => ?_)
      match out with
      | .ok bootstrap => exact hpost
      | .error fail => exact Throughout.bind (logRequestEntry_sessional hpost _)
    · refine Throughout.bind ((executing_sessional (hexec ▸
        Executor.execute_sessional)).mono fun out t _ hpost => ?_)
      match out with
      | .ok result => exact Throughout.bind (logRequestEntry_sessional hpost _)
      | .error fail => exact Throughout.bind (logRequestEntry_sessional hpost _)

theorem proxyRequest_sessional : Always r.Bills (proxyRequest executor r) r.HandsOver [] := by
  have hnone : r.Bills [] := sessional_nil _ _
  unfold proxyRequest
  split
  · exact hnone
  · refine ⟨hnone, fun loaded _ _ => ?_⟩
    match loaded with
    | .error e => exact hnone
    | .ok () =>
      refine ⟨hnone, fun resolved _ _ => ?_⟩
      match resolved with
      | .error e => exact hnone
      | .ok none => exact hnone
      | .ok (some model) => exact proxyModel_sessional rfl

/-- The task settles the session that the handler has opened. -/
theorem closeStream_sessional {bootstrap : StreamBootstrap}
    (h : (r.context model).Holds bootstrap.session (execCalls t)) (usage : Usage) (cost : ℤ) :
    Always r.Bills (closeStream r modelName model bootstrap usage cost) (fun _ => r.Bills) t := by
  refine Throughout.bind ((executing_sessional (billing_settle_sessional h cost)).mono
    fun _ t _ h => ?_)
  refine Throughout.bind ((executing_sessional
    (trackSuccess_sessional h bootstrap.routedKey usage cost)).mono fun _ t _ h => ?_)
  exact logRequestEntry_sessional h _

/-- **A request with its task** bills as a session does, wherever it has got to. -/
theorem serveRequest_sessional :
    Always r.Bills (serveRequest executor r) (fun _ => r.Bills) [] := by
  refine Throughout.bind (proxyRequest_sessional.mono fun answer t _ h => ?_)
  match answer with
  | .error e => exact h
  | .ok (.json body) => exact h
  | .ok (.sse bootstrap modelName model) =>
    exact Throughout.bind (Throughout.bind (closeStream_sessional h _ _))

end Request

/-! ### The calls of the server -/

/-- What a billing call answers and leaves depends on the accounts only. -/
theorem BillingReq.answer_same {db db' : Db} (h : db.SameAccounts db') (now : String)
    (q : BillingReq) :
    (q.answer now db').1 = (q.answer now db).1 ∧
      (q.answer now db).2.SameAccounts (q.answer now db').2 := by
  obtain ⟨users, tokens, _⟩ := db
  obtain ⟨users', tokens', _⟩ := db'
  obtain ⟨rfl, rfl⟩ : users' = users ∧ tokens' = tokens := h
  have hite : ∀ {c : Prop} [Decidable c] {x y x' y' : ProxyResult Unit × Db},
      x'.1 = x.1 ∧ x.2.SameAccounts x'.2 → y'.1 = y.1 ∧ y.2.SameAccounts y'.2 →
        (if c then x' else y').1 = (if c then x else y).1 ∧
          (if c then x else y).2.SameAccounts (if c then x' else y').2 := by
    intro c _ x y x' y' hx hy
    split
    · exact hx
    · exact hy
  cases q with
  | preChargeAtomic u k amount unlimited =>
    exact hite ⟨rfl, rfl, rfl⟩ (hite ⟨rfl, rfl, rfl⟩ (hite ⟨rfl, rfl, rfl⟩ ⟨rfl, rfl, rfl⟩))
  | settleAtomic | refundAtomic => exact hite ⟨rfl, rfl, rfl⟩ ⟨rfl, rfl, rfl⟩
  | _ => exact ⟨rfl, rfl, rfl⟩

/-- The billing calls of a request. -/
def Running.billed (r : Running) : List BillingCall := billingCalls (execCalls r.trace)

/-- The session of a request, as far as it shows: whose it is, and its calls. -/
def Running.session (r : Running) : ℤ × ℤ × List BillingCall :=
  (r.incoming.auth.user.id, r.incoming.auth.token.id, r.billed)

/-- The same of a request to the machine of sessions. -/
def Request.session (r : Request) : ℤ × ℤ × List BillingCall := (r.userId, r.tokenId, r.trace)

/-- The next call of a request. -/
def Running.next? (r : Running) : Option ProxyReq :=
  match r.rest with
  | .pure _ => none
  | .call q _ => some q

/-- The call takes no more of an account than has been reserved. -/
def ProxyReq.Modest : ProxyReq → Prop
  | exec (.billing q) => q.Modest
  | _ => True

instance : DecidablePred ProxyReq.Modest
  | .exec (.billing q) => inferInstanceAs (Decidable q.Modest)
  | .exec (.selectKeys _) | .exec (.getChannelModelPricing _ _ _) | .exec (.isAvailable _ _)
  | .exec (.adaptorExecute _ _) | .exec (.adaptorExecuteStream _ _) | .exec (.markCooldown _ _)
  | .exec (.markDisabled _) | .exec (.logUsage _) | .exec (.addKeyUsage _ _)
  | .exec (.addUsage _ _) | .exec (.getSmallModelQuota _ _)
  | .exec (.updateSmallModelQuota _ _ _ _) | .exec (.addSmallModelUsage _ _ _ _)
  | .loadSnapshot | .resolve _ | .logRequest _ => .isTrue trivial

/-- The next call of a test. -/
def RunningTest.next? (t : RunningTest) : Option TestReq :=
  match t.rest with
  | .pure _ => none
  | .call q _ => some q

/-- The call charges nobody. -/
def TestReq.Free : TestReq → Prop
  | updateUsedQuotaDelta _ _ => False
  | _ => True

instance : DecidablePred TestReq.Free
  | .updateUsedQuotaDelta _ _ => .isFalse fun h => h
  | .findChannel _ | .findModel _ | .findBinding _ _ | .buildClient _ | .send _
  | .logRequest _ => .isTrue trivial

namespace Service

/-- Nobody administers accounts, and nobody is charged for a connection test. -/
def LeavesAccounts (s : Service) : Label → Prop
  | .background (.account _) => False
  | .testCall i _ _ => ∀ t ∈ s.tests[i]?, ∀ q ∈ t.next?, q.Free
  | _ => True

instance (s : Service) : (l : Label) → Decidable (s.LeavesAccounts l)
  | .background (.account _) => .isFalse fun h => h
  | .testCall i _ _ => inferInstanceAs (Decidable (∀ t ∈ s.tests[i]?, ∀ q ∈ t.next?, q.Free))
  | .arrive _ | .call _ _ _ | .background (.importFile _) | .background (.event _)
  | .background (.testCharge _ _) | .background (.resetKeyQuotas _) | .test _ => .isTrue trivial

/-- Settlements take no more than their sessions have reserved. -/
def Modest (s : Service) : Label → Prop
  | .call i _ _ => ∀ r ∈ s.requests[i]?, ∀ q ∈ r.next?, q.Modest
  | _ => True

instance (s : Service) : (l : Label) → Decidable (s.Modest l)
  | .call i _ _ => inferInstanceAs (Decidable (∀ r ∈ s.requests[i]?, ∀ q ∈ r.next?, q.Modest))
  | .arrive _ | .background _ | .test _ | .testCall _ _ _ => .isTrue trivial

/-- The billing calls of request `i`. It has made none before it has come. -/
def billed (s : Service) (i : ℕ) : List BillingCall :=
  ((s.requests.map Running.billed)[i]?).getD []

variable {lib : ServerLibraries} {executor : Executor} {s₀ s s' final : Service} {l : Label}
  {ls : List Label} {b : Billing} {chance : Chance} {reply : (q : ExecReq) → q.Resp}
  {i : ℕ} {r : Running}

theorem billed_eq (hr : s.requests[i]? = some r) : s.billed i = r.billed := by
  rw [billed, List.getElem?_map, hr]
  rfl

theorem billed_same (h : s'.requests = s.requests) (i : ℕ) : s'.billed i = s.billed i := by
  rw [billed, billed, h]

theorem billed_arrive (r : Incoming) (i : ℕ) :
    billed { s with requests := s.requests ++ [⟨r, serveRequest executor r, []⟩] } i =
      s.billed i := by
  rw [billed, billed, List.map_append, List.getElem?_append]
  split
  · rfl
  · rename_i hlate
    rw [List.getElem?_eq_none (not_lt.mp hlate)]
    cases i - (s.requests.map Running.billed).length <;> rfl

/-- What a call leaves of the billing calls. -/
theorem billed_call {q : ProxyReq} {k : q.Resp → ProxyM Served} (hr : s.requests[i]? = some r)
    (reply : q.Resp) (j : ℕ) :
    billed { s with
        requests := s.requests.set i ⟨r.incoming, k reply, r.trace ++ [⟨q, reply⟩]⟩ } j =
      s.billed j ++ if j = i then billingCalls (execCalls [⟨q, reply⟩]) else [] := by
  have hlt : i < s.requests.length := (List.getElem?_eq_some_iff.mp hr).1
  by_cases hj : j = i
  · subst hj
    rw [billed_eq hr, if_pos rfl]
    have hnew : (s.requests.set j ⟨r.incoming, k reply, r.trace ++ [⟨q, reply⟩]⟩)[j]? =
      some ⟨r.incoming, k reply, r.trace ++ [⟨q, reply⟩]⟩ := by simp [hlt]
    rw [billed_eq (s := { s with requests := _ }) hnew, Running.billed, execCalls_append,
      billingCalls_append]
    rfl
  · rw [if_neg hj, List.append_nil, billed, billed, List.map_set,
      List.getElem?_set_ne (Ne.symm hj)]

/-- A call that does not bill leaves the accounts alone. -/
theorem sameAccounts_answer {q : ProxyReq} (hq : ∀ bq, q ≠ .exec (.billing bq)) :
    s.app.db.SameAccounts (s.answer lib chance reply q).2.app.db := by
  cases q with
  | loadSnapshot =>
    show s.app.db.SameAccounts (ConfigCache.get lib.lower chance.rank s.app).2.db
    rw [ConfigCache.db_get]
    exact ⟨rfl, rfl⟩
  | exec q =>
    obtain ⟨pricing, hserves⟩ := serves_answer lib.lower chance s.app q (reply q)
    cases q with
    | billing bq => exact absurd rfl (hq bq)
    | getChannelModelPricing modelId channelId upstream => exact hserves.2
    | _ => exact hserves
  | _ => exact ⟨rfl, rfl⟩

/-- So does a call of a test that charges nobody. -/
theorem sameAccounts_answerTest {chance : Chance} {reply : (q : TestReq) → q.Resp} {q : TestReq}
    (hq : q.Free) : s.app.db.SameAccounts (s.answerTest chance reply q).2.app.db := by
  cases q with
  | updateUsedQuotaDelta userId delta => exact hq.elim
  | _ => exact ⟨rfl, rfl⟩

theorem billingCalls_other {q : ProxyReq} (hq : ∀ bq, q ≠ .exec (.billing bq)) (reply : q.Resp) :
    billingCalls (execCalls [⟨q, reply⟩]) = [] := by
  cases q with
  | exec q =>
    cases q with
    | billing bq => exact absurd rfl (hq bq)
    | _ => rfl
  | _ => rfl

/-- The sessions have come as far as the server, on the way to where its run ends. -/
structure InStep (final s : Service) (b : Billing) : Prop where
  accounts : s.app.db.SameAccounts b.db
  parties : b.requests.map (fun r => (r.userId, r.tokenId)) =
    final.requests.map fun r => (r.incoming.auth.user.id, r.incoming.auth.token.id)
  traces : ∀ i r, b.requests[i]? = some r → r.trace = s.billed i
  ahead : ∀ i r, b.requests[i]? = some r →
    ∃ t p, final.billed i = s.billed i ++ t ∧ r.phase.Goes t p

/-- What does not bill is not seen. -/
theorem InStep.unseen (h : InStep final s b) (haccounts : s.app.db.SameAccounts s'.app.db)
    (hbilled : ∀ i, s'.billed i = s.billed i) : InStep final s' b where
  accounts := ⟨h.accounts.1.trans haccounts.1.symm, h.accounts.2.trans haccounts.2.symm⟩
  parties := h.parties
  traces i r hr := by rw [hbilled, h.traces i r hr]
  ahead i r hr := by
    rw [hbilled]
    exact h.ahead i r hr

/-- **A billing call** of a request is a step of its session. -/
theorem InStep.call (h : InStep final s b) {q : BillingReq} {a : q.Resp} {now : String}
    {k : q.Resp → ProxyM Served} (hr : s.requests[i]? = some r)
    (hrequests : s'.requests =
      s.requests.set i ⟨r.incoming, k a, r.trace ++ [⟨.exec (.billing q), a⟩]⟩)
    (hans : q.answer now s.app.db = (a, s'.app.db))
    (hrun : Machine.run (step lib executor) s' ls = some final) :
    ∃ ms b', Machine.run Billing.step b ms = some b' ∧ InStep final s' b' ∧
      (q.Modest → Machine.Along Billing.step Billing.Modest b ms) := by
  have hbilled : ∀ j, s'.billed j = s.billed j ++ if j = i then [⟨q, a⟩] else [] := by
    intro j
    have hcall := billed_call (q := .exec (.billing q)) (k := k) hr a j
    rwa [← hrequests] at hcall
  have hlt : i < s.requests.length := (List.getElem?_eq_some_iff.mp hr).1
  have hnew : s'.requests[i]? =
      some ⟨r.incoming, k a, r.trace ++ [⟨.exec (.billing q), a⟩]⟩ := by simp [hrequests, hlt]
  obtain ⟨last, hlast, -, hpre⟩ := grows_run hrun hnew
  -- the run ends with the call in the trace
  have hgrown : s'.billed i <+: final.billed i := by
    rw [billed_eq hnew, billed_eq hlast]
    exact (hpre.filterMap _).filterMap _
  obtain ⟨party, hparty⟩ : ∃ party, b.requests[i]? = some party := by
    have hlength := congrArg List.length h.parties
    rw [List.length_map, List.length_map] at hlength
    have hlt : i < final.requests.length := (List.getElem?_eq_some_iff.mp hlast).1
    exact ⟨_, List.getElem?_eq_getElem (hlength ▸ hlt)⟩
  obtain ⟨t, p, ht, hgoes⟩ := h.ahead i party hparty
  rw [hbilled, if_pos rfl, ht, List.prefix_append_right_inj] at hgrown
  obtain ⟨t, rfl⟩ := hgrown
  obtain ⟨hreply, hsame⟩ := BillingReq.answer_same h.accounts now q
  rw [hans] at hreply hsame
  have hans' : q.answer now b.db = (a, (q.answer now b.db).2) := Prod.ext hreply rfl
  obtain ⟨ms, p₁, hms, hgoes, hmodest⟩ := Billing.exists_run_of_goes hparty hgoes hans'
  refine ⟨ms, _, hms, ⟨hsame, ?_, ?_, ?_⟩, hmodest⟩
  · show (List.set _ _ _).map _ = _
    rw [Slots.map_set_same hparty (by rfl), h.parties]
  · intro j r' hr'
    rcases Slots.getElem?_set_cases hr' with ⟨rfl, rfl⟩ | ⟨hne, hr'⟩
    · rw [hbilled, if_pos rfl, ← h.traces j party hparty]
    · rw [hbilled, if_neg hne, List.append_nil, h.traces j r' hr']
  · intro j r' hr'
    rcases Slots.getElem?_set_cases hr' with ⟨rfl, rfl⟩ | ⟨hne, hr'⟩
    · refine ⟨t, p, ?_, hgoes⟩
      rw [hbilled, if_pos rfl, List.append_assoc]
      exact ht
    · rw [hbilled, if_neg hne, List.append_nil]
      exact h.ahead j r' hr'

/-- **The machine of sessions** goes along with the server. -/
theorem simulates (final : Service) :
    Machine.Simulates (step lib executor) Billing.step (InStep final)
      (fun s l => s.LeavesAccounts l ∧ ∀ s₁, step lib executor s l = some s₁ →
        ∃ ls, Machine.run (step lib executor) s₁ ls = some final) Modest Billing.Modest where
  step {s l s' b} hC h hstep := by
    obtain ⟨hleaves, htowards⟩ := hC
    rcases step_cases hstep with ⟨r, -, rfl⟩ | ⟨i, r, q, k, chance, reply, rfl, hr, hnext, rfl⟩ |
      ⟨bg, app, rfl, hbg, happ, rfl⟩ | ⟨t, -, rfl⟩ |
      ⟨i, t, q, k, chance, reply, rfl, ht, hnext, rfl⟩
    · exact ⟨[], b, rfl, h.unseen ⟨rfl, rfl⟩ (billed_arrive r), fun _ => trivial⟩
    · have hrequests := requests_answer lib s chance reply q
      by_cases hq : ∃ bq, q = .exec (.billing bq)
      · obtain ⟨bq, rfl⟩ := hq
        obtain ⟨ls, hrun⟩ := htowards _ hstep
        obtain ⟨ms, b', hms, h', hmodest⟩ := h.call hr rfl rfl hrun
        refine ⟨ms, b', hms, h', fun hl => hmodest ?_⟩
        exact hl r hr (.exec (.billing bq)) (by rw [Running.next?, hnext]; rfl)
      · rw [not_exists] at hq
        refine ⟨[], b, rfl, h.unseen (sameAccounts_answer hq) fun j => ?_, fun _ => trivial⟩
        have hcall := billed_call (k := k) hr (s.answer lib chance reply q).1 j
        rw [billingCalls_other hq, ite_self, List.append_nil, ← hrequests] at hcall
        exact hcall
    · refine ⟨[], b, rfl, h.unseen ?_ fun _ => rfl, fun _ => trivial⟩
      rcases background_accounts hbg happ with hsame | ⟨call, rfl, -⟩
      · exact hsame
      · exact hleaves.elim
    · exact ⟨[], b, rfl, h.unseen ⟨rfl, rfl⟩ fun _ => rfl, fun _ => trivial⟩
    · have hfree : q.Free := hleaves t ht q (by rw [RunningTest.next?, hnext]; rfl)
      exact ⟨[], b, rfl, h.unseen (sameAccounts_answerTest hfree)
        (billed_same (requests_answerTest s chance reply q)), fun _ => trivial⟩

/-- What a request has billed wherever it has got to. -/
theorem bills_run (h₀ : s₀.requests = [])
    (hrun : Machine.run (step lib executor) s₀ ls = some s) :
    ∀ r ∈ s.requests, r.incoming.Bills r.trace := by
  have hall := Machine.run_invariant' (I := fun s : Service => ∀ r ∈ s.requests,
    Always r.incoming.Bills r.rest (fun _ => r.incoming.Bills) r.trace)
    (fun _ _ _ h hstep => always_step (fun _ => serveRequest_sessional) h hstep) hrun (by simp [h₀])
  intro r hr
  have hnow := hall r hr
  cases hrest : r.rest with
  | pure out =>
    rw [hrest] at hnow
    exact hnow
  | call q k =>
    rw [hrest] at hnow
    exact hnow.1

/-- All sessions have come, and none has made a call. -/
theorem exists_arrived (db : Db) (rs : List Running) (h : ∀ r ∈ rs, r.incoming.Bills r.trace) :
    ∃ ms b, Machine.run Billing.step ⟨db, []⟩ ms = some b ∧ b.db = db ∧
      b.requests.map (fun r => (r.userId, r.tokenId)) =
        rs.map (fun r => (r.incoming.auth.user.id, r.incoming.auth.token.id)) ∧
      (∀ (i : ℕ) (r : Request), b.requests[i]? = some r → r.trace = [] ∧
        ∃ (r' : Running) (p : Phase), rs[i]? = some r' ∧ r.phase.Goes r'.billed p) ∧
      Machine.Along Billing.step Billing.Modest ⟨db, []⟩ ms := by
  induction rs using List.reverseRecOn with
  | nil => exact ⟨[], _, rfl, rfl, rfl, fun i r hr => by simp at hr, trivial⟩
  | append_singleton rs r ih =>
    obtain ⟨ms, b, hms, rfl, hparties, hahead, hmodest⟩ :=
      ih fun r' hr' => h r' (List.mem_append_left _ hr')
    obtain ⟨estimate, p, hgoes⟩ := h r (by simp)
    have hlength : b.requests.length = rs.length := by
      rw [← List.length_map, hparties, List.length_map]
    have harrived : Machine.run Billing.step ⟨b.db, []⟩
        (ms ++ [.arrive r.incoming.auth.user.id r.incoming.auth.token.id estimate]) =
        some ⟨b.db, b.requests ++ [⟨r.incoming.auth.user.id, r.incoming.auth.token.id, estimate,
          .ofPreCharge (preCharge r.incoming.auth.user.id r.incoming.auth.token.id estimate),
          []⟩]⟩ :=
      Machine.run_append.mpr ⟨b, hms, rfl⟩
    refine ⟨_, _, harrived, rfl, ?_, fun i r' hr' => ?_,
      hmodest.trans hms ⟨trivial, fun _ _ => trivial⟩⟩
    · rw [List.map_append, List.map_append, hparties]
      rfl
    · rcases lt_trichotomy i rs.length with hi | rfl | hi
      · rw [List.getElem?_append_left (hlength ▸ hi)] at hr'
        rw [List.getElem?_append_left hi]
        exact hahead i r' hr'
      · rw [← hlength, List.getElem?_concat_length] at hr'
        cases hr'
        exact ⟨rfl, r, p, List.getElem?_concat_length, hgoes⟩
      · rw [List.getElem?_eq_none (by simp; omega)] at hr'
        cases hr'

/-- A run of the server takes the sessions to where it ends. -/
theorem exists_inStep (h₀ : s₀.requests = [])
    (hleaves : Machine.Along (step lib executor) LeavesAccounts s₀ ls)
    (hrun : Machine.run (step lib executor) s₀ ls = some s) :
    ∃ ms b, Machine.run Billing.step ⟨s₀.app.db, []⟩ ms = some b ∧ InStep s s b ∧
      (Machine.Along (step lib executor) Modest s₀ ls →
        Machine.Along Billing.step Billing.Modest ⟨s₀.app.db, []⟩ ms) := by
  obtain ⟨ms₀, b₀, hms₀, hdb, hparties, hahead, hmodest₀⟩ :=
    exists_arrived s₀.app.db s.requests (bills_run h₀ hrun)
  have hnone : ∀ i, s₀.billed i = [] := by simp [billed, h₀]
  have hstart : InStep s s₀ b₀ := by
    refine ⟨hdb ▸ ⟨rfl, rfl⟩, hparties, fun i r hr => ?_, fun i r hr => ?_⟩
    · rw [hnone, (hahead i r hr).1]
    · obtain ⟨-, r', p, hr', hgoes⟩ := hahead i r hr
      exact ⟨r'.billed, p, by rw [hnone, billed_eq hr', List.nil_append], hgoes⟩
  obtain ⟨ms, b, hms, hend, hmodest⟩ :=
    (simulates s).run hrun (hleaves.and (Machine.along_towards hrun)) hstart
  exact ⟨ms₀ ++ ms, b, Machine.run_append.mpr ⟨b₀, hms₀, hms⟩, hend,
    fun hl => hmodest₀.trans hms₀ (hmodest hl)⟩

theorem InStep.sessions (h : InStep s s b) :
    b.requests.map Request.session = s.requests.map Running.session := by
  refine List.ext_getElem? fun i => ?_
  have hparty := congrArg (fun l => l[i]?) h.parties
  simp only [List.getElem?_map] at hparty ⊢
  cases hr : b.requests[i]? with
  | none =>
    cases hr' : s.requests[i]? with
    | none => rfl
    | some r' => simp [hr, hr'] at hparty
  | some r =>
    cases hr' : s.requests[i]? with
    | none => simp [hr, hr'] at hparty
    | some r' =>
      rw [hr, hr'] at hparty
      obtain ⟨huser, htoken⟩ := Prod.mk.inj (Option.some.inj hparty)
      have htrace := h.traces i r hr
      rw [billed_eq hr'] at htrace
      simp only [Option.map_some, Request.session, Running.session, huser, htoken, htrace]

/-- **The server bills by sessions.** As long as nobody administers accounts or is charged for a
connection test, every run of the server is one of the machine of sessions, from the same accounts
to the same accounts, with a session for each request: in the name of its user and its token, and
with its billing calls. Where the settlements of the server are modest, so are those of the
sessions. -/
theorem bills_by_sessions (h₀ : s₀.requests = [])
    (hleaves : Machine.Along (step lib executor) LeavesAccounts s₀ ls)
    (hrun : Machine.run (step lib executor) s₀ ls = some s) :
    ∃ ms b, Machine.run Billing.step ⟨s₀.app.db, []⟩ ms = some b ∧ s.app.db.SameAccounts b.db ∧
      b.requests.map Request.session = s.requests.map Running.session ∧
      (Machine.Along (step lib executor) Modest s₀ ls →
        Machine.Along Billing.step Billing.Modest ⟨s₀.app.db, []⟩ ms) := by
  obtain ⟨ms, b, hms, hend, hmodest⟩ := exists_inStep h₀ hleaves hrun
  exact ⟨ms, b, hms, hend.accounts, hend.sessions, hmodest⟩

/-- **The server overdraws nobody.** From solvent accounts, and as long as nobody administers them
or is charged for a connection test, every run of the server keeps them solvent in which a
settlement takes no more than its session has reserved. -/
theorem overdraws_nobody (h₀ : s₀.requests = []) (hsolvent : s₀.app.db.Solvent)
    (hleaves : Machine.Along (step lib executor) LeavesAccounts s₀ ls)
    (hmodest : Machine.Along (step lib executor) Modest s₀ ls)
    (hrun : Machine.run (step lib executor) s₀ ls = some s) : s.app.db.Solvent := by
  obtain ⟨ms, b, hms, hend, hmodest'⟩ := exists_inStep h₀ hleaves hrun
  obtain ⟨husers, htokens⟩ := hend.accounts
  have hsolvent' : b.db.Solvent := Billing.solvent_run rfl hsolvent (hmodest' hmodest) hms
  exact ⟨fun u row hrow => hsolvent'.1 u row (by rw [husers, hrow]),
    fun k row hrow => hsolvent'.2 k row (by rw [htokens, hrow])⟩

/-! ### A small run -/

/-- The model is configured, and a request for it is answered that says how much it may take. Then
the channel is tested in vain. -/
def cappedLabels : List Label :=
  sampleLabels.take 2 ++ [.arrive { sampleIncoming with
    body := .object [("model", .string "model-7"), ("max_tokens", Json.ofU64 600)] }] ++
    sampleLabels.drop 4 ++ [.test ⟨1, "test-1", .channel 1⟩] ++
    List.replicate 4 (sampleTestCall 0 (.error "connection refused"))

theorem exists_cappedRun :
    ∃ s, Machine.run (step boundLibraries Executor.sample) sampleStart cappedLabels = some s :=
  Option.isSome_iff_exists.mp (by decide +kernel)

theorem leavesAccounts_capped :
    Machine.Along (step boundLibraries Executor.sample) LeavesAccounts sampleStart
      cappedLabels := by
  decide +kernel

theorem modest_capped :
    Machine.Along (step boundLibraries Executor.sample) Modest sampleStart cappedLabels := by
  decide +kernel

theorem bills_by_sessions_sample :
    ∃ s ms b, Machine.run (step boundLibraries Executor.sample) sampleStart cappedLabels = some s ∧
      Machine.run Billing.step ⟨sampleStart.app.db, []⟩ ms = some b ∧
      s.app.db.SameAccounts b.db ∧
      b.requests.map Request.session = s.requests.map Running.session ∧
      Machine.Along Billing.step Billing.Modest ⟨sampleStart.app.db, []⟩ ms := by
  obtain ⟨s, hrun⟩ := exists_cappedRun
  obtain ⟨ms, b, hms, haccounts, hsessions, hmodest⟩ :=
    bills_by_sessions rfl leavesAccounts_capped hrun
  exact ⟨s, ms, b, hrun, hms, haccounts, hsessions, hmodest modest_capped⟩

theorem solvent_sampleStart : sampleStart.app.db.Solvent := by
  constructor
  · intro u row hrow
    have hmem : row ∈ Db.sample.users.rows := Table.mem_of_find? hrow
    simp only [Db.sample, List.mem_singleton] at hmem
    subst hmem
    decide
  · intro k row hrow hlimited
    have hmem : row ∈ Db.sample.tokens.rows := Table.mem_of_find? hrow
    simp only [Db.sample, List.mem_cons, List.not_mem_nil, or_false] at hmem
    rcases hmem with rfl | rfl
    · decide
    · cases hlimited

theorem overdraws_nobody_sample :
    ∃ s, Machine.run (step boundLibraries Executor.sample) sampleStart cappedLabels = some s ∧
      s.app.db.Solvent := by
  obtain ⟨s, hrun⟩ := exists_cappedRun
  exact ⟨s, hrun, overdraws_nobody rfl solvent_sampleStart leavesAccounts_capped modest_capped hrun⟩

/-- A test that succeeds takes what it costs, whatever is left of the quota. -/
def dearLabels : List Label :=
  [.background (.importFile boundConfig), priceLabel 0.001, .test ⟨1, "test-1", .channel 1⟩] ++
    List.replicate 5 (sampleTestCall 0 (.ok ⟨200, "200 OK", none⟩))

/-- The condition on connection tests is needed. -/
theorem overdrawn_by_test :
    ∃ s, Machine.run (step boundLibraries Executor.sample) sampleStart dearLabels = some s ∧
      ¬s.app.db.Solvent := by
  have hrun : (Machine.run (step boundLibraries Executor.sample) sampleStart dearLabels).any
      (fun s => (s.app.db.users.find? 1).any fun row => row.quota < row.usedQuota) = true := by
    decide +kernel
  rw [Option.any_eq_true] at hrun
  obtain ⟨s, hrun, hover⟩ := hrun
  rw [Option.any_eq_true] at hover
  obtain ⟨row, hrow, hover⟩ := hover
  refine ⟨s, hrun, fun hsolvent => ?_⟩
  exact absurd (hsolvent.1 1 row hrow) (not_le.mpr (of_decide_eq_true hover))

end Service

end Chennix
