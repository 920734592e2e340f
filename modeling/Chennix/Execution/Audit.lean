import Chennix.Execution.Settlement
import Chennix.Server.ProxyRequest

/-!
# The audit of a request

A request whose model is known leaves one row in the request log, whatever becomes of it, and one
row in the usage log for each attempt. Whoever answers the calls of the request, the cost in the
first is the sum of the costs in the others, and it is what the accounts have been charged, unless
a call failed that only a failing repository refuses, or the cost is negative and was not settled.

## Main definitions

* `usageRows`, `requestRows` — the rows that a trace writes
* `Tracked`, `PaidFor` — what the usage log and the accounts say of a request
* `Booked` — what all books say of a request that is through

## Main results

* `Executor.execute_audited`, `Executor.executeStream_audited` — the two executions
* `serveRequest_booked` — a request with its task
-/

namespace Chennix

open Foundations Program BillingManager

/-! ### The rows that a trace writes -/

/-- The row of the usage log that a call writes. -/
def usageRow? : ExecCall → Option UsageEntry
  | ⟨.logUsage entry, _⟩ => some entry
  | _ => none

def usageRows (t : List ExecCall) : List UsageEntry := t.filterMap usageRow?

/-- The call of the execution among the calls of a request. -/
def execCall? : ProxyCall → Option ExecCall
  | ⟨.exec q, r⟩ => some ⟨q, r⟩
  | _ => none

def execCalls (t : List ProxyCall) : List ExecCall := t.filterMap execCall?

/-- The row of the request log that a call writes. -/
def requestRow? : ProxyCall → Option RequestLogEntry
  | ⟨.logRequest entry, _⟩ => some entry
  | _ => none

def requestRows (t : List ProxyCall) : List RequestLogEntry := t.filterMap requestRow?

/-- The trace has written no row of the request log. -/
abbrev Unlogged (t : List ProxyCall) : Prop := requestRows t = []

theorem usageRows_append (t t' : List ExecCall) :
    usageRows (t ++ t') = usageRows t ++ usageRows t' := List.filterMap_append

theorem execCalls_append (t t' : List ProxyCall) :
    execCalls (t ++ t') = execCalls t ++ execCalls t' := List.filterMap_append

theorem requestRows_append (t t' : List ProxyCall) :
    requestRows (t ++ t') = requestRows t ++ requestRows t' := List.filterMap_append

/-! ### What the books say of an execution -/

/-- The rows of the usage log are the request's, a number of them tell of a success, and they cost
an amount. -/
structure Tracked (ctx : ExecutionContext) (successes : ℕ) (cost : ℤ) (rows : List UsageEntry) :
    Prop where
  own : ∀ row ∈ rows,
    row.userId = ctx.userId ∧ row.tokenId = ctx.tokenId ∧ row.modelId = ctx.modelId
  successes : rows.countP (fun row => row.status == "success") = successes
  cost : (rows.map UsageEntry.quotaCost).sum = cost

/-- The trace has charged an amount to the accounts of the request. -/
inductive Paid (ctx : ExecutionContext) (x : ℤ) (t : List ExecCall) : Prop
  | nothing (h : NoCharge (billingCalls t)) (hx : x = 0)
  | session (s : BillingSession) (hs : Executor.Opens ctx s t) (h : s.Moved x (billingCalls t))

/-- The accounts have been charged the cost. A negative cost leaves them charged with what was
reserved: its settlement is refused. -/
structure PaidFor (ctx : ExecutionContext) (cost : ℤ) (t : List ExecCall) : Prop where
  paid : ¬Faulty (billingCalls t) → 0 ≤ cost → Paid ctx cost t
  kept : ¬Faulty (billingCalls t) → cost < 0 →
    ∃ s, Executor.Opens ctx s t ∧ s.Moved s.preCharged (billingCalls t)

/-- The session is open, and nothing has come of it yet. -/
structure Reserved (ctx : ExecutionContext) (s : BillingSession) (t : List ExecCall) : Prop where
  opens : Executor.Opens ctx s t
  moved : s.Moved s.preCharged (billingCalls t)
  tracked : Tracked ctx 0 0 (usageRows t)

section Execution

variable {ctx : ExecutionContext} {n : ℕ} {cost x : ℤ} {rows : List UsageEntry}
  {t t' : List ExecCall} {s : BillingSession} {a : ExecCall}

theorem Tracked.nil : Tracked ctx 0 0 [] := ⟨by simp, rfl, rfl⟩

/-- A row is added. -/
theorem Tracked.snoc (h : Tracked ctx n cost rows) (row : UsageEntry)
    (hown : row.userId = ctx.userId ∧ row.tokenId = ctx.tokenId ∧ row.modelId = ctx.modelId) :
    Tracked ctx (n + if row.status == "success" then 1 else 0) (cost + row.quotaCost)
      (rows ++ [row]) where
  own := by
    intro row' hmem
    rcases List.mem_append.mp hmem with hmem | hmem
    · exact h.own row' hmem
    · rwa [List.mem_singleton.mp hmem]
  successes := by rw [List.countP_append, h.successes, List.countP_singleton]
  cost := by simp [h.cost]

theorem Tracked.failure (h : Tracked ctx n cost rows) {row : UsageEntry}
    (hrow : row.OfFailure ctx) : Tracked ctx n cost (rows ++ [row]) := by
  obtain ⟨rk, error, rfl⟩ := hrow
  have hsnoc := h.snoc ⟨ctx.userId, ctx.tokenId, rk.channel.id, rk.key.id, ctx.modelId,
    .zero, 0, "chat", "failed", some error⟩ ⟨rfl, rfl, rfl⟩
  simpa using hsnoc

theorem Tracked.success (h : Tracked ctx 0 0 rows) (rk : RoutedKey) (usage : Usage) (cost : ℤ) :
    Tracked ctx 1 cost (rows ++ [⟨ctx.userId, ctx.tokenId, rk.channel.id, rk.key.id, ctx.modelId,
      usage, cost, "chat", "success", none⟩]) := by
  have hsnoc := h.snoc ⟨ctx.userId, ctx.tokenId, rk.channel.id, rk.key.id, ctx.modelId,
    usage, cost, "chat", "success", none⟩ ⟨rfl, rfl, rfl⟩
  simpa using hsnoc

theorem usageRows_snoc_none (ha : usageRow? a = none) (t : List ExecCall) :
    usageRows (t ++ [a]) = usageRows t := by
  simp [usageRows, ha]

/-- What has been paid depends on the billing calls only. -/
theorem Paid.mono (h : Paid ctx x t) (hpre : t <+: t') (hbill : billingCalls t' = billingCalls t) :
    Paid ctx x t' := by
  cases h with
  | nothing h hx => exact .nothing (by rwa [hbill]) hx
  | session s hs h => exact .session s (hs.mono hpre) (by rwa [hbill])

theorem PaidFor.mono (h : PaidFor ctx cost t) (hpre : t <+: t')
    (hbill : billingCalls t' = billingCalls t) : PaidFor ctx cost t' where
  paid hf h0 := (h.paid (hbill ▸ hf) h0).mono hpre hbill
  kept hf h0 := by
    obtain ⟨s, hs, hm⟩ := h.kept (hbill ▸ hf) h0
    exact ⟨s, hs.mono hpre, by rwa [hbill]⟩

theorem PaidFor.of_noCharge (h : NoCharge (billingCalls t)) : PaidFor ctx 0 t where
  paid _ _ := .nothing h rfl
  kept _ h0 := absurd h0 (lt_irrefl 0)

theorem Reserved.snoc (h : Reserved ctx s t) (ha : billingCall? a = none)
    (htracked : Tracked ctx 0 0 (usageRows (t ++ [a]))) : Reserved ctx s (t ++ [a]) where
  opens := h.opens.snoc a
  moved := by rw [billingCalls_snoc_none ha]; exact h.moved
  tracked := htracked

/-- A call that is neither of billing nor of tracking. -/
theorem Reserved.other (h : Reserved ctx s t) (ha : billingCall? a = none)
    (hrow : usageRow? a = none) : Reserved ctx s (t ++ [a]) :=
  h.snoc ha (by rw [usageRows_snoc_none hrow]; exact h.tracked)

/-- The calls of the loop. -/
theorem Reserved.loop (h : Reserved ctx s t) {q : ExecReq} (hq : q.OfLoop ctx) (r : q.Resp) :
    Reserved ctx s (t ++ [⟨q, r⟩]) := by
  cases q with
  | logUsage entry =>
    refine h.snoc rfl ?_
    rw [usageRows_append]
    exact h.tracked.failure hq
  | isAvailable | markCooldown | markDisabled => exact h.other rfl rfl
  | _ => exact hq.elim

/-! ### Operations of the billing manager -/

/-- An operation of the billing manager writes no usage. -/
theorem billing_audit {α : Type} {p : BillingM α} {φ : List BillingCall → Prop}
    {post : α → List BillingCall → Prop} (h : Always φ p post (billingCalls t)) :
    Always (fun _ => True) (billing p)
      (fun a t' => (post a (billingCalls t') ∧ usageRows t' = usageRows t) ∧ t <+: t') t := by
  refine (((Always.embed billingCall? (fun _ _ => rfl) h).and (Throughout.of_only
    (I := fun t' _ => usageRows t' = usageRows t) ?_ (fun _ _ _ => trivial)
    (Only.embed p) rfl)).grows).imp fun _ _ _ => trivial
  rintro _ r t' _ _ ⟨q, rfl⟩ - ht'
  exact (usageRows_snoc_none rfl t').trans ht'

theorem refund_audit {α : Type} (h : Reserved ctx s t) (failure : ExecutionFailure) :
    Always (fun _ => True)
      (refundAndFail s failure : ExecM (Except ExecutionFailure α))
      (fun r t => r = .error failure ∧ Tracked ctx 0 0 (usageRows t) ∧ PaidFor ctx 0 t) t := by
  refine Throughout.bind ((billing_audit (refund_spec h.moved)).mono fun r t' _ hpost => ?_)
  obtain ⟨⟨hpost, hrows⟩, hpre⟩ := hpost
  refine ⟨rfl, by rw [hrows]; exact h.tracked, fun hf _ => ?_, fun _ h0 => absurd h0 (lt_irrefl 0)⟩
  match r with
  | .ok () => exact .session s (h.opens.mono hpre) hpost
  | .error e => exact absurd hpost.2 hf

theorem settle_audit (h : Reserved ctx s t) (cost : ℤ) :
    Always (fun _ => True) (billing (settle s cost))
      (fun _ t => Tracked ctx 0 0 (usageRows t) ∧ PaidFor ctx cost t) t := by
  refine (billing_audit (settle_spec cost h.opens.unsettled h.moved)).mono fun r t' _ hpost => ?_
  obtain ⟨⟨hpost, hrows⟩, hpre⟩ := hpost
  have hopens := h.opens.mono hpre
  refine ⟨by rw [hrows]; exact h.tracked, ?_⟩
  match r with
  | (.ok (), s') =>
    exact ⟨fun _ _ => .session s hopens hpost.2.1, fun _ h0 => absurd hpost.1 (by omega)⟩
  | (.error e, s') =>
    rcases hpost with ⟨hneg, hm⟩ | ⟨-, hfaulty⟩
    · exact ⟨fun _ h0 => absurd hneg (by omega),
        fun _ _ => ⟨s, hopens, hm⟩⟩
    · exact ⟨fun hf => absurd hfaulty hf, fun hf => absurd hfaulty hf⟩

/-- The calls that count what a success has used. -/
def ExecReq.OfCounters : ExecReq → Prop
  | addKeyUsage _ _ => True
  | addUsage _ _ => True
  | q => q.OfSmallModel

theorem ExecReq.OfCounters.silent {q : ExecReq} (h : q.OfCounters) (r : q.Resp) :
    billingCall? ⟨q, r⟩ = none ∧ usageRow? ⟨q, r⟩ = none := by
  cases q <;> first | exact h.elim | exact ⟨rfl, rfl⟩

theorem ExecReq.OfSmallModel.ofCounters {q : ExecReq} (h : q.OfSmallModel) : q.OfCounters := by
  cases q <;> first | exact h.elim | exact h

/-- The row of a success, and the counters. -/
theorem trackSuccess_audit (htracked : Tracked ctx 0 0 (usageRows t)) (hpaid : PaidFor ctx cost t)
    (rk : RoutedKey) (usage : Usage) :
    Always (fun _ => True) (Tracker.trackSuccess ctx rk usage cost "chat")
      (fun _ t => Tracked ctx 1 cost (usageRows t) ∧ PaidFor ctx cost t) t := by
  refine ⟨trivial, fun r _ _ => ?_⟩
  refine Throughout.of_only (A := ExecReq.OfCounters)
    (I := fun t _ => Tracked ctx 1 cost (usageRows t) ∧ PaidFor ctx cost t) ?_
    (fun _ _ _ => trivial) ?_ ?_
  · rintro q r t _ _ hq - ⟨htracked, hpaid⟩
    obtain ⟨hbill, hrow⟩ := hq.silent r
    exact ⟨by rwa [usageRows_snoc_none hrow],
      hpaid.mono (List.prefix_append ..) (billingCalls_snoc_none hbill t)⟩
  · exact ⟨trivial, fun _ => ⟨trivial, fun _ => ((accumulateSmallModelQuota_calls _ _ usage).mono
      fun _ hq => hq.ofCounters).bind fun _ => trivial⟩⟩
  · refine ⟨?_, hpaid.mono (List.prefix_append ..) (billingCalls_snoc_none rfl t)⟩
    rw [usageRows_append]
    exact htracked.success rk usage cost

end Execution

/-! ### The two executions -/

namespace Executor

variable {executor : Executor} {ctx : ExecutionContext} {entryFormat : EntryFormat} {body : Json}
  {t : List ExecCall} {s : BillingSession}

/-- What `execute` ends with. -/
def Audited (ctx : ExecutionContext) :
    Except ExecutionFailure ExecutionResult → List ExecCall → Prop
  | .error _, t => Tracked ctx 0 0 (usageRows t) ∧ PaidFor ctx 0 t
  | .ok res, t => Tracked ctx 1 res.quotaCost (usageRows t) ∧ PaidFor ctx res.quotaCost t

/-- What `executeStream` ends with. -/
def StreamAudited (ctx : ExecutionContext) :
    Except ExecutionFailure StreamBootstrap → List ExecCall → Prop
  | .error _, t => Tracked ctx 0 0 (usageRows t) ∧ PaidFor ctx 0 t
  | .ok b, t => Reserved ctx b.session t

/-- A lookup of the pricing leaves the session as it is. -/
theorem actualPricing_audit (h : Reserved ctx s t) (first : RoutedKey)
    (modelPricing : Option ChannelModelPricing) (rk : RoutedKey) :
    Always (fun _ => True) (actualPricing ctx first modelPricing rk)
      (fun _ t => Reserved ctx s t) t := by
  unfold actualPricing
  split
  · exact h
  · refine throughout_await trivial fun r _ _ => ?_
    match r with
    | .ok pricing => exact h.other rfl rfl
    | .error e => exact h.other rfl rfl

/-- From a response to the result. -/
theorem settleAndReturn_audit (h : Reserved ctx s t) (first : RoutedKey)
    (modelPricing : Option ChannelModelPricing) (rk : RoutedKey)
    (adaptorProvider : ChannelProvider) (reply : ℕ × Bytes) (attempted : List String) :
    Always (fun _ => True) (executor.settleAndReturn ctx entryFormat s first modelPricing rk
      adaptorProvider reply attempted) (Audited ctx) t := by
  refine Throughout.bind ((actualPricing_audit h first modelPricing rk).mono fun _ t _ h => ?_)
  refine Throughout.bind ((settle_audit h _).mono fun _ t _ hsettled => ?_)
  refine Throughout.bind ((trackSuccess_audit hsettled.1 hsettled.2 rk _).mono fun _ t _ h => ?_)
  obtain ⟨body, hbody⟩ := finalBody_ok executor.codec executor.now entryFormat adaptorProvider
    reply.2 ((executor.codec.fromSlice reply.2).toOption.getD .null)
  simp only [hbody]
  exact h

/-- An execution, given that its exchanges end well. -/
theorem execution_audit {ρ α : Type} {post : Except ExecutionFailure α → List ExecCall → Prop}
    {exchange : RoutedKey → Option ChannelModelPricing → BillingSession → Exchange ρ α}
    (hends : ∀ e t, Tracked ctx 0 0 (usageRows t) → PaidFor ctx 0 t → post (.error e) t)
    (hsend : ∀ first pricing s rk reqBody t, Reserved ctx s t →
      Always (fun _ => True) ((exchange first pricing s).send rk reqBody)
        (fun reply t => (exchange first pricing s).Leaves anyReply (fun _ _ => True)
          (fun t _ => Reserved ctx s t) (fun r t _ => post r t) rk reply t ()) t) :
    Always (fun _ => True) (executor.execution ctx entryFormat body exchange) post [] := by
  have hidle : ∀ e t, usageRows t = [] → NoCharge (billingCalls t) → post (.error e) t :=
    fun e t hrows hno => hends e t (hrows ▸ .nil) (.of_noCharge hno)
  refine throughout_await trivial fun routed _ _ => ?_
  match routed with
  | .error e => exact hidle _ _ rfl rfl
  | .ok [] => exact hidle _ _ rfl rfl
  | .ok (binding :: bindings) =>
    refine throughout_await trivial fun r _ _ => ?_
    match r with
    | .error e => exact hidle _ _ rfl rfl
    | .ok modelPricing =>
      have hno : NoCharge (billingCalls [(⟨.selectKeys ctx, .ok (binding :: bindings)⟩ : ExecCall),
        ⟨.getChannelModelPricing ctx.modelId binding.first.channel.id
          binding.first.upstreamModelName, .ok modelPricing⟩]) := rfl
      refine Throughout.bind ((billing_audit (preCharge_spec ctx.userId ctx.tokenId _ hno)).mono
        fun r t _ hpost => ?_)
      obtain ⟨⟨hpost, hrows⟩, -⟩ := hpost
      match r with
      | .error e => exact hidle _ _ hrows hpost
      | .ok s =>
        obtain ⟨huser, htoken, hpre, hpos, hset, hm, hflag⟩ := hpost
        refine tryAll_loop (I := fun t _ => Reserved ctx s t)
          ⟨fun _ _ _ => trivial, fun q r t _ _ hq _ h => h.loop hq r,
            fun failure t _ h => (refund_audit h failure).mono ?_,
            fun rk reqBody t _ h => hsend _ _ s rk reqBody t h⟩ _
          ⟨⟨huser, htoken, hpre ▸ hpos, hset, hflag⟩, hpre ▸ hm, by rw [hrows]; exact .nil⟩
        rintro _ t _ ⟨rfl, htracked, hpaid⟩
        exact hends _ _ htracked hpaid

/-- **`execute`**: its rows cost what it reports, and what has been charged. -/
theorem execute_audited :
    Always (fun _ => True) (executor.execute ctx entryFormat body) (Audited ctx) [] := by
  refine execution_audit (fun e t h h' => ⟨h, h'⟩) fun first pricing s rk reqBody t h => ?_
  refine throughout_await trivial fun reply _ _ => ?_
  have h := h.other (a := ⟨.adaptorExecute rk reqBody, reply⟩) rfl rfl
  match reply with
  | none => exact h
  | some (.error e) => exact h
  | some (.ok reply) =>
    exact fun attempted => settleAndReturn_audit h first pricing rk _ reply attempted

/-- **`execute_stream`**: the same where it fails, and else its session is open. -/
theorem executeStream_audited :
    Always (fun _ => True) (executor.executeStream ctx entryFormat body) (StreamAudited ctx)
      [] := by
  refine execution_audit (fun e t h h' => ⟨h, h'⟩) fun first pricing s rk reqBody t h => ?_
  refine throughout_await trivial fun reply _ _ => ?_
  have h := h.other (a := ⟨.adaptorExecuteStream rk reqBody, reply⟩) rfl rfl
  match reply with
  | none => exact h
  | some (.error e) => exact h
  | some (.ok response) =>
    intro attempted
    exact Throughout.bind (actualPricing_audit h first pricing rk)

end Executor

/-! ### A request with its task -/

namespace Served

/-- The client has been refused. -/
def isRefused : Served → Bool
  | .refused _ => true
  | _ => false

end Served

/-- What the row of a request tells: who has asked, for which model, and what has come of it. -/
structure RequestLogEntry.Tells (r : Incoming) (model : ℤ × String) (out : Served)
    (entry : RequestLogEntry) : Prop where
  requestId : entry.requestId = r.requestId
  method : entry.method = "POST"
  user : entry.userId = some r.auth.user.id
  token : entry.tokenId = some r.auth.token.id
  clientModel : entry.clientModel = r.body.getStr "model"
  normalizedModel : entry.normalizedModel = some model.2
  status : entry.responseStatus = out.status
  error : entry.errorMessage.isSome = out.isRefused
  stream : entry.stream = (r.isStream && r.auth.token.allowsModel model.2)

/-- What all books say of a request that is through, for a model that is known. -/
structure Booked (r : Incoming) (model : ℤ × String) (out : Served) (entry : RequestLogEntry)
    (t : List ProxyCall) : Prop where
  row : requestRows t = [entry]
  tells : entry.Tells r model out
  tracked : Tracked (r.context model) (if out.isRefused then 0 else 1) entry.quotaCost
    (usageRows (execCalls t))
  paid : PaidFor (r.context model) entry.quotaCost (execCalls t)

/-- The name of the model has been resolved to the model. -/
def ResolvedTo (model : ℤ × String) (t : List ProxyCall) : Prop :=
  ∃ name, (⟨.resolve name, .ok (some model)⟩ : ProxyCall) ∈ t

/-- A request is through: its model was never known and nothing has been written, or it is known
and everything is in the books. -/
def Through (r : Incoming) (out : Served) (t : List ProxyCall) : Prop :=
  (out.isRefused = true ∧ requestRows t = [] ∧ execCalls t = [] ∧ ∀ model, ¬ResolvedTo model t) ∨
    ∃ model entry, ResolvedTo model t ∧ Booked r model out entry t

/-- The handler has begun a stream, and written no row yet. -/
structure Streaming (r : Incoming) (bootstrap : StreamBootstrap) (modelName : String)
    (model : ℤ × String) (t : List ProxyCall) : Prop where
  resolved : ResolvedTo model t
  rows : requestRows t = []
  reserved : Reserved (r.context model) bootstrap.session (execCalls t)
  clientModel : r.body.getStr "model" = some modelName
  stream : r.isStream = true
  allowed : r.auth.token.allowsModel model.2 = true

/-- What the handler ends with. -/
def Handled (r : Incoming) : ProxyResult Response → List ProxyCall → Prop
  | .error e, t => Through r (.refused e) t
  | .ok (.json body), t => Through r (.whole body) t
  | .ok (.sse bootstrap modelName model), t => Streaming r bootstrap modelName model t

section Request

variable {executor : Executor} {r : Incoming} {modelName : String} {model : ℤ × String}
  {t t' : List ProxyCall}

theorem ResolvedTo.mono (h : ResolvedTo model t) (hpre : t <+: t') : ResolvedTo model t' := by
  obtain ⟨name, hmem⟩ := h
  exact ⟨name, hpre.subset hmem⟩

/-- An execution writes no request log. -/
theorem executing_audit {α : Type} {p : ExecM α} {post : α → List ExecCall → Prop}
    (h : Always (fun _ => True) p post (execCalls t)) (hrows : requestRows t = []) :
    Always Unlogged (executing p)
      (fun a t' => (post a (execCalls t') ∧ requestRows t' = []) ∧ t <+: t') t := by
  refine (((Always.embed execCall? (fun _ _ => rfl) h).and (Throughout.of_only
    (I := fun t' _ => requestRows t' = []) ?_
    (fun _ _ h => h) (Only.embed p) hrows)).grows).imp fun _ _ h => h.1.2
  rintro _ r t' _ _ ⟨q, rfl⟩ - ht'
  rw [requestRows_append, ht']
  rfl

/-- **The row of the request log**, after everything else. -/
theorem logRequestEntry_audit {out : Served} {entry : RequestLogEntry}
    (hresolved : ResolvedTo model t) (hrows : requestRows t = []) (htells : entry.Tells r model out)
    (htracked : Tracked (r.context model) (if out.isRefused then 0 else 1) entry.quotaCost
      (usageRows (execCalls t)))
    (hpaid : PaidFor (r.context model) entry.quotaCost (execCalls t)) :
    Always Unlogged (logRequestEntry entry) (fun _ t => Through r out t) t := by
  refine ⟨hrows, fun _ _ _ => .inr ⟨model, entry, hresolved.mono (List.prefix_append ..), ?_⟩⟩
  have hexec : ∀ reply, execCalls (t ++ [⟨.logRequest entry, reply⟩]) = execCalls t :=
    fun reply => (execCalls_append t [⟨.logRequest entry, reply⟩]).trans (List.append_nil _)
  refine ⟨?_, htells, ?_, ?_⟩
  · rw [requestRows_append, hrows]
    rfl
  · rwa [hexec]
  · rwa [hexec]

theorem proxyStream_audit (hresolved : ResolvedTo model t) (hrows : requestRows t = [])
    (hexec : execCalls t = []) (hname : r.body.getStr "model" = some modelName)
    (hstream : r.isStream = true) (hallowed : r.auth.token.allowsModel model.2 = true) :
    Always Unlogged (proxyStream executor r modelName model) (Handled r) t := by
  refine Throughout.bind ((executing_audit (hexec ▸ Executor.executeStream_audited) hrows).mono
    fun out t₁ _ hpost => ?_)
  obtain ⟨⟨hpost, hrows₁⟩, hpre⟩ := hpost
  match out with
  | .ok bootstrap =>
    exact ⟨hresolved.mono hpre, hrows₁, hpost, hname, hstream, hallowed⟩
  | .error fail =>
    exact Throughout.bind (logRequestEntry_audit (hresolved.mono hpre) hrows₁
      ⟨rfl, rfl, rfl, rfl, hname.symm, rfl, rfl, rfl, by rw [hstream, hallowed]; rfl⟩ hpost.1
      hpost.2)

theorem proxyWhole_audit (hresolved : ResolvedTo model t) (hrows : requestRows t = [])
    (hexec : execCalls t = []) (hname : r.body.getStr "model" = some modelName)
    (hstream : r.isStream = false) :
    Always Unlogged (proxyWhole executor r modelName model) (Handled r) t := by
  refine Throughout.bind ((executing_audit (hexec ▸ Executor.execute_audited) hrows).mono
    fun out t₁ _ hpost => ?_)
  obtain ⟨⟨hpost, hrows₁⟩, hpre⟩ := hpost
  match out with
  | .ok result =>
    exact Throughout.bind (logRequestEntry_audit (hresolved.mono hpre) hrows₁
      ⟨rfl, rfl, rfl, rfl, hname.symm, rfl, rfl, rfl, by rw [hstream]; rfl⟩ hpost.1 hpost.2)
  | .error fail =>
    exact Throughout.bind (logRequestEntry_audit (hresolved.mono hpre) hrows₁
      ⟨rfl, rfl, rfl, rfl, hname.symm, rfl, rfl, rfl, by rw [hstream]; rfl⟩ hpost.1 hpost.2)

/-- A request whose token may not use the model is refused before anything is reserved. -/
theorem proxyModel_audit (hresolved : ResolvedTo model t) (hrows : requestRows t = [])
    (hexec : execCalls t = []) (hname : r.body.getStr "model" = some modelName) :
    Always Unlogged (proxyModel executor r modelName model) (Handled r) t := by
  unfold proxyModel
  cases hallowed : r.auth.token.allowsModel model.2 with
  | false =>
    refine Throughout.bind (logRequestEntry_audit hresolved hrows
      ⟨rfl, rfl, rfl, rfl, hname.symm, rfl, rfl, rfl, by rw [hallowed, Bool.and_false]; rfl⟩ ?_ ?_)
    · rw [hexec]
      exact .nil
    · rw [hexec]
      exact .of_noCharge rfl
  | true =>
    cases hstream : r.isStream with
    | true => exact proxyStream_audit hresolved hrows hexec hname hstream hallowed
    | false => exact proxyWhole_audit hresolved hrows hexec hname hstream

theorem proxyRequest_audit : Always Unlogged (proxyRequest executor r) (Handled r) [] := by
  unfold proxyRequest
  cases hname : r.body.getStr "model" with
  | none => exact .inl ⟨rfl, rfl, rfl, fun model ⟨name, hmem⟩ => by cases hmem⟩
  | some modelName =>
    refine ⟨rfl, fun loaded _ _ => ?_⟩
    match loaded with
    | .error e => exact .inl ⟨rfl, rfl, rfl, fun model ⟨name, hmem⟩ => by simp at hmem⟩
    | .ok () =>
      refine ⟨rfl, fun resolved _ _ => ?_⟩
      match resolved with
      | .error e => exact .inl ⟨rfl, rfl, rfl, fun model ⟨name, hmem⟩ => by simp at hmem⟩
      | .ok none => exact .inl ⟨rfl, rfl, rfl, fun model ⟨name, hmem⟩ => by simp at hmem⟩
      | .ok (some model) => exact proxyModel_audit ⟨modelName, by simp⟩ rfl rfl hname

/-- The task closes what the handler has opened. -/
theorem closeStream_audit {bootstrap : StreamBootstrap} {taken : List Sent}
    (h : Streaming r bootstrap modelName model t) (usage : Usage) (cost : ℤ) :
    Always Unlogged (closeStream r modelName model bootstrap usage cost)
      (fun _ t => Through r (.streamed taken) t) t := by
  refine Throughout.bind ((executing_audit (settle_audit h.reserved cost) h.rows).mono
    fun _ t₁ _ hsettled => ?_)
  obtain ⟨⟨⟨htracked, hpaid⟩, hrows₁⟩, hpre₁⟩ := hsettled
  refine Throughout.bind ((executing_audit (trackSuccess_audit htracked hpaid
    bootstrap.routedKey usage) hrows₁).mono fun _ t₂ _ hbooked => ?_)
  obtain ⟨⟨⟨htracked, hpaid⟩, hrows₂⟩, hpre₂⟩ := hbooked
  exact logRequestEntry_audit (h.resolved.mono (hpre₁.trans hpre₂))
    hrows₂
    ⟨rfl, rfl, rfl, rfl, h.clientModel.symm, rfl, rfl, rfl, by rw [h.stream, h.allowed]; rfl⟩
    htracked hpaid

/-- **A request with its task** is in the books when it is through, and not in the request log
before. -/
theorem serveRequest_audit :
    Always Unlogged (serveRequest executor r) (Through r) [] := by
  refine Throughout.bind (proxyRequest_audit.mono fun answer t _ h => ?_)
  match answer with
  | .error e => exact h
  | .ok (.json body) => exact h
  | .ok (.sse bootstrap modelName model) =>
    exact Throughout.bind (Throughout.bind (closeStream_audit h _ _))

end Request

/-- A request that is not through has no row yet. -/
theorem requestRows_of_call {executor : Executor} {r : Incoming} {t : List ProxyCall} {q : ProxyReq}
    {k : q.Resp → ProxyM Served} (h : Follows (serveRequest executor r) t (.call q k)) :
    requestRows t = [] :=
  (serveRequest_audit.sound h).1

/-! ### A small request -/

/-- A request of the user and the token of the small installation. -/
def sampleIncoming : Incoming where
  auth := ⟨⟨1, "alice", 1, 1, 1000, 10, "default"⟩,
    ⟨7, 1, "sk-7", none, 500, 0, false, -1, false, none, 1, none⟩, none⟩
  entryFormat := .openAI
  body := .object [("model", .string "model-7")]
  requestId := "req-1"
  elapsedMs := 5
  client := none

/-- An environment in which everything goes well. -/
def sampleReply : (q : ProxyReq) → q.Resp
  | .loadSnapshot => .ok ()
  | .resolve _ => .ok (some (7, "model-7"))
  | .exec q => (Executor.sampleServer (Executor.sampleBytes 600) q .sample).1
  | .logRequest _ => .ok ()

/-- It is through in the end. -/
theorem serveRequest_sampleReply :
    ∃ t out, Follows (serveRequest Executor.sample sampleIncoming) t (.pure out) := by
  let served := drive (fun q (_ : Unit) => (sampleReply q, ())) 30
    (serveRequest Executor.sample sampleIncoming) ()
  obtain ⟨out, hout⟩ := Option.isSome_iff_exists.mp
    (by decide +kernel : served.2.1.answer?.isSome = true)
  have hrun : Follows _ served.1 served.2.1 := drive_exec (fun _ _ => trivial) 30 _ ()
  rw [answer?_eq_some hout] at hrun
  exact ⟨_, _, hrun⟩

end Chennix
