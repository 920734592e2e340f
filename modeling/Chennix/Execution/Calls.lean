import Chennix.Execution.Audit

/-!
# The calls of a request

Which calls a request can make, whoever answers them, is read off its program here once: the routing
and the pricing, those of the billing manager, those of the loop on its own account, those of its
exchanges, and the row and the counters of a success. A property that these have, all calls of the
request have.

## Main definitions

* `CoversSuccess`, `CoversFailure`, `CoversLoop`, `CoversExecution` — a property that the calls of a
  part have
* `Exchange.Makes` — and those of an exchange, with the candidates it may ask
* `RequestKeeps` — an invariant of traces, as the parts of a request keep it

## Main results

* `tryAll_only` — the loop
* `serveRequest_only` — a request with its task
* `serveRequest_always` — what its executions keep, a request keeps
-/

namespace Chennix

open Foundations Program

/-! ### Kinds of calls -/

/-- `A` holds of what is called after a success. -/
structure CoversSuccess (A : ExecReq → Prop) (ctx : ExecutionContext) : Prop where
  pricing : ∀ channelId upstream, A (.getChannelModelPricing ctx.modelId channelId upstream)
  billing : ∀ q, A (.billing q)
  row : ∀ (rk : RoutedKey) usage cost, A (.logUsage ⟨ctx.userId, ctx.tokenId, rk.channel.id,
    rk.key.id, ctx.modelId, usage, cost, "chat", "success", none⟩)
  counters : ∀ q, q.OfCounters → A q

/-- `A` holds of what is called after a failure. -/
structure CoversFailure (A : ExecReq → Prop) (ctx : ExecutionContext) : Prop where
  billing : ∀ q, A (.billing q)
  failure : ∀ entry : UsageEntry, entry.OfFailure ctx → A (.logUsage entry)
  cooldown : ∀ keyId upstream, A (.markCooldown keyId upstream)
  disabled : ∀ keyId, A (.markDisabled keyId)

/-- `A` holds of what the loop calls beside its exchanges. -/
structure CoversLoop (A : ExecReq → Prop) (ctx : ExecutionContext) : Prop extends
    CoversFailure A ctx where
  check : ∀ keyId upstream, A (.isAvailable keyId upstream)

/-- `A` holds of all that an execution calls. -/
structure CoversExecution (A : ExecReq → Prop) (ctx : ExecutionContext) : Prop extends
    CoversSuccess A ctx, CoversLoop A ctx where
  routing : A (.selectKeys ctx)
  whole : ∀ rk reqBody, A (.adaptorExecute rk reqBody)
  stream : ∀ rk reqBody, A (.adaptorExecuteStream rk reqBody)

section Parts

variable {A : ExecReq → Prop} {ctx : ExecutionContext}

theorem billing_only (h : ∀ q, A (.billing q)) {α : Type} (p : BillingM α) : (billing p).Only A :=
  (Only.embed p).mono fun _ ⟨q, hq⟩ => hq ▸ h q

theorem trackSuccess_only (h : CoversSuccess A ctx) (rk : RoutedKey) (usage : Usage) (cost : ℤ) :
    (Tracker.trackSuccess ctx rk usage cost "chat").Only A := by
  refine ⟨h.row rk usage cost, fun _ => ⟨h.counters _ trivial, fun _ =>
    ⟨h.counters _ trivial, fun _ => ?_⟩⟩⟩
  exact ((accumulateSmallModelQuota_calls _ _ usage).mono fun q hq =>
    h.counters q hq.ofCounters).bind fun _ => trivial

namespace Executor

theorem actualPricing_only (h : CoversSuccess A ctx) (first : RoutedKey)
    (modelPricing : Option ChannelModelPricing) (rk : RoutedKey) :
    (actualPricing ctx first modelPricing rk).Only A := by
  unfold actualPricing
  split
  · trivial
  · refine ⟨h.pricing _ _, fun r => ?_⟩
    cases r <;> trivial

/-- From a response to the result. -/
theorem settleAndReturn_only (h : CoversSuccess A ctx) (executor : Executor)
    (entryFormat : EntryFormat) (session : BillingSession) (first : RoutedKey)
    (modelPricing : Option ChannelModelPricing) (rk : RoutedKey) (provider : ChannelProvider)
    (reply : ℕ × Bytes) (attempted : List String) :
    (executor.settleAndReturn ctx entryFormat session first modelPricing rk provider reply
      attempted).Only A := by
  refine (actualPricing_only h first modelPricing rk).bind fun _ => ?_
  refine (billing_only h.billing _).bind fun _ => ?_
  refine (trackSuccess_only h rk _ _).bind fun _ => ?_
  split <;> trivial

end Executor

end Parts

/-! ### The loop -/

/-- The body that a candidate is sent is made of the client's. -/
def Prepared (codec : Json.Codec) (entryFormat : EntryFormat) (body : Json) (rk : RoutedKey)
    (reqBody : Json) : Prop :=
  prepareRequest codec entryFormat body rk.channel rk.upstreamModelName =
    .ok (reqBody, rk.channel.provider)

/-- The exchange makes calls of which `A` holds, for the candidates and bodies that `P` allows. -/
structure Exchange.Makes {ε α : Type} (A : ExecReq → Prop) (P : RoutedKey → Json → Prop)
    (exchange : Exchange ε α) : Prop where
  send : ∀ rk reqBody, P rk reqBody → (exchange.send rk reqBody).Only A
  succeed : ∀ rk provider reply attempted, (exchange.succeed rk provider reply attempted).Only A

section Loop

variable {A : ExecReq → Prop} {P : RoutedKey → Json → Prop} {ε α : Type} {ctx : ExecutionContext}
  {session : BillingSession} {codec : Json.Codec} {entryFormat : EntryFormat} {body : Json}
  {exchange : Exchange ε α}

theorem refundAndFail_only (h : CoversFailure A ctx) (failure : ExecutionFailure) :
    (refundAndFail session failure : ExecM (Except ExecutionFailure α)).Only A :=
  (billing_only h.billing _).bind fun _ => trivial

theorem attemptTimedOut_only (h : CoversFailure A ctx) (rk : RoutedKey) (seconds : ℕ)
    (p : Progress) : (attemptTimedOut ctx rk seconds p : ExecM (Flow α)).Only A :=
  ⟨h.failure _ ⟨rk, _, rfl⟩, fun _ => ⟨h.cooldown _ _, fun _ => trivial⟩⟩

theorem attemptFailed_only (h : CoversFailure A ctx) (rk : RoutedKey) (e : ProxyError)
    (p : Progress) : (attemptFailed ctx session rk e p : ExecM (Flow α)).Only A := by
  unfold attemptFailed
  refine ⟨h.failure _ ⟨rk, _, rfl⟩, fun _ => ?_⟩
  cases classifyFailure e with
  | returnToClient => exact (refundAndFail_only h _).bind fun _ => trivial
  | disable => exact ⟨h.disabled _, fun _ => trivial⟩
  | cooldown => exact ⟨h.cooldown _ _, fun _ => trivial⟩
  | skipBinding => trivial

theorem attempt_only (h : CoversLoop A ctx) (hx : exchange.Makes A P) {rk : RoutedKey}
    (hP : ∀ reqBody, Prepared codec entryFormat body rk reqBody → P rk reqBody) (p : Progress) :
    (attempt ctx session rk codec entryFormat body exchange p).Only A := by
  refine ⟨h.check _ _, fun available => ?_⟩
  cases available with
  | false => trivial
  | true =>
    obtain ⟨out, hout⟩ := prepareRequest_ok codec entryFormat body rk.channel rk.upstreamModelName
    show Only _ (attemptAvailable ctx session rk codec entryFormat body exchange p)
    simp only [attemptAvailable, hout]
    refine (hx.send rk _ (hP _ hout)).bind fun reply => ?_
    cases reply with
    | none => exact attemptTimedOut_only h.toCoversFailure rk _ _
    | some reply =>
      cases reply with
      | error e => exact attemptFailed_only h.toCoversFailure rk e _
      | ok reply => exact (hx.succeed rk _ reply _).bind fun _ => trivial

theorem tryKeys_only (h : CoversLoop A ctx) (hx : exchange.Makes A P) {rks : List RoutedKey}
    (hP : ∀ rk ∈ rks, ∀ reqBody, Prepared codec entryFormat body rk reqBody → P rk reqBody)
    (p : Progress) : (tryKeys ctx session codec entryFormat body exchange rks p).Only A := by
  induction rks generalizing p with
  | nil => trivial
  | cons rk rks ih =>
    refine (attempt_only h hx (hP rk List.mem_cons_self) p).bind fun flow => ?_
    cases flow with
    | next p => exact ih (fun rk hrk => hP rk (List.mem_cons_of_mem _ hrk)) p
    | skip p => trivial
    | done r => trivial

theorem tryBindings_only (h : CoversLoop A ctx) (hx : exchange.Makes A P) {bindings : List Bucket}
    (hP : ∀ rk ∈ Router.candidates bindings, ∀ reqBody,
      Prepared codec entryFormat body rk reqBody → P rk reqBody) (p : Progress) :
    (tryBindings ctx session codec entryFormat body exchange bindings p).Only A := by
  induction bindings generalizing p with
  | nil => trivial
  | cons binding bindings ih =>
    refine (tryKeys_only h hx (fun rk hrk => hP rk ?_) p).bind fun flow => ?_
    · exact Router.mem_candidates.mpr ⟨binding, List.mem_cons_self, hrk⟩
    · have hrest : ∀ rk ∈ Router.candidates bindings, ∀ reqBody,
          Prepared codec entryFormat body rk reqBody → P rk reqBody := by
        intro rk hrk
        obtain ⟨b, hb, hrk⟩ := Router.mem_candidates.mp hrk
        exact hP rk (Router.mem_candidates.mpr ⟨b, List.mem_cons_of_mem _ hb, hrk⟩)
      cases flow with
      | next p => exact ih hrest p
      | skip p => exact ih hrest p
      | done r => trivial

/-- **The loop** asks candidates only. -/
theorem tryAll_only (h : CoversLoop A ctx) (hx : exchange.Makes A P) {candidates : List Bucket}
    (hP : ∀ rk ∈ Router.candidates candidates, ∀ reqBody,
      Prepared codec entryFormat body rk reqBody → P rk reqBody) :
    (tryAll ctx session codec entryFormat body exchange candidates).Only A := by
  have htake : ∀ rk ∈ Router.candidates (candidates.take maxBindingAttempts), ∀ reqBody,
      Prepared codec entryFormat body rk reqBody → P rk reqBody := by
    intro rk hrk
    obtain ⟨b, hb, hrk⟩ := Router.mem_candidates.mp hrk
    exact hP rk (Router.mem_candidates.mpr ⟨b, List.mem_of_mem_take hb, hrk⟩)
  refine (tryBindings_only h hx htake {}).bind fun flow => ?_
  cases flow with
  | next p => exact refundAndFail_only h.toCoversFailure _
  | skip p => exact refundAndFail_only h.toCoversFailure _
  | done r => trivial

end Loop

/-! ### Executions -/

namespace Executor

variable {A : ExecReq → Prop} {ctx : ExecutionContext} {executor : Executor}
  {entryFormat : EntryFormat} {body : Json}

theorem execution_only (h : CoversExecution A ctx) {ε α : Type}
    {exchange : RoutedKey → Option ChannelModelPricing → BillingSession → Exchange ε α}
    (hx : ∀ first pricing session, (exchange first pricing session).Makes A fun _ _ => True) :
    (executor.execution ctx entryFormat body exchange).Only A := by
  refine ⟨h.routing, fun routed => ?_⟩
  match routed with
  | .error e => trivial
  | .ok [] => trivial
  | .ok (binding :: bindings) =>
    refine ⟨h.pricing _ _, fun pricing => ?_⟩
    match pricing with
    | .error e => trivial
    | .ok pricing =>
      refine (billing_only h.billing _).bind fun session => ?_
      match session with
      | .error e => trivial
      | .ok session => exact tryAll_only h.toCoversLoop (hx _ _ _) fun _ _ _ _ => trivial

theorem execute_only (h : CoversExecution A ctx) :
    (executor.execute ctx entryFormat body).Only A :=
  execution_only h fun first pricing session => {
    send := fun rk reqBody _ => ⟨h.whole rk reqBody, fun _ => trivial⟩
    succeed := settleAndReturn_only h.toCoversSuccess executor entryFormat session first pricing }

theorem executeStream_only (h : CoversExecution A ctx) :
    (executor.executeStream ctx entryFormat body).Only A :=
  execution_only h fun first pricing _ => {
    send := fun rk reqBody _ => ⟨h.stream rk reqBody, fun _ => trivial⟩
    succeed := fun rk _ _ _ =>
      (actualPricing_only h.toCoversSuccess first pricing rk).bind fun _ => trivial }

end Executor

/-! ### A request -/

/-- `A` holds of the call, if it is one of an execution. -/
def ProxyReq.Execs (A : ExecReq → Prop) : ProxyReq → Prop
  | exec q => A q
  | _ => True

section Request

variable {A : ExecReq → Prop} {executor : Executor} {r : Incoming}

theorem executing_only {α : Type} {p : ExecM α} (h : p.Only A) :
    (executing p).Only (ProxyReq.Execs A) := by
  induction p with
  | pure a => trivial
  | call q k ih => exact ⟨h.1, fun reply => ih reply (h.2 reply)⟩

theorem logRequestEntry_only (entry : RequestLogEntry) :
    (logRequestEntry entry).Only (ProxyReq.Execs A) :=
  ⟨trivial, fun _ => trivial⟩

theorem proxyModel_only {model : ℤ × String} (h : CoversExecution A (r.context model))
    (modelName : String) : (proxyModel executor r modelName model).Only (ProxyReq.Execs A) := by
  unfold proxyModel
  split
  · exact (logRequestEntry_only _).bind fun _ => trivial
  · split
    · refine (executing_only (Executor.executeStream_only h)).bind fun out => ?_
      match out with
      | .ok bootstrap => trivial
      | .error fail => exact (logRequestEntry_only _).bind fun _ => trivial
    · refine (executing_only (Executor.execute_only h)).bind fun out => ?_
      match out with
      | .ok result => exact (logRequestEntry_only _).bind fun _ => trivial
      | .error fail => exact (logRequestEntry_only _).bind fun _ => trivial

theorem proxyRequest_only (h : ∀ model, CoversExecution A (r.context model)) :
    (proxyRequest executor r).Only (ProxyReq.Execs A) := by
  unfold proxyRequest
  split
  · trivial
  · refine ⟨trivial, fun loaded => ?_⟩
    match loaded with
    | .error e => trivial
    | .ok () =>
      refine ⟨trivial, fun resolved => ?_⟩
      match resolved with
      | .error e => trivial
      | .ok none => trivial
      | .ok (some model) => exact proxyModel_only (h model) _

theorem streamTask_only {model : ℤ × String} (h : CoversSuccess A (r.context model))
    (modelName : String) (bootstrap : StreamBootstrap) :
    (streamTask executor r modelName model bootstrap).Only (ProxyReq.Execs A) := by
  refine Only.bind ?_ fun _ => trivial
  refine (executing_only (billing_only h.billing _)).bind fun _ => ?_
  refine (executing_only (trackSuccess_only h _ _ _)).bind fun _ => ?_
  exact logRequestEntry_only _

/-- **A request with its task.** -/
theorem serveRequest_only (h : ∀ model, CoversExecution A (r.context model)) :
    (serveRequest executor r).Only (ProxyReq.Execs A) := by
  refine (proxyRequest_only h).bind fun answer => ?_
  match answer with
  | .error e => trivial
  | .ok (.json body) => trivial
  | .ok (.sse bootstrap modelName model) =>
    exact (streamTask_only (h model).toCoversSuccess modelName bootstrap).bind fun _ => trivial

/-- What is known where a request is executed. -/
structure Incoming.Resolved (r : Incoming) (modelName : String) (model : ℤ × String)
    (t : List ProxyCall) : Prop where
  name : r.body.getStr "model" = some modelName
  resolve : (⟨.resolve modelName, .ok (some model)⟩ : ProxyCall) ∈ t
  allowed : r.auth.token.allowsModel model.2 = true
  first : execCalls t = []

/-- An invariant of traces that the executions of a request and its task keep, and the calls around
them. -/
structure RequestKeeps (executor : Executor) (r : Incoming) (φ J : List ProxyCall → Prop) :
    Prop where
  holds : ∀ t, J t → φ t
  nil : J []
  other : ∀ q reply t, q.Execs (fun _ => False) → J t → J (t ++ [⟨q, reply⟩])
  whole : ∀ modelName model t, r.Resolved modelName model t → J t →
    Always φ (executing (executor.execute (r.context model) r.entryFormat r.body)) (fun _ => J) t
  stream : ∀ modelName model t, r.Resolved modelName model t → J t →
    Always φ (executing (executor.executeStream (r.context model) r.entryFormat r.body))
      (fun _ => J) t
  task : ∀ modelName model bootstrap t, J t →
    Always φ (streamTask executor r modelName model bootstrap) (fun _ => J) t

section Keeps

variable {φ J : List ProxyCall → Prop} {t : List ProxyCall}

theorem logRequestEntry_always (h : RequestKeeps executor r φ J) (entry : RequestLogEntry)
    {α : Type} (a : α) (hJ : J t) :
    Always φ (logRequestEntry entry >>= fun _ => (.pure a : ProxyM α)) (fun _ => J) t :=
  ⟨h.holds t hJ, fun reply _ _ => h.other (.logRequest entry) reply t trivial hJ⟩

theorem proxyModel_always (h : RequestKeeps executor r φ J) {modelName : String}
    {model : ℤ × String} (hname : r.body.getStr "model" = some modelName)
    (hresolve : (⟨.resolve modelName, .ok (some model)⟩ : ProxyCall) ∈ t)
    (hfirst : execCalls t = []) (hJ : J t) :
    Always φ (proxyModel executor r modelName model) (fun _ => J) t := by
  unfold proxyModel
  cases hallowed : r.auth.token.allowsModel model.2 with
  | false => exact logRequestEntry_always h _ _ hJ
  | true =>
    have hresolved : r.Resolved modelName model t := ⟨hname, hresolve, hallowed, hfirst⟩
    cases r.isStream with
    | true =>
      refine Throughout.bind ((h.stream modelName model t hresolved hJ).mono fun out t _ hJ => ?_)
      cases out with
      | ok bootstrap => exact hJ
      | error fail => exact logRequestEntry_always h _ _ hJ
    | false =>
      refine Throughout.bind ((h.whole modelName model t hresolved hJ).mono fun out t _ hJ => ?_)
      cases out with
      | ok result => exact logRequestEntry_always h _ _ hJ
      | error fail => exact logRequestEntry_always h _ _ hJ

theorem proxyRequest_always (h : RequestKeeps executor r φ J) :
    Always φ (proxyRequest executor r) (fun _ => J) [] := by
  unfold proxyRequest
  cases hname : r.body.getStr "model" with
  | none => exact h.nil
  | some modelName =>
    refine ⟨h.holds _ h.nil, fun loaded _ _ => ?_⟩
    have hloaded := h.other .loadSnapshot loaded [] trivial h.nil
    cases loaded with
    | error e => exact hloaded
    | ok _ =>
      refine ⟨h.holds _ hloaded, fun resolved _ _ => ?_⟩
      have hresolved := h.other (.resolve modelName) resolved _ trivial hloaded
      cases resolved with
      | error e => exact hresolved
      | ok found =>
        cases found with
        | none => exact hresolved
        | some model => exact proxyModel_always h hname (by simp) rfl hresolved

/-- **Invariants of a request** hold wherever it has got to. -/
theorem serveRequest_always (h : RequestKeeps executor r φ J) :
    Always φ (serveRequest executor r) (fun _ => J) [] := by
  refine Throughout.bind ((proxyRequest_always h).mono fun answer t _ hJ => ?_)
  match answer with
  | .error e => exact hJ
  | .ok (.json body) => exact hJ
  | .ok (.sse bootstrap modelName model) =>
    exact Throughout.bind (h.task modelName model bootstrap t hJ)

end Keeps

end Request

end Chennix
