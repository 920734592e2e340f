import Chennix.Execution.Calls
import Chennix.Foundations.Mirroring

/-!
# The secrecy of API keys

A candidate carries the API key of its channel from the routing to the upstream. Put other API keys
into what the routing replies: then the upstreams are asked with those, and nothing else changes,
neither a call nor what the client gets. So no API key can be found in a response, in an error, in
the request log or in the usage log, unless an upstream itself puts it there.

## Main definitions

* `RoutedKey.disguise` — a candidate with another API key
* `ProxyCall.disguise` — a call of a request, where the API keys are others

## Main results

* `tryAll_mirrors` — the loop cannot tell
* `serveRequest_secret` — a request cannot tell
-/

namespace Chennix

open Foundations Program

/-! ### Other API keys -/

section Disguise

variable (ρ : RoutedKey → String)

/-- The candidate with the API key that `ρ` has for it. -/
def RoutedKey.disguise (rk : RoutedKey) : RoutedKey :=
  { rk with key := { rk.key with apiKey := ρ rk } }

def Bucket.disguise (b : Bucket) : Bucket where
  keys := b.keys.map (RoutedKey.disguise ρ)
  nonempty := by
    rw [Ne, List.map_eq_nil_iff]
    exact b.nonempty

/-- A call of an execution with its reply: the routing replies with the other API keys, and the
upstreams are asked with them. -/
def ExecCall.disguise : ExecCall → ExecCall
  | ⟨.selectKeys ctx, r⟩ => ⟨.selectKeys ctx, r.map (List.map (Bucket.disguise ρ))⟩
  | ⟨.adaptorExecute rk body, r⟩ => ⟨.adaptorExecute (rk.disguise ρ) body, r⟩
  | ⟨.adaptorExecuteStream rk body, r⟩ => ⟨.adaptorExecuteStream (rk.disguise ρ) body, r⟩
  | other => other

/-- A call of a request. -/
def ProxyCall.disguise : ProxyCall → ProxyCall
  | ⟨.exec q, r⟩ => ⟨.exec (ExecCall.disguise ρ ⟨q, r⟩).1, (ExecCall.disguise ρ ⟨q, r⟩).2⟩
  | other => other

/-- The call has nothing to do with API keys. -/
def ExecReq.Keyless : ExecReq → Prop
  | selectKeys _ => False
  | adaptorExecute _ _ => False
  | adaptorExecuteStream _ _ => False
  | _ => True

theorem CoversSuccess.keyless (ctx : ExecutionContext) : CoversSuccess ExecReq.Keyless ctx where
  pricing _ _ := trivial
  billing _ := trivial
  row _ _ _ := trivial
  counters q hq := by cases q <;> first | exact hq.elim | trivial

variable {ρ}

theorem ExecReq.Keyless.disguise_eq (q : ExecReq) (h : q.Keyless) (r : q.Resp) :
    ExecCall.disguise ρ ⟨q, r⟩ = ⟨q, r⟩ := by
  cases q <;> first | exact h.elim | rfl

theorem Bucket.first_disguise (b : Bucket) : (b.disguise ρ).first = b.first.disguise ρ :=
  List.head_map _

def Progress.disguise (ρ : RoutedKey → String) (p : Progress) : Progress :=
  { p with lastTriedRk := p.lastTriedRk.map (RoutedKey.disguise ρ) }

def StreamBootstrap.disguise (ρ : RoutedKey → String) (b : StreamBootstrap) : StreamBootstrap :=
  { b with routedKey := b.routedKey.disguise ρ }

/-- How the loop body is left, where `f` is what becomes of a success. -/
def Flow.disguise {α : Type} (ρ : RoutedKey → String) (f : α → α) : Flow α → Flow α
  | .next p => .next (p.disguise ρ)
  | .skip p => .skip (p.disguise ρ)
  | .done r => .done (r.map f)

end Disguise

/-! ### The executor -/

/-- The execution of a program with other API keys leads to what `f` makes of its answer. -/
abbrev Disguises {α : Type} (ρ : RoutedKey → String) (f : α → α) (p p' : ExecM α) : Prop :=
  Mirrors (ExecCall.disguise ρ) (fun a a' => a' = f a) p p'

section Loop

variable {ρ : RoutedKey → String} {α β γ : Type} {f : α → α}

/-- Programs that have nothing to do with API keys, and what follows them. -/
theorem Disguises.keyless {p : ExecM β} (hp : p.Only ExecReq.Keyless) {k k' : β → ExecM α}
    (h : ∀ b, Disguises ρ f (k b) (k' b)) : Disguises ρ f (p >>= k) (p >>= k') :=
  .same_bind ExecReq.Keyless.disguise_eq hp h

theorem Disguises.await {q : ExecReq} {k k' : q.Resp → ExecM α}
    (h : ∀ r, Disguises ρ f (k r) (k' r)) (hq : q.Keyless := by trivial) :
    Disguises ρ f (await q >>= k) (await q >>= k') :=
  .same_call (hq.disguise_eq q) h

/-- What an exchange must do for the loop not to tell. -/
structure Exchange.Blind {ε : Type} (ρ : RoutedKey → String) (f : α → α)
    (exchange exchange' : Exchange ε α) : Prop where
  timeout : exchange'.timeout = exchange.timeout
  send : ∀ rk reqBody, Mirrors (ExecCall.disguise ρ) (fun r r' => r' = r)
    (exchange.send rk reqBody) (exchange'.send (rk.disguise ρ) reqBody)
  succeed : ∀ rk provider reply attempted, Disguises ρ (Except.map f)
    (exchange.succeed rk provider reply attempted)
    (exchange'.succeed (rk.disguise ρ) provider reply attempted)

variable {ε : Type} {ctx : ExecutionContext} {session : BillingSession} {codec : Json.Codec}
  {entryFormat : EntryFormat} {body : Json} {exchange exchange' : Exchange ε α}

theorem refundAndFail_mirrors (failure : ExecutionFailure) :
    Disguises ρ (Except.map f) (refundAndFail session failure) (refundAndFail session failure) :=
  .keyless (billing_only (fun _ => trivial) _) fun _ => rfl

theorem attemptTimedOut_mirrors (rk : RoutedKey) (seconds : ℕ) (p : Progress) :
    Disguises ρ (Flow.disguise ρ f) (attemptTimedOut ctx rk seconds p)
      (attemptTimedOut ctx (rk.disguise ρ) seconds (p.disguise ρ)) := by
  refine .await fun _ => ?_
  exact .await fun _ => rfl

theorem attemptFailed_mirrors (rk : RoutedKey) (e : ProxyError) (p : Progress) :
    Disguises ρ (Flow.disguise ρ f) (attemptFailed ctx session rk e p)
      (attemptFailed ctx session (rk.disguise ρ) e (p.disguise ρ)) := by
  refine .await fun _ => ?_
  cases classifyFailure e with
  | returnToClient =>
    exact .bind ((refundAndFail_mirrors _).mono fun r r' hr => congrArg Flow.done hr)
  | disable => exact .await fun _ => rfl
  | cooldown => exact .await fun _ => rfl
  | skipBinding => rfl

theorem attempt_mirrors (h : exchange.Blind ρ f exchange') (rk : RoutedKey) (p : Progress) :
    Disguises ρ (Flow.disguise ρ f) (attempt ctx session rk codec entryFormat body exchange p)
      (attempt ctx session (rk.disguise ρ) codec entryFormat body exchange' (p.disguise ρ)) := by
  refine .await fun available => ?_
  cases available with
  | false => rfl
  | true =>
    obtain ⟨out, hout⟩ := prepareRequest_ok codec entryFormat body rk.channel rk.upstreamModelName
    have hout' : prepareRequest codec entryFormat body (rk.disguise ρ).channel
      (rk.disguise ρ).upstreamModelName = _ := hout
    simp only [attemptAvailable, hout, hout', h.timeout]
    refine .bind ((h.send rk _).mono fun reply reply' hreply => ?_)
    cases hreply
    cases reply with
    | none => exact attemptTimedOut_mirrors rk _ _
    | some reply =>
      cases reply with
      | error e => exact attemptFailed_mirrors rk e _
      | ok reply =>
        exact .bind ((h.succeed rk _ reply _).mono fun r r' hr => congrArg Flow.done hr)

theorem tryKeys_mirrors (h : exchange.Blind ρ f exchange') (rks : List RoutedKey)
    (p : Progress) :
    Disguises ρ (Flow.disguise ρ f) (tryKeys ctx session codec entryFormat body exchange rks p)
      (tryKeys ctx session codec entryFormat body exchange' (rks.map (RoutedKey.disguise ρ))
        (p.disguise ρ)) := by
  induction rks generalizing p with
  | nil => rfl
  | cons rk rks ih =>
    refine .bind ((attempt_mirrors h rk p).mono fun flow flow' hflow => ?_)
    cases hflow
    cases flow with
    | next p => exact ih p
    | skip p => rfl
    | done r => rfl

theorem tryBindings_mirrors (h : exchange.Blind ρ f exchange') (bindings : List Bucket)
    (p : Progress) :
    Disguises ρ (Flow.disguise ρ f)
      (tryBindings ctx session codec entryFormat body exchange bindings p)
      (tryBindings ctx session codec entryFormat body exchange'
        (bindings.map (Bucket.disguise ρ)) (p.disguise ρ)) := by
  induction bindings generalizing p with
  | nil => rfl
  | cons binding bindings ih =>
    refine .bind ((tryKeys_mirrors h binding.keys p).mono fun flow flow' hflow => ?_)
    cases hflow
    cases flow with
    | next p => exact ih p
    | skip p => exact ih p
    | done r => rfl

theorem allKeysExhausted_disguise (p : Progress) :
    allKeysExhausted ctx (p.disguise ρ) = allKeysExhausted ctx p := by
  obtain ⟨attempted, error, status, _ | rk⟩ := p <;> rfl

/-- **The loop** cannot tell. -/
theorem tryAll_mirrors (h : exchange.Blind ρ f exchange') (candidates : List Bucket) :
    Disguises ρ (Except.map f) (tryAll ctx session codec entryFormat body exchange candidates)
      (tryAll ctx session codec entryFormat body exchange'
        (candidates.map (Bucket.disguise ρ))) := by
  unfold tryAll
  rw [← List.map_take]
  refine .bind ((tryBindings_mirrors h _ {}).mono fun flow flow' hflow => ?_)
  cases hflow
  cases flow with
  | next p =>
    simp only [Flow.disguise, allKeysExhausted_disguise]
    exact refundAndFail_mirrors _
  | skip p =>
    simp only [Flow.disguise, allKeysExhausted_disguise]
    exact refundAndFail_mirrors _
  | done r => rfl

end Loop

namespace Executor

variable {ρ : RoutedKey → String} {executor : Executor} {ctx : ExecutionContext}
  {entryFormat : EntryFormat} {body : Json}

theorem execution_mirrors {ε α : Type} {f : α → α}
    {exchange : RoutedKey → Option ChannelModelPricing → BillingSession → Exchange ε α}
    (h : ∀ first pricing session, (exchange first pricing session).Blind ρ f
      (exchange (first.disguise ρ) pricing session)) :
    Disguises ρ (Except.map f) (executor.execution ctx entryFormat body exchange)
      (executor.execution ctx entryFormat body exchange) := by
  refine .call fun routed => ⟨routed.map (List.map (Bucket.disguise ρ)), rfl, ?_⟩
  match routed with
  | .error e => rfl
  | .ok [] => rfl
  | .ok (binding :: bindings) =>
    show Disguises ρ (Except.map f) (await (.getChannelModelPricing _ _ _) >>= _)
      (await (.getChannelModelPricing _ (binding.disguise ρ).first.channel.id
        (binding.disguise ρ).first.upstreamModelName) >>= _)
    rw [Bucket.first_disguise]
    refine Disguises.await fun pricing => ?_
    match pricing with
    | .error e => rfl
    | .ok pricing =>
      refine .keyless (billing_only (fun _ => trivial) _) fun session => ?_
      match session with
      | .error e => rfl
      | .ok session => exact tryAll_mirrors (h _ _ _) (binding :: bindings)

theorem actualPricing_disguise (first : RoutedKey) (pricing : Option ChannelModelPricing)
    (rk : RoutedKey) : actualPricing ctx (first.disguise ρ) pricing (rk.disguise ρ) =
      actualPricing ctx first pricing rk := by
  simp only [actualPricing, RoutedKey.disguise]
  congr
  funext r
  cases r <;> rfl

theorem settleAndReturn_mirrors (session : BillingSession) (first : RoutedKey)
    (pricing : Option ChannelModelPricing) (rk : RoutedKey) (provider : ChannelProvider)
    (reply : ℕ × Bytes) (attempted : List String) :
    Disguises ρ id
      (executor.settleAndReturn ctx entryFormat session first pricing rk provider reply attempted)
      (executor.settleAndReturn ctx entryFormat session (first.disguise ρ) pricing (rk.disguise ρ)
        provider reply attempted) := by
  have hsame : executor.settleAndReturn ctx entryFormat session (first.disguise ρ) pricing
    (rk.disguise ρ) provider reply attempted = executor.settleAndReturn ctx entryFormat session
      first pricing rk provider reply attempted := by
    unfold settleAndReturn
    rw [actualPricing_disguise]
    rfl
  rw [hsame]
  exact (Mirrors.of_only ExecReq.Keyless.disguise_eq (settleAndReturn_only (.keyless ctx) executor
    entryFormat session first pricing rk provider reply attempted)).mono fun _ _ hr => hr.symm

/-- **`execute`** cannot tell. -/
theorem execute_mirrors : Disguises ρ id (executor.execute ctx entryFormat body)
    (executor.execute ctx entryFormat body) := by
  rw [← Except.map_id]
  exact execution_mirrors fun first pricing session => {
    timeout := rfl
    send := fun rk reqBody => fun r => ⟨r, rfl, rfl⟩
    succeed := fun rk provider reply attempted => by
      rw [Except.map_id]
      exact settleAndReturn_mirrors session first pricing rk provider reply attempted }

/-- **`execute_stream`** cannot tell, but that its session has the other API key. -/
theorem executeStream_mirrors :
    Disguises ρ (Except.map (StreamBootstrap.disguise ρ))
      (executor.executeStream ctx entryFormat body)
      (executor.executeStream ctx entryFormat body) :=
  execution_mirrors fun first pricing session => {
    timeout := rfl
    send := fun rk reqBody => fun r => ⟨r, rfl, rfl⟩
    succeed := fun rk provider reply attempted => by
      simp only [actualPricing_disguise]
      exact .keyless (actualPricing_only (.keyless ctx) first pricing rk) fun _ => rfl }

end Executor

/-! ### A request -/

/-- What the handler has for the client: the session of a stream has the other API key. -/
def Response.disguise (ρ : RoutedKey → String) : Response → Response
  | .json body => .json body
  | .sse bootstrap modelName model => .sse (bootstrap.disguise ρ) modelName model

section Request

variable {ρ : RoutedKey → String} {executor : Executor} {r : Incoming}

theorem ProxyCall.disguise_eq (q : ProxyReq) (h : q.Execs ExecReq.Keyless) (reply : q.Resp) :
    ProxyCall.disguise ρ ⟨q, reply⟩ = ⟨q, reply⟩ := by
  cases q with
  | exec q =>
    have hsame : ExecCall.disguise ρ ⟨q, reply⟩ = ⟨q, reply⟩ :=
      ExecReq.Keyless.disguise_eq q h reply
    rw [ProxyCall.disguise, hsame]
  | _ => rfl

theorem executing_mirrors {α : Type} {post : α → α → Prop} {p p' : ExecM α}
    (h : Mirrors (ExecCall.disguise ρ) post p p') :
    Mirrors (ProxyCall.disguise ρ) post (executing p) (executing p') := by
  refine h.embed fun q q' reply reply' heq => ⟨reply', ?_, rfl⟩
  rw [ProxyCall.disguise, heq]

theorem proxyStream_mirrors (modelName : String) (model : ℤ × String) :
    Mirrors (ProxyCall.disguise ρ) (fun a a' => a' = a.map (Response.disguise ρ))
      (proxyStream executor r modelName model) (proxyStream executor r modelName model) := by
  refine .bind ((executing_mirrors Executor.executeStream_mirrors).mono fun out out' hout => ?_)
  cases hout
  match out with
  | .ok bootstrap => rfl
  | .error fail =>
    exact .same_bind ProxyCall.disguise_eq (logRequestEntry_only _) fun _ => rfl

theorem proxyWhole_mirrors (modelName : String) (model : ℤ × String) :
    Mirrors (ProxyCall.disguise ρ) (fun a a' => a' = a.map (Response.disguise ρ))
      (proxyWhole executor r modelName model) (proxyWhole executor r modelName model) := by
  refine .bind ((executing_mirrors Executor.execute_mirrors).mono fun out out' hout => ?_)
  cases hout
  match out with
  | .ok result =>
    exact .same_bind ProxyCall.disguise_eq (logRequestEntry_only _) fun _ => rfl
  | .error fail =>
    exact .same_bind ProxyCall.disguise_eq (logRequestEntry_only _) fun _ => rfl

theorem proxyModel_mirrors (modelName : String) (model : ℤ × String) :
    Mirrors (ProxyCall.disguise ρ) (fun a a' => a' = a.map (Response.disguise ρ))
      (proxyModel executor r modelName model) (proxyModel executor r modelName model) := by
  unfold proxyModel
  split
  · exact .same_bind ProxyCall.disguise_eq (logRequestEntry_only _) fun _ => rfl
  · split
    · exact proxyStream_mirrors modelName model
    · exact proxyWhole_mirrors modelName model

theorem proxyRequest_mirrors :
    Mirrors (ProxyCall.disguise ρ) (fun a a' => a' = a.map (Response.disguise ρ))
      (proxyRequest executor r) (proxyRequest executor r) := by
  unfold proxyRequest
  split
  · rfl
  · refine .same_call (fun _ => rfl) fun loaded => ?_
    match loaded with
    | .error e => rfl
    | .ok () =>
      refine .same_call (fun _ => rfl) fun resolved => ?_
      match resolved with
      | .error e => rfl
      | .ok none => rfl
      | .ok (some model) => exact proxyModel_mirrors _ model

theorem serveRequest_mirrors :
    Mirrors (ProxyCall.disguise ρ) (· = ·) (serveRequest executor r) (serveRequest executor r) := by
  refine .bind (proxyRequest_mirrors.mono fun answer answer' hanswer => ?_)
  cases hanswer
  match answer with
  | .error e => rfl
  | .ok (.json body) => rfl
  | .ok (.sse bootstrap modelName model) =>
    exact .same_bind ProxyCall.disguise_eq
      (streamTask_only (.keyless _) modelName bootstrap) fun _ => rfl

end Request

theorem requestRows_disguise (ρ : RoutedKey → String) (t : List ProxyCall) :
    requestRows (t.map (ProxyCall.disguise ρ)) = requestRows t := by
  rw [requestRows, List.filterMap_map]
  refine congrArg (List.filterMap · t) (funext fun call => ?_)
  obtain ⟨q, reply⟩ := call
  cases q with
  | exec q => rfl
  | _ => rfl

theorem usageRows_disguise (ρ : RoutedKey → String) (t : List ProxyCall) :
    usageRows (execCalls (t.map (ProxyCall.disguise ρ))) = usageRows (execCalls t) := by
  rw [execCalls, usageRows, List.filterMap_map, List.filterMap_filterMap, usageRows, execCalls,
    List.filterMap_filterMap]
  refine congrArg (List.filterMap · t) (funext fun call => ?_)
  obtain ⟨q, reply⟩ := call
  cases q with
  | exec q => cases q <;> rfl
  | _ => rfl

/-- **API keys are secret**: whoever answers its calls, a request that is routed to other API keys
makes the same calls but for the API keys that the upstreams are asked with, writes the same rows
in both logs, and leaves its client with the same. -/
theorem serveRequest_secret (ρ : RoutedKey → String) (executor : Executor) (r : Incoming)
    {t : List ProxyCall} {out : Served} (h : Follows (serveRequest executor r) t (.pure out)) :
    Follows (serveRequest executor r) (t.map (ProxyCall.disguise ρ)) (.pure out) ∧
      requestRows (t.map (ProxyCall.disguise ρ)) = requestRows t ∧
      usageRows (execCalls (t.map (ProxyCall.disguise ρ))) = usageRows (execCalls t) := by
  obtain ⟨out', hrun, rfl⟩ := serveRequest_mirrors.follows_pure (d := ProxyCall.disguise ρ) h
  exact ⟨hrun, requestRows_disguise ρ t, usageRows_disguise ρ t⟩

/-- The small request, with every API key blotted out. -/
theorem serveRequest_secret_sample :
    ∃ t out, Follows (serveRequest Executor.sample sampleIncoming) t (.pure out) ∧
      Follows (serveRequest Executor.sample sampleIncoming)
        (t.map (ProxyCall.disguise fun _ => "")) (.pure out) := by
  obtain ⟨t, out, hrun⟩ := serveRequest_sampleReply
  exact ⟨t, out, hrun, (serveRequest_secret (fun _ => "") Executor.sample sampleIncoming hrun).1⟩

end Chennix
