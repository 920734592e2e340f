import Chennix.Execution.Secrecy
import Chennix.Foundations.History
import Chennix.Server.Candidates
import Chennix.Server.Site

/-!
# Whom the upstreams are asked for

Behind the gateway stand keys that cost money. No upstream is asked for a request but for one whose
token was let in, for the model that the token was then allowed to use, at a channel that the group
of its user was then routed to, and with nothing else than what the client has sent. Each of these
was so when it mattered: the token when the request came, the name of the model when it was
resolved, the candidate when the request was routed. Later on all of them may change.

## Main definitions

* `ExecReq.Asks`, `Asked` — an upstream is asked
* `Vouched` — what vouches for it, in the trace of the request

## Main results

* `serveRequest_vouched` — every upstream that a request asks is vouched for
* `Site.upstream_mediated` — and so it is in every run of the site
-/

namespace Chennix

open Foundations Program

/-! ### An execution -/

/-- Every upstream that is asked is as `P` says. -/
def ExecReq.Asks (P : RoutedKey → Json → Prop) : ExecReq → Prop
  | adaptorExecute rk body => P rk body
  | adaptorExecuteStream rk body => P rk body
  | _ => True

/-- Who asks nobody but in exchanges. -/
theorem CoversLoop.asks (P : RoutedKey → Json → Prop) (ctx : ExecutionContext) :
    CoversLoop (ExecReq.Asks P) ctx where
  billing _ := trivial
  failure _ _ := trivial
  cooldown _ _ := trivial
  disabled _ := trivial
  check _ _ := trivial

theorem CoversSuccess.asks (P : RoutedKey → Json → Prop) (ctx : ExecutionContext) :
    CoversSuccess (ExecReq.Asks P) ctx where
  pricing _ _ := trivial
  billing _ := trivial
  row _ _ _ := trivial
  counters q hq := by cases q <;> first | exact hq.elim | trivial

/-- The trace asks an upstream. -/
def Asked (t : List ExecCall) (rk : RoutedKey) (reqBody : Json) : Prop :=
  ∃ call ∈ t, call.1 = .adaptorExecute rk reqBody ∨ call.1 = .adaptorExecuteStream rk reqBody

/-- The routing of the request has named the candidate. -/
def Routed (ctx : ExecutionContext) (t : List ExecCall) (rk : RoutedKey) : Prop :=
  ∃ buckets, (⟨.selectKeys ctx, .ok buckets⟩ : ExecCall) ∈ t ∧ rk ∈ Router.candidates buckets

/-- Whoever is asked has been named, and is sent what is made of the client's body. -/
def AsksRouted (codec : Json.Codec) (ctx : ExecutionContext) (entryFormat : EntryFormat)
    (body : Json) (t : List ExecCall) : Prop :=
  ∀ rk reqBody, Asked t rk reqBody → Routed ctx t rk ∧ Prepared codec entryFormat body rk reqBody

section Execution

variable {ctx : ExecutionContext} {entryFormat : EntryFormat} {body : Json} {t : List ExecCall}

theorem Routed.mono {t' : List ExecCall} {rk : RoutedKey} (h : Routed ctx t rk) (hsub : t ⊆ t') :
    Routed ctx t' rk := by
  obtain ⟨buckets, hmem, hrk⟩ := h
  exact ⟨buckets, hsub hmem, hrk⟩

/-- A call that asks nobody, or a candidate of the routing. -/
theorem AsksRouted.snoc {codec : Json.Codec} (h : AsksRouted codec ctx entryFormat body t)
    {q : ExecReq} (hq : q.Asks fun rk reqBody =>
      Routed ctx t rk ∧ Prepared codec entryFormat body rk reqBody) (r : q.Resp) :
    AsksRouted codec ctx entryFormat body (t ++ [⟨q, r⟩]) := by
  rintro rk reqBody ⟨call, hmem, hcall⟩
  rcases List.mem_append.mp hmem with hmem | hmem
  · obtain ⟨hrouted, hprep⟩ := h rk reqBody ⟨call, hmem, hcall⟩
    exact ⟨hrouted.mono (List.subset_append_left ..), hprep⟩
  · cases List.mem_singleton.mp hmem
    rcases hcall with rfl | rfl
    · exact ⟨hq.1.mono (List.subset_append_left ..), hq.2⟩
    · exact ⟨hq.1.mono (List.subset_append_left ..), hq.2⟩

namespace Executor

variable {executor : Executor}

theorem execution_routed {ε α : Type}
    {exchange : RoutedKey → Option ChannelModelPricing → BillingSession → Exchange ε α}
    (hx : ∀ P first pricing session, (exchange first pricing session).Makes (ExecReq.Asks P) P) :
    Always (AsksRouted executor.codec ctx entryFormat body)
      (executor.execution ctx entryFormat body exchange)
      (fun _ => AsksRouted executor.codec ctx entryFormat body) [] := by
  have hnil : AsksRouted executor.codec ctx entryFormat body [] := by
    rintro _ _ ⟨_, hmem, _⟩
    cases hmem
  refine ⟨hnil, fun routed _ _ => ?_⟩
  have hfirst := hnil.snoc (q := .selectKeys ctx) trivial routed
  match routed with
  | .error e => exact hfirst
  | .ok [] => exact hfirst
  | .ok (binding :: bindings) =>
    -- From here on the routing has replied, and all who are asked are among the candidates.
    refine Throughout.mono (Throughout.of_only
      (A := ExecReq.Asks fun rk reqBody => rk ∈ Router.candidates (binding :: bindings) ∧
        Prepared executor.codec entryFormat body rk reqBody)
      (I := fun t _ => AsksRouted executor.codec ctx entryFormat body t ∧
        (⟨.selectKeys ctx, .ok (binding :: bindings)⟩ : ExecCall) ∈ t) ?_ (fun _ _ h => h.1) ?_
      ⟨hfirst, List.mem_append_right _ (List.mem_singleton_self _)⟩) fun _ _ _ h => h.1
    · rintro q r t _ _ hq - ⟨h, hmem⟩
      refine ⟨h.snoc ?_ r, List.mem_append_left _ hmem⟩
      cases q <;> first | trivial | exact ⟨⟨_, hmem, hq.1⟩, hq.2⟩
    · refine ⟨trivial, fun pricing => ?_⟩
      match pricing with
      | .error e => trivial
      | .ok pricing =>
        refine (billing_only (fun _ => trivial) _).bind fun session => ?_
        match session with
        | .error e => trivial
        | .ok session =>
          exact tryAll_only (.asks _ ctx) (hx _ _ _ _) fun rk hrk reqBody hprep => ⟨hrk, hprep⟩

theorem execute_routed :
    Always (AsksRouted executor.codec ctx entryFormat body)
      (executor.execute ctx entryFormat body)
      (fun _ => AsksRouted executor.codec ctx entryFormat body) [] :=
  execution_routed fun P first pricing session => {
    send := fun _ _ h => ⟨h, fun _ => trivial⟩
    succeed := settleAndReturn_only (.asks P ctx) executor entryFormat session first pricing }

theorem executeStream_routed :
    Always (AsksRouted executor.codec ctx entryFormat body)
      (executor.executeStream ctx entryFormat body)
      (fun _ => AsksRouted executor.codec ctx entryFormat body) [] :=
  execution_routed fun P first pricing _ => {
    send := fun _ _ h => ⟨h, fun _ => trivial⟩
    succeed := fun rk _ _ _ =>
      (actualPricing_only (.asks P ctx) first pricing rk).bind fun _ => trivial }

end Executor

end Execution

/-! ### A request -/

/-- What vouches for an upstream that the request asks: the client's name for a model has been
resolved to one that the token may use, and the request has been routed for this model to the
candidate, which is sent what is made of the client's body. -/
def Vouched (executor : Executor) (r : Incoming) (t : List ProxyCall) : Prop :=
  ∀ rk reqBody, Asked (execCalls t) rk reqBody →
    Prepared executor.codec r.entryFormat r.body rk reqBody ∧
      ∃ modelName model, r.body.getStr "model" = some modelName ∧
        (⟨.resolve modelName, .ok (some model)⟩ : ProxyCall) ∈ t ∧
        r.auth.token.allowsModel model.2 = true ∧ Routed (r.context model) (execCalls t) rk

section Request

variable {executor : Executor} {r : Incoming} {modelName : String} {model : ℤ × String}
  {t : List ProxyCall}

theorem Vouched.of_nil (h : execCalls t = []) : Vouched executor r t := by
  intro _ _ hasked
  rw [h] at hasked
  obtain ⟨_, hmem, _⟩ := hasked
  cases hmem

/-- A call that asks nobody. -/
theorem Vouched.snoc (h : Vouched executor r t) {q : ProxyReq} (hq : q.Execs ExecReq.Keyless)
    (reply : q.Resp) :
    Vouched executor r (t ++ [⟨q, reply⟩]) := by
  intro rk reqBody hasked
  have hbefore : Asked (execCalls t) rk reqBody := by
    obtain ⟨call, hmem, hcall⟩ := hasked
    rw [execCalls_append] at hmem
    rcases List.mem_append.mp hmem with hmem | hmem
    · exact ⟨call, hmem, hcall⟩
    · cases q with
      | exec q =>
        cases List.mem_singleton.mp hmem
        rcases hcall with rfl | rfl <;> exact hq.elim
      | _ => cases hmem
  obtain ⟨hprep, modelName, model, hname, hresolve, hallowed, hrouted⟩ := h rk reqBody hbefore
  refine ⟨hprep, modelName, model, hname, List.mem_append_left _ hresolve, hallowed,
    hrouted.mono ?_⟩
  rw [execCalls_append]
  exact List.subset_append_left ..

/-- Programs that ask nobody. -/
theorem Vouched.only (h : Vouched executor r t) {α : Type} {p : ProxyM α}
    (hp : p.Only (ProxyReq.Execs ExecReq.Keyless)) :
    Always (Vouched executor r) p (fun _ => Vouched executor r) t :=
  Throughout.of_only (fun _ reply _ _ _ hq _ h => h.snoc hq reply) (fun _ _ h => h) hp h

/-- An execution for a model that the token may use. -/
theorem executing_vouched {α : Type} {p : ExecM α}
    (h : Always (AsksRouted executor.codec (r.context model) r.entryFormat r.body) p
      (fun _ => AsksRouted executor.codec (r.context model) r.entryFormat r.body) [])
    (hresolved : r.Resolved modelName model t) :
    Always (Vouched executor r) (executing p) (fun _ => Vouched executor r) t := by
  have hvouched : ∀ t', AsksRouted executor.codec (r.context model) r.entryFormat r.body
      (execCalls t') → t <+: t' → Vouched executor r t' := by
    intro t' h hpre rk reqBody hasked
    obtain ⟨hrouted, hprep⟩ := h rk reqBody hasked
    exact ⟨hprep, modelName, model, hresolved.name, hpre.subset hresolved.resolve,
      hresolved.allowed, hrouted⟩
  have hembed : Always (fun t' => AsksRouted executor.codec (r.context model) r.entryFormat r.body
      (execCalls t')) (executing p) (fun _ t' => AsksRouted executor.codec (r.context model)
        r.entryFormat r.body (execCalls t')) t := by
    refine Always.embed execCall? (fun _ _ => rfl) ?_
    rw [← execCalls, hresolved.first]
    exact h
  exact (hembed.grows.imp fun t' _ h => hvouched t' h.1 h.2).mono
    fun _ t' _ h => hvouched t' h.1 h.2

/-- **Every upstream that a request asks** is vouched for. -/
theorem serveRequest_vouched :
    Always (Vouched executor r) (serveRequest executor r) (fun _ => Vouched executor r) [] :=
  serveRequest_always {
    holds := fun _ h => h
    nil := .of_nil rfl
    other := fun q reply t hq h => h.snoc (by cases q <;> first | exact hq.elim | trivial) reply
    whole := fun _ _ _ hresolved _ => executing_vouched Executor.execute_routed hresolved
    stream := fun _ _ _ hresolved _ => executing_vouched Executor.executeStream_routed hresolved
    task := fun modelName _ bootstrap _ h =>
      h.only (streamTask_only (.keyless _) modelName bootstrap) }

theorem vouched_of_follows {t : List ProxyCall} {rest : ProxyM Served}
    (h : Follows (serveRequest executor r) t rest) : Vouched executor r t := by
  have hend := serveRequest_vouched.sound h
  cases rest with
  | pure out => exact hend
  | call q k => exact hend.1

end Request

/-! ### The site -/

/-- The request has come with these headers, and was let in. -/
def Site.LetIn (r : Incoming) (s : Site) (l : Site.Label) : Prop :=
  ∃ headers, l = .proxy headers r.entryFormat r.body r.requestId r.elapsedMs r.client ∧
    Admitted headers s.service.app r.auth

/-- The server routes a request with the context to the candidate: its channel is bound to the
model and open to the group of the user, and neither the key nor the small model is held back. -/
def AppState.Offers (s : AppState) (ctx : ExecutionContext) (rk : RoutedKey) : Prop :=
  ∃ bound ∈ s.snapshot.getForModel ctx.modelId,
    Router.groupMatch ctx.userGroup bound.1 = true ∧
    s.health.isSmallModelAvailable bound.1.id bound.2.2.1 = true ∧
    ∃ k ∈ bound.2.1, s.health.isAvailable s.now k.id bound.2.2.1 = true ∧
      rk = ⟨bound.1, k, bound.2.2.1, bound.2.2.2.1, bound.2.2.2.2⟩

/-- The client's name for a model is that of the model. -/
def Site.Resolves (lib : ServerLibraries) (modelName : String) (model : ℤ × String) (s : Site)
    (_ : Site.Label) : Prop :=
  Normalizer.resolve lib.lower s.service.app.normalizer modelName = some model

namespace Site

variable {lib : ServerLibraries} {verify : String → String → Bool} {executor : Executor}
  {s₀ s s' : Site} {ls : List Label} {l : Label}

/-- What is known of a request, in terms of the run that has led there. -/
structure Accounted (lib : ServerLibraries) (verify : String → String → Bool)
    (executor : Executor) (s₀ : Site) (ls : List Label) (r : Running) : Prop where
  follows : Follows (serveRequest executor r.incoming) r.trace r.rest
  letIn : Machine.Once (step lib verify executor) (LetIn r.incoming) s₀ ls
  resolves : ∀ modelName model,
    (⟨.resolve modelName, .ok (some model)⟩ : ProxyCall) ∈ r.trace →
      Machine.Once (step lib verify executor) (Resolves lib modelName model) s₀ ls
  offers : ∀ ctx buckets, (⟨.selectKeys ctx, .ok buckets⟩ : ExecCall) ∈ execCalls r.trace →
    ∀ rk ∈ Router.candidates buckets,
      Machine.Once (step lib verify executor) (fun s _ => s.service.app.Offers ctx rk) s₀ ls

theorem Accounted.later {r : Running} (h : Accounted lib verify executor s₀ ls r)
    (ms : List Label) : Accounted lib verify executor s₀ (ls ++ ms) r where
  follows := h.follows
  letIn := h.letIn.later ms
  resolves modelName model hmem := (h.resolves modelName model hmem).later ms
  offers ctx buckets hmem rk hrk := (h.offers ctx buckets hmem rk hrk).later ms

/-- **A call** is answered from the state it is made in. -/
theorem Accounted.call {r : Running} {i : ℕ} {chance : Chance} {reply : (q : ExecReq) → q.Resp}
    {q : ProxyReq} {k : q.Resp → ProxyM Served} (h : Accounted lib verify executor s₀ ls r)
    (hrest : r.rest = .call q k) (hrun : Machine.run (step lib verify executor) s₀ ls = some s) :
    Accounted lib verify executor s₀ (ls ++ [.call i chance reply])
      ⟨r.incoming, k (s.service.answer lib chance reply q).1,
        r.trace ++ [⟨q, (s.service.answer lib chance reply q).1⟩]⟩ where
  follows := by
    have hfollows := h.follows
    rw [hrest] at hfollows
    exact hfollows.snoc _
  letIn := h.letIn.later _
  resolves modelName model hmem := by
    rcases List.mem_append.mp hmem with hmem | hmem
    · exact (h.resolves modelName model hmem).later _
    · have heq := List.mem_singleton.mp hmem
      obtain ⟨rfl, hreply⟩ := Sigma.mk.inj heq
      exact .now hrun (Except.ok.inj (eq_of_heq hreply)).symm
  offers ctx buckets hmem rk hrk := by
    rw [execCalls_append] at hmem
    rcases List.mem_append.mp hmem with hmem | hmem
    · exact (h.offers ctx buckets hmem rk hrk).later _
    · cases q with
      | exec q =>
        obtain ⟨rfl, hreply⟩ := Sigma.mk.inj (List.mem_singleton.mp hmem)
        have hbuckets : buckets = (s.service.app.selectKeys lib.lower chance ctx).1 :=
          Except.ok.inj (eq_of_heq hreply)
        rw [hbuckets, AppState.mem_selectKeys] at hrk
        exact .now hrun hrk
      | _ => cases hmem

/-- **A step** accounts for the requests that there are. -/
theorem accounted_step (hrun : Machine.run (step lib verify executor) s₀ ls = some s)
    (h : ∀ r ∈ s.service.requests, Accounted lib verify executor s₀ ls r)
    (hstep : step lib verify executor s l = some s') :
    ∀ r ∈ s'.service.requests, Accounted lib verify executor s₀ (ls ++ [l]) r := by
  rcases step_cases hstep with ⟨headers, entryFormat, body, requestId, elapsedMs, client, auth, rfl,
    hauth, hservice⟩ | ⟨i, chance, reply, rfl, hservice⟩ | hsame
  · rw [← Option.some.inj hservice]
    refine Slots.forall_concat (fun r hr => (h r hr).later _) ?_
    exact {
      follows := .refl _ _
      letIn := .now hrun ⟨headers, rfl, admitted_of_middleware hauth⟩
      resolves := fun _ _ hmem => absurd hmem List.not_mem_nil
      offers := fun _ _ hmem => absurd hmem List.not_mem_nil }
  · obtain ⟨r, q, k, hr, hrest, hs'⟩ := Service.call_cases hservice
    rw [hs']
    show ∀ r' ∈ List.set _ _ _, _
    rw [Service.requests_answer]
    exact Slots.forall_set (fun r' hr' => (h r' hr').later _)
      ((h r (List.mem_of_getElem? hr)).call hrest hrun)
  · rw [hsame]
    exact fun r hr => (h r hr).later _

/-- **Nobody gets past the gateway.** In every run of a site that starts without requests, an
upstream is asked for a request only if the request was let in, its client's name for a model was
resolved to one that its token may use, and the server offered the candidate to the group of its
user for this model; and it is sent what is made of the client's body. -/
theorem upstream_mediated (h₀ : s₀.service.requests = [])
    (hrun : Machine.run (step lib verify executor) s₀ ls = some s) {r : Running}
    (hr : r ∈ s.service.requests) {rk : RoutedKey} {reqBody : Json}
    (hasked : Asked (execCalls r.trace) rk reqBody) :
    Prepared executor.codec r.incoming.entryFormat r.incoming.body rk reqBody ∧
      Machine.Once (step lib verify executor) (LetIn r.incoming) s₀ ls ∧
      ∃ modelName model, r.incoming.body.getStr "model" = some modelName ∧
        Machine.Once (step lib verify executor) (Resolves lib modelName model) s₀ ls ∧
        r.incoming.auth.token.allowsModel model.2 = true ∧
        Machine.Once (step lib verify executor)
          (fun s _ => s.service.app.Offers (r.incoming.context model) rk) s₀ ls := by
  have hall : ∀ r ∈ s.service.requests, Accounted lib verify executor s₀ ls r :=
    Machine.run_history (I := fun ls s => ∀ r ∈ s.service.requests,
      Accounted lib verify executor s₀ ls r) (fun _ _ _ _ hrun h hstep =>
        accounted_step hrun h hstep) hrun (by simp [h₀])
  have h := hall r hr
  obtain ⟨hprep, modelName, model, hname, hresolve, hallowed, buckets, hbuckets, hrk⟩ :=
    vouched_of_follows h.follows rk reqBody hasked
  exact ⟨hprep, h.letIn, modelName, model, hname, h.resolves modelName model hresolve, hallowed,
    h.offers _ buckets hbuckets rk hrk⟩

/-! ### A small site -/

/-- A site that has never been used. -/
def empty : Site := ⟨⟨.startup (fun _ => none) {} 0, .empty, [], []⟩, .empty, .empty⟩

def sampleLibraries : ServerLibraries where
  lower := Text.toAsciiLower
  evaluator := Executor.sample.evaluator
  readLimits := fun _ => none

/-- No password is hashed. -/
def samplePasswords (password hash : String) : Bool := password == hash

/-- The first administrator sets up a model, and asks for it with a new token. -/
def sampleLabels : List Label :=
  let chance : Chance := ⟨fun _ => 0, fun _ => 0⟩
  let ask (page : Page) : Label := .page [] (some "chennix_session=s-1") page
  let config (call : AdminCall) : Label := ask (.admin (.config call chance))
  [.setup "root" "password" (.ok "password"), .login "root" "password" "s-1",
    config (.createChannel ⟨"main", .openaiCompatible, "http://main", "default"⟩),
    config (.createKey 1 ⟨"sk-main", none, false, 0, 0.0⟩),
    config (.createModel "model-7"),
    config (.addDiscoveredModels 1 ["up-a"]),
    config (.addBinding 1 ⟨1, "up-a"⟩),
    ask (.createToken none ⟨⟨"", 500, false, -1, "", false, ""⟩, 0, some "sk-1"⟩ ""),
    .proxy { authorization := some "Bearer sk-1" } .openAI
      (.object [("model", .string "model-7")]) "req-1" 5 none] ++
    List.replicate 8 (.call 0 chance fun q =>
      (Executor.sampleServer (Executor.sampleBytes 600) q .sample).1)

/-- Some upstream is asked for a request of the site. -/
def asksSomeone (s : Site) : Bool :=
  s.service.requests.any fun r => (execCalls r.trace).any fun call =>
    match call.1 with
    | .adaptorExecute _ _ => true
    | .adaptorExecuteStream _ _ => true
    | _ => false

theorem exists_asked {s : Site} (h : s.asksSomeone = true) :
    ∃ r ∈ s.service.requests, ∃ rk reqBody, Asked (execCalls r.trace) rk reqBody := by
  obtain ⟨r, hr, hcalls⟩ := List.any_eq_true.mp h
  obtain ⟨⟨q, reply⟩, hcall, hasks⟩ := List.any_eq_true.mp hcalls
  cases q with
  | adaptorExecute rk reqBody => exact ⟨r, hr, rk, reqBody, _, hcall, .inl rfl⟩
  | adaptorExecuteStream rk reqBody => exact ⟨r, hr, rk, reqBody, _, hcall, .inr rfl⟩
  | _ => cases hasks

theorem upstream_mediated_sample :
    ∃ s, Machine.run (step sampleLibraries samplePasswords Executor.sample) empty sampleLabels =
        some s ∧
      ∃ r ∈ s.service.requests, ∃ rk reqBody, Asked (execCalls r.trace) rk reqBody ∧
        Machine.Once (step sampleLibraries samplePasswords Executor.sample) (LetIn r.incoming)
          empty sampleLabels := by
  have hasks : (Machine.run (step sampleLibraries samplePasswords Executor.sample) empty
    sampleLabels).any asksSomeone = true := by decide +kernel
  rw [Option.any_eq_true] at hasks
  obtain ⟨s, hrun, hasks⟩ := hasks
  obtain ⟨r, hr, rk, reqBody, hasked⟩ := exists_asked hasks
  exact ⟨s, hrun, r, hr, rk, reqBody, hasked, (upstream_mediated rfl hrun hr hasked).2.1⟩

end Site

end Chennix
