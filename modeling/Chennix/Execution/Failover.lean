import Chennix.Core.Executor
import Chennix.Core.Health
import Chennix.Foundations.Lockstep

/-!
# Failover

Two executions of one request, the one that waits for a whole response and the one that streams,
meet the same surroundings: the same candidates and prices, the same billing repository and health
of the keys, the same clock, and a script that says how the upstreams meet each attempt. They make
the same decisions: the attempts in their order, the keys cooled down and disabled, the failures
written down. Only the text of a timeout differs, since the two wait differently long.

## Main definitions

* `Outcome`, `Surroundings` — a script of attempts, and everything else an execution meets
* `Decision`, `decisions` — what an execution does about its candidates
* `SameEnd` — two answers that name the same candidate, or fail alike

## Main results

* `Exchange.Alike`, `tryAll_alike` — the loop makes the same decisions with like exchanges
* `Executor.same_failover` — the two executions make the same decisions, and end alike
-/

namespace Chennix

open Foundations Program Calendar

/-- How an upstream meets an attempt. -/
inductive Outcome
  | timeout
  | failed (e : ProxyError)
  /-- The call is accepted: the response to who awaits all of it, and to who streams it. -/
  | accepted (reply : ℕ × Bytes) (response : StreamResponse)

namespace Outcome

/-- To who awaits the whole response. -/
def reply : Outcome → Option (ProxyResult (ℕ × Bytes))
  | timeout => none
  | failed e => some (.error e)
  | accepted reply _ => some (.ok reply)

/-- To who awaits its beginning. -/
def response : Outcome → Option (ProxyResult StreamResponse)
  | timeout => none
  | failed e => some (.error e)
  | accepted _ response => some (.ok response)

end Outcome

/-- What an execution meets. -/
structure Surroundings where
  candidates : ProxyResult (List Bucket)
  pricing : ℤ → ℤ → String → ProxyResult (Option ChannelModelPricing)
  /-- The billing repository, given the calls before. -/
  repository : List BillingCall → (q : BillingReq) → q.Resp
  usageWriter : UsageEntry → ProxyResult Unit
  smallModelQuota : ℤ → String → Option QuotaState
  /-- The readings of the clock. -/
  clock : ℕ → Instant
  /-- How the upstreams meet an attempt: the attempts up to it, itself the last, each by its key
  and its upstream model. -/
  script : List (ℤ × String) → Outcome

/-- How far an execution has got with what it meets. -/
structure Situation where
  health : HealthManager
  /-- How often the health manager was asked. -/
  readings : ℕ
  billed : List BillingCall
  attempted : List RoutedKey

namespace Surroundings

/-- Where an execution begins. -/
def start (health : HealthManager) : Situation := ⟨health, 0, [], []⟩

variable (env : Surroundings)

/-- The reply to a call, and what has changed after it. -/
def answer : (q : ExecReq) → Situation → q.Resp × Situation
  | .selectKeys _, s => (env.candidates, s)
  | .getChannelModelPricing modelId channelId upstream, s =>
    (env.pricing modelId channelId upstream, s)
  | .billing q, s =>
    let r := env.repository s.billed q
    (r, { s with billed := s.billed ++ [⟨q, r⟩] })
  | .isAvailable keyId upstream, s =>
    (s.health.isAvailable (env.clock s.readings) keyId upstream,
      { s with readings := s.readings + 1 })
  | .adaptorExecute rk _, s =>
    let attempted := s.attempted ++ [rk]
    ((env.script (attempted.map fun rk => (rk.key.id, rk.upstreamModelName))).reply,
      { s with attempted := attempted })
  | .adaptorExecuteStream rk _, s =>
    let attempted := s.attempted ++ [rk]
    ((env.script (attempted.map fun rk => (rk.key.id, rk.upstreamModelName))).response,
      { s with attempted := attempted })
  | .markCooldown keyId upstream, s =>
    ((), { s with
      health := s.health.markCooldown (env.clock s.readings) keyId upstream
      readings := s.readings + 1 })
  | .markDisabled keyId, s =>
    ((), { s with health := s.health.markDisabled keyId, readings := s.readings + 1 })
  | .logUsage entry, s => (env.usageWriter entry, s)
  | .addKeyUsage _ _, s => (.ok (), s)
  | .addUsage keyId tokens, s => ((), { s with health := s.health.addUsage keyId tokens })
  | .getSmallModelQuota channelId upstream, s => (env.smallModelQuota channelId upstream, s)
  | .updateSmallModelQuota _ _ _ _, s => ((), s)
  | .addSmallModelUsage _ _ _ _, s => (.ok (), s)

end Surroundings

/-- What an execution does about a candidate. -/
inductive Decision
  /-- It asks the candidate's upstream. -/
  | asks (rk : RoutedKey) (body : Json)
  | coolsDown (keyId : ℤ) (upstream : String)
  | disables (keyId : ℤ)
  /-- It writes down that the attempt failed. The text of the error is left out. -/
  | recordsFailure (entry : UsageEntry)

/-- The decision that a call carries out. -/
def decision? : ExecCall → Option Decision
  | ⟨.adaptorExecute rk body, _⟩ => some (.asks rk body)
  | ⟨.adaptorExecuteStream rk body, _⟩ => some (.asks rk body)
  | ⟨.markCooldown keyId upstream, _⟩ => some (.coolsDown keyId upstream)
  | ⟨.markDisabled keyId, _⟩ => some (.disables keyId)
  | ⟨.logUsage entry, _⟩ =>
    if entry.status = "failed" then some (.recordsFailure { entry with error := none }) else none
  | _ => none

/-- The decisions in a trace. -/
def decisions (t : List ExecCall) : List Decision := t.filterMap decision?

namespace Decision

/-- The candidate whose upstream is asked. -/
def asked? : Decision → Option RoutedKey
  | asks rk _ => some rk
  | _ => none

end Decision

/-- The attempts among the decisions. -/
def attempts (ds : List Decision) : List RoutedKey := ds.filterMap Decision.asked?

/-- The failure up to the text of the last error that a failure of all keys carries. -/
def ExecutionFailure.withoutText (f : ExecutionFailure) : ExecutionFailure :=
  match f.error with
  | .allKeysExhausted model attemptedKeys _ =>
    { f with error := .allKeysExhausted model attemptedKeys none }
  | _ => f

/-- The two executions end alike: with the candidate that was asked last, or with the same
failure. -/
def SameEnd (asked : List RoutedKey) :
    Except ExecutionFailure ExecutionResult → Except ExecutionFailure StreamBootstrap → Prop
  | .ok result, .ok bootstrap =>
    asked.getLast? = some bootstrap.routedKey ∧
      result.channelName = bootstrap.routedKey.channel.name ∧
      result.keyLabel = bootstrap.routedKey.key.label ∧
      result.upstreamModelName = bootstrap.routedKey.upstreamModelName
  | .error failure, .error failure' => failure.withoutText = failure'.withoutText
  | _, _ => False

/-- Two executions side by side. -/
abbrev Beside (env : Surroundings) {α β : Type} (p : ExecM α) (p' : ExecM β)
    (post : α → β → Situation → Situation → Prop) (s s' : Situation) : Prop :=
  Lockstep env.answer decision? p p' post s s'

/-- The attempts of an execution are those its surroundings have seen. -/
theorem attempted_run (env : Surroundings) {α : Type} (p : ExecM α) (s : Situation) :
    (p.run env.answer s).state.attempted =
      s.attempted ++ attempts (decisions (p.run env.answer s).trace) := by
  induction p generalizing s with
  | pure a => exact (List.append_nil _).symm
  | call q k ih =>
    show ((k _).run env.answer _).state.attempted = _
    rw [ih]
    cases q with
    | adaptorExecute rk body => exact List.append_assoc ..
    | adaptorExecuteStream rk body => exact List.append_assoc ..
    | logUsage entry =>
      show s.attempted ++ attempts (decisions ((k _).run env.answer s).trace) =
        s.attempted ++ attempts (List.filterMap decision? (_ :: _))
      rw [List.filterMap_cons]
      by_cases h : entry.status = "failed"
      · rw [show decision? ⟨.logUsage entry, _⟩ = some _ from if_pos h]
        rfl
      · rw [show decision? ⟨.logUsage entry, _⟩ = none from if_neg h]
        rfl
    | _ => rfl

variable {env : Surroundings}

/-! ### The loop -/

section Loop

variable {ρ ρ' α β : Type}

/-- The variables of two loops agree, up to the text of the last error. -/
structure Progress.SameAs (p p' : Progress) : Prop where
  attempted : p.attempted = p'.attempted
  lastUpstreamStatus : p.lastUpstreamStatus = p'.lastUpstreamStatus
  lastTriedRk : p.lastTriedRk = p'.lastTriedRk

/-- How two executions may end. -/
abbrev Ends (α β : Type) : Type :=
  Except ExecutionFailure α → Except ExecutionFailure β → Situation → Situation → Prop

/-- Two loop bodies are left alike: for the same place, in the same situation, or for good. -/
inductive Flow.Alike (post : Ends α β) : Flow α → Flow β → Situation → Situation → Prop
  | next {p p' : Progress} {s : Situation} (hp : p.SameAs p') : Alike post (.next p) (.next p') s s
  | skip {p p' : Progress} {s : Situation} (hp : p.SameAs p') : Alike post (.skip p) (.skip p') s s
  | done {r : Except ExecutionFailure α} {r' : Except ExecutionFailure β} {s s' : Situation}
      (hr : post r r' s s') : Alike post (.done r) (.done r') s s'

/-- Two upstreams reply alike, and what their successes lead to runs side by side. -/
inductive Exchange.RepliesAlike (env : Surroundings) (post : Ends α β) (exchange : Exchange ρ α)
    (exchange' : Exchange ρ' β) (rk : RoutedKey) :
    Option (ProxyResult ρ) → Option (ProxyResult ρ') → Situation → Situation → Prop
  | timeout {s : Situation} : RepliesAlike env post exchange exchange' rk none none s s
  | failed {s : Situation} (e : ProxyError) :
      RepliesAlike env post exchange exchange' rk (some (.error e)) (some (.error e)) s s
  | accepted {reply : ρ} {reply' : ρ'} {s s' : Situation}
      (h : ∀ attempted, Beside env (exchange.succeed rk rk.channel.provider reply attempted)
        (exchange'.succeed rk rk.channel.provider reply' attempted) post s s') :
      RepliesAlike env post exchange exchange' rk (some (.ok reply)) (some (.ok reply')) s s'

/-- Two exchanges that may take one another's place in the loop. -/
structure Exchange.Alike (env : Surroundings) (post : Ends α β) (exchange : Exchange ρ α)
    (exchange' : Exchange ρ' β) : Prop where
  send : ∀ rk reqBody s, Beside env (exchange.send rk reqBody) (exchange'.send rk reqBody)
    (exchange.RepliesAlike env post exchange' rk) s s
  fail : ∀ failure failure' s, failure.withoutText = failure'.withoutText →
    post (.error failure) (.error failure') s s

variable {post : Ends α β} {exchange : Exchange ρ α} {exchange' : Exchange ρ' β}
  {ctx : ExecutionContext} {session : BillingSession} {codec : Json.Codec}
  {entryFormat : EntryFormat} {body : Json}

theorem refundAndFail_alike (h : exchange.Alike env post exchange')
    {failure failure' : ExecutionFailure} (hf : failure.withoutText = failure'.withoutText)
    (s : Situation) :
    Beside env (refundAndFail session failure) (refundAndFail session failure') post s s :=
  Lockstep.same_bind fun _ s => .pure (h.fail _ _ s hf)

/-- A timeout: the text names the time that was allowed, and only the text. -/
theorem attemptTimedOut_alike (rk : RoutedKey) (seconds seconds' : ℕ) {p p' : Progress}
    (hp : p.SameAs p') (s : Situation) :
    Beside env (attemptTimedOut ctx rk seconds p) (attemptTimedOut ctx rk seconds' p')
      (Flow.Alike post) s s := by
  refine .call (by simp [decision?]) ?_
  exact .call rfl (.pure (.next ⟨hp.attempted, rfl, hp.lastTriedRk⟩))

theorem attemptFailed_alike (h : exchange.Alike env post exchange') (rk : RoutedKey)
    (e : ProxyError) {p p' : Progress} (hp : p.SameAs p') (s : Situation) :
    Beside env (attemptFailed ctx session rk e p) (attemptFailed ctx session rk e p')
      (Flow.Alike post) s s := by
  refine Lockstep.same_bind fun _ s => ?_
  have hnext : ∀ t, Progress.SameAs
      { p with lastError := t, lastUpstreamStatus := upstreamStatusOf e }
      { p' with lastError := t, lastUpstreamStatus := upstreamStatusOf e } :=
    fun _ => ⟨hp.attempted, rfl, hp.lastTriedRk⟩
  cases classifyFailure e with
  | returnToClient =>
    refine Lockstep.bind ((refundAndFail_alike h ?_ s).mono fun r r' _ _ hr => .pure (.done hr))
    rw [hp.attempted]
  | disable => exact .call rfl (.pure (.next (hnext _)))
  | cooldown => exact .call rfl (.pure (.next (hnext _)))
  | skipBinding => exact .pure (.skip (hnext _))

theorem attempt_alike (h : exchange.Alike env post exchange') (rk : RoutedKey) {p p' : Progress}
    (hp : p.SameAs p') (s : Situation) :
    Beside env (attempt ctx session rk codec entryFormat body exchange p)
      (attempt ctx session rk codec entryFormat body exchange' p') (Flow.Alike post) s s := by
  refine Lockstep.same_bind fun available s => ?_
  cases available with
  | false => exact .pure (.next hp)
  | true =>
    obtain ⟨out, hout⟩ := prepareRequest_ok codec entryFormat body rk.channel rk.upstreamModelName
    simp only [attemptAvailable, hout]
    rw [hp.attempted]
    refine Lockstep.bind ((h.send rk _ s).mono fun reply reply' s s' hr => ?_)
    cases hr with
    | timeout =>
      refine attemptTimedOut_alike rk _ _ ?_ s
      exact ⟨rfl, hp.lastUpstreamStatus, rfl⟩
    | failed e =>
      refine attemptFailed_alike h rk e ?_ s
      exact ⟨rfl, hp.lastUpstreamStatus, rfl⟩
    | accepted hr => exact Lockstep.bind ((hr _).mono fun r r' _ _ hr => .pure (.done hr))

theorem tryKeys_alike (h : exchange.Alike env post exchange') (rks : List RoutedKey)
    {p p' : Progress} (hp : p.SameAs p') (s : Situation) :
    Beside env (tryKeys ctx session codec entryFormat body exchange rks p)
      (tryKeys ctx session codec entryFormat body exchange' rks p') (Flow.Alike post) s s := by
  induction rks generalizing p p' s with
  | nil => exact .pure (.next hp)
  | cons rk rks ih =>
    refine Lockstep.bind ((attempt_alike h rk hp s).mono fun flow flow' s s' hflow => ?_)
    cases hflow with
    | next hp => exact ih hp s
    | skip hp => exact .pure (.skip hp)
    | done hr => exact .pure (.done hr)

theorem tryBindings_alike (h : exchange.Alike env post exchange') (bindings : List Bucket)
    {p p' : Progress} (hp : p.SameAs p') (s : Situation) :
    Beside env (tryBindings ctx session codec entryFormat body exchange bindings p)
      (tryBindings ctx session codec entryFormat body exchange' bindings p')
      (Flow.Alike post) s s := by
  induction bindings generalizing p p' s with
  | nil => exact .pure (.next hp)
  | cons binding bindings ih =>
    refine Lockstep.bind
      ((tryKeys_alike h binding.keys hp s).mono fun flow flow' s s' hflow => ?_)
    cases hflow with
    | next hp => exact ih hp s
    | skip hp => exact ih hp s
    | done hr => exact .pure (.done hr)

/-- The failure of all keys carries what the loops agree on. -/
theorem allKeysExhausted_withoutText {p p' : Progress} (hp : p.SameAs p') :
    (allKeysExhausted ctx p).withoutText = (allKeysExhausted ctx p').withoutText := by
  obtain ⟨attempted, lastError, status, rk⟩ := p
  obtain ⟨attempted', lastError', status', rk'⟩ := p'
  obtain ⟨rfl, rfl, rfl⟩ := hp
  cases rk <;> rfl

/-- **The loop.** With like exchanges it makes the same decisions. -/
theorem tryAll_alike (h : exchange.Alike env post exchange') (candidates : List Bucket)
    (s : Situation) :
    Beside env (tryAll ctx session codec entryFormat body exchange candidates)
      (tryAll ctx session codec entryFormat body exchange' candidates) post s s := by
  refine Lockstep.bind
    ((tryBindings_alike h _ ⟨rfl, rfl, rfl⟩ s).mono fun flow flow' s s' hflow => ?_)
  cases hflow with
  | next hp => exact refundAndFail_alike h (allKeysExhausted_withoutText hp) s
  | skip hp => exact refundAndFail_alike h (allKeysExhausted_withoutText hp) s
  | done hr => exact .pure hr

end Loop

/-! ### The executions -/

/-- The calls that carry out no decision. -/
def Undecided (q : ExecReq) : Prop := ∀ r, decision? ⟨q, r⟩ = none

/-- Such a call is no attempt. -/
theorem Undecided.attempted {q : ExecReq} (h : Undecided q) (s : Situation) :
    (env.answer q s).2.attempted = s.attempted := by
  cases q with
  | adaptorExecute rk body => cases h none
  | adaptorExecuteStream rk body => cases h none
  | _ => rfl

theorem billing_undecided {α : Type} (p : BillingM α) : Only Undecided (billing p) :=
  (Only.embed p).mono fun q hq r => by
    obtain ⟨q, rfl⟩ := hq
    rfl

theorem trackSuccess_undecided (ctx : ExecutionContext) (rk : RoutedKey) (usage : Usage)
    (quotaCost : ℤ) (requestType : String) :
    Only Undecided (Tracker.trackSuccess ctx rk usage quotaCost requestType) := by
  refine ⟨fun _ => by simp [decision?], fun _ => ⟨fun _ => rfl, fun _ =>
    ⟨fun _ => rfl, fun _ => ?_⟩⟩⟩
  refine ((accumulateSmallModelQuota_calls _ _ usage).mono fun q hq r => ?_).bind fun _ => trivial
  cases q <;> first | exact hq.elim | rfl

theorem actualPricing_undecided (ctx : ExecutionContext) (first rk : RoutedKey)
    (modelPricing : Option ChannelModelPricing) :
    Only Undecided (Executor.actualPricing ctx first modelPricing rk) := by
  unfold Executor.actualPricing
  split
  · trivial
  · refine ⟨fun _ => rfl, fun r => ?_⟩
    cases r <;> trivial

/-- The streaming execution has ended like the other one. -/
def EndAlike : Ends ExecutionResult StreamBootstrap := fun r r' s _ => SameEnd s.attempted r r'

namespace Executor

variable (self : Executor) (ctx : ExecutionContext) (entryFormat : EntryFormat) (body : Json)

/-- **Success.** The one settles, tracks and translates, the other hands its session on: neither
decides anything more, and both name the candidate that was asked last. -/
theorem succeed_alike (session : BillingSession) (first rk : RoutedKey)
    (modelPricing : Option ChannelModelPricing) (reply : ℕ × Bytes) (response : StreamResponse)
    (attempted : List String) (s : Situation) (hlast : s.attempted.getLast? = some rk) :
    Beside env
      (self.settleAndReturn ctx entryFormat session first modelPricing rk rk.channel.provider
        reply attempted)
      (actualPricing ctx first modelPricing rk >>= fun pricing => Pure.pure
        (.ok ⟨response, session, rk, pricing, entryFormat, rk.channel.provider⟩)) EndAlike s s := by
  have keeps {α : Type} {p : ExecM α} (hp : Only Undecided p) {s : Situation}
      (hs : s.attempted.getLast? = some rk) :
      (p.run env.answer s).state.attempted.getLast? = some rk :=
    hp.run_keeps (I := fun s : Situation => s.attempted.getLast? = some rk)
      (fun q s hq hs => by rwa [hq.attempted]) hs
  refine Lockstep.bind ⟨rfl, ?_⟩
  refine Lockstep.unseen (fun _ hq => hq) (billing_undecided _) ?_
  refine Lockstep.unseen (fun _ hq => hq) (trackSuccess_undecided ..) ?_
  obtain ⟨body, hbody⟩ := finalBody_ok self.codec self.now entryFormat rk.channel.provider reply.2
    ((self.codec.fromSlice reply.2).toOption.getD .null)
  rw [hbody]
  refine .pure ⟨?_, rfl, rfl, rfl⟩
  exact keeps (trackSuccess_undecided ..) (keeps (billing_undecided _)
    (keeps (actualPricing_undecided ..) hlast))

/-- An upstream that replies to the one execution replies alike to the other. -/
theorem exchanges_alike (first : RoutedKey) (modelPricing : Option ChannelModelPricing)
    (session : BillingSession) :
    Exchange.Alike env EndAlike
      { send := fun rk reqBody => await (.adaptorExecute rk reqBody)
        timeout := self.upstreamTimeout
        succeed := self.settleAndReturn ctx entryFormat session first modelPricing }
      { send := fun rk reqBody => await (.adaptorExecuteStream rk reqBody)
        timeout := self.streamingTimeout
        succeed := fun rk adaptorProvider response _ => do
          let pricing ← actualPricing ctx first modelPricing rk
          return .ok ⟨response, session, rk, pricing, entryFormat, adaptorProvider⟩ } where
  send rk reqBody s := by
    refine .call rfl (.pure ?_)
    generalize hattempted : s.attempted ++ [rk] = attempted
    simp only [Surroundings.answer, hattempted]
    cases env.script (attempted.map fun rk => (rk.key.id, rk.upstreamModelName)) with
    | timeout => exact .timeout
    | failed e => exact .failed e
    | accepted reply response =>
      refine .accepted fun labels => ?_
      refine succeed_alike self ctx entryFormat session first rk modelPricing reply response labels
        _ ?_
      show attempted.getLast? = some rk
      rw [← hattempted, List.getLast?_concat]
  fail failure failure' s h := h

/-- **The two executions make the same failover decisions.** They ask the same candidates in the
same order, cool down and disable the same keys, and record the same failures; they end with the
same candidate, or with the same failure. -/
theorem same_failover (env : Surroundings) (health : HealthManager) :
    let whole := (self.execute ctx entryFormat body).run env.answer (Surroundings.start health)
    let stream := (self.executeStream ctx entryFormat body).run env.answer
      (Surroundings.start health)
    decisions whole.trace = decisions stream.trace ∧
      SameEnd (attempts (decisions whole.trace)) whole.answer stream.answer := by
  intro whole stream
  have h : Beside env (self.execute ctx entryFormat body) (self.executeStream ctx entryFormat body)
      EndAlike (Surroundings.start health) (Surroundings.start health) := by
    refine Lockstep.same_bind fun candidates s => ?_
    match candidates with
    | .error e => exact .pure rfl
    | .ok [] => exact .pure rfl
    | .ok (binding :: bindings) =>
      refine Lockstep.same_bind fun pricing s => ?_
      cases pricing with
      | error e => exact .pure rfl
      | ok modelPricing =>
        refine Lockstep.same_bind fun session s => ?_
        cases session with
        | error e => exact .pure rfl
        | ok session =>
          exact tryAll_alike (self.exchanges_alike ..) _ s
  refine ⟨h.shown, ?_⟩
  have hseen := attempted_run env (self.execute ctx entryFormat body)
    (Surroundings.start health)
  have hend : SameEnd whole.state.attempted whole.answer stream.answer := h.ends
  rwa [hseen] at hend

end Executor

end Chennix
