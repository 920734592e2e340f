import Chennix.Common.Display
import Chennix.Core.Pricing
import Chennix.Core.Tracker
import Chennix.Translator.C2O

/-!
# The executor

A request tries the candidates of at most three bindings in turn: all keys of a binding before the
next. Before the first attempt the estimated cost is reserved; the attempt that succeeds settles
the session at the actual cost, and every other end refunds it. The streaming execution shares the
loop and returns with the session still open once an upstream has begun to answer.

The two executions are one loop, given how a candidate is asked and what its success leads to.

## Main definitions

* `classifyFailure` — what a failed attempt means for the loop
* `prepareRequest`, `translateResponseBack` — bodies between the two formats
* `attempt`, `tryKeys`, `tryBindings` — the loop
* `Executor.execute`, `Executor.executeStream` — the two executions

## Main results

* `translateResponseBack_ok` — no response is lost in translation
* `tryAll_loop`, `tryAll_rule` — an invariant of the open session carries the loop to its end
-/

namespace Chennix

open Foundations Program

/-- How many bindings are tried, the first included. -/
def maxBindingAttempts : ℕ := 3

/-- The settings of the executor, and the libraries it uses. -/
structure Executor where
  /-- In seconds, for a whole response. -/
  upstreamTimeout : ℕ
  /-- In seconds, for the beginning of a response. -/
  streamingTimeout : ℕ
  codec : Json.Codec
  evaluator : BillingExpr.Evaluator
  /-- The clock, in seconds since the epoch. -/
  now : UInt64

/-- What the executor does after a failed attempt. -/
inductive FailureAction
  /-- Cool the key down and try the next. -/
  | cooldown
  /-- Disable the key and try the next. -/
  | disable
  /-- Refund and give the error to the client. -/
  | returnToClient
  /-- Leave the key alone and go on to the next binding. -/
  | skipBinding
  deriving DecidableEq, Repr

def bodyContainsContextLengthExceeded (body : String) : Bool :=
  Text.contains (Text.toAsciiLower body) "context_length_exceeded"

def classifyFailure : ProxyError → FailureAction
  | .upstream status body =>
    match status with
    | 404 => .skipBinding
    | 400 => if bodyContainsContextLengthExceeded body then .skipBinding else .returnToClient
    | 422 => .returnToClient
    | 401 | 403 => .disable
    | _ => .cooldown
  | .invalidRequest _ => .returnToClient
  | .upstreamTimeout _ => .cooldown
  | _ => .cooldown

/-- Put the upstream's name of the model into the body. -/
def swapModel (body : Json) (upstreamModelName : String) : Json :=
  match body with
  | .object members => .object (Json.insertMember "model" (.string upstreamModelName) members)
  | other => other

section Bodies

variable (codec : Json.Codec)

/-- The body for a channel's upstream, and the provider whose response to expect. -/
def prepareRequest (entryFormat : EntryFormat) (body : Json) (channel : ChannelConfig)
    (upstreamModelName : String) : ProxyResult (Json × ChannelProvider) :=
  let out : ProxyResult Json := match entryFormat, channel.provider with
    | .openAI, .openaiCompatible => .ok body
    | .claude, .anthropic => .ok body
    | .openAI, .anthropic => O2C.openaiToClaudeRequest codec body
    | .claude, .openaiCompatible => C2O.claudeToOpenaiRequest codec body
  out.map fun out => (swapModel out upstreamModelName, channel.provider)

/-- An upstream's response in the client's format. -/
def translateResponseBack (now : UInt64) (entryFormat : EntryFormat)
    (adaptorProvider : ChannelProvider) (body : Json) : ProxyResult Json :=
  match entryFormat, adaptorProvider with
  | .openAI, .openaiCompatible => .ok body
  | .claude, .anthropic => .ok body
  | .openAI, .anthropic => O2C.claudeToOpenaiResponse codec now body
  | .claude, .openaiCompatible => C2O.openaiToClaudeResponse codec body

/-- The body for the client: the upstream's own bytes where the formats agree. -/
def finalBody (now : UInt64) (entryFormat : EntryFormat) (adaptorProvider : ChannelProvider)
    (bytes : Bytes) (value : Json) : ProxyResult Bytes :=
  if adaptorProvider = entryFormat.provider then .ok bytes
  else
    (translateResponseBack codec now entryFormat adaptorProvider value).bind fun t =>
      (codec.toVec t).mapError .json

theorem translateResponseBack_ok (now : UInt64) (entryFormat : EntryFormat)
    (adaptorProvider : ChannelProvider) (body : Json) :
    ∃ t, translateResponseBack codec now entryFormat adaptorProvider body = .ok t := by
  cases entryFormat <;> cases adaptorProvider <;> exact ⟨_, rfl⟩

/-- **No response is lost**: once an upstream has answered there is a body for the client. -/
theorem finalBody_ok (now : UInt64) (entryFormat : EntryFormat)
    (adaptorProvider : ChannelProvider) (bytes : Bytes) (value : Json) :
    ∃ body, finalBody codec now entryFormat adaptorProvider bytes value = .ok body := by
  unfold finalBody
  split
  · exact ⟨_, rfl⟩
  · obtain ⟨t, ht⟩ := translateResponseBack_ok codec now entryFormat adaptorProvider value
    obtain ⟨body, hbody⟩ := codec.toVec_ok t
    exact ⟨body, by rw [ht]; simp [Except.bind, hbody, Except.mapError]⟩

/-- The body of an attempt can always be built, and expects the channel's own provider. -/
theorem prepareRequest_ok (entryFormat : EntryFormat) (body : Json) (channel : ChannelConfig)
    (upstreamModelName : String) :
    ∃ out, prepareRequest codec entryFormat body channel upstreamModelName =
      .ok (swapModel out upstreamModelName, channel.provider) := by
  unfold prepareRequest
  cases entryFormat <;> cases channel.provider <;> exact ⟨_, rfl⟩

end Bodies

/-- What a successful execution hands to the request handler. -/
structure ExecutionResult where
  body : Bytes
  channelName : String
  keyLabel : Option String
  upstreamStatus : Option ℕ
  upstreamModelName : String
  quotaCost : ℤ
  attemptedKeys : List String
  deriving DecidableEq, Repr

/-- What a failed execution hands to the request handler. -/
structure ExecutionFailure where
  channelName : Option String
  keyLabel : Option String
  attemptedKeys : List String
  upstreamStatus : Option ℕ
  upstreamModelName : Option String
  error : ProxyError
  deriving DecidableEq, Repr

namespace ExecutionFailure

/-- A failure before any key was tried. -/
def noAttempt (error : ProxyError) : ExecutionFailure := ⟨none, none, [], none, none, error⟩

/-- A failure with the key that was tried last. -/
def fromLastAttempt (rk : RoutedKey) (attempted : List String) (upstreamStatus : Option ℕ)
    (error : ProxyError) : ExecutionFailure :=
  ⟨some rk.channel.name, rk.key.label, attempted, upstreamStatus, some rk.upstreamModelName, error⟩

end ExecutionFailure

/-- What a streaming execution hands to the request handler, the open session included. -/
structure StreamBootstrap where
  response : StreamResponse
  session : BillingSession
  routedKey : RoutedKey
  modelPricing : Option ChannelModelPricing
  entryFormat : EntryFormat
  adaptorProvider : ChannelProvider

/-- The variables of the loop. -/
structure Progress where
  attempted : List String := []
  lastError : Option String := none
  lastUpstreamStatus : Option ℕ := none
  lastTriedRk : Option RoutedKey := none

/-- How an attempt leaves the loop body. -/
inductive Flow (α : Type)
  /-- On to the next key. -/
  | next (p : Progress)
  /-- On to the next binding. -/
  | skip (p : Progress)
  /-- Out of the function. -/
  | done (r : Except ExecutionFailure α)

/-- What differs between the two executions. -/
structure Exchange (ρ α : Type) where
  /-- Ask a candidate's upstream, within the time allowed. -/
  send : RoutedKey → Json → ExecM (Option (ProxyResult ρ))
  timeout : ℕ
  /-- Go on from its success. -/
  succeed : RoutedKey → ChannelProvider → ρ → List String → ExecM (Except ExecutionFailure α)

section Loop

variable {ρ α : Type}

/-- Refund the session and fail. A refund that fails is only logged. -/
def refundAndFail (session : BillingSession) (failure : ExecutionFailure) :
    ExecM (Except ExecutionFailure α) := do
  let _ ← billing (BillingManager.refund session)
  return .error failure

/-- The status in an upstream's error. -/
def upstreamStatusOf : ProxyError → Option ℕ
  | .upstream status _ => some status
  | _ => none

variable (ctx : ExecutionContext) (session : BillingSession) (rk : RoutedKey)

/-- An attempt whose upstream did not answer in time. -/
def attemptTimedOut (seconds : ℕ) (p : Progress) : ExecM (Flow α) := do
  let text := (ProxyError.upstreamTimeout seconds).display
  let _ ← Tracker.trackFailure ctx rk "chat" text
  let () ← await (.markCooldown rk.key.id rk.upstreamModelName)
  return .next { p with lastError := some text, lastUpstreamStatus := none }

/-- An attempt whose upstream answered an error. -/
def attemptFailed (e : ProxyError) (p : Progress) : ExecM (Flow α) := do
  let _ ← Tracker.trackFailure ctx rk "chat" e.display
  let status := upstreamStatusOf e
  let p := { p with lastError := some e.display, lastUpstreamStatus := status }
  match classifyFailure e with
  | .returnToClient =>
    let r ← refundAndFail session (.fromLastAttempt rk p.attempted status e)
    return .done r
  | .disable =>
    let () ← await (.markDisabled rk.key.id)
    return .next p
  | .cooldown =>
    let () ← await (.markCooldown rk.key.id rk.upstreamModelName)
    return .next p
  | .skipBinding => return .skip p

variable (codec : Json.Codec) (entryFormat : EntryFormat) (body : Json) (exchange : Exchange ρ α)

/-- The loop body on a key that is available. -/
def attemptAvailable (p : Progress) : ExecM (Flow α) :=
  let label := rk.key.label.getD s!"key-{rk.key.id}"
  let p := { p with attempted := p.attempted ++ [label], lastTriedRk := some rk }
  match prepareRequest codec entryFormat body rk.channel rk.upstreamModelName with
  | .error e => do
    let r ← refundAndFail session (.fromLastAttempt rk p.attempted none e)
    return .done r
  | .ok (reqBody, adaptorProvider) => do
    match ← exchange.send rk reqBody with
    | none => attemptTimedOut ctx rk exchange.timeout p
    | some (.error e) => attemptFailed ctx session rk e p
    | some (.ok reply) =>
      let r ← exchange.succeed rk adaptorProvider reply p.attempted
      return .done r

/-- The loop body. -/
def attempt (p : Progress) : ExecM (Flow α) := do
  match ← await (.isAvailable rk.key.id rk.upstreamModelName) with
  | false => return .next p
  | true => attemptAvailable ctx session rk codec entryFormat body exchange p

/-- The keys of a binding. -/
def tryKeys : List RoutedKey → Progress → ExecM (Flow α)
  | [], p => return .next p
  | rk :: rks, p => do
    match ← attempt ctx session rk codec entryFormat body exchange p with
    | .next p => tryKeys rks p
    | .skip p => return .skip p
    | .done r => return .done r

/-- The bindings. -/
def tryBindings : List Bucket → Progress → ExecM (Flow α)
  | [], p => return .next p
  | binding :: bindings, p => do
    match ← tryKeys ctx session codec entryFormat body exchange binding.keys p with
    | .next p => tryBindings bindings p
    | .skip p => tryBindings bindings p
    | .done r => return .done r

/-- The failure when the loop has ended, with the key that was tried last, if any was. -/
def allKeysExhausted (p : Progress) : ExecutionFailure :=
  let error := ProxyError.allKeysExhausted ctx.canonicalName [] p.lastError
  let failure : ExecutionFailure := match p.lastTriedRk with
    | some rk => .fromLastAttempt rk p.attempted p.lastUpstreamStatus error
    | none => .noAttempt error
  { failure with
    error := .allKeysExhausted ctx.canonicalName failure.attemptedKeys p.lastError }

/-- The loop and what comes after it. -/
def tryAll (candidates : List Bucket) : ExecM (Except ExecutionFailure α) := do
  match ← tryBindings ctx session codec entryFormat body exchange
      (candidates.take maxBindingAttempts) {} with
  | .done r => return r
  | .next p => refundAndFail session (allKeysExhausted ctx p)
  | .skip p => refundAndFail session (allKeysExhausted ctx p)

/-! ### The rule of the loop -/

section Rule

variable {σ : Type} {H : Handler ExecReq ExecReq.Resp σ} {φ I : List ExecCall → σ → Prop}
  {post : Except ExecutionFailure α → List ExecCall → σ → Prop}

/-- What an attempt leaves behind: the invariant, unless it ends the execution. -/
def Flow.Leaves (I : List ExecCall → σ → Prop)
    (post : Except ExecutionFailure α → List ExecCall → σ → Prop) :
    Flow α → List ExecCall → σ → Prop
  | .done r => post r
  | _ => I

/-- What a reply leaves behind: the invariant, unless it is a success to go on from. -/
def Exchange.Leaves (H : Handler ExecReq ExecReq.Resp σ) (φ I : List ExecCall → σ → Prop)
    (post : Except ExecutionFailure α → List ExecCall → σ → Prop) (exchange : Exchange ρ α)
    (rk : RoutedKey) : Option (ProxyResult ρ) → List ExecCall → σ → Prop
  | some (.ok reply) => fun t s => ∀ attempted,
      Throughout H φ (exchange.succeed rk rk.channel.provider reply attempted) post t s
  | _ => I

/-- The row that a failed attempt leaves in the usage log. -/
def UsageEntry.OfFailure (ctx : ExecutionContext) (entry : UsageEntry) : Prop :=
  ∃ (rk : RoutedKey) (error : String), entry = ⟨ctx.userId, ctx.tokenId, rk.channel.id, rk.key.id,
    ctx.modelId, .zero, 0, "chat", "failed", some error⟩

/-- The calls that the loop makes on its own account. -/
def ExecReq.OfLoop (ctx : ExecutionContext) : ExecReq → Prop
  | isAvailable _ _ => True
  | markCooldown _ _ => True
  | markDisabled _ => True
  | logUsage entry => entry.OfFailure ctx
  | _ => False

theorem ExecReq.OfLoop.quiet {ctx : ExecutionContext} {q : ExecReq} (h : q.OfLoop ctx) :
    q.Quiet := by
  cases q <;> first | exact h.elim | trivial

/-- `I` holds while the session is open: the calls of the loop keep it, and from it a refund and an
exchange lead to `post`. -/
structure OpenLoop (H : Handler ExecReq ExecReq.Resp σ) (φ I : List ExecCall → σ → Prop)
    (post : Except ExecutionFailure α → List ExecCall → σ → Prop) (ctx : ExecutionContext)
    (session : BillingSession) (exchange : Exchange ρ α) : Prop where
  holds : ∀ t s, I t s → φ t s
  loop : ∀ q r t s s', q.OfLoop ctx → H q s r s' → I t s → I (t ++ [⟨q, r⟩]) s'
  refund : ∀ failure t s, I t s →
    Throughout H φ (refundAndFail session failure : ExecM (Except ExecutionFailure α)) post t s
  send : ∀ rk reqBody t s, I t s →
    Throughout H φ (exchange.send rk reqBody) (exchange.Leaves H φ I post rk) t s

/-- The same, where all calls that move nothing keep it. -/
structure OpenSession (H : Handler ExecReq ExecReq.Resp σ) (φ I : List ExecCall → σ → Prop)
    (post : Except ExecutionFailure α → List ExecCall → σ → Prop) (session : BillingSession)
    (exchange : Exchange ρ α) : Prop where
  holds : ∀ t s, I t s → φ t s
  quiet : ∀ q r t s s', q.Quiet → H q s r s' → I t s → I (t ++ [⟨q, r⟩]) s'
  refund : ∀ failure t s, I t s →
    Throughout H φ (refundAndFail session failure : ExecM (Except ExecutionFailure α)) post t s
  send : ∀ rk reqBody t s, I t s →
    Throughout H φ (exchange.send rk reqBody) (exchange.Leaves H φ I post rk) t s

variable {ctx session rk codec entryFormat body exchange} {t : List ExecCall} {s : σ}

theorem OpenSession.openLoop (h : OpenSession H φ I post session exchange) :
    OpenLoop H φ I post ctx session exchange where
  holds := h.holds
  loop := fun q r t s s' hq => h.quiet q r t s s' hq.quiet
  refund := h.refund
  send := h.send

/-- A call of the loop, and whatever follows it. -/
theorem OpenLoop.await {β : Type} {q : ExecReq} {f : q.Resp → ExecM β}
    {post' : β → List ExecCall → σ → Prop} (h : OpenLoop H φ I post ctx session exchange)
    (hq : q.OfLoop ctx) (hI : I t s) (hf : ∀ r t s, I t s → Throughout H φ (f r) post' t s) :
    Throughout H φ (await q >>= f) post' t s :=
  throughout_await (h.holds t s hI) fun r s' hH => hf r _ s' (h.loop q r t s s' hq hH hI)

theorem attemptTimedOut_rule (h : OpenLoop H φ I post ctx session exchange) (seconds : ℕ)
    (p : Progress) (hI : I t s) :
    Throughout H φ (attemptTimedOut ctx rk seconds p) (Flow.Leaves I post) t s := by
  refine h.await ⟨rk, _, rfl⟩ hI fun _ t s hI => ?_
  exact h.await trivial hI fun _ _ _ hI => hI

theorem attemptFailed_rule (h : OpenLoop H φ I post ctx session exchange) (e : ProxyError)
    (p : Progress) (hI : I t s) :
    Throughout H φ (attemptFailed ctx session rk e p) (Flow.Leaves I post) t s := by
  refine h.await ⟨rk, _, rfl⟩ hI fun _ t s hI => ?_
  cases classifyFailure e with
  | returnToClient => exact Throughout.bind (h.refund _ t s hI)
  | disable => exact h.await trivial hI fun _ _ _ hI => hI
  | cooldown => exact h.await trivial hI fun _ _ _ hI => hI
  | skipBinding => exact hI

theorem attempt_rule (h : OpenLoop H φ I post ctx session exchange) (p : Progress) (hI : I t s) :
    Throughout H φ (attempt ctx session rk codec entryFormat body exchange p)
      (Flow.Leaves I post) t s := by
  refine h.await trivial hI fun available t s hI => ?_
  cases available with
  | false => exact hI
  | true =>
    obtain ⟨out, hout⟩ := prepareRequest_ok codec entryFormat body rk.channel rk.upstreamModelName
    simp only [attemptAvailable, hout]
    refine Throughout.bind ((h.send rk _ t s hI).mono fun reply t s hleaves => ?_)
    match reply with
    | none => exact attemptTimedOut_rule h _ _ hleaves
    | some (.error e) => exact attemptFailed_rule h e _ hleaves
    | some (.ok reply) => exact Throughout.bind (hleaves _)

/-- What every attempt keeps, the keys of a binding keep. -/
theorem tryKeys_rule (hattempt : ∀ rk p t s, I t s →
      Throughout H φ (attempt ctx session rk codec entryFormat body exchange p)
        (Flow.Leaves I post) t s)
    (rks : List RoutedKey) (p : Progress) (hI : I t s) :
    Throughout H φ (tryKeys ctx session codec entryFormat body exchange rks p)
      (Flow.Leaves I post) t s := by
  induction rks generalizing p t s with
  | nil => exact hI
  | cons rk rks ih =>
    refine Throughout.bind ((hattempt rk p t s hI).mono fun flow t s hleaves => ?_)
    cases flow with
    | next p => exact ih p hleaves
    | skip p => exact hleaves
    | done r => exact hleaves

theorem tryBindings_rule (hattempt : ∀ rk p t s, I t s →
      Throughout H φ (attempt ctx session rk codec entryFormat body exchange p)
        (Flow.Leaves I post) t s)
    (bindings : List Bucket) (p : Progress) (hI : I t s) :
    Throughout H φ (tryBindings ctx session codec entryFormat body exchange bindings p)
      (Flow.Leaves I post) t s := by
  induction bindings generalizing p t s with
  | nil => exact hI
  | cons binding bindings ih =>
    refine Throughout.bind ((tryKeys_rule hattempt binding.keys p hI).mono
      fun flow t s hleaves => ?_)
    cases flow with
    | next p => exact ih p hleaves
    | skip p => exact ih p hleaves
    | done r => exact hleaves

/-- What every attempt keeps, the loop carries to its end. -/
theorem tryAll_attempts (hattempt : ∀ rk p t s, I t s →
      Throughout H φ (attempt ctx session rk codec entryFormat body exchange p)
        (Flow.Leaves I post) t s)
    (hrefund : ∀ failure t s, I t s → Throughout H φ
      (refundAndFail session failure : ExecM (Except ExecutionFailure α)) post t s)
    (candidates : List Bucket) (hI : I t s) :
    Throughout H φ (tryAll ctx session codec entryFormat body exchange candidates) post t s := by
  refine Throughout.bind ((tryBindings_rule hattempt _ _ hI).mono fun flow t s hleaves => ?_)
  cases flow with
  | next p => exact hrefund _ t s hleaves
  | skip p => exact hrefund _ t s hleaves
  | done r => exact hleaves

/-- **The loop.** What its own calls keep it carries to its end. -/
theorem tryAll_loop (h : OpenLoop H φ I post ctx session exchange) (candidates : List Bucket)
    (hI : I t s) :
    Throughout H φ (tryAll ctx session codec entryFormat body exchange candidates) post t s :=
  tryAll_attempts (fun _ p _ _ hI => attempt_rule h p hI) h.refund candidates hI

/-- **The loop.** An invariant of the open session carries the loop to its end. -/
theorem tryAll_rule (h : OpenSession H φ I post session exchange) (candidates : List Bucket)
    (hI : I t s) :
    Throughout H φ (tryAll ctx session codec entryFormat body exchange candidates) post t s :=
  tryAll_loop h.openLoop candidates hI

end Rule

end Loop

namespace Executor

variable {ρ α : Type} (self : Executor) (ctx : ExecutionContext) (entryFormat : EntryFormat)
  (body : Json)

/-- An execution, given the exchange to make once the session is open. -/
def execution (exchange : RoutedKey → Option ChannelModelPricing → BillingSession → Exchange ρ α) :
    ExecM (Except ExecutionFailure α) := do
  match ← await (.selectKeys ctx) with
  | .error e => return .error (.noAttempt e)
  | .ok [] => return .error (.noAttempt (.allKeysExhausted ctx.canonicalName [] none))
  | .ok (binding :: bindings) =>
    match ← await (.getChannelModelPricing ctx.modelId binding.first.channel.id
        binding.first.upstreamModelName) with
    | .error e => return .error (.noAttempt e)
    | .ok modelPricing =>
      let estimated := estimateCost self.evaluator modelPricing (extractMaxTokens body entryFormat)
      match ← billing (BillingManager.preCharge ctx.userId ctx.tokenId estimated) with
      | .error e => return .error (.noAttempt e)
      | .ok session =>
        tryAll ctx session self.codec entryFormat body
          (exchange binding.first modelPricing session) (binding :: bindings)

/-- The pricing of the candidate that was used: known already if it is of the first binding. A
lookup that fails counts as no pricing. -/
def actualPricing (first : RoutedKey) (modelPricing : Option ChannelModelPricing)
    (rk : RoutedKey) : ExecM (Option ChannelModelPricing) :=
  if rk.channel.id = first.channel.id ∧ rk.upstreamModelName = first.upstreamModelName then
    return modelPricing
  else do
    match ← await (.getChannelModelPricing ctx.modelId rk.channel.id rk.upstreamModelName) with
    | .ok v => return v
    | .error _ => return none

/-- What the response of an upstream says it used. -/
def usageOf (adaptorProvider : ChannelProvider) (bytes : Bytes) : Usage :=
  extractUsageFromResponse ((self.codec.fromSlice bytes).toOption.getD .null) adaptorProvider

/-- From a response to the result: settle, track, translate back. A settlement that fails is only
logged. -/
def settleAndReturn (session : BillingSession) (first : RoutedKey)
    (modelPricing : Option ChannelModelPricing) (rk : RoutedKey)
    (adaptorProvider : ChannelProvider) (reply : ℕ × Bytes) (attempted : List String) :
    ExecM (Except ExecutionFailure ExecutionResult) := do
  let usage := self.usageOf adaptorProvider reply.2
  let pricing ← actualPricing ctx first modelPricing rk
  let cost := actualCost self.evaluator usage pricing
  let _ ← billing (BillingManager.settle session cost)
  let _ ← Tracker.trackSuccess ctx rk usage cost "chat"
  match finalBody self.codec self.now entryFormat adaptorProvider reply.2
      ((self.codec.fromSlice reply.2).toOption.getD .null) with
  | .error e => return .error (.fromLastAttempt rk attempted (some reply.1) e)
  | .ok body => return .ok ⟨body, rk.channel.name, rk.key.label, some reply.1,
      rk.upstreamModelName, cost, attempted⟩

/-- `Executor::execute`. -/
def execute : ExecM (Except ExecutionFailure ExecutionResult) :=
  self.execution ctx entryFormat body fun first modelPricing session =>
    { send := fun rk reqBody => await (.adaptorExecute rk reqBody)
      timeout := self.upstreamTimeout
      succeed := self.settleAndReturn ctx entryFormat session first modelPricing }

/-- `Executor::execute_stream`. -/
def executeStream : ExecM (Except ExecutionFailure StreamBootstrap) :=
  self.execution ctx entryFormat body fun first modelPricing session =>
    { send := fun rk reqBody => await (.adaptorExecuteStream rk reqBody)
      timeout := self.streamingTimeout
      succeed := fun rk adaptorProvider response _ => do
        let pricing ← actualPricing ctx first modelPricing rk
        return .ok ⟨response, session, rk, pricing, entryFormat, adaptorProvider⟩ }

end Executor

end Chennix
