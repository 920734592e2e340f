import Chennix.Server.Accounts
import Chennix.Server.ProxyRequest

/-!
# Connection tests

An administrator may test a channel, a model or a binding. A request for one token goes to the
upstream, past the executor and past the billing manager: nothing is reserved for it. If the
upstream has answered with success, the administrator is charged afterwards, whatever is left of the
quota; a row of the request log tells the cost in any case.

The three handlers look for a binding each in its own way and go on alike.

## Main definitions

* `TestReq`, `TestM` — what a test calls
* `computeTestCost` — what a test costs
* `IncomingTest.handle` — the handlers

## Main results

* `IncomingTest.handle_tested` — what a test charges and logs
-/

namespace Chennix

open Foundations Program

/-! ### Endpoints -/

/-- The URL of an endpoint. A base that ends in a version gets no other. -/
def endpointUrl (endpoint baseUrl : String) : String :=
  let trimmed := baseUrl.toList.reverse.dropWhile fun c => c == '/'
  let lastSegment := (trimmed.takeWhile fun c => c != '/').reverse
  let isVersioned := match lastSegment with
    | 'v' :: c :: _ => c.isDigit
    | _ => false
  .ofList trimmed.reverse ++ (if isVersioned then endpoint else "/v1" ++ endpoint)

def buildOpenaiChatUrl : String → String := endpointUrl "/chat/completions"

def buildClaudeMessagesUrl : String → String := endpointUrl "/messages"

def buildModelsUrl : String → String := endpointUrl "/models"

example : buildOpenaiChatUrl "https://api.openai.com/v1/" =
    "https://api.openai.com/v1/chat/completions" := by decide

/-! ### What is tested -/

/-- A binding of a model, in the body of the request. -/
structure TestBindingRequest where
  channelId : ℤ
  upstreamModelName : String

/-- What the lock is held for: the channel, its first key, and a binding with its pricing. -/
structure TestTarget where
  channel : ChannelConfig
  apiKey : Option String
  keyLabel : Option String
  upstreamModelName : Option String
  pricing : ChannelModelPricing

/-- The pricing of a binding that has none. -/
def ChannelModelPricing.free : ChannelModelPricing := ⟨.token, 0.0, 0.0, 0.0, none⟩

namespace TestTarget

/-- A channel, by a binding if there is one. -/
def of (channel : ChannelConfig) (binding : Option ModelChannelRow) (db : Db) : TestTarget :=
  let key := (KeyRepo.getKeysForChannel channel.id db).head?
  { channel := channel
    apiKey := key.map KeyConfig.apiKey
    keyLabel := key.bind KeyConfig.label
    upstreamModelName := binding.map ModelChannelRow.upstreamModelName
    pricing := (binding.bind fun b =>
      ModelRepo.getBindingPricing b.modelId b.channelId b.upstreamModelName db).getD .free }

/-- A binding, with its channel. -/
def ofBinding (b : ModelChannelRow) (db : Db) : AdminResult TestTarget :=
  match ChannelRepo.getChannelById b.channelId db with
  | none => .error (.notFound s!"channel {b.channelId} not found")
  | some channel => .ok (of channel (some b) db)

/-- A channel, by the first of its bindings. -/
def findChannel (rank : String → ℕ) (channelId : ℤ) (db : Db) : AdminResult TestTarget :=
  match ChannelRepo.getChannelById channelId db with
  | none => .error (.notFound s!"channel {channelId} not found")
  | some channel => .ok (of channel (ModelRepo.getBindingsForChannel rank channelId db).head? db)

/-- A model, by the first of its bindings. -/
def findModel (modelId : ℤ) (db : Db) : AdminResult (Option TestTarget) :=
  match ModelRepo.getModelById modelId db, ModelRepo.getBindingsForModel modelId db with
  | none, _ => .error (.notFound s!"model {modelId} not found")
  | some _, [] => .ok none
  | some _, b :: _ => (ofBinding b db).map some

/-- A binding of a model. -/
def findBinding (modelId : ℤ) (payload : TestBindingRequest) (db : Db) : AdminResult TestTarget :=
  match ModelRepo.getModelById modelId db with
  | none => .error (.notFound s!"model {modelId} not found")
  | some _ =>
    let isWanted (b : ModelChannelRow) : Bool :=
      b.channelId == payload.channelId && b.upstreamModelName == payload.upstreamModelName
    match (ModelRepo.getBindingsForModel modelId db).find? isWanted with
    | none => .error (.notFound (s!"binding for model {modelId} on channel {payload.channelId} " ++
        s!"(upstream {payload.upstreamModelName}) not found"))
    | some b => ofBinding b db

end TestTarget

/-! ### Calls -/

/-- What goes to the upstream. A request without a body is a `GET`. -/
structure TestRequest where
  url : String
  headers : List (String × String)
  body : Option Json

/-- The head of a response, as the library shows its status, and its text where it can be read. -/
structure TestResponse where
  status : ℕ
  shown : String
  text : Option String

/-- The calls of a test. -/
inductive TestReq
  | findChannel (channelId : ℤ)
  | findModel (modelId : ℤ)
  | findBinding (modelId : ℤ) (payload : TestBindingRequest)
  | buildClient (timeoutSecs : ℕ)
  | send (request : TestRequest)
  | updateUsedQuotaDelta (userId delta : ℤ)
  | logRequest (entry : RequestLogEntry)

namespace TestReq

/-- What each call replies. A request tells how long it has taken, in milliseconds. -/
@[reducible] def Resp : TestReq → Type
  | findChannel _ => AdminResult TestTarget
  | findModel _ => AdminResult (Option TestTarget)
  | findBinding _ _ => AdminResult TestTarget
  | buildClient _ => Except String Unit
  | send _ => ℕ × Except String TestResponse
  | updateUsedQuotaDelta _ _ => ProxyResult Unit
  | logRequest _ => ProxyResult Unit

end TestReq

/-- Programs of a test. -/
abbrev TestM (α : Type) : Type := Program TestReq TestReq.Resp α

/-- A call of a test with its reply. -/
abbrev TestCall : Type := Answered TestReq TestReq.Resp

/-- Await one call. -/
def TestReq.await (q : TestReq) : TestM q.Resp := .perform q

/-- One call, and whatever follows its reply. -/
theorem TestReq.always_await {α : Type} {φ : List TestCall → Prop} {q : TestReq}
    {f : q.Resp → TestM α} {post : α → List TestCall → Prop} {t : List TestCall} (h : φ t)
    (hf : ∀ reply, Always φ (f reply) post (t ++ [⟨q, reply⟩])) :
    Always φ (q.await >>= f) post t :=
  ⟨h, fun reply _ _ => hf reply⟩

/-! ### The cost -/

/-- The cost of one prompt token and one token of completion, in micro-yuan. -/
def computeTestCost (evaluator : BillingExpr.Evaluator) (pricing : ChannelModelPricing) : ℤ :=
  if !pricing.isConfigured then 0
  else
    let scale := Float64.ofI64 quotaPerYuan
    let costYuan : Float := match pricing.billingType with
      | .token => pricing.inputPrice / 1000.0 + pricing.outputPrice / 1000.0
      | .perCall => pricing.callPrice
      | .expression => match BillingExpr.eval evaluator (pricing.billingExpr.getD "0") 1 1 with
        | .ok v => v
        | .error _ => 0.0
    Float64.roundToI64 (costYuan * scale)

/-! ### The handlers -/

/-- The outcome of a test. -/
structure ConnectionTestResult where
  success : Bool
  latencyMs : ℕ
  error : Option String

/-- What a response means. One that brings success says no more than `note`. -/
def ConnectionTestResult.of (note : Option String) :
    ℕ × Except String TestResponse → ConnectionTestResult
  | (latencyMs, .error e) => ⟨false, latencyMs, some e⟩
  | (latencyMs, .ok response) =>
    if 200 ≤ response.status ∧ response.status < 300 then ⟨true, latencyMs, note⟩
    else ⟨false, latencyMs, some ("HTTP " ++ response.shown ++ ": " ++ response.text.getD "")⟩

namespace TestTarget

variable (target : TestTarget)

/-- The credentials, if the channel has a key. -/
def headers : List (String × String) :=
  match target.apiKey, target.channel.provider with
  | none, _ => []
  | some key, .anthropic => [("x-api-key", key), ("anthropic-version", "2023-06-01")]
  | some key, .openaiCompatible => [("authorization", "Bearer " ++ key)]

/-- A greeting that may be answered with one token. -/
def chatRequest (model : String) : TestRequest :=
  let greeting : List (String × Json) := [("model", .string model), ("messages",
    .array [.ofMembers [("role", .string "user"), ("content", .string "hi")]]),
    ("max_tokens", .ofU64 1)]
  match target.channel.provider with
  | .anthropic => ⟨buildClaudeMessagesUrl target.channel.baseUrl, target.headers,
      some (.ofMembers greeting)⟩
  | .openaiCompatible => ⟨buildOpenaiChatUrl target.channel.baseUrl, target.headers,
      some (.ofMembers (greeting ++ [("stream", .bool false)]))⟩

/-- The list of models, where no model is bound. -/
def modelsRequest : TestRequest := ⟨buildModelsUrl target.channel.baseUrl, target.headers, none⟩

end TestTarget

/-- A test, as its handler gets it. -/
inductive ConnectionTest
  | channel (channelId : ℤ)
  | model (modelId : ℤ)
  | binding (modelId : ℤ) (payload : TestBindingRequest)

/-- The row of a test. It belongs to the administrator, and to no token. -/
def RequestLogEntry.ofTest (adminUserId : ℤ) (requestId path : String) (target : TestTarget)
    (upstreamStatus : Option ℕ) (result : ConnectionTestResult) (quotaCost : ℤ) :
    RequestLogEntry where
  requestId := requestId
  clientIp := none
  method := "TEST"
  path := path
  clientModel := none
  normalizedModel := none
  channelName := some target.channel.name
  keyLabel := target.keyLabel
  attemptedKeys := none
  upstreamStatus := upstreamStatus
  upstreamModel := target.upstreamModelName
  responseStatus := if result.success then 200 else 502
  durationMs := result.latencyMs
  stream := false
  errorMessage := result.error
  userId := some adminUserId
  tokenId := none
  quotaCost := quotaCost

section Handlers

variable (evaluator : BillingExpr.Evaluator) (adminUserId : ℤ) (requestId : String)

/-- The administrator pays for a test that has succeeded. Neither a charge that fails nor a row that
cannot be written concerns the test. -/
def recordTestLog (path : String) (target : TestTarget) (upstreamStatus : Option ℕ)
    (result : ConnectionTestResult) (quotaCost : ℤ) : TestM Unit := do
  if result.success && quotaCost > 0 then
    let _ ← (TestReq.updateUsedQuotaDelta adminUserId quotaCost).await
  let _ ← (TestReq.logRequest
    (.ofTest adminUserId requestId path target upstreamStatus result quotaCost)).await
  return ()

/-- A test with the client it needs. -/
def withClient (timeoutSecs : ℕ) (test : TestM ConnectionTestResult) :
    TestM (AdminResult ConnectionTestResult) := do
  match ← (TestReq.buildClient timeoutSecs).await with
  | .error e => return .error (.internal ("build http client: " ++ e))
  | .ok () => return .ok (← test)

/-- The test of a model, through one of its bindings. -/
def chatTest (path : String) (target : TestTarget) (model : String) :
    TestM ConnectionTestResult := do
  let reply ← (TestReq.send (target.chatRequest model)).await
  let result := ConnectionTestResult.of none reply
  let upstreamStatus := reply.2.toOption.map TestResponse.status
  recordTestLog adminUserId requestId path target upstreamStatus result
    (computeTestCost evaluator target.pricing)
  return result

/-- The test of a channel that no model is bound to. It costs nothing. -/
def modelsTest (path : String) (target : TestTarget) : TestM ConnectionTestResult := do
  let reply ← (TestReq.send target.modelsRequest).await
  let result := ConnectionTestResult.of
    (some "no models bound - only basic connectivity verified") reply
  recordTestLog adminUserId requestId path target none result 0
  return result

/-- The test of what has been found. -/
def targetTest (timeoutSecs : ℕ) (path : String) (target : TestTarget) :
    TestM (AdminResult ConnectionTestResult) :=
  withClient timeoutSecs (match target.upstreamModelName with
    | some model => chatTest evaluator adminUserId requestId path target model
    | none => modelsTest adminUserId requestId path target)

def testChannelHandler (channelId : ℤ) : TestM (AdminResult ConnectionTestResult) := do
  match ← (TestReq.findChannel channelId).await with
  | .error e => return .error e
  | .ok target =>
    targetTest evaluator adminUserId requestId 10 s!"/admin/api/channels/{channelId}/test" target

def testModelHandler (modelId : ℤ) : TestM (AdminResult ConnectionTestResult) := do
  match ← (TestReq.findModel modelId).await with
  | .error e => return .error e
  | .ok none => return .ok ⟨false, 0, some "no channels bound to this model"⟩
  | .ok (some target) =>
    targetTest evaluator adminUserId requestId 15 s!"/admin/api/models/{modelId}/test" target

def testBindingHandler (modelId : ℤ) (payload : TestBindingRequest) :
    TestM (AdminResult ConnectionTestResult) := do
  match ← (TestReq.findBinding modelId payload).await with
  | .error e => return .error e
  | .ok target =>
    targetTest evaluator adminUserId requestId 15 s!"/admin/api/models/{modelId}/bindings/test"
      target

end Handlers

/-- A test, as its handler gets it: who asks for it, and the identifier that it draws. -/
structure IncomingTest where
  adminUserId : ℤ
  requestId : String
  test : ConnectionTest

/-- The handler of a test. -/
def IncomingTest.handle (evaluator : BillingExpr.Evaluator) (t : IncomingTest) :
    TestM (AdminResult ConnectionTestResult) :=
  match t.test with
  | .channel channelId => testChannelHandler evaluator t.adminUserId t.requestId channelId
  | .model modelId => testModelHandler evaluator t.adminUserId t.requestId modelId
  | .binding modelId payload =>
    testBindingHandler evaluator t.adminUserId t.requestId modelId payload

/-! ### What a test charges and logs -/

/-- Whom the call charges, and what. -/
def testCharge? : TestCall → Option (ℤ × ℤ)
  | ⟨.updateUsedQuotaDelta userId delta, _⟩ => some (userId, delta)
  | _ => none

def testCharges (t : List TestCall) : List (ℤ × ℤ) := t.filterMap testCharge?

def testRow? : TestCall → Option RequestLogEntry
  | ⟨.logRequest entry, _⟩ => some entry
  | _ => none

def testRows (t : List TestCall) : List RequestLogEntry := t.filterMap testRow?

theorem testCharges_append (t t' : List TestCall) :
    testCharges (t ++ t') = testCharges t ++ testCharges t' :=
  List.filterMap_append

theorem testRows_append (t t' : List TestCall) : testRows (t ++ t') = testRows t ++ testRows t' :=
  List.filterMap_append

/-- Nothing has been charged or logged yet. -/
structure Untested (t : List TestCall) : Prop where
  charges : testCharges t = []
  rows : testRows t = []

/-- What is true of a test that is through. It has ended before anything was sent; or it has one
row, of the administrator, who has been charged the cost in it if the row says that the test has
succeeded. -/
inductive Tested (adminUserId : ℤ) (t : List TestCall) : Prop
  | nothing (h : Untested t)
  | logged (entry : RequestLogEntry) (hrow : testRows t = [entry]) (hmethod : entry.method = "TEST")
    (huser : entry.userId = some adminUserId) (htoken : entry.tokenId = none)
    (hcharges : testCharges t = if entry.responseStatus = 200 ∧ 0 < entry.quotaCost then
      [(adminUserId, entry.quotaCost)] else [])

section Spec

variable {evaluator : BillingExpr.Evaluator} {adminUserId : ℤ} {requestId path : String}
  {target : TestTarget} {t : List TestCall}

theorem Untested.snoc (h : Untested t) (call : TestCall) (hcharge : testCharge? call = none)
    (hrow : testRow? call = none) : Untested (t ++ [call]) where
  charges := by
    rw [testCharges_append, h.charges]
    exact List.filterMap_cons_none hcharge
  rows := by
    rw [testRows_append, h.rows]
    exact List.filterMap_cons_none hrow

theorem recordTestLog_tested (h : Untested t) (upstreamStatus : Option ℕ)
    (result : ConnectionTestResult) (quotaCost : ℤ) :
    Always (fun t => testRows t = [])
      (recordTestLog adminUserId requestId path target upstreamStatus result quotaCost)
      (fun _ => Tested adminUserId) t := by
  set entry := RequestLogEntry.ofTest adminUserId requestId path target upstreamStatus result
    quotaCost with hentry
  have hstatus : entry.responseStatus = 200 ↔ result.success = true := by
    rw [hentry, RequestLogEntry.ofTest]
    cases result.success <;> simp
  unfold recordTestLog
  split
  · rename_i hpays
    rw [Bool.and_eq_true, decide_eq_true_iff] at hpays
    have hnone (reply : ProxyResult Unit) :
        testRows (t ++ [⟨.updateUsedQuotaDelta adminUserId quotaCost, reply⟩]) = [] := by
      rw [testRows_append, h.rows]
      rfl
    refine TestReq.always_await h.rows fun charged => ?_
    refine TestReq.always_await (hnone charged) fun logged => .logged entry ?_ rfl rfl rfl ?_
    · rw [testRows_append, hnone]
      rfl
    · rw [if_pos ⟨hstatus.mpr hpays.1, hpays.2⟩, testCharges_append, testCharges_append, h.charges]
      rfl
  · rename_i hfree
    rw [Bool.and_eq_true, decide_eq_true_iff] at hfree
    refine TestReq.always_await h.rows fun logged => .logged entry ?_ rfl rfl rfl ?_
    · rw [testRows_append, h.rows]
      rfl
    · rw [if_neg fun hpays => hfree ⟨hstatus.mp hpays.1, hpays.2⟩, testCharges_append, h.charges]
      rfl

theorem targetTest_tested (h : Untested t) (timeoutSecs : ℕ) :
    Always (fun t => testRows t = [])
      (targetTest evaluator adminUserId requestId timeoutSecs path target)
      (fun _ => Tested adminUserId) t := by
  refine TestReq.always_await h.rows fun built => ?_
  have h := h.snoc ⟨.buildClient timeoutSecs, built⟩ rfl rfl
  match built with
  | .error e => exact .nothing h
  | .ok () =>
    refine Throughout.bind ?_
    cases target.upstreamModelName with
    | some model =>
      refine TestReq.always_await h.rows fun reply => ?_
      exact Throughout.bind (recordTestLog_tested (h.snoc ⟨.send _, reply⟩ rfl rfl) _ _ _)
    | none =>
      refine TestReq.always_await h.rows fun reply => ?_
      exact Throughout.bind (recordTestLog_tested (h.snoc ⟨.send _, reply⟩ rfl rfl) _ _ _)

/-- **A test** logs nothing before it is through, and then has charged what it logs, if it has
succeeded. -/
theorem IncomingTest.handle_tested (r : IncomingTest) :
    Always (fun t => testRows t = []) (r.handle evaluator) (fun _ => Tested r.adminUserId) [] := by
  have hnone : Untested [] := ⟨rfl, rfl⟩
  rw [IncomingTest.handle]
  split
  · refine TestReq.always_await rfl fun found => ?_
    match found with
    | .error e => exact .nothing (hnone.snoc _ rfl rfl)
    | .ok target => exact targetTest_tested (hnone.snoc _ rfl rfl) 10
  · refine TestReq.always_await rfl fun found => ?_
    match found with
    | .error e => exact .nothing (hnone.snoc _ rfl rfl)
    | .ok none => exact .nothing (hnone.snoc _ rfl rfl)
    | .ok (some target) => exact targetTest_tested (hnone.snoc _ rfl rfl) 15
  · refine TestReq.always_await rfl fun found => ?_
    match found with
    | .error e => exact .nothing (hnone.snoc _ rfl rfl)
    | .ok target => exact targetTest_tested (hnone.snoc _ rfl rfl) 15

end Spec

end Chennix
