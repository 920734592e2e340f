import Chennix.Common.Display
import Chennix.Core.Pricing
import Chennix.Foundations.Transaction
import Chennix.Server.State

/-!
# The administration's handlers

The handlers that change channels, keys, models, bindings and quotas. Each runs its statements
under the lock of the database; all but a few drop the cached snapshot afterwards.

## Main definitions

* `AdminError`, `AdminM` — what a handler answers, and its part under the lock
* `keepingCache`, `droppingCache` — the two kinds of handlers
* `AdminCall`, `AdminCall.handle` — the handlers, with their payloads

## Main results

* `keepingCache_ok`, `droppingCache_ok` — what a successful handler of each kind leaves
* `AdminCall.health_handle` — no handler tells the health manager anything
-/

namespace Chennix

open Foundations Calendar Transaction

/-- The errors of the handlers, by the status a client sees. -/
inductive AdminError
  | notFound (msg : String)
  | badRequest (msg : String)
  | unauthorized (msg : String)
  | forbidden (msg : String)
  | internal (msg : String)
  deriving DecidableEq, Repr

def AdminError.ofProxy : ProxyError → AdminError
  | .modelNotFound msg => .notFound msg
  | .invalidRequest msg => .badRequest msg
  | other => .internal other.display

/-- The answer of a handler. -/
abbrev AdminResult (α : Type) : Type := Except AdminError α

/-- What a handler does while it holds the database. -/
abbrev AdminM (α : Type) : Type := StateT Db (Except AdminError) α

instance : MonadLift Stmt AdminM where
  monadLift stmt := fun db => (stmt db).mapError .ofProxy

namespace AdminM

variable {α β : Type}

/-- Go on only where the condition does not hold. -/
def refuseIf (c : Prop) [Decidable c] (e : AdminError) : AdminM Unit :=
  if c then throw e else return ()

/-- The value, or an error. -/
def orElse (e : AdminError) : Option α → AdminM α
  | some a => return a
  | none => throw e

/-- A statement of a handler is the statement itself, but for the kind of its errors. -/
theorem lift_ok {stmt : Stmt α} {db : Db} {r : α × Db} :
    (liftM stmt : AdminM α) db = .ok r ↔ stmt db = .ok r := by
  show (stmt db).mapError AdminError.ofProxy = .ok r ↔ _
  rcases stmt db with e | p
  · constructor <;> intro h <;> cases h
  · rw [Except.mapError, Except.ok.injEq, Except.ok.injEq]

theorem refuseIf_ok {c : Prop} [Decidable c] {e : AdminError} {db : Db} {r : Unit × Db} :
    refuseIf c e db = .ok r ↔ ¬ c ∧ r = ((), db) := by
  rw [refuseIf]
  by_cases hc : c
  · rw [if_pos hc]
    constructor
    · intro h
      cases h
    · rintro ⟨hn, _⟩
      exact absurd hc hn
  · rw [if_neg hc, pure_ok]
    exact ⟨fun h => ⟨hc, h⟩, fun h => h.2⟩

theorem orElse_ok {e : AdminError} {o : Option α} {db : Db} {r : α × Db} :
    orElse e o db = .ok r ↔ ∃ a, o = some a ∧ r = (a, db) := by
  cases o with
  | none =>
    constructor
    · intro h
      cases h
    · rintro ⟨a, h, _⟩
      cases h
  | some a =>
    rw [orElse, pure_ok]
    constructor
    · intro h
      exact ⟨a, rfl, h⟩
    · rintro ⟨_, h, hr⟩
      cases h
      exact hr

end AdminM

open AdminM

/-- A handler: it answers and leaves the next state, or fails and leaves the one it found. -/
abbrev AdminHandler (α : Type) : Type := AppState → AdminResult (α × AppState)

/-- A handler that leaves the cache alone. -/
def keepingCache {α : Type} (body : AdminM α) : AdminHandler α := fun s =>
  (body s.db).map fun (a, db) => (a, { s with db := db })

/-- A handler that invalidates the cache when it has succeeded. -/
def droppingCache {α : Type} (body : AdminM α) : AdminHandler α := fun s =>
  (body s.db).map fun (a, db) => (a, ConfigCache.invalidate { s with db := db })

theorem keepingCache_ok {α : Type} {body : AdminM α} {s s' : AppState} {a : α} :
    keepingCache body s = .ok (a, s') ↔
      ∃ db, body s.db = .ok (a, db) ∧ s' = { s with db := db } := by
  rw [keepingCache]
  rcases body s.db with e | ⟨a', db⟩
  · simp [Except.map]
  · simp only [Except.map, Except.ok.injEq, Prod.mk.injEq]
    constructor
    · rintro ⟨rfl, rfl⟩
      exact ⟨db, ⟨rfl, rfl⟩, rfl⟩
    · rintro ⟨_, ⟨rfl, rfl⟩, rfl⟩
      exact ⟨rfl, rfl⟩

theorem droppingCache_ok {α : Type} {body : AdminM α} {s s' : AppState} {a : α} :
    droppingCache body s = .ok (a, s') ↔
      ∃ db, body s.db = .ok (a, db) ∧ s' = { s with db := db, cache := none } := by
  rw [droppingCache]
  rcases body s.db with e | ⟨a', db⟩
  · simp [Except.map]
  · simp only [Except.map, Except.ok.injEq, Prod.mk.injEq]
    constructor
    · rintro ⟨rfl, rfl⟩
      exact ⟨db, ⟨rfl, rfl⟩, rfl⟩
    · rintro ⟨_, ⟨rfl, rfl⟩, rfl⟩
      exact ⟨rfl, rfl⟩

/-! ### Payloads -/

structure ChannelRequest where
  name : String
  provider : ChannelProvider
  baseUrl : String
  group : String

structure CreateKeyRequest where
  apiKey : String
  label : Option String
  isFree : Bool
  quotaLimit : ℤ
  pricePer1kTokens : Float

structure UpdateKeyRequest where
  apiKey : String
  isFree : Bool
  priority : ℤ
  quotaLimit : ℤ
  pricePer1kTokens : Float
  status : String

/-- A binding of a given model: the channel and the upstream model. -/
structure BindingItem where
  channelId : ℤ
  upstreamModelName : String

structure UpdateSmallModelQuotaRequest where
  limit : Option ℤ
  unit : String
  window : String
  upstreamModelName : String

structure ModelDetail where
  id : ℤ
  canonicalName : String
  routingStrategy : String

/-! ### Channels -/

def createChannelHandler (payload : ChannelRequest) : AdminHandler ℤ := keepingCache do
  ChannelRepo.createChannelFull payload.name payload.provider payload.baseUrl payload.group

def updateChannelHandler (id : ℤ) (payload : ChannelRequest) : AdminHandler Unit := keepingCache do
  ChannelRepo.updateChannel id payload.name payload.provider payload.baseUrl payload.group

def deleteChannelHandler (id : ℤ) : AdminHandler Unit := keepingCache do
  ChannelRepo.deleteChannel id

/-! ### Keys -/

def duplicateApiKey : AdminError := .badRequest "该渠道下已存在相同的 API Key"

def createKeyHandler (channelId : ℤ) (payload : CreateKeyRequest) : AdminHandler ℤ :=
  droppingCache do
    let dup := KeyRepo.countDuplicateApiKeyInChannel channelId payload.apiKey none (← get)
    refuseIf (dup > 0) duplicateApiKey
    KeyRepo.createKeyAutoPriority channelId payload.apiKey payload.label payload.isFree
      payload.quotaLimit payload.pricePer1kTokens

/-- The status a payload names. -/
def keyStatusOf : String → Option KeyStatus
  | "active" => some .active
  | "disabled" => some .disabled
  | "cooldown" => some .cooldown
  | "quota_exhausted" => some .quotaExhausted
  | _ => none

def updateKeyHandler (channelId keyId : ℤ) (payload : UpdateKeyRequest) : AdminHandler Unit :=
  droppingCache do
    let status ← orElse (.badRequest (s!"invalid status '{payload.status}': expected one of " ++
      "active, disabled, cooldown, quota_exhausted")) (keyStatusOf payload.status)
    let dup := KeyRepo.countDuplicateApiKeyInChannel channelId payload.apiKey (some keyId) (← get)
    refuseIf (dup > 0) duplicateApiKey
    KeyRepo.updateKey keyId payload.apiKey payload.isFree payload.priority payload.quotaLimit
      payload.pricePer1kTokens status

def deleteKeyHandler (keyId : ℤ) : AdminHandler Unit := droppingCache do
  KeyRepo.deleteKey keyId

def resetKeyQuotaHandler (channelId keyId : ℤ) : AdminHandler Unit := keepingCache do
  KeyRepo.resetKeyQuota keyId channelId

def reorderKeysHandler (channelId : ℤ) (keyIds : List ℤ) : AdminHandler Unit := droppingCache do
  KeyRepo.reorderKeys channelId keyIds

/-! ### Models -/

def nameTaken (name : String) : AdminError :=
  .badRequest ("模型名「" ++ name ++ "」已存在，请使用其他名称")

def createModelHandler (canonicalName : String) : AdminHandler ModelDetail := keepingCache do
  refuseIf (ModelRepo.getModelByName canonicalName (← get)).isSome (nameTaken canonicalName)
  let id ← ModelRepo.createModel canonicalName
  return ⟨id, canonicalName, "priority"⟩

def updateRoutingStrategyHandler (id : ℤ) (strategy : String) : AdminHandler Unit :=
  droppingCache do
    let trimmed := Text.trim strategy
    refuseIf (trimmed ≠ "priority" ∧ trimmed ≠ "load_balance") (.badRequest
      s!"invalid strategy '{strategy}': expected 'priority' or 'load_balance'")
    ModelRepo.updateRoutingStrategy id trimmed

def updateModelHandler (id : ℤ) (canonicalName : String) : AdminHandler Unit := keepingCache do
  refuseIf ((ModelRepo.getModelByName canonicalName (← get)).any fun m => m.id != id)
    (nameTaken canonicalName)
  ModelRepo.renameModel id canonicalName

def deleteModelHandler (id : ℤ) : AdminHandler Unit := keepingCache do
  ModelRepo.deleteModel id

/-- A pricing expression must be there, and one that can be evaluated. -/
def checkPricing (evaluator : BillingExpr.Evaluator) (pricing : ChannelModelPricing) :
    AdminM Unit :=
  if pricing.billingType = .expression then
    match pricing.billingExpr with
    | none => throw (.badRequest "billing_expr is required for Expression mode")
    | some expr => match BillingExpr.validate evaluator expr with
      | .error e => throw (.badRequest ("invalid billing expression: " ++ e.display))
      | .ok () => return ()
  else return ()

def updateBindingPricingHandler (evaluator : BillingExpr.Evaluator) (id : ℤ) (item : BindingItem)
    (pricing : ChannelModelPricing) : AdminHandler Unit := droppingCache do
  checkPricing evaluator pricing
  ModelRepo.updateBindingPricing id item.channelId item.upstreamModelName pricing

/-! ### Bindings -/

/-- The priority of a binding that comes last, in 32 bits. -/
def lastBindingPriority (modelId : ℤ) (db : Db) : ℤ :=
  let priorities := (ModelRepo.getBindingsForModel modelId db).map fun b => b.priority
  match priorities.max? with
  | none => 10
  | some m => (Int32.ofInt (m + 10)).toInt

def addBindingHandler (modelId : ℤ) (item : BindingItem) : AdminHandler Unit := droppingCache do
  let _ ← orElse (.notFound s!"model {modelId} not found") (ModelRepo.getModelById modelId (← get))
  let _ ← orElse (.notFound s!"channel {item.channelId} not found")
    (ChannelRepo.getChannelById item.channelId (← get))
  let _ ← orElse (.badRequest (s!"upstream_model_name '{item.upstreamModelName}' does not match " ++
      s!"any discovered model (channel={item.channelId}, raw_model_name) in discovered_models"))
    (DiscoveredModelRepo.getDiscoveredModel item.channelId item.upstreamModelName (← get))
  ModelRepo.addBindingWithWeight modelId item.channelId item.upstreamModelName
    (lastBindingPriority modelId (← get)) 1

def updateBindingWeightHandler (id : ℤ) (item : BindingItem) (weight : ℤ) : AdminHandler Unit :=
  droppingCache do
    refuseIf (weight < 1) (.badRequest s!"weight must be >= 1 (got {weight})")
    ModelRepo.updateBindingWeight id item.channelId item.upstreamModelName weight

def removeBindingHandler (modelId : ℤ) (item : BindingItem) : AdminHandler Unit :=
  droppingCache do
    ModelRepo.removeBinding modelId item.channelId item.upstreamModelName

def reorderBindingsHandler (modelId : ℤ) (bindings : List BindingItem) : AdminHandler Unit :=
  droppingCache do
    ModelRepo.reorderBindings modelId (bindings.map fun b => (b.channelId, b.upstreamModelName))

/-! ### Small models -/

/-- The names without the white space around them, and without those that are nothing else. -/
def cleanNames (models : List String) : List String :=
  (models.map Text.trim).filter fun name => name != ""

/-- Without a name there is nothing to do. The reply counts the names. -/
def addDiscoveredModelsHandler (channelId : ℤ) (models : List String) : AdminHandler ℕ :=
  let models := cleanNames models
  if models = [] then fun s => .ok (0, s)
  else droppingCache do
    let _ ← orElse (.notFound s!"channel {channelId} not found")
      (ChannelRepo.getChannelById channelId (← get))
    for name in models do
      DiscoveredModelRepo.upsertDiscoveredModel channelId name false (some "manual") none
    return models.length

def updateSmallModelQuotaHandler (now : Instant) (channelId : ℤ)
    (payload : UpdateSmallModelQuotaRequest) : AdminHandler Unit := droppingCache do
  refuseIf (payload.unit ≠ "token" ∧ payload.unit ≠ "call")
    (.badRequest s!"invalid unit '{payload.unit}': expected 'token' or 'call'")
  refuseIf (payload.window ≠ "day" ∧ payload.window ≠ "month" ∧ payload.window ≠ "total")
    (.badRequest s!"invalid window '{payload.window}': expected 'day', 'month' or 'total'")
  DiscoveredModelRepo.updateDiscoveredModelQuota (nowIso8601 now) channelId
    payload.upstreamModelName payload.limit (some payload.unit) (some payload.window)

def resetSmallModelQuotaHandler (now : Instant) (channelId : ℤ) (upstreamModelName : String) :
    AdminHandler Unit := droppingCache do
  DiscoveredModelRepo.resetDiscoveredModelQuota (nowIso8601 now) channelId upstreamModelName

/-- A small model that a binding refers to stays. -/
def deleteDiscoveredModelHandler (channelId : ℤ) (upstreamModelName : String) :
    AdminHandler Unit := droppingCache do
  let count := DiscoveredModelRepo.boundTo channelId upstreamModelName (← get)
  refuseIf (count > 0)
    (.badRequest s!"该模型已被 {count} 个大模型绑定，请先在 Models 页面解除绑定后再删除")
  DiscoveredModelRepo.deleteDiscoveredModel channelId upstreamModelName

/-- Drop the snapshot, and load the names at once. -/
def reloadHandler (lower : String → String) (rank : String → ℕ) : AdminHandler Unit := fun s =>
  .ok ((), { ConfigCache.invalidate s with
    normalizer := Normalizer.reload lower rank (StorageAdapter.loadAliasMapping s.db) })

/-! ### The handlers as calls -/

/-- The calls an administrator can make to change the configuration. -/
inductive AdminCall
  | createChannel (payload : ChannelRequest)
  | updateChannel (id : ℤ) (payload : ChannelRequest)
  | deleteChannel (id : ℤ)
  | createKey (channelId : ℤ) (payload : CreateKeyRequest)
  | updateKey (channelId keyId : ℤ) (payload : UpdateKeyRequest)
  | deleteKey (channelId keyId : ℤ)
  | resetKeyQuota (channelId keyId : ℤ)
  | reorderKeys (channelId : ℤ) (keyIds : List ℤ)
  | createModel (canonicalName : String)
  | updateRoutingStrategy (id : ℤ) (strategy : String)
  | updateModel (id : ℤ) (canonicalName : String)
  | deleteModel (id : ℤ)
  | updateBindingPricing (id : ℤ) (item : BindingItem) (pricing : ChannelModelPricing)
  | addBinding (modelId : ℤ) (item : BindingItem)
  | updateBindingWeight (id : ℤ) (item : BindingItem) (weight : ℤ)
  | removeBinding (modelId : ℤ) (item : BindingItem)
  | reorderBindings (modelId : ℤ) (bindings : List BindingItem)
  | addDiscoveredModels (channelId : ℤ) (models : List String)
  | updateSmallModelQuota (channelId : ℤ) (payload : UpdateSmallModelQuotaRequest)
  | resetSmallModelQuota (channelId : ℤ) (upstreamModelName : String)
  | deleteDiscoveredModel (channelId : ℤ) (upstreamModelName : String)
  | reload

namespace AdminCall

/-- An integer as a value. -/
def ofInt (n : ℤ) : Json := .number (if 0 ≤ n then .posInt (.ofInt n) else .negInt (.ofInt n))

/-- The body of a success without data. -/
def success : Json := .ofMembers [("success", .bool true)]

def ofModelDetail (m : ModelDetail) : Json :=
  .ofMembers [("id", ofInt m.id), ("canonical_name", .string m.canonicalName),
    ("routing_strategy", .string m.routingStrategy)]

/-- Run a handler and write its reply as a body. -/
def replying {α : Type} (h : AdminHandler α) (body : α → Json) (s : AppState) :
    AdminResult (Json × AppState) :=
  (h s).map fun (a, s) => (body a, s)

variable (lower : String → String) (rank : String → ℕ) (evaluator : BillingExpr.Evaluator)

/-- The handler of each call. -/
def handle (s : AppState) : AdminCall → AdminResult (Json × AppState)
  | createChannel payload => replying (createChannelHandler payload) ofInt s
  | updateChannel id payload => replying (updateChannelHandler id payload) (fun _ => .null) s
  | deleteChannel id => replying (deleteChannelHandler id) (fun _ => .null) s
  | createKey channelId payload => replying (createKeyHandler channelId payload) ofInt s
  | updateKey channelId keyId payload =>
    replying (updateKeyHandler channelId keyId payload) (fun _ => .null) s
  | deleteKey _ keyId => replying (deleteKeyHandler keyId) (fun _ => .null) s
  | resetKeyQuota channelId keyId =>
    replying (resetKeyQuotaHandler channelId keyId) (fun _ => .ofMembers
      [("success", .bool true), ("message", .string "Quota reset")]) s
  | reorderKeys channelId keyIds =>
    replying (reorderKeysHandler channelId keyIds) (fun _ => success) s
  | createModel canonicalName => replying (createModelHandler canonicalName) ofModelDetail s
  | updateRoutingStrategy id strategy =>
    replying (updateRoutingStrategyHandler id strategy) (fun _ => .null) s
  | updateModel id canonicalName =>
    replying (updateModelHandler id canonicalName) (fun _ => .null) s
  | deleteModel id => replying (deleteModelHandler id) (fun _ => .null) s
  | updateBindingPricing id item pricing =>
    replying (updateBindingPricingHandler evaluator id item pricing) (fun _ => .null) s
  | addBinding modelId item => replying (addBindingHandler modelId item) (fun _ => success) s
  | updateBindingWeight id item weight =>
    replying (updateBindingWeightHandler id item weight) (fun _ => .null) s
  | removeBinding modelId item =>
    replying (removeBindingHandler modelId item) (fun _ => success) s
  | reorderBindings modelId bindings =>
    replying (reorderBindingsHandler modelId bindings) (fun _ => success) s
  | addDiscoveredModels channelId models =>
    replying (addDiscoveredModelsHandler channelId models) (fun n => .ofMembers
      [("added", .ofU64 (.ofNat n))]) s
  | updateSmallModelQuota channelId payload =>
    replying (updateSmallModelQuotaHandler s.now channelId payload) (fun _ => .null) s
  | resetSmallModelQuota channelId upstreamModelName =>
    replying (resetSmallModelQuotaHandler s.now channelId upstreamModelName) (fun _ => success) s
  | deleteDiscoveredModel channelId upstreamModelName =>
    replying (deleteDiscoveredModelHandler channelId upstreamModelName) (fun _ => success) s
  | reload => replying (reloadHandler lower rank) (fun _ => .ofMembers
      [("success", .bool true), ("message", .string "Cache reloaded successfully")]) s

variable {lower rank evaluator} {s s' : AppState}

theorem replying_ok {α : Type} {h : AdminHandler α} {body : α → Json} {r : Json} :
    replying h body s = .ok (r, s') ↔ ∃ a, h s = .ok (a, s') ∧ r = body a := by
  rw [replying]
  rcases h s with e | ⟨a, s₁⟩
  · simp [Except.map]
  · simp only [Except.map, Except.ok.injEq, Prod.mk.injEq]
    constructor
    · rintro ⟨rfl, rfl⟩
      exact ⟨a, ⟨rfl, rfl⟩, rfl⟩
    · rintro ⟨_, ⟨rfl, rfl⟩, rfl⟩
      exact ⟨rfl, rfl⟩

theorem health_of_dropping {α : Type} {body : AdminM α} {reply : α → Json} {r : Json}
    (h : replying (droppingCache body) reply s = .ok (r, s')) :
    s'.health = s.health ∧ s'.now = s.now := by
  obtain ⟨a, h, _⟩ := replying_ok.mp h
  obtain ⟨db, _, rfl⟩ := droppingCache_ok.mp h
  exact ⟨rfl, rfl⟩

theorem health_of_keeping {α : Type} {body : AdminM α} {reply : α → Json} {r : Json}
    (h : replying (keepingCache body) reply s = .ok (r, s')) :
    s'.health = s.health ∧ s'.now = s.now := by
  obtain ⟨a, h, _⟩ := replying_ok.mp h
  obtain ⟨db, _, rfl⟩ := keepingCache_ok.mp h
  exact ⟨rfl, rfl⟩

/-- **No handler** tells the health manager anything. -/
theorem health_handle {call : AdminCall} {r : Json}
    (h : call.handle lower rank evaluator s = .ok (r, s')) :
    s'.health = s.health ∧ s'.now = s.now := by
  cases call <;> rw [handle] at h
  case addDiscoveredModels channelId models =>
    obtain ⟨n, hn, _⟩ := replying_ok.mp h
    rw [addDiscoveredModelsHandler] at hn
    split at hn
    · cases hn
      exact ⟨rfl, rfl⟩
    · obtain ⟨db, _, rfl⟩ := droppingCache_ok.mp hn
      exact ⟨rfl, rfl⟩
  case reload =>
    obtain ⟨_, h, _⟩ := replying_ok.mp h
    cases h
    exact ⟨rfl, rfl⟩
  all_goals first
    | exact health_of_dropping h
    | exact health_of_keeping h

end AdminCall

end Chennix
