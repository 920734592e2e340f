import Chennix.Core.Health
import Chennix.Core.Interface
import Chennix.Server.Loader
import Chennix.Server.Pipeline

/-!
# The state of the server

The database, the cached snapshot, the normalizer and the health manager, as the server wires them
together, and what each call of an execution does to them. A call holds its lock from beginning to
end, so it is one step; what the network answers is left open.

The order in which a hash map gives out its entries and the draws of the load balancer are
parameters of the steps that depend on them.

## Main definitions

* `AppState`, `AppState.startup` — the state, and the one a server starts with
* `ConfigCache.get`, `ConfigCache.invalidate` — the cached snapshot
* `AppState.selectKeys` — the candidates of a request
* `AppState.answer` — the calls of an execution

## Main results

* `ConfigCache.get_fst` — the snapshot is the cached one, or the one of the database
-/

namespace Chennix

open Foundations Calendar

/-- The state of a running server. -/
structure AppState where
  db : Db
  /-- `none` where the next request is to load it. -/
  cache : Option CacheData
  /-- The names the normalizer resolves. -/
  normalizer : Map String (ℤ × String)
  health : HealthManager
  /-- The clock. -/
  now : Instant

/-- How a hash map gives out names, and what a load balancer draws. -/
structure Chance where
  rank : String → ℕ
  draw : ℕ → ℤ

/-- `load_small_model_quota_from_db`, given a parser of the times in the database. -/
def HealthManager.loadSmallModelQuota (parseDbDatetime : String → Option Instant) (db : Db)
    (h : HealthManager) : HealthManager :=
  { h with smallModelStates := (DiscoveredModelRepo.listDiscoveredModels db).foldl (fun m row =>
      m.insert (row.channelId, row.rawModelName)
        { window := row.quotaWindow.bind QuotaWindow.fromDbStr
          limit := row.quotaLimit
          used := row.usedQuota
          lastResetAt := row.lastResetAt.bind parseDbDatetime
          status := .fromDbStr row.quotaStatus }) h.smallModelStates }

/-- The server as it starts over a database. -/
def AppState.startup (parseDbDatetime : String → Option Instant) (db : Db) (now : Instant) :
    AppState where
  db := db
  cache := none
  normalizer := Map.empty
  health := (HealthManager.new.loadDisabled (KeyRepo.getDisabledKeyIds db)).loadSmallModelQuota
    parseDbDatetime db
  now := now

namespace ConfigCache

/-- Drop the snapshot. -/
def invalidate (s : AppState) : AppState := { s with cache := none }

/-- The snapshot. Where there is none it is loaded, and the normalizer with it. -/
def get (lower : String → String) (rank : String → ℕ) (s : AppState) : CacheData × AppState :=
  match s.cache with
  | some d => (d, s)
  | none =>
    (StorageAdapter.loadAll s.db, { s with
      cache := some (StorageAdapter.loadAll s.db)
      normalizer := Normalizer.reload lower rank (StorageAdapter.loadAliasMapping s.db) })

section Get

variable {lower : String → String} {rank : String → ℕ} {s : AppState}

theorem get_of_some {d : CacheData} (h : s.cache = some d) : get lower rank s = (d, s) := by
  rw [get, h]

theorem get_of_none (h : s.cache = none) :
    get lower rank s = (StorageAdapter.loadAll s.db, { s with
      cache := some (StorageAdapter.loadAll s.db)
      normalizer := Normalizer.reload lower rank (StorageAdapter.loadAliasMapping s.db) }) := by
  rw [get, h]

/-- The snapshot is the cached one, or the one of the database. -/
theorem get_fst : (get lower rank s).1 = s.cache.getD (StorageAdapter.loadAll s.db) := by
  cases h : s.cache with
  | none => rw [get_of_none h, Option.getD_none]
  | some d => rw [get_of_some h, Option.getD_some]

/-- Reading the snapshot reads the database. -/
theorem db_get : (get lower rank s).2.db = s.db := by
  cases h : s.cache with
  | none => rw [get_of_none h]
  | some d => rw [get_of_some h]

end Get

end ConfigCache

namespace StorageAdapter

/-- A row of the usage log. What it refers to must exist, and counts must fit 64 bits with a
sign. -/
def logUsage (entry : UsageEntry) : Stmt Unit := fun db =>
  let u := entry.usage
  if [u.promptTokens, u.completionTokens, u.totalTokens].any fun n => 2 ^ 63 ≤ n.toNat then
    .error (.storage "out of range integral type conversion attempted")
  else if (db.channels.find? entry.channelId).isNone || (db.channelKeys.find? entry.keyId).isNone ||
      (db.models.find? entry.modelId).isNone || (db.users.find? entry.userId).isNone ||
      (db.tokens.find? entry.tokenId).isNone then .error foreignKeyFailed
  else .ok ((), { db with
    usageLogs := db.usageLogs.insertNew
      (fun id => ⟨id, entry.channelId, entry.keyId, entry.modelId, some entry.userId,
        some entry.tokenId⟩) fun _ => rfl })

end StorageAdapter

namespace AppState

/-- Run a statement. A statement that fails leaves the state alone. -/
def query {α : Type} (stmt : Stmt α) (s : AppState) : ProxyResult α × AppState :=
  match stmt s.db with
  | .ok (a, db) => (.ok a, { s with db := db })
  | .error e => (.error e, s)

/-- `persist_status`: a failure is only logged. -/
def persistStatus (keyId : ℤ) (status : KeyStatus) (s : AppState) : AppState :=
  (s.query (KeyRepo.updateKeyStatus keyId status)).2

def markDisabled (keyId : ℤ) (s : AppState) : AppState :=
  persistStatus keyId .disabled { s with health := s.health.markDisabled keyId }

/-- `check_recoveries`: in memory, then in the database. The cache is left to itself: the server
starts the health manager without one. -/
def checkRecoveries (s : AppState) : AppState :=
  { s with
    health := s.health.checkRecoveries s.now
    db := { s.db with
      discoveredModels := s.db.discoveredModels.update
        (fun r => s.health.resetDue s.now (r.channelId, r.rawModelName))
        (DiscoveredModel.reset (nowIso8601 s.now))
        (DiscoveredModel.key_reset (nowIso8601 s.now)) } }

variable (lower : String → String) (chance : Chance)

/-- `Executor::select_keys`: the candidates of a request, grouped by binding. -/
def selectKeys (ctx : ExecutionContext) (s : AppState) : List Bucket × AppState :=
  let (snapshot, s) := ConfigCache.get lower chance.rank s
  (Router.route (snapshot.getForModel ctx.modelId) ctx.userGroup
    (fun keyId upstream => s.health.isAvailable s.now keyId upstream)
    (snapshot.routingStrategyFor ctx.modelId)
    (fun channelId upstream => s.health.isSmallModelAvailable channelId upstream)
    chance.draw, s)

/-- The reply to a call of an execution and the state after it. The upstream's own reply is
given. -/
def answer (s : AppState) : (q : ExecReq) → q.Resp → q.Resp × AppState
  | .selectKeys ctx, _ =>
    let (buckets, s) := s.selectKeys lower chance ctx
    (.ok buckets, s)
  | .getChannelModelPricing modelId channelId upstream, _ =>
    let (snapshot, s) := ConfigCache.get lower chance.rank s
    (.ok (snapshot.pricingFor modelId channelId upstream), s)
  | .billing q, _ =>
    let (r, db) := q.answer (nowIso8601 s.now) s.db
    (r, { s with db := db })
  | .isAvailable keyId upstream, _ => (s.health.isAvailable s.now keyId upstream, s)
  | .adaptorExecute _ _, reply => (reply, s)
  | .adaptorExecuteStream _ _, reply => (reply, s)
  | .markCooldown keyId upstream, _ =>
    ((), { s with health := s.health.markCooldown s.now keyId upstream })
  | .markDisabled keyId, _ => ((), s.markDisabled keyId)
  | .logUsage entry, _ => s.query (StorageAdapter.logUsage entry)
  | .addKeyUsage keyId tokens, _ => s.query (KeyRepo.addKeyUsage keyId tokens)
  | .addUsage keyId tokens, _ => ((), { s with health := s.health.addUsage keyId tokens })
  | .getSmallModelQuota channelId upstream, _ =>
    (s.cache.bind fun d => d.smallModelQuotaFor channelId upstream, s)
  | .updateSmallModelQuota channelId upstream used status, _ =>
    ((), { s with
      cache := s.cache.map (CacheData.updateSmallModelQuota channelId upstream used status) })
  | .addSmallModelUsage channelId upstream delta quotaStatus, _ =>
    s.query (DiscoveredModelRepo.addDiscoveredModelUsage channelId upstream delta quotaStatus)

end AppState

end Chennix
