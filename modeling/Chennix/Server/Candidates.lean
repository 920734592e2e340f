import Chennix.Server.Events

/-!
# Who a request may use

A request asks for its candidates once. Which ones it gets depends on the snapshot and on the
health manager of that moment, and on nothing else.

## Main definitions

* `AppState.snapshot` — what the next request is served from

## Main results

* `AppState.mem_selectKeys` — the candidates of a request
* `AppState.health_administer` — administrators leave the health manager alone
-/

namespace Chennix

open Foundations StorageAdapter

namespace AppState

variable {lib : Libraries} {s s' : AppState} {chance : Chance} {ctx : ExecutionContext}

/-- What the next request is served from. -/
def snapshot (s : AppState) : CacheData := s.cache.getD (loadAll s.db)

/-- The candidates are routed over the snapshot. -/
theorem selectKeys_fst {lower : String → String} :
    (s.selectKeys lower chance ctx).1 =
      Router.route (s.snapshot.getForModel ctx.modelId) ctx.userGroup
        (fun keyId upstream => s.health.isAvailable s.now keyId upstream)
        (s.snapshot.routingStrategyFor ctx.modelId)
        (fun channelId upstream => s.health.isSmallModelAvailable channelId upstream)
        chance.draw := by
  rw [selectKeys, snapshot]
  cases hc : s.cache with
  | none =>
    rw [ConfigCache.get_of_none hc]
    rfl
  | some d =>
    rw [ConfigCache.get_of_some hc]
    rfl

/-- **The candidates**: the keys of the bound channels that neither the group, nor the quota of the
small model, nor the state of the key keeps out. -/
theorem mem_selectKeys {lower : String → String} {r : RoutedKey} :
    r ∈ Router.candidates (s.selectKeys lower chance ctx).1 ↔
      ∃ bound ∈ s.snapshot.getForModel ctx.modelId,
        Router.groupMatch ctx.userGroup bound.1 = true ∧
        s.health.isSmallModelAvailable bound.1.id bound.2.2.1 = true ∧
        ∃ k ∈ bound.2.1, s.health.isAvailable s.now k.id bound.2.2.1 = true ∧
          r = ⟨bound.1, k, bound.2.2.1, bound.2.2.2.1, bound.2.2.2.2⟩ := by
  rw [selectKeys_fst]
  exact Router.mem_route

/-! ### What the events leave alone -/

/-- Administrators tell the health manager nothing. -/
theorem health_administer (call : AdminCall) :
    (s.administer lib call chance).health = s.health ∧
      (s.administer lib call chance).now = s.now := by
  rw [administer]
  cases h : call.handle lib.lower chance.rank lib.evaluator s with
  | error e => exact ⟨rfl, rfl⟩
  | ok reply => exact AdminCall.health_handle h

theorem query_health {α : Type} (stmt : Stmt α) (s : AppState) :
    (s.query stmt).2.health = s.health := by
  rw [query]
  cases stmt s.db <;> rfl

theorem get_health (lower : String → String) (rank : String → ℕ) (s : AppState) :
    (ConfigCache.get lower rank s).2.health = s.health := by
  cases hc : s.cache with
  | none => rw [ConfigCache.get_of_none hc]
  | some d => rw [ConfigCache.get_of_some hc]

/-- No call of a request touches what the health manager knows of small models. -/
theorem smallModelStates_answer (lower : String → String) (q : ExecReq) (reply : q.Resp) :
    (s.answer lower chance q reply).2.health.smallModelStates = s.health.smallModelStates := by
  cases q with
  | selectKeys ctx => exact congrArg _ (get_health ..)
  | getChannelModelPricing modelId channelId upstream => exact congrArg _ (get_health ..)
  | markDisabled keyId =>
    exact (congrArg HealthManager.smallModelStates (query_health ..)).trans rfl
  | logUsage entry => exact congrArg _ (query_health ..)
  | addKeyUsage keyId tokens => exact congrArg _ (query_health ..)
  | addSmallModelUsage channelId upstream delta status => exact congrArg _ (query_health ..)
  | _ => rfl

/-- **Small models**: only the recovery loop tells the health manager of them. -/
theorem smallModelStates_step {e : Event} (he : e ≠ .recover) (h : s.step lib e = some s') :
    s'.health.smallModelStates = s.health.smallModelStates := by
  cases e with
  | request chance =>
    cases h
    exact congrArg _ (get_health ..)
  | call a chance =>
    cases h
    exact smallModelStates_answer ..
  | admin call chance =>
    cases h
    exact congrArg _ (health_administer call).1
  | recover => exact absurd rfl he
  | elapse duration =>
    cases h
    rfl

end AppState

end Chennix
