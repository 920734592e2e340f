import Chennix.Server.Events
import Chennix.Storage.Bootstrap

/-!
# Databases and their administration

A database comes into being empty, may be filled from a configuration file, and is then changed by
the handlers. What a handler writes is what its statement writes, under the checks that it has made
before.

## Main definitions

* `AdminCall.Wrote` — what a handler that succeeds has checked and written
* `AdminStep`, `AdminStep.step` — imports and handlers, one after another

## Main results

* `AdminCall.wrote` — the handlers, one by one
* `AdminCall.Wrote.frame`, `AdminCall.Wrote.frame_bindings` — most of them leave channels and keys
  alone, or bindings and small models
* `AdminStep.keeps_run` — what imports and handlers keep holds of every database they lead to
-/

namespace Chennix

open Foundations Transaction AdminM

/-- The statements of a loop, one after another. -/
inductive Stmt.Chain {α : Type} (f : α → Stmt Unit) : List α → Db → Db → Prop
  | nil (db : Db) : Chain f [] db db
  | cons {a : α} {as : List α} {db db₁ db' : Db} (h : f a db = .ok ((), db₁))
      (hrest : Chain f as db₁ db') : Chain f (a :: as) db db'

namespace AdminCall

/-- What a handler has checked, and the statement that led from one database to the next. -/
def Wrote (now : Calendar.Instant) (db db' : Db) : AdminCall → Prop
  | createChannel p =>
    ∃ id, ChannelRepo.createChannelFull p.name p.provider p.baseUrl p.group db = .ok (id, db')
  | updateChannel id p =>
    ChannelRepo.updateChannel id p.name p.provider p.baseUrl p.group db = .ok ((), db')
  | deleteChannel id => ChannelRepo.deleteChannel id db = .ok ((), db')
  | createKey channelId p =>
    KeyRepo.countDuplicateApiKeyInChannel channelId p.apiKey none db = 0 ∧
      ∃ id, KeyRepo.createKeyAutoPriority channelId p.apiKey p.label p.isFree p.quotaLimit
        p.pricePer1kTokens db = .ok (id, db')
  | updateKey channelId keyId p =>
    KeyRepo.countDuplicateApiKeyInChannel channelId p.apiKey (some keyId) db = 0 ∧
      ∃ status, keyStatusOf p.status = some status ∧
        KeyRepo.updateKey keyId p.apiKey p.isFree p.priority p.quotaLimit p.pricePer1kTokens status
          db = .ok ((), db')
  | deleteKey _ keyId => KeyRepo.deleteKey keyId db = .ok ((), db')
  | resetKeyQuota channelId keyId => KeyRepo.resetKeyQuota keyId channelId db = .ok ((), db')
  | reorderKeys channelId keyIds => KeyRepo.reorderKeys channelId keyIds db = .ok ((), db')
  | createModel name => ∃ id, ModelRepo.createModel name db = .ok (id, db')
  | updateRoutingStrategy id strategy =>
    ModelRepo.updateRoutingStrategy id (Text.trim strategy) db = .ok ((), db')
  | updateModel id name => ModelRepo.renameModel id name db = .ok ((), db')
  | deleteModel id => ModelRepo.deleteModel id db = .ok ((), db')
  | updateBindingPricing id item pricing =>
    ModelRepo.updateBindingPricing id item.channelId item.upstreamModelName pricing db =
      .ok ((), db')
  | addBinding modelId item =>
    (DiscoveredModelRepo.getDiscoveredModel item.channelId item.upstreamModelName db).isSome ∧
      ModelRepo.addBindingWithWeight modelId item.channelId item.upstreamModelName
        (lastBindingPriority modelId db) 1 db = .ok ((), db')
  | updateBindingWeight id item weight =>
    ModelRepo.updateBindingWeight id item.channelId item.upstreamModelName weight db = .ok ((), db')
  | removeBinding modelId item =>
    ModelRepo.removeBinding modelId item.channelId item.upstreamModelName db = .ok ((), db')
  | reorderBindings modelId bindings =>
    ModelRepo.reorderBindings modelId (bindings.map fun b => (b.channelId, b.upstreamModelName))
      db = .ok ((), db')
  | addDiscoveredModels channelId models =>
    Stmt.Chain (fun name =>
      DiscoveredModelRepo.upsertDiscoveredModel channelId name false (some "manual") none)
      (cleanNames models) db db'
  | updateSmallModelQuota channelId p =>
    DiscoveredModelRepo.updateDiscoveredModelQuota (nowIso8601 now) channelId p.upstreamModelName
      p.limit (some p.unit) (some p.window) db = .ok ((), db')
  | resetSmallModelQuota channelId upstream =>
    DiscoveredModelRepo.resetDiscoveredModelQuota (nowIso8601 now) channelId upstream db =
      .ok ((), db')
  | deleteDiscoveredModel channelId upstream =>
    DiscoveredModelRepo.boundTo channelId upstream db = 0 ∧
      DiscoveredModelRepo.deleteDiscoveredModel channelId upstream db = .ok ((), db')
  | reload => db' = db

/-- The handlers of channels and keys. -/
def OfChannels : AdminCall → Prop
  | createChannel .. | updateChannel .. | deleteChannel .. | createKey .. | updateKey ..
  | deleteKey .. | resetKeyQuota .. | reorderKeys .. => True
  | _ => False

/-- The handlers of bindings and small models, and the deletions that take them along. -/
def OfBindings : AdminCall → Prop
  | deleteChannel .. | deleteModel .. | updateBindingPricing .. | addBinding ..
  | updateBindingWeight .. | removeBinding .. | reorderBindings .. | addDiscoveredModels ..
  | updateSmallModelQuota .. | resetSmallModelQuota .. | deleteDiscoveredModel .. => True
  | _ => False

section Frame

variable {db db' : Db}

/-- **The other handlers** write models, bindings and small models only. -/
theorem Wrote.frame {call : AdminCall} {now : Calendar.Instant} (h : call.Wrote now db db')
    (hcall : ¬ call.OfChannels) : ∃ T U V,
      db' = { db with models := T, modelChannels := U, discoveredModels := V } := by
  cases call with
  | createChannel | updateChannel | deleteChannel | createKey | updateKey | deleteKey
  | resetKeyQuota | reorderKeys => exact absurd trivial hcall
  | createModel name =>
    obtain ⟨id, h⟩ := h
    obtain ⟨_, rfl⟩ := ModelRepo.createModel_frame h
    exact ⟨_, _, _, rfl⟩
  | updateRoutingStrategy id strategy =>
    obtain ⟨_, rfl⟩ := ModelRepo.updateRoutingStrategy_frame h
    exact ⟨_, _, _, rfl⟩
  | updateModel id name =>
    obtain ⟨_, rfl⟩ := ModelRepo.renameModel_frame h
    exact ⟨_, _, _, rfl⟩
  | deleteModel id =>
    rcases ModelRepo.deleteModel_frame h with rfl | rfl
    · exact ⟨_, _, _, rfl⟩
    · exact ⟨_, _, _, rfl⟩
  | updateBindingPricing id item pricing =>
    obtain ⟨_, rfl⟩ := ModelRepo.updateBinding_frame (f := ModelChannelRow.withPricing pricing) h
    exact ⟨_, _, _, rfl⟩
  | addBinding modelId item =>
    obtain ⟨_, rfl⟩ := ModelRepo.addBindingWithWeight_frame h.2
    exact ⟨_, _, _, rfl⟩
  | updateBindingWeight id item weight =>
    obtain ⟨_, rfl⟩ := ModelRepo.updateBinding_frame (f := ModelChannelRow.withWeight weight) h
    exact ⟨_, _, _, rfl⟩
  | removeBinding modelId item =>
    cases h
    exact ⟨_, _, _, rfl⟩
  | reorderBindings modelId bindings =>
    cases h
    exact ⟨_, _, _, rfl⟩
  | addDiscoveredModels channelId models =>
    change Stmt.Chain _ _ _ _ at h
    generalize cleanNames models = names at h
    induction h with
    | nil db => exact ⟨_, _, _, rfl⟩
    | cons h _ ih =>
      obtain ⟨_, rfl⟩ := DiscoveredModelRepo.upsert_frame (f := DiscoveredModel.discovered _ _ _) h
      exact ih
  | updateSmallModelQuota channelId p =>
    obtain ⟨_, rfl⟩ := DiscoveredModelRepo.upsert_frame (f := DiscoveredModel.withQuota _ _ _ _) h
    exact ⟨_, _, _, rfl⟩
  | resetSmallModelQuota channelId upstream =>
    cases h
    exact ⟨_, _, _, rfl⟩
  | deleteDiscoveredModel channelId upstream =>
    cases h.2
    exact ⟨_, _, _, rfl⟩
  | reload =>
    cases h
    exact ⟨_, _, _, rfl⟩

/-- **The other handlers** write channels, keys and models only. -/
theorem Wrote.frame_bindings {call : AdminCall} {now : Calendar.Instant}
    (h : call.Wrote now db db') (hcall : ¬ call.OfBindings) : ∃ T U V,
      db' = { db with channels := T, channelKeys := U, models := V } := by
  cases call with
  | deleteChannel | deleteModel | updateBindingPricing | addBinding | updateBindingWeight
  | removeBinding | reorderBindings | addDiscoveredModels | updateSmallModelQuota
  | resetSmallModelQuota | deleteDiscoveredModel => exact absurd trivial hcall
  | createChannel p =>
    obtain ⟨id, h⟩ := h
    exact ⟨_, _, _, ChannelRepo.createChannelFull_frame h⟩
  | updateChannel id p =>
    exact ⟨_, _, _, ChannelRepo.updateChannel_frame h⟩
  | createKey channelId p =>
    obtain ⟨_, id, h⟩ := h
    obtain ⟨_, _, _, _, rfl⟩ := KeyRepo.createKeyAutoPriority_frame h
    exact ⟨_, _, _, rfl⟩
  | updateKey channelId keyId p =>
    obtain ⟨_, status, _, h⟩ := h
    cases h
    exact ⟨_, _, _, rfl⟩
  | deleteKey channelId keyId =>
    exact ⟨_, _, _, KeyRepo.deleteKey_frame h⟩
  | resetKeyQuota channelId keyId =>
    cases h
    exact ⟨_, _, _, rfl⟩
  | reorderKeys channelId keyIds =>
    exact ⟨_, _, _, KeyRepo.reorderKeys_frame h⟩
  | createModel name =>
    obtain ⟨id, h⟩ := h
    obtain ⟨_, rfl⟩ := ModelRepo.createModel_frame h
    exact ⟨_, _, _, rfl⟩
  | updateRoutingStrategy id strategy =>
    obtain ⟨_, rfl⟩ := ModelRepo.updateRoutingStrategy_frame h
    exact ⟨_, _, _, rfl⟩
  | updateModel id name =>
    obtain ⟨_, rfl⟩ := ModelRepo.renameModel_frame h
    exact ⟨_, _, _, rfl⟩
  | reload =>
    cases h
    exact ⟨_, _, _, rfl⟩

end Frame

variable {s s' : AppState}

theorem body_of_dropping {α : Type} {body : AdminM α} {reply : α → Json} {r : Json}
    (h : replying (droppingCache body) reply s = .ok (r, s')) :
    ∃ a, body s.db = .ok (a, s'.db) := by
  obtain ⟨a, h, _⟩ := replying_ok.mp h
  obtain ⟨db, hb, rfl⟩ := droppingCache_ok.mp h
  exact ⟨a, hb⟩

theorem body_of_keeping {α : Type} {body : AdminM α} {reply : α → Json} {r : Json}
    (h : replying (keepingCache body) reply s = .ok (r, s')) :
    ∃ a, body s.db = .ok (a, s'.db) := by
  obtain ⟨a, h, _⟩ := replying_ok.mp h
  obtain ⟨db, hb, rfl⟩ := keepingCache_ok.mp h
  exact ⟨a, hb⟩

/-- A loop over statements in a handler. -/
theorem chain_of_forIn {α : Type} {f : α → Stmt Unit} {as : List α} {db db' : Db} {u : PUnit}
    (h : (forIn as PUnit.unit fun a _ => do
      liftM (f a)
      pure (ForInStep.yield PUnit.unit) : AdminM PUnit) db = .ok (u, db')) :
    Stmt.Chain f as db db' := by
  induction as generalizing db with
  | nil =>
    cases pure_ok.mp h
    exact .nil _
  | cons a as ih =>
    rw [List.forIn_cons] at h
    simp only [bind_ok, lift_ok, pure_ok] at h
    obtain ⟨_, _, ⟨_, db₁, ha, hyield⟩, hrest⟩ := h
    cases hyield
    exact .cons ha (ih hrest)

/-- The check of a pricing writes nothing. -/
theorem checkPricing_ok {evaluator : BillingExpr.Evaluator} {pricing : ChannelModelPricing}
    {db db' : Db} {u : Unit} (h : checkPricing evaluator pricing db = .ok (u, db')) : db' = db := by
  rw [checkPricing] at h
  by_cases hexpression : pricing.billingType = .expression
  · rw [if_pos hexpression] at h
    cases hexpr : pricing.billingExpr with
    | none =>
      rw [hexpr] at h
      cases h
    | some expr =>
      rw [hexpr] at h
      dsimp only at h
      cases hvalid : BillingExpr.validate evaluator expr with
      | error e =>
        rw [hvalid] at h
        cases h
      | ok u =>
        rw [hvalid] at h
        cases h
        rfl
  · rw [if_neg hexpression] at h
    cases h
    rfl

/-- **What handlers write**, one by one. -/
theorem wrote {lower : String → String} {rank : String → ℕ} {evaluator : BillingExpr.Evaluator}
    {call : AdminCall} {r : Json} (h : call.handle lower rank evaluator s = .ok (r, s')) :
    call.Wrote s.now s.db s'.db := by
  cases call <;> rw [handle] at h
  case createChannel p =>
    obtain ⟨id, hb⟩ := body_of_keeping h
    exact ⟨id, lift_ok.mp hb⟩
  case updateChannel id p =>
    obtain ⟨_, hb⟩ := body_of_keeping h
    exact lift_ok.mp hb
  case deleteChannel id =>
    obtain ⟨_, hb⟩ := body_of_keeping h
    exact lift_ok.mp hb
  case createKey channelId p =>
    obtain ⟨id, hb⟩ := body_of_dropping h
    simp only [bind_ok, get_ok, refuseIf_ok, lift_ok] at hb
    obtain ⟨_, _, hget, _, _, ⟨hdup, hguard⟩, hcreate⟩ := hb
    cases hget
    cases hguard
    exact ⟨Nat.eq_zero_of_not_pos hdup, id, hcreate⟩
  case updateKey channelId keyId p =>
    obtain ⟨_, hb⟩ := body_of_dropping h
    simp only [bind_ok, get_ok, refuseIf_ok, orElse_ok, lift_ok] at hb
    obtain ⟨status, _, ⟨_, hstatus, hfound⟩, _, _, hget, _, _, ⟨hdup, hguard⟩, hupdate⟩ := hb
    cases hfound
    cases hget
    cases hguard
    exact ⟨Nat.eq_zero_of_not_pos hdup, status, hstatus, hupdate⟩
  case deleteKey channelId keyId =>
    obtain ⟨_, hb⟩ := body_of_dropping h
    exact lift_ok.mp hb
  case resetKeyQuota channelId keyId =>
    obtain ⟨_, hb⟩ := body_of_keeping h
    exact lift_ok.mp hb
  case reorderKeys channelId keyIds =>
    obtain ⟨_, hb⟩ := body_of_dropping h
    exact lift_ok.mp hb
  case createModel name =>
    obtain ⟨_, hb⟩ := body_of_keeping h
    simp only [bind_ok, get_ok, refuseIf_ok, lift_ok, pure_ok] at hb
    obtain ⟨_, _, hget, _, _, ⟨_, hguard⟩, id, _, hcreate, hr⟩ := hb
    cases hget
    cases hguard
    cases hr
    exact ⟨id, hcreate⟩
  case updateRoutingStrategy id strategy =>
    obtain ⟨_, hb⟩ := body_of_dropping h
    simp only [bind_ok, refuseIf_ok, lift_ok] at hb
    obtain ⟨_, _, ⟨_, hguard⟩, hupdate⟩ := hb
    cases hguard
    exact hupdate
  case updateModel id name =>
    obtain ⟨_, hb⟩ := body_of_keeping h
    simp only [bind_ok, get_ok, refuseIf_ok, lift_ok] at hb
    obtain ⟨_, _, hget, _, _, ⟨_, hguard⟩, hrename⟩ := hb
    cases hget
    cases hguard
    exact hrename
  case deleteModel id =>
    obtain ⟨_, hb⟩ := body_of_keeping h
    exact lift_ok.mp hb
  case updateBindingPricing id item pricing =>
    obtain ⟨_, hb⟩ := body_of_dropping h
    obtain ⟨_, _, hcheck, hupdate⟩ := bind_ok.mp hb
    rw [checkPricing_ok hcheck] at hupdate
    exact lift_ok.mp hupdate
  case addBinding modelId item =>
    obtain ⟨_, hb⟩ := body_of_dropping h
    simp only [bind_ok, get_ok, orElse_ok, lift_ok] at hb
    obtain ⟨_, _, hget₀, _, _, ⟨_, _, hr⟩, _, _, hget, _, _, ⟨_, _, hr'⟩, _, _, hget', _, _,
      ⟨_, hdiscovered, hr''⟩, _, _, hget'', hadd⟩ := hb
    cases hget₀
    cases hr
    cases hget
    cases hr'
    cases hget'
    cases hr''
    cases hget''
    exact ⟨Option.isSome_of_mem hdiscovered, hadd⟩
  case updateBindingWeight id item weight =>
    obtain ⟨_, hb⟩ := body_of_dropping h
    simp only [bind_ok, refuseIf_ok, lift_ok] at hb
    obtain ⟨_, _, ⟨_, hguard⟩, hupdate⟩ := hb
    cases hguard
    exact hupdate
  case removeBinding modelId item =>
    obtain ⟨_, hb⟩ := body_of_dropping h
    exact lift_ok.mp hb
  case reorderBindings modelId bindings =>
    obtain ⟨_, hb⟩ := body_of_dropping h
    exact lift_ok.mp hb
  case addDiscoveredModels channelId models =>
    obtain ⟨n, hn, _⟩ := replying_ok.mp h
    rw [addDiscoveredModelsHandler] at hn
    by_cases hempty : cleanNames models = []
    · rw [if_pos hempty] at hn
      cases hn
      rw [Wrote, hempty]
      exact .nil _
    · rw [if_neg hempty] at hn
      obtain ⟨db, hb, rfl⟩ := droppingCache_ok.mp hn
      simp only [bind_ok, get_ok, orElse_ok, pure_ok] at hb
      obtain ⟨_, _, hget, _, _, ⟨_, _, hfound⟩, _, _, hloop, hr⟩ := hb
      cases hget
      cases hfound
      cases hr
      exact chain_of_forIn hloop
  case updateSmallModelQuota channelId p =>
    obtain ⟨_, hb⟩ := body_of_dropping h
    simp only [bind_ok, refuseIf_ok, lift_ok] at hb
    obtain ⟨_, _, ⟨_, hunit⟩, _, _, ⟨_, hwindow⟩, hupdate⟩ := hb
    cases hunit
    cases hwindow
    exact hupdate
  case resetSmallModelQuota channelId upstream =>
    obtain ⟨_, hb⟩ := body_of_dropping h
    exact lift_ok.mp hb
  case deleteDiscoveredModel channelId upstream =>
    obtain ⟨_, hb⟩ := body_of_dropping h
    simp only [bind_ok, get_ok, refuseIf_ok, lift_ok] at hb
    obtain ⟨_, _, hget, _, _, ⟨hcount, hguard⟩, hdelete⟩ := hb
    cases hget
    cases hguard
    exact ⟨Nat.eq_zero_of_not_pos hcount, hdelete⟩
  case reload =>
    obtain ⟨_, h, _⟩ := replying_ok.mp h
    cases h
    rfl

end AdminCall

/-- What an administrator does to a database. -/
inductive AdminStep
  /-- Import a configuration file. -/
  | importFile (config : BootstrapConfig)
  /-- Call a handler. -/
  | handle (call : AdminCall) (chance : Chance)

namespace AdminStep

/-- What fails leaves the database as it was. -/
def step (lib : Libraries) (s : AppState) : AdminStep → Option AppState
  | importFile config => some (s.query (importConfig config)).2
  | handle call chance => some (s.administer lib call chance)

variable {lib : Libraries} {s s' : AppState}

/-- The database stays, or is what the file or the handler makes of it. -/
theorem step_cases {l : AdminStep} (h : step lib s l = some s') :
    s'.db = s.db ∨ (∃ config, l = importFile config ∧ importConfig config s.db = .ok ((), s'.db)) ∨
      ∃ call chance, l = handle call chance ∧ call.Wrote s.now s.db s'.db := by
  cases l with
  | importFile config =>
    have hquery : (s.query (importConfig config)).2 = s' := Option.some.inj h
    rw [AppState.query] at hquery
    rcases himport : importConfig config s.db with e | ⟨_, db⟩
    · rw [himport] at hquery
      exact .inl (congrArg AppState.db hquery.symm)
    · rw [himport] at hquery
      rw [← hquery]
      exact .inr (.inl ⟨config, rfl, himport⟩)
  | handle call chance =>
    rcases AppState.step_admin h with rfl | ⟨body, hok⟩
    · exact .inl rfl
    · exact .inr (.inr ⟨call, chance, rfl, AdminCall.wrote hok⟩)

/-- **Invariants of databases**: what imports and handlers keep holds wherever they lead to. -/
theorem keeps_run {I : Db → Prop} (himport : ∀ config, Keeps I (importConfig config))
    (hwrote : ∀ call : AdminCall, ∀ now db db', call.Wrote now db db' → I db → I db')
    {ls : List AdminStep} (hrun : Machine.run (step lib) s ls = some s') (h : I s.db) :
    I s'.db := by
  refine Machine.run_invariant (C := fun _ _ => True) (I := fun s => I s.db) ?_ hrun
    (Machine.along_of_labels fun _ _ => trivial) h
  intro s l s' _ hI hstep
  rcases step_cases hstep with hsame | ⟨config, _, hok⟩ | ⟨call, _, _, hok⟩
  · rwa [hsame]
  · exact himport config s.db () s'.db hok hI
  · exact hwrote call _ _ _ hok hI

end AdminStep

end Chennix
