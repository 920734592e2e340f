import Chennix.Server.Administration
import Chennix.Server.Candidates

/-!
# Which keys serve which models

The wiring is what binds models to keys: the channels, the bindings of the models and the channel of
each key. Requests, updates of keys and the recovery loop leave it alone. So a snapshot that was
loaded since the wiring was changed last shows it, however outdated it is otherwise.

## Main definitions

* `Db.SameWiring` — two databases with the same wiring
* `Db.BindsKey` — a model is bound to a channel that has the key
* `Event.LeavesWiring` — the events that leave the wiring alone
* `AppState.ShowsWiring` — the next request is served from a snapshot that shows the wiring

## Main results

* `Db.BindsKey.exists_bound` — what the wiring binds, a snapshot binds
* `AppState.ShowsWiring.step` — such events keep the wiring and the snapshot of it
-/

namespace Chennix

open Foundations StorageAdapter AdminM

/-- Which key it is, and of which channel. -/
def KeyConfig.place (k : KeyConfig) : ℤ × ℤ := (k.id, k.channelId)

/-- Models are bound to the same keys. -/
structure Db.SameWiring (db db' : Db) : Prop where
  channels : db.channels = db'.channels
  models : db.models = db'.models
  modelChannels : db.modelChannels = db'.modelChannels
  keys : db.channelKeys.rows.map KeyConfig.place = db'.channelKeys.rows.map KeyConfig.place

/-- The model is bound to an upstream model of the channel, which has the key. -/
structure Db.BindsKey (db : Db) (modelId keyId : ℤ) (c : ChannelConfig) (upstream : String) :
    Prop where
  model : ∃ m ∈ db.models.rows, m.id = modelId
  channel : c ∈ db.channels.rows
  key : ∃ k ∈ db.channelKeys.rows, k.id = keyId ∧ k.channelId = c.id
  binding : ∃ b ∈ db.modelChannels.rows, b.modelId = modelId ∧ b.channelId = c.id ∧
    b.upstreamModelName = upstream

namespace Db

variable {db db' db'' : Db} {modelId keyId : ℤ} {c : ChannelConfig} {upstream : String}

theorem SameWiring.refl (db : Db) : db.SameWiring db := ⟨rfl, rfl, rfl, rfl⟩

theorem SameWiring.symm (h : db.SameWiring db') : db'.SameWiring db :=
  ⟨h.channels.symm, h.models.symm, h.modelChannels.symm, h.keys.symm⟩

theorem SameWiring.trans (h : db.SameWiring db') (h' : db'.SameWiring db'') :
    db.SameWiring db'' :=
  ⟨h.channels.trans h'.channels, h.models.trans h'.models,
    h.modelChannels.trans h'.modelChannels, h.keys.trans h'.keys⟩

/-- An update of keys that leaves them where they are. -/
theorem sameWiring_updateKeys (db : Db) (p : KeyConfig → Bool) {f : KeyConfig → KeyConfig}
    (hf : ∀ r, Foundations.key (f r) = Foundations.key r) (hplace : ∀ r, (f r).place = r.place) :
    db.SameWiring { db with channelKeys := db.channelKeys.update p f hf } :=
  ⟨rfl, rfl, rfl, (Table.map_rows_update db.channelKeys p hf hplace).symm⟩

theorem BindsKey.congr (h : db.BindsKey modelId keyId c upstream)
    (hw : db.SameWiring db') : db'.BindsKey modelId keyId c upstream where
  model := hw.models ▸ h.model
  channel := hw.channels ▸ h.channel
  key := by
    obtain ⟨k, hk, hid, hchannel⟩ := h.key
    have hplace : k.place ∈ db'.channelKeys.rows.map KeyConfig.place :=
      hw.keys ▸ List.mem_map_of_mem hk
    obtain ⟨k', hk', heq⟩ := List.mem_map.mp hplace
    exact ⟨k', hk', (congrArg Prod.fst heq).trans hid, (congrArg Prod.snd heq).trans hchannel⟩
  binding := hw.modelChannels ▸ h.binding

/-- **What the wiring binds**, a snapshot of the database binds. -/
theorem BindsKey.exists_bound (h : db.BindsKey modelId keyId c upstream) :
    ∃ bound ∈ (loadAll db).getForModel modelId, bound.1 = c ∧ bound.2.2.1 = upstream ∧
      ∃ k ∈ bound.2.1, k.id = keyId := by
  obtain ⟨m, hm, rfl⟩ := h.model
  obtain ⟨k, hk, rfl, hchannel⟩ := h.key
  obtain ⟨b, hb, hmodel, hbound, rfl⟩ := h.binding
  have hloaded : b.toBinding ∈ loadBindings m.id db := by
    refine mem_loadBindings.mpr ⟨b, hb, ⟨hmodel, ?_⟩, rfl⟩
    rw [hmodel, show db.models.find? m.id = some m from Table.find?_key hm]
    rfl
  have hkeys : k ∈ KeyRepo.getKeysForChannel c.id db := mem_getKeysForChannel.mpr ⟨hk, hchannel⟩
  refine ⟨(c, KeyRepo.getKeysForChannel c.id db, b.upstreamModelName, b.priority,
    b.weight), ?_, rfl, rfl, k, hkeys, rfl⟩
  have hchannelOf : (loadAll db).channel b.toBinding.channelId = some c := by
    show (loadAll db).channel b.channelId = some c
    rw [hbound, channel_loadAll h.channel]
  have hkeysOf : ((loadAll db).keysFor b.toBinding.channelId).getD [] =
      KeyRepo.getKeysForChannel c.id db := by
    show ((loadAll db).keysFor b.channelId).getD [] = _
    rw [hbound, keysFor_loadAll h.channel, Option.getD_some]
  rw [CacheData.getForModel, bindingsFor_loadAll hm, Option.getD_some, List.mem_filterMap]
  refine ⟨b.toBinding, hloaded, ?_⟩
  simp only [hchannelOf, Option.bind_some, hkeysOf, if_neg (List.ne_nil_of_mem hkeys)]
  rfl

end Db

/-- The events that leave the wiring alone: of the handlers the update of a key. -/
def Event.LeavesWiring : Event → Prop
  | .admin (.updateKey _ _ _) _ => True
  | .admin _ _ => False
  | _ => True

namespace AppState

variable {lib : Libraries} {s s' : AppState}

/-- The next request is served from a snapshot that shows the wiring. -/
def ShowsWiring (s : AppState) : Prop :=
  ∃ db, db.SameWiring s.db ∧
    ∀ modelId, s.snapshot.getForModel modelId = (loadAll db).getForModel modelId

theorem showsWiring_of_none (h : s.cache = none) : s.ShowsWiring := by
  refine ⟨s.db, .refl s.db, fun modelId => ?_⟩
  rw [snapshot, h, Option.getD_none]

/-- Where the snapshot stays, and the wiring does. -/
theorem ShowsWiring.congr (h : s.ShowsWiring) (hw : s.db.SameWiring s'.db)
    (hcache : s'.cache = s.cache) : s'.ShowsWiring := by
  cases hc : s.cache with
  | none => exact showsWiring_of_none (hcache.trans hc)
  | some d =>
    obtain ⟨db, hdb, hshown⟩ := h
    refine ⟨db, hdb.trans hw, fun modelId => ?_⟩
    rw [← hshown, snapshot, snapshot, hcache, hc, Option.getD_some, Option.getD_some]

theorem ShowsWiring.get (h : s.ShowsWiring) (lower : String → String) (rank : String → ℕ) :
    (ConfigCache.get lower rank s).2.ShowsWiring := by
  cases hc : s.cache with
  | none =>
    rw [ConfigCache.get_of_none hc]
    exact ⟨s.db, .refl s.db, fun _ => rfl⟩
  | some d => rwa [ConfigCache.get_of_some hc]

/-! ### Calls -/

theorem sameWiring_query {α : Type} {stmt : Stmt α}
    (h : ∀ a db, stmt s.db = .ok (a, db) → s.db.SameWiring db) :
    s.db.SameWiring (s.query stmt).2.db ∧ (s.query stmt).2.cache = s.cache := by
  rw [query]
  cases hok : stmt s.db with
  | error e => exact ⟨.refl _, rfl⟩
  | ok r => exact ⟨h r.1 r.2 hok, rfl⟩

theorem sameWiring_billing {now : String} {q : BillingReq} {db db' : Db} {r : q.Resp}
    (h : q.answer now db = (r, db')) : db.SameWiring db' := by
  rcases BillingReq.answer_cases h with ⟨c, -, rfl, -⟩ | ⟨-, ⟨k, st, -, rfl⟩ | rfl⟩
  · rw [Db.applyCharge]
    split <;> exact ⟨rfl, rfl, rfl, rfl⟩
  · exact ⟨rfl, rfl, rfl, rfl⟩
  · exact .refl _

theorem sameWiring_logUsage {entry : UsageEntry} {db db' : Db} {u : Unit}
    (h : StorageAdapter.logUsage entry db = .ok (u, db')) : db.SameWiring db' := by
  rw [StorageAdapter.logUsage] at h
  split at h
  · cases h
  · split at h <;> cases h
    exact ⟨rfl, rfl, rfl, rfl⟩

/-- The calls of a request leave the wiring alone, and the snapshot of it. -/
theorem wiring_answer (lower : String → String) (chance : Chance) (q : ExecReq) (reply : q.Resp)
    (h : s.ShowsWiring) :
    s.db.SameWiring (s.answer lower chance q reply).2.db ∧
      (s.answer lower chance q reply).2.ShowsWiring := by
  cases q with
  | selectKeys ctx =>
    refine ⟨?_, h.get lower chance.rank⟩
    show s.db.SameWiring (ConfigCache.get lower chance.rank s).2.db
    rw [ConfigCache.db_get]
    exact .refl _
  | getChannelModelPricing modelId channelId upstream =>
    refine ⟨?_, h.get lower chance.rank⟩
    show s.db.SameWiring (ConfigCache.get lower chance.rank s).2.db
    rw [ConfigCache.db_get]
    exact .refl _
  | billing q =>
    have hw : s.db.SameWiring (q.answer (nowIso8601 s.now) s.db).2 :=
      sameWiring_billing (r := (q.answer (nowIso8601 s.now) s.db).1) rfl
    exact ⟨hw, h.congr hw rfl⟩
  | markDisabled keyId =>
    have hw := Db.sameWiring_updateKeys s.db (fun k => k.id == keyId)
      (KeyConfig.key_withStatus .disabled) fun _ => rfl
    exact ⟨hw, h.congr hw rfl⟩
  | logUsage entry =>
    obtain ⟨hw, hcache⟩ := sameWiring_query (s := s) fun u db (hok :
      StorageAdapter.logUsage entry s.db = .ok (u, db)) => sameWiring_logUsage hok
    exact ⟨hw, h.congr hw hcache⟩
  | addKeyUsage keyId tokens =>
    have hw := Db.sameWiring_updateKeys s.db (fun k => k.id == keyId)
      (KeyConfig.key_addUsage tokens) fun _ => rfl
    exact ⟨hw, h.congr hw rfl⟩
  | updateSmallModelQuota channelId upstream used status =>
    refine ⟨.refl _, ?_⟩
    cases hc : s.cache with
    | none => exact showsWiring_of_none (congrArg (Option.map _) hc)
    | some d =>
      obtain ⟨db, hdb, hshown⟩ := h
      refine ⟨db, hdb, fun modelId => ?_⟩
      rw [← hshown, snapshot, snapshot, hc]
      show CacheData.getForModel ((s.cache.map _).getD _) modelId = _
      rw [hc]
      rfl
  | addSmallModelUsage channelId upstream delta status =>
    have hw : s.db.SameWiring (s.answer lower chance
      (.addSmallModelUsage channelId upstream delta status) reply).2.db := ⟨rfl, rfl, rfl, rfl⟩
    exact ⟨hw, h.congr hw rfl⟩
  | _ => exact ⟨.refl _, h⟩

/-- What an update of a key leaves that is not refused. -/
theorem administer_updateKey_ok (lib : Libraries) {channelId keyId : ℤ} {payload : UpdateKeyRequest}
    {status : KeyStatus} (chance : Chance) (hstatus : keyStatusOf payload.status = some status)
    (hfree : KeyRepo.countDuplicateApiKeyInChannel channelId payload.apiKey (some keyId) s.db = 0) :
    ∃ db, KeyRepo.updateKey keyId payload.apiKey payload.isFree payload.priority payload.quotaLimit
        payload.pricePer1kTokens status s.db = .ok ((), db) ∧
      s.administer lib (.updateKey channelId keyId payload) chance =
        { s with db := db, cache := none } := by
  refine ⟨_, rfl, ?_⟩
  have hreply : updateKeyHandler channelId keyId payload s = .ok ((), { s with
      db := { s.db with
        channelKeys := s.db.channelKeys.update (fun k => k.id == keyId)
          (KeyConfig.configured payload.apiKey (KeyRepo.costTierOf payload.isFree) payload.priority
            (KeyRepo.priceOf payload.pricePer1kTokens) (KeyRepo.freeQuotaOf payload.quotaLimit)
            status)
          (KeyConfig.key_configured _ _ _ _ _ _) }
      cache := none }) := by
    rw [updateKeyHandler, droppingCache_ok]
    refine ⟨_, ?_, rfl⟩
    simp only [Transaction.bind_ok, Transaction.get_ok, orElse_ok, refuseIf_ok, lift_ok]
    exact ⟨status, s.db, ⟨status, hstatus, rfl⟩, s.db, s.db, rfl, (), s.db,
      ⟨by rw [hfree]; exact lt_irrefl 0, rfl⟩, rfl⟩
  rw [administer, AdminCall.handle, AdminCall.replying, hreply]
  rfl

theorem administer_updateKey_refused {channelId keyId : ℤ} {payload : UpdateKeyRequest}
    (chance : Chance) (h : keyStatusOf payload.status = none ∨
      KeyRepo.countDuplicateApiKeyInChannel channelId payload.apiKey (some keyId) s.db ≠ 0) :
    s.administer lib (.updateKey channelId keyId payload) chance = s := by
  rw [administer]
  cases hr : AdminCall.handle lib.lower chance.rank lib.evaluator s
      (.updateKey channelId keyId payload) with
  | error e => rfl
  | ok r =>
    obtain ⟨hfree, status, hstatus, _⟩ := AdminCall.wrote hr
    rcases h with h | h
    · cases h.symm.trans hstatus
    · exact absurd hfree h

/-- An update of a key leaves the wiring alone and drops the snapshot, or it is refused. -/
theorem administer_updateKey (lib : Libraries) (s : AppState) (channelId keyId : ℤ)
    (payload : UpdateKeyRequest) (chance : Chance) :
    s.administer lib (.updateKey channelId keyId payload) chance = s ∨
      (s.administer lib (.updateKey channelId keyId payload) chance).cache = none ∧
        s.db.SameWiring (s.administer lib (.updateKey channelId keyId payload) chance).db := by
  cases hstatus : keyStatusOf payload.status with
  | none => exact .inl (administer_updateKey_refused chance (.inl hstatus))
  | some status =>
    by_cases hfree :
        KeyRepo.countDuplicateApiKeyInChannel channelId payload.apiKey (some keyId) s.db = 0
    · obtain ⟨db, hdb, hs⟩ := administer_updateKey_ok lib chance hstatus hfree
      cases hdb
      rw [hs]
      exact .inr ⟨rfl, Db.sameWiring_updateKeys s.db _ _ fun _ => rfl⟩
    · exact .inl (administer_updateKey_refused chance (.inr hfree))

/-- **The wiring** stays, and so does the snapshot of it. -/
theorem ShowsWiring.step {e : Event} (he : e.LeavesWiring) (hstep : s.step lib e = some s')
    (h : s.ShowsWiring) : s.db.SameWiring s'.db ∧ s'.ShowsWiring := by
  cases e with
  | request chance =>
    cases hstep
    refine ⟨?_, h.get lib.lower chance.rank⟩
    rw [ConfigCache.db_get]
    exact .refl _
  | call a chance =>
    cases hstep
    exact wiring_answer lib.lower chance a.1 a.2 h
  | admin call chance =>
    cases call with
    | updateKey channelId keyId payload =>
      have hs' := Option.some.inj hstep
      rcases administer_updateKey lib s channelId keyId payload chance with
        hsame | ⟨hcache, hw⟩
      · rw [← hs', hsame]
        exact ⟨.refl _, h⟩
      · rw [← hs']
        exact ⟨hw, showsWiring_of_none hcache⟩
    | _ => exact he.elim
  | recover =>
    cases hstep
    have hw : s.db.SameWiring s.checkRecoveries.db := ⟨rfl, rfl, rfl, rfl⟩
    exact ⟨hw, h.congr hw rfl⟩
  | elapse duration =>
    cases hstep
    exact ⟨.refl _, h.congr (.refl _) rfl⟩

end AppState

end Chennix
