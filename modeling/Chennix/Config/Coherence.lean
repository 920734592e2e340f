import Chennix.Server.Events

/-!
# Coherence of the configuration

An administrator changes the database; requests are served from a snapshot of it. The snapshot is
coherent when the next request sees what the database holds. Most handlers drop the snapshot and
with it keep it coherent. Seven of them do not, and keep it coherent only when there is none, or
when their statement changes nothing.

## Main definitions

* `AppState.Coherent` — the next request sees the database
* `AdminCall.keepsCache` — the seven handlers
* `AdminCall.idle` — their statement would change nothing

## Main results

* `AdminCall.handle_cases` — what a handler leaves of the snapshot and of the database
* `AppState.coherent_run` — runs in which no handler leaves an outdated snapshot behind
* `AppState.stale_after_delete` — a deleted channel that requests still see
-/

namespace Chennix

open Foundations Transaction StorageAdapter AdminM

/-- The handlers that do not invalidate the cache. -/
def AdminCall.keepsCache : AdminCall → Bool
  | createChannel _ => true
  | updateChannel _ _ => true
  | deleteChannel _ => true
  | resetKeyQuota _ _ => true
  | createModel _ => true
  | updateModel _ _ => true
  | deleteModel _ => true
  | _ => false

/-- The statement of one of these handlers is refused, touches no row, or writes what the rows it
touches hold already. -/
def AdminCall.idle (db : Db) : AdminCall → Bool
  | createChannel p => db.channels.rows.any fun c => c.name == p.name
  | updateChannel id p =>
    (db.channels.rows.any fun c => c.id != id && c.name == p.name) ||
      db.channels.rows.all fun c => c.id != id ||
        c.configured p.name p.provider p.baseUrl p.group == c
  | deleteChannel id => (db.channels.rows.all fun c => c.id != id) || ChannelRepo.logged id db
  | resetKeyQuota channelId keyId =>
    db.channelKeys.rows.all fun k => !(k.id == keyId && k.channelId == channelId) ||
      k.usedQuota == 0
  | createModel name => db.models.rows.any fun m => m.canonicalName == name
  | updateModel id name =>
    (db.models.rows.any fun m => m.id != id && m.canonicalName == name) ||
      db.models.rows.all fun m => m.id != id || m.canonicalName == name
  | deleteModel id =>
    (db.models.rows.all fun m => m.id != id) ||
      (db.usageLogs.rows.any fun l => l.modelId == id) ||
      db.discoveredModels.rows.any fun m => m.mergedToModelId == some id
  | _ => false

/-! ### Statements that change nothing -/

variable {db db' : Db}

theorem createChannelFull_idle {p : ChannelRequest} {id : ℤ}
    (h : ChannelRepo.createChannelFull p.name p.provider p.baseUrl p.group db = .ok (id, db'))
    (hidle : (AdminCall.createChannel p).idle db = true) : db' = db := by
  rw [AdminCall.idle] at hidle
  rw [ChannelRepo.createChannelFull, if_pos hidle] at h
  cases h

theorem updateChannel_idle {p : ChannelRequest} {id : ℤ} {u : Unit}
    (h : ChannelRepo.updateChannel id p.name p.provider p.baseUrl p.group db = .ok (u, db'))
    (hidle : (AdminCall.updateChannel id p).idle db = true) : db' = db := by
  rw [ChannelRepo.updateChannel] at h
  by_cases hrow : db.channels.rows.any (fun c => c.id == id) = true
  · by_cases hname : db.channels.rows.any (fun c => c.id != id && c.name == p.name) = true
    · rw [hrow, hname, Bool.true_and, if_pos rfl] at h
      cases h
    · rw [Bool.not_eq_true] at hname
      rw [hname, Bool.and_false, if_neg Bool.false_ne_true] at h
      rw [AdminCall.idle, hname, Bool.false_or, List.all_eq_true] at hidle
      cases h
      rw [Table.update_eq_self]
      intro c hc hid
      have hsame := hidle c hc
      rw [beq_iff_eq] at hid
      simpa [hid] using hsame
  · rw [Bool.not_eq_true] at hrow
    rw [hrow, Bool.false_and, if_neg Bool.false_ne_true] at h
    cases h
    rw [Table.update_eq_self]
    intro c hc hid
    rw [List.any_eq_false] at hrow
    exact absurd hid (hrow c hc)

theorem deleteChannel_idle {id : ℤ} {u : Unit}
    (h : ChannelRepo.deleteChannel id db = .ok (u, db'))
    (hidle : (AdminCall.deleteChannel id).idle db = true) : db' = db := by
  rw [ChannelRepo.deleteChannel] at h
  by_cases hrow : (db.channels.rows.all fun c => c.id != id) = true
  · rw [if_pos hrow] at h
    cases h
    rfl
  · rw [if_neg hrow] at h
    rw [AdminCall.idle, Bool.or_eq_true] at hidle
    rw [if_pos (hidle.resolve_left hrow)] at h
    cases h

theorem resetKeyQuota_idle {channelId keyId : ℤ} {u : Unit}
    (h : KeyRepo.resetKeyQuota keyId channelId db = .ok (u, db'))
    (hidle : (AdminCall.resetKeyQuota channelId keyId).idle db = true) : db' = db := by
  cases h
  rw [Table.update_eq_self]
  intro k hk hsel
  have hzero := List.all_eq_true.mp hidle k hk
  rw [hsel, Bool.not_true, Bool.false_or, beq_iff_eq] at hzero
  rw [KeyConfig.withUsedQuota, ← hzero]

theorem createModel_idle {name : String} {id : ℤ}
    (h : ModelRepo.createModel name db = .ok (id, db'))
    (hidle : (AdminCall.createModel name).idle db = true) : db' = db := by
  rw [AdminCall.idle] at hidle
  rw [ModelRepo.createModel, if_pos hidle] at h
  cases h

theorem renameModel_idle {id : ℤ} {name : String} {u : Unit}
    (h : ModelRepo.renameModel id name db = .ok (u, db'))
    (hidle : (AdminCall.updateModel id name).idle db = true) : db' = db := by
  rw [ModelRepo.renameModel] at h
  by_cases hrow : (db.models.rows.all fun m => m.id != id) = true
  · rw [if_pos hrow] at h
    cases h
  · rw [if_neg hrow] at h
    by_cases hname : (db.models.rows.any fun m => m.id != id && m.canonicalName == name) = true
    · rw [if_pos hname] at h
      cases h
    · rw [if_neg hname] at h
      rw [AdminCall.idle, Bool.or_eq_true] at hidle
      have hsame := List.all_eq_true.mp (hidle.resolve_left hname)
      cases h
      rw [Table.update_eq_self]
      intro m hm hid
      rw [beq_iff_eq] at hid
      have hn : m.canonicalName = name := by simpa [hid] using hsame m hm
      rw [ModelRow.renamed, ← hn]

theorem deleteModel_idle {id : ℤ} {u : Unit} (h : ModelRepo.deleteModel id db = .ok (u, db'))
    (hidle : (AdminCall.deleteModel id).idle db = true) : db' = db := by
  rw [ModelRepo.deleteModel] at h
  by_cases hrow : (db.models.rows.all fun m => m.id != id) = true
  · rw [if_pos hrow] at h
    cases h
    rfl
  · rw [if_neg hrow] at h
    rw [AdminCall.idle, Bool.or_assoc, Bool.or_eq_true] at hidle
    rw [if_pos (hidle.resolve_left hrow)] at h
    cases h

/-! ### What a handler leaves -/

variable {s s' : AppState}

/-- The state after a handler that has succeeded: the snapshot is gone, or it is the one that was
there and the database has changed only where the handler keeps the cache and is not idle. -/
def AdminCall.Leaves (call : AdminCall) (s s' : AppState) : Prop :=
  s'.cache = none ∨ s'.cache = s.cache ∧ s'.normalizer = s.normalizer ∧
    (call.keepsCache = false ∨ call.idle s.db = true → s'.db = s.db)

namespace AdminCall

theorem leaves_of_dropping {α : Type} {body : AdminM α} {reply : α → Foundations.Json}
    {r : Foundations.Json} {call : AdminCall}
    (h : replying (droppingCache body) reply s = .ok (r, s')) : call.Leaves s s' := by
  obtain ⟨a, h, _⟩ := replying_ok.mp h
  obtain ⟨db, _, rfl⟩ := droppingCache_ok.mp h
  exact .inl rfl

theorem leaves_of_keeping {α : Type} {body : AdminM α} {reply : α → Foundations.Json}
    {r : Foundations.Json} {call : AdminCall} (hkeeps : call.keepsCache = true)
    (h : replying (keepingCache body) reply s = .ok (r, s'))
    (hidle : call.idle s.db = true → ∀ a db', body s.db = .ok (a, db') → db' = s.db) :
    call.Leaves s s' := by
  obtain ⟨a, h, _⟩ := replying_ok.mp h
  obtain ⟨db, hb, rfl⟩ := keepingCache_ok.mp h
  refine .inr ⟨rfl, rfl, ?_⟩
  rintro (hk | hi)
  · rw [hkeeps] at hk
    cases hk
  · exact hidle hi a db hb

/-- **What a handler leaves**, handler by handler. -/
theorem handle_cases {lower : String → String} {rank : String → ℕ}
    {evaluator : BillingExpr.Evaluator} {call : AdminCall} {r : Foundations.Json}
    (h : call.handle lower rank evaluator s = .ok (r, s')) : call.Leaves s s' := by
  cases call <;> rw [handle] at h
  case createChannel p =>
    refine leaves_of_keeping rfl h fun hi a db' hb => ?_
    exact createChannelFull_idle (lift_ok.mp hb) hi
  case updateChannel id p =>
    refine leaves_of_keeping rfl h fun hi a db' hb => ?_
    exact updateChannel_idle (lift_ok.mp hb) hi
  case deleteChannel id =>
    refine leaves_of_keeping rfl h fun hi a db' hb => ?_
    exact deleteChannel_idle (lift_ok.mp hb) hi
  case resetKeyQuota channelId keyId =>
    refine leaves_of_keeping rfl h fun hi a db' hb => ?_
    exact resetKeyQuota_idle (lift_ok.mp hb) hi
  case createModel name =>
    refine leaves_of_keeping rfl h fun hi a db' hb => ?_
    simp only [bind_ok, get_ok, refuseIf_ok, lift_ok, pure_ok] at hb
    obtain ⟨_, _, hget, _, _, ⟨_, hguard⟩, id, db₂, hcreate, hr⟩ := hb
    cases hget
    cases hguard
    cases hr
    exact createModel_idle hcreate hi
  case updateModel id name =>
    refine leaves_of_keeping rfl h fun hi a db' hb => ?_
    simp only [bind_ok, get_ok, refuseIf_ok, lift_ok] at hb
    obtain ⟨_, _, hget, _, _, ⟨_, hguard⟩, hrename⟩ := hb
    cases hget
    cases hguard
    exact renameModel_idle hrename hi
  case deleteModel id =>
    refine leaves_of_keeping rfl h fun hi a db' hb => ?_
    exact deleteModel_idle (lift_ok.mp hb) hi
  case addDiscoveredModels channelId models =>
    obtain ⟨n, hn, _⟩ := replying_ok.mp h
    rw [addDiscoveredModelsHandler] at hn
    by_cases hempty : cleanNames models = []
    · -- Without a name the handler keeps the snapshot, and has changed nothing.
      rw [if_pos hempty] at hn
      cases hn
      exact .inr ⟨rfl, rfl, fun _ => rfl⟩
    · rw [if_neg hempty] at hn
      obtain ⟨db, _, rfl⟩ := droppingCache_ok.mp hn
      exact .inl rfl
  case reload =>
    obtain ⟨_, h, _⟩ := replying_ok.mp h
    cases h
    exact .inl rfl
  all_goals exact leaves_of_dropping h

end AdminCall

/-! ### Coherent runs -/

variable {lib : Libraries}

/-- The next request gets the snapshot the database gives at this moment, and the names its
normalizer then resolves are those of the database. -/
def AppState.Coherent (lib : Libraries) (s : AppState) : Prop :=
  ∀ rank, (ConfigCache.get lib.lower rank s).1 = loadAll s.db ∧
    ∃ rank', (ConfigCache.get lib.lower rank s).2.normalizer =
      Normalizer.reload lib.lower rank' (loadAliasMapping s.db)

/-- Without a snapshot the next request loads one. -/
theorem AppState.coherent_of_none (h : s.cache = none) : s.Coherent lib := by
  intro rank
  rw [ConfigCache.get, h]
  exact ⟨rfl, rank, rfl⟩

theorem AppState.coherent_of_some {d : CacheData} (h : s.cache = some d) :
    s.Coherent lib ↔ d = loadAll s.db ∧
      ∃ rank, s.normalizer = Normalizer.reload lib.lower rank (loadAliasMapping s.db) := by
  have hget : ∀ rank, ConfigCache.get lib.lower rank s = (d, s) := by
    intro rank
    rw [ConfigCache.get, h]
  rw [Coherent]
  simp only [hget]
  exact ⟨fun hc => hc fun _ => 0, fun hc _ => hc⟩

/-- Coherence depends on the snapshot, the names and the database. -/
theorem AppState.Coherent.congr (h : s.Coherent lib) (hcache : s'.cache = s.cache)
    (hnames : s'.normalizer = s.normalizer) (hdb : s'.db = s.db) : s'.Coherent lib := by
  cases hs : s.cache with
  | none => exact coherent_of_none (hcache.trans hs)
  | some d =>
    rw [coherent_of_some (hcache.trans hs), hnames, hdb]
    exact (coherent_of_some hs).mp h

/-- The events of the sequential use of the administration. -/
def Event.configures : Event → Bool
  | .request _ => true
  | .admin _ _ => true
  | .elapse _ => true
  | _ => false

/-- A handler that keeps the cache runs only where there is no snapshot, or changes nothing. -/
def Event.Refreshes (s : AppState) : Event → Prop
  | .admin c _ => s.cache = none ∨ c.keepsCache = false ∨ c.idle s.db = true
  | e => e.configures = true

/-- One event of this kind keeps the configuration coherent. -/
theorem AppState.Coherent.step {e : Event} (h : s.Coherent lib) (he : e.Refreshes s)
    (hstep : s.step lib e = some s') : s'.Coherent lib := by
  cases e with
  | request chance =>
    have hget : (ConfigCache.get lib.lower chance.rank s).2 = s' := Option.some.inj hstep
    cases hc : s.cache with
    | none =>
      rw [ConfigCache.get, hc] at hget
      rw [← hget, coherent_of_some rfl]
      exact ⟨rfl, chance.rank, rfl⟩
    | some d =>
      rw [ConfigCache.get, hc] at hget
      rw [← hget]
      exact h
  | admin call chance =>
    rcases step_admin hstep with rfl | ⟨body, hok⟩
    · exact h
    · rcases AdminCall.handle_cases hok with hnone | ⟨hcache, hnames, hdb⟩
      · exact coherent_of_none hnone
      · rcases he with hnone | he
        · exact coherent_of_none (hcache.trans hnone)
        · exact h.congr hcache hnames (hdb he)
  | elapse duration =>
    cases hstep
    exact h.congr rfl rfl rfl
  | call a chance => cases he
  | recover => cases he

/-- **Coherence**: where no handler leaves an outdated snapshot behind, every request sees the
database. -/
theorem AppState.coherent_run {es : List Event} (h : s.Coherent lib)
    (hrun : Machine.run (AppState.step lib) s es = some s')
    (halong : Machine.Along (AppState.step lib) (fun s e => e.Refreshes s) s es) :
    s'.Coherent lib :=
  Machine.run_invariant (fun _ _ _ he hs hstep => hs.step he hstep) hrun halong h

/-! ### An outdated snapshot -/

/-- A database with a channel. -/
def channelDb : Db where
  channels := ⟨[⟨1, "main", .openaiCompatible, "http://main", "default"⟩], List.nodup_singleton _⟩

/-- Lower case for the letters of ASCII, and no pricing expressions. -/
def asciiLibraries : Libraries := ⟨Text.toAsciiLower, fun _ _ => .error "no expressions"⟩

/-- Entries in the order they are held in, and draws that fall on the first. -/
def firstChance : Chance := ⟨fun _ => 0, fun _ => 0⟩

/-- A server over this database. -/
def channelServer : AppState := .startup (fun _ => none) channelDb 0

/-- A request loads the snapshot, an administrator deletes the channel: the next request still
sees it. -/
theorem AppState.stale_after_delete :
    ¬ ∀ (lib : Libraries) (parseDbDatetime : String → Option Calendar.Instant) (db : Db)
      (now : Calendar.Instant) (es : List Event) (s' : AppState),
      (∀ e ∈ es, e.configures = true) →
      Machine.run (AppState.step lib) (.startup parseDbDatetime db now) es = some s' →
      s'.Coherent lib := by
  intro h
  have hrun := h asciiLibraries (fun _ => none) channelDb 0
    [.request firstChance, .admin (.deleteChannel 1) firstChance] _ (by decide) rfl
  have hchannels := congrArg CacheData.channels (hrun firstChance.rank).1
  exact absurd hchannels (by decide)

/-- The snapshot is dropped before a model is created, and the model is not created twice. -/
def coherentEvents : List Event :=
  [.request firstChance, .admin (.reorderKeys 1 []) firstChance,
    .admin (.createModel "gpt-4") firstChance, .request firstChance,
    .admin (.createModel "gpt-4") firstChance]

theorem AppState.coherent_run_sample :
    ∃ s', Machine.run (AppState.step asciiLibraries) channelServer coherentEvents = some s' ∧
      s'.Coherent asciiLibraries := by
  obtain ⟨s', hrun⟩ : ∃ s', Machine.run (AppState.step asciiLibraries) channelServer
      coherentEvents = some s' := ⟨_, rfl⟩
  refine ⟨s', hrun, AppState.coherent_run (AppState.coherent_of_none rfl) hrun ?_⟩
  refine ⟨rfl, fun s₁ h₁ => ⟨.inr (.inl rfl), fun s₂ h₂ => ⟨?_, fun s₃ h₃ => ⟨rfl, fun s₄ h₄ =>
    ⟨?_, fun s₅ h₅ => trivial⟩⟩⟩⟩⟩
  · cases h₁
    cases h₂
    exact .inl rfl
  · cases h₁
    cases h₂
    cases h₃
    cases h₄
    exact .inr (.inr (by decide))

end Chennix
