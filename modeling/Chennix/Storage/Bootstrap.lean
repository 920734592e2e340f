import Chennix.Foundations.Transaction
import Chennix.Storage.Keys
import Chennix.Storage.Models

/-!
# The bootstrap import

A server that finds no channel in its database imports a configuration file: models, channels, keys
and bindings, in one transaction. The file is given here as what its parser makes of it.

## Main definitions

* `BootstrapConfig` — the contents of the file
* `importConfig` — the transaction
* `BootstrapConfig.Importable` — names that are new, and names that are there

## Main results

* `importConfig_ok_iff` — what files a database takes in
* `importConfig_keys` — the keys that come with a file
-/

namespace Chennix

open Foundations

structure ModelEntry where
  canonicalName : String

structure ChannelEntry where
  name : String
  provider : String
  baseUrl : String

structure KeyEntry where
  /-- The name of its channel. -/
  channel : String
  apiKey : String
  label : Option String
  costTier : String := "paid"
  keyPriority : ℤ := 100
  pricePer1kTokens : Option Float
  freeQuota : Option UInt64
  quotaResetPeriod : Option String

structure BindingEntry where
  /-- The canonical name of its model. -/
  model : String
  /-- The name of its channel. -/
  channel : String
  upstreamModelName : String
  priority : ℤ := 100

/-- The contents of a configuration file. -/
structure BootstrapConfig where
  models : List ModelEntry := []
  channels : List ChannelEntry := []
  keys : List KeyEntry := []
  bindings : List BindingEntry := []

namespace Bootstrap

def importModel (m : ModelEntry) : Stmt Unit := do
  let _ ← ModelRepo.createModel m.canonicalName

def providerOf (provider : String) : ChannelProvider :=
  if provider = "anthropic" then .anthropic else .openaiCompatible

def importChannel (c : ChannelEntry) : Stmt Unit := do
  let _ ← ChannelRepo.createChannel c.name (providerOf c.provider) c.baseUrl

/-- The row that is asked for, or a configuration error. -/
def orFail {α : Type} (what name : String) : Option α → Stmt α
  | some a => return a
  | none => throw (.config s!"{what} not found: {name}")

def costTierOf (costTier : String) : CostTier := if costTier = "free" then .free else .paid

def importKey (k : KeyEntry) : Stmt Unit := do
  let channel ← orFail "channel" k.channel (ChannelRepo.getChannelByName k.channel (← get))
  let _ ← KeyRepo.createKey channel.id k.apiKey k.label (costTierOf k.costTier) k.keyPriority
    k.pricePer1kTokens k.freeQuota k.quotaResetPeriod

/-- With the binding comes its small model. -/
def importBinding (b : BindingEntry) : Stmt Unit := do
  let model ← orFail "model" b.model (ModelRepo.getModelByName b.model (← get))
  let channel ← orFail "channel" b.channel (ChannelRepo.getChannelByName b.channel (← get))
  ModelRepo.addBinding model.id channel.id b.upstreamModelName b.priority
  DiscoveredModelRepo.upsertDiscoveredModel channel.id b.upstreamModelName false
    (some "bootstrap") none

end Bootstrap

open Bootstrap in
/-- `import_from_yaml`, of a file that could be read and parsed. A failure rolls everything
back. -/
def importConfig (config : BootstrapConfig) : Stmt Unit := do
  config.models.forM importModel
  config.channels.forM importChannel
  config.keys.forM importKey
  config.bindings.forM importBinding

/-! ### What a database takes in -/

namespace Db

def modelNames (db : Db) : List String := db.models.rows.map ModelRow.canonicalName

def channelNames (db : Db) : List String := db.channels.rows.map ChannelConfig.name

end Db

/-- The models and channels of a file are new, and its keys and bindings are of models and channels
that are in the file or in the database. -/
structure BootstrapConfig.Importable (config : BootstrapConfig) (db : Db) : Prop where
  models : (config.models.map ModelEntry.canonicalName).Nodup
  newModels : ∀ m ∈ config.models, m.canonicalName ∉ db.modelNames
  channels : (config.channels.map ChannelEntry.name).Nodup
  newChannels : ∀ c ∈ config.channels, c.name ∉ db.channelNames
  keys : ∀ k ∈ config.keys, k.channel ∈ db.channelNames ++ config.channels.map ChannelEntry.name
  bindings : ∀ b ∈ config.bindings,
    b.model ∈ db.modelNames ++ config.models.map ModelEntry.canonicalName ∧
      b.channel ∈ db.channelNames ++ config.channels.map ChannelEntry.name

namespace Bootstrap

open Transaction

variable {db db' : Db}

theorem orFail_ok {α : Type} {what name : String} {o : Option α} {r : α × Db} :
    orFail what name o db = .ok r ↔ ∃ a, o = some a ∧ r = (a, db) := by
  cases o with
  | none =>
    constructor
    · intro h
      cases h
    · rintro ⟨_, h, _⟩
      cases h
  | some a =>
    rw [orFail, pure_ok]
    constructor
    · intro h
      exact ⟨a, rfl, h⟩
    · rintro ⟨_, h, hr⟩
      cases h
      exact hr

theorem getChannelByName_isSome {name : String} :
    (ChannelRepo.getChannelByName name db).isSome ↔ name ∈ db.channelNames := by
  rw [ChannelRepo.getChannelByName, List.find?_isSome, Db.channelNames, List.mem_map]
  simp only [beq_iff_eq]

theorem getModelByName_isSome {name : String} :
    (ModelRepo.getModelByName name db).isSome ↔ name ∈ db.modelNames := by
  rw [ModelRepo.getModelByName, List.find?_isSome, Db.modelNames, List.mem_map]
  simp only [beq_iff_eq]

theorem importModel_ok {m : ModelEntry} : importModel m db = .ok ((), db') ↔
    m.canonicalName ∉ db.modelNames ∧ db' = { db with
      models := db.models.insertNew (fun id => ⟨id, m.canonicalName, "priority"⟩)
        fun _ => rfl } := by
  have hany : (db.models.rows.any fun r => r.canonicalName == m.canonicalName) = true ↔
      m.canonicalName ∈ db.modelNames := by
    rw [List.any_eq_true, Db.modelNames, List.mem_map]
    simp only [beq_iff_eq]
  rw [importModel, bind_ok]
  simp only [pure_ok, ModelRepo.createModel]
  by_cases hname : m.canonicalName ∈ db.modelNames
  · rw [if_pos (hany.mpr hname)]
    constructor
    · rintro ⟨_, _, h, _⟩
      cases h
    · intro h
      exact absurd hname h.1
  · rw [if_neg fun h => hname (hany.mp h)]
    constructor
    · rintro ⟨_, _, h, hr⟩
      cases h
      cases hr
      exact ⟨hname, rfl⟩
    · rintro ⟨_, rfl⟩
      exact ⟨_, _, rfl, rfl⟩

theorem importChannel_ok {c : ChannelEntry} : importChannel c db = .ok ((), db') ↔
    c.name ∉ db.channelNames ∧ db' = { db with
      channels := db.channels.insertNew
        (fun id => ⟨id, c.name, providerOf c.provider, c.baseUrl, "default"⟩) fun _ => rfl } := by
  have hany : (db.channels.rows.any fun r => r.name == c.name) = true ↔
      c.name ∈ db.channelNames := by
    rw [List.any_eq_true, Db.channelNames, List.mem_map]
    simp only [beq_iff_eq]
  rw [importChannel, bind_ok]
  simp only [pure_ok, ChannelRepo.createChannel, ChannelRepo.createChannelFull]
  by_cases hname : c.name ∈ db.channelNames
  · rw [if_pos (hany.mpr hname)]
    constructor
    · rintro ⟨_, _, h, _⟩
      cases h
    · intro h
      exact absurd hname h.1
  · rw [if_neg fun h => hname (hany.mp h)]
    constructor
    · rintro ⟨_, _, h, hr⟩
      cases h
      cases hr
      exact ⟨hname, rfl⟩
    · rintro ⟨_, rfl⟩
      exact ⟨_, _, rfl, rfl⟩

/-- A channel that is found by its name is found by its id. -/
theorem find?_of_getChannelByName {name : String} {c : ChannelConfig}
    (h : ChannelRepo.getChannelByName name db = some c) : db.channels.find? c.id = some c :=
  Table.find?_key (List.mem_of_find?_eq_some h)

theorem find?_of_getModelByName {name : String} {m : ModelRow}
    (h : ModelRepo.getModelByName name db = some m) : db.models.find? m.id = some m :=
  Table.find?_key (List.mem_of_find?_eq_some h)

theorem importKey_ok {k : KeyEntry} (h : importKey k db = .ok ((), db')) : ∃ c T,
    ChannelRepo.getChannelByName k.channel db = some c ∧ db' = { db with channelKeys := T } ∧
      db'.credentials = db.credentials ++ [(c.id, k.apiKey)] := by
  rw [importKey] at h
  simp only [bind_ok, get_ok, orFail_ok, pure_ok] at h
  obtain ⟨_, _, hget, c, _, ⟨_, hc, hr⟩, _, _, hcreate, hr'⟩ := h
  cases hget
  cases hr
  cases hr'
  rw [KeyRepo.createKey] at hcreate
  split at hcreate <;> cases hcreate
  refine ⟨c, _, hc, rfl, ?_⟩
  show List.map _ (_ ++ [_]) = _
  rw [List.map_append]
  rfl

theorem importKey_succeeds {k : KeyEntry} :
    (∃ db', importKey k db = .ok ((), db')) ↔ k.channel ∈ db.channelNames := by
  rw [← getChannelByName_isSome]
  constructor
  · rintro ⟨_, h⟩
    obtain ⟨c, _, hc, _⟩ := importKey_ok h
    rw [hc]
    rfl
  · intro h
    obtain ⟨c, hc⟩ := Option.isSome_iff_exists.mp h
    obtain ⟨id, db', hcreate⟩ := KeyRepo.createKey_succeeds k.apiKey k.label
      (costTierOf k.costTier) k.keyPriority k.pricePer1kTokens k.freeQuota k.quotaResetPeriod
      (Option.isSome_of_mem (find?_of_getChannelByName hc))
    rw [importKey]
    simp only [bind_ok, get_ok, orFail_ok, pure_ok]
    exact ⟨db', _, _, rfl, c, _, ⟨c, hc, rfl⟩, id, db', hcreate, rfl⟩

/-- The two statements of a binding. -/
theorem importBinding_cases {b : BindingEntry} (h : importBinding b db = .ok ((), db')) :
    ∃ m c db₁, ModelRepo.getModelByName b.model db = some m ∧
      ChannelRepo.getChannelByName b.channel db = some c ∧
      ModelRepo.addBinding m.id c.id b.upstreamModelName b.priority db = .ok ((), db₁) ∧
      DiscoveredModelRepo.upsertDiscoveredModel c.id b.upstreamModelName false (some "bootstrap")
        none db₁ = .ok ((), db') := by
  rw [importBinding] at h
  simp only [bind_ok, get_ok, orFail_ok] at h
  obtain ⟨_, _, hget, m, _, ⟨_, hm, hr⟩, _, _, hget', c, _, ⟨_, hc, hr'⟩, _, db₁, hadd, hupsert⟩ :=
    h
  cases hget
  cases hr
  cases hget'
  cases hr'
  exact ⟨m, c, db₁, hm, hc, hadd, hupsert⟩

theorem importBinding_ok {b : BindingEntry} (h : importBinding b db = .ok ((), db')) :
    b.model ∈ db.modelNames ∧ b.channel ∈ db.channelNames ∧
      ∃ T U, db' = { db with modelChannels := T, discoveredModels := U } := by
  obtain ⟨m, c, db₁, hm, hc, hadd, hupsert⟩ := importBinding_cases h
  obtain ⟨T, rfl⟩ := ModelRepo.addBindingWithWeight_frame hadd
  obtain ⟨U, rfl⟩ := DiscoveredModelRepo.upsert_frame
    (f := DiscoveredModel.discovered _ _ _) hupsert
  refine ⟨?_, ?_, T, U, rfl⟩
  · rw [← getModelByName_isSome, hm]
    rfl
  · rw [← getChannelByName_isSome, hc]
    rfl

/-- Where model and channel are there, nothing stands in the way of a binding. -/
theorem importBinding_succeeds {b : BindingEntry} :
    (∃ db', importBinding b db = .ok ((), db')) ↔
      b.model ∈ db.modelNames ∧ b.channel ∈ db.channelNames := by
  constructor
  · rintro ⟨_, h⟩
    obtain ⟨hm, hc, _⟩ := importBinding_ok h
    exact ⟨hm, hc⟩
  · rw [← getModelByName_isSome, ← getChannelByName_isSome]
    rintro ⟨hm, hc⟩
    obtain ⟨m, hm⟩ := Option.isSome_iff_exists.mp hm
    obtain ⟨c, hc⟩ := Option.isSome_iff_exists.mp hc
    obtain ⟨db₁, hadd⟩ := ModelRepo.addBindingWithWeight_succeeds b.upstreamModelName b.priority 1
      (Option.isSome_of_mem (find?_of_getModelByName hm))
      (Option.isSome_of_mem (find?_of_getChannelByName hc))
    obtain ⟨T, rfl⟩ := ModelRepo.addBindingWithWeight_frame hadd
    obtain ⟨db', hupsert⟩ : ∃ db', DiscoveredModelRepo.upsertDiscoveredModel c.id
        b.upstreamModelName false (some "bootstrap") none { db with modelChannels := T } =
          .ok ((), db') :=
      DiscoveredModelRepo.upsert_succeeds b.upstreamModelName
        (Option.isSome_of_mem (find?_of_getChannelByName hc))
    rw [importBinding]
    simp only [bind_ok, get_ok, orFail_ok]
    exact ⟨db', _, _, rfl, m, _, ⟨m, hm, rfl⟩, _, _, rfl, c, _, ⟨c, hc, rfl⟩, _, _, hadd, hupsert⟩

/-! ### The loops -/

section Loops

variable {config : BootstrapConfig}

theorem modelNames_importModel {m : ModelEntry} (h : importModel m db = .ok ((), db')) :
    db'.modelNames = db.modelNames ++ [m.canonicalName] := by
  obtain ⟨_, rfl⟩ := importModel_ok.mp h
  exact List.map_append

theorem channelNames_importChannel {c : ChannelEntry} (h : importChannel c db = .ok ((), db')) :
    db'.channelNames = db.channelNames ++ [c.name] := by
  obtain ⟨_, rfl⟩ := importChannel_ok.mp h
  exact List.map_append

theorem importModels_succeed {ms : List ModelEntry} :
    (∃ db', ms.forM importModel db = .ok ((), db')) ↔
      (ms.map ModelEntry.canonicalName).Nodup ∧ ∀ m ∈ ms, m.canonicalName ∉ db.modelNames := by
  refine forM_ok_of_fresh (fun m db => ?_) fun m db db' h => modelNames_importModel h
  simp only [importModel_ok, exists_and_left, exists_eq, and_true]

theorem importChannels_succeed {cs : List ChannelEntry} :
    (∃ db', cs.forM importChannel db = .ok ((), db')) ↔
      (cs.map ChannelEntry.name).Nodup ∧ ∀ c ∈ cs, c.name ∉ db.channelNames := by
  refine forM_ok_of_fresh (fun c db => ?_) fun c db db' h => channelNames_importChannel h
  simp only [importChannel_ok, exists_and_left, exists_eq, and_true]

theorem importKeys_succeed {ks : List KeyEntry} :
    (∃ db', ks.forM importKey db = .ok ((), db')) ↔ ∀ k ∈ ks, k.channel ∈ db.channelNames := by
  refine forM_ok_of_stable (fun k db => importKey_succeeds) fun k db db' h k' => ?_
  obtain ⟨_, _, _, rfl, _⟩ := importKey_ok h
  exact Iff.rfl

theorem importBindings_succeed {bs : List BindingEntry} :
    (∃ db', bs.forM importBinding db = .ok ((), db')) ↔
      ∀ b ∈ bs, b.model ∈ db.modelNames ∧ b.channel ∈ db.channelNames := by
  refine forM_ok_of_stable (fun b db => importBinding_succeeds) fun b db db' h b' => ?_
  obtain ⟨_, _, _, _, rfl⟩ := importBinding_ok h
  exact Iff.rfl

/-- Models leave the other tables alone. -/
theorem importModels_frame {ms : List ModelEntry} (h : ms.forM importModel db = .ok ((), db')) :
    db'.modelNames = db.modelNames ++ ms.map ModelEntry.canonicalName ∧
      ∃ T, db' = { db with models := T } := by
  constructor
  · exact forM_append (P := fun _ => True) (fun _ _ _ _ _ => id)
      (fun m db db' _ h => modelNames_importModel h) h trivial
  · refine Keeps.forM (I := fun db' => ∃ T, db' = { db with models := T }) ?_ _ _ _ h ⟨_, rfl⟩
    rintro m _ db₁ _ db₂ h₁ ⟨T, rfl⟩
    obtain ⟨_, rfl⟩ := importModel_ok.mp h₁
    exact ⟨_, rfl⟩

/-- New channels come after the ones that are there. -/
theorem importChannels_frame {cs : List ChannelEntry}
    (h : cs.forM importChannel db = .ok ((), db')) :
    db'.channelNames = db.channelNames ++ cs.map ChannelEntry.name ∧
      ∃ T, db.channels.rows <+: T.rows ∧ db' = { db with channels := T } := by
  constructor
  · exact forM_append (P := fun _ => True) (fun _ _ _ _ _ => id)
      (fun c db db' _ h => channelNames_importChannel h) h trivial
  · refine Keeps.forM (I := fun db' => ∃ T, db.channels.rows <+: T.rows ∧
      db' = { db with channels := T }) ?_ _ _ _ h ⟨_, List.prefix_refl _, rfl⟩
    rintro c _ db₁ _ db₂ h₁ ⟨T, hT, rfl⟩
    obtain ⟨_, rfl⟩ := importChannel_ok.mp h₁
    exact ⟨_, hT.trans (List.prefix_append _ _), rfl⟩

/-- The id of a channel, by its name. -/
def channelId (db : Db) (name : String) : ℤ :=
  ((ChannelRepo.getChannelByName name db).map ChannelConfig.id).getD 0

/-- Keys come after the ones that are there, in the order of the file. -/
theorem importKeys_frame {ks : List KeyEntry} (h : ks.forM importKey db = .ok ((), db')) :
    db'.credentials = db.credentials ++ ks.map (fun k => (channelId db k.channel, k.apiKey)) ∧
      ∃ T, db' = { db with channelKeys := T } := by
  have hkeeps : ∀ k, Keeps (fun db' => ∃ T, db' = { db with channelKeys := T }) (importKey k) := by
    rintro k db₁ _ db₂ h₁ ⟨T, rfl⟩
    obtain ⟨_, _, _, rfl, _⟩ := importKey_ok h₁
    exact ⟨_, rfl⟩
  constructor
  · refine forM_append hkeeps ?_ h ⟨_, rfl⟩
    rintro k db₁ db₂ ⟨T, rfl⟩ h₁
    obtain ⟨c, _, hc, _, happend⟩ := importKey_ok h₁
    rw [happend, channelId, show ChannelRepo.getChannelByName k.channel db = some c from hc]
    rfl
  · exact Keeps.forM (fun k _ => hkeeps k) _ _ _ h ⟨_, rfl⟩

theorem importBindings_frame {bs : List BindingEntry}
    (h : bs.forM importBinding db = .ok ((), db')) :
    ∃ T U, db' = { db with modelChannels := T, discoveredModels := U } := by
  refine Keeps.forM (I := fun db' => ∃ T U, db' = { db with
    modelChannels := T, discoveredModels := U }) ?_ _ _ _ h ⟨_, _, rfl⟩
  rintro b _ db₁ _ db₂ h₁ ⟨T, U, rfl⟩
  obtain ⟨_, _, _, _, rfl⟩ := importBinding_ok h₁
  exact ⟨_, _, rfl⟩

end Loops

end Bootstrap

open Transaction in
theorem importConfig_ok {config : BootstrapConfig} {db db' : Db} :
    importConfig config db = .ok ((), db') ↔ ∃ db₁ db₂ db₃,
      config.models.forM Bootstrap.importModel db = .ok ((), db₁) ∧
      config.channels.forM Bootstrap.importChannel db₁ = .ok ((), db₂) ∧
      config.keys.forM Bootstrap.importKey db₂ = .ok ((), db₃) ∧
      config.bindings.forM Bootstrap.importBinding db₃ = .ok ((), db') := by
  rw [importConfig]
  simp only [bind_ok]
  constructor
  · rintro ⟨_, db₁, h₁, _, db₂, h₂, _, db₃, h₃, h₄⟩
    exact ⟨db₁, db₂, db₃, h₁, h₂, h₃, h₄⟩
  · rintro ⟨db₁, db₂, db₃, h₁, h₂, h₃, h₄⟩
    exact ⟨(), db₁, h₁, (), db₂, h₂, (), db₃, h₃, h₄⟩

open Bootstrap in
/-- **What files a database takes in**: the names of the file are new, and the names it refers to
are there. -/
theorem importConfig_ok_iff {config : BootstrapConfig} {db : Db} :
    (∃ db', importConfig config db = .ok ((), db')) ↔ config.Importable db := by
  simp only [importConfig_ok]
  constructor
  · rintro ⟨db', db₁, db₂, db₃, h₁, h₂, h₃, h₄⟩
    obtain ⟨hnames₁, T, rfl⟩ := importModels_frame h₁
    obtain ⟨hnames₂, U, _, rfl⟩ := importChannels_frame h₂
    obtain ⟨_, V, rfl⟩ := importKeys_frame h₃
    obtain ⟨hmodels, hnewModels⟩ := importModels_succeed.mp ⟨_, h₁⟩
    obtain ⟨hchannels, hnewChannels⟩ := importChannels_succeed.mp ⟨_, h₂⟩
    refine ⟨hmodels, hnewModels, hchannels, hnewChannels, fun k hk => ?_, fun b hb => ?_⟩
    · exact hnames₂ ▸ importKeys_succeed.mp ⟨_, h₃⟩ k hk
    · obtain ⟨hm, hc⟩ := importBindings_succeed.mp ⟨_, h₄⟩ b hb
      exact ⟨hnames₁ ▸ hm, hnames₂ ▸ hc⟩
  · intro h
    obtain ⟨db₁, h₁⟩ := importModels_succeed.mpr ⟨h.models, h.newModels⟩
    obtain ⟨hmodels, T, hdb₁⟩ := importModels_frame h₁
    have hchannels₁ : db₁.channelNames = db.channelNames := by rw [hdb₁]; rfl
    obtain ⟨db₂, h₂⟩ := importChannels_succeed.mpr ⟨h.channels, hchannels₁ ▸ h.newChannels⟩
    obtain ⟨hchannels, U, _, hdb₂⟩ := importChannels_frame h₂
    rw [hchannels₁] at hchannels
    have hmodels₂ : db₂.modelNames = db₁.modelNames := by rw [hdb₂]; rfl
    obtain ⟨db₃, h₃⟩ := importKeys_succeed.mpr (hchannels.symm ▸ h.keys)
    obtain ⟨_, V, hdb₃⟩ := importKeys_frame h₃
    have hmodels₃ : db₃.modelNames = db.modelNames ++ _ :=
      (show db₃.modelNames = db₂.modelNames by rw [hdb₃]; rfl).trans (hmodels₂.trans hmodels)
    have hchannels₃ : db₃.channelNames = db.channelNames ++ _ :=
      (show db₃.channelNames = db₂.channelNames by rw [hdb₃]; rfl).trans hchannels
    obtain ⟨db', h₄⟩ :=
      importBindings_succeed.mpr (hmodels₃.symm ▸ hchannels₃.symm ▸ h.bindings)
    exact ⟨db', db₁, db₂, db₃, h₁, h₂, h₃, h₄⟩

open Bootstrap in
/-- The keys that come with a file, and the channels they are of. -/
theorem importConfig_keys {config : BootstrapConfig} {db db' : Db}
    (h : importConfig config db = .ok ((), db')) :
    db'.credentials = db.credentials ++
        config.keys.map (fun k => (channelId db' k.channel, k.apiKey)) ∧
      (∀ k ∈ config.keys, (ChannelRepo.getChannelByName k.channel db').isSome) ∧
      db.channels.rows <+: db'.channels.rows := by
  obtain ⟨db₁, db₂, db₃, h₁, h₂, h₃, h₄⟩ := importConfig_ok.mp h
  obtain ⟨_, T, rfl⟩ := importModels_frame h₁
  obtain ⟨_, U, hfirst, rfl⟩ := importChannels_frame h₂
  obtain ⟨hkeys, V, rfl⟩ := importKeys_frame h₃
  obtain ⟨W, X, rfl⟩ := importBindings_frame h₄
  exact ⟨hkeys, fun k hk => getChannelByName_isSome.mpr (importKeys_succeed.mp ⟨_, h₃⟩ k hk),
    hfirst⟩

end Chennix
