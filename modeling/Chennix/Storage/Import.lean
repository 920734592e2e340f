import Chennix.Foundations.Rollback
import Chennix.Storage.Bootstrap

/-!
# The import is all or nothing

The import of a configuration file as the engine sees it: a transaction that is begun, a statement
for each row that is looked up or written, and a commit. Each call of the engine may fail. What the
statements do together is `importConfig`; here is what the transaction around them makes of it, and
what the database holds after it.

## Main definitions

* `importFromYaml` — the import, given what fails in the engine
* `Imported` — the contents of the file are in the database, and nothing else changed

## Main results

* `importFromYaml_spec` — an import that succeeds has imported the file, one that fails has changed
  nothing, and what files an engine that does not fail imports
-/

namespace Chennix

open Foundations

namespace Bootstrap

/-! ### The transaction -/

section Statements

-- Which calls of the engine fail.
variable (faults : ℕ → Option ProxyError)

def insertModel (m : ModelEntry) : TxM Db ProxyError Unit := do
  let _ ← statement faults (ModelRepo.createModel m.canonicalName)

def insertChannel (c : ChannelEntry) : TxM Db ProxyError Unit := do
  let _ ← statement faults (ChannelRepo.createChannel c.name (providerOf c.provider) c.baseUrl)

/-- The row that was asked for. -/
def okOrElse {α : Type} (what name : String) : Option α → TxM Db ProxyError α
  | some a => return a
  | none => throw (.config s!"{what} not found: {name}")

def insertKey (k : KeyEntry) : TxM Db ProxyError Unit := do
  let found ← statement faults (query (ChannelRepo.getChannelByName k.channel))
  let channel ← okOrElse "channel" k.channel found
  let _ ← statement faults (KeyRepo.createKey channel.id k.apiKey k.label (costTierOf k.costTier)
    k.keyPriority k.pricePer1kTokens k.freeQuota k.quotaResetPeriod)

def insertBinding (b : BindingEntry) : TxM Db ProxyError Unit := do
  let found ← statement faults (query (ModelRepo.getModelByName b.model))
  let model ← okOrElse "model" b.model found
  let found ← statement faults (query (ChannelRepo.getChannelByName b.channel))
  let channel ← okOrElse "channel" b.channel found
  statement faults (ModelRepo.addBinding model.id channel.id b.upstreamModelName b.priority)
  statement faults (DiscoveredModelRepo.upsertDiscoveredModel channel.id b.upstreamModelName false
    (some "bootstrap") none)

/-- The four phases of the import. -/
def insertEntries (config : BootstrapConfig) : TxM Db ProxyError Unit := do
  config.models.forM (insertModel faults)
  config.channels.forM (insertChannel faults)
  config.keys.forM (insertKey faults)
  config.bindings.forM (insertBinding faults)

end Statements

end Bootstrap

/-- What the engine reports is a storage error. -/
def storageErrors (engine : ℕ → Option String) (n : ℕ) : Option ProxyError :=
  (engine n).map ProxyError.storage

/-- `import_from_yaml`, given what fails in the engine and what the file is read as. -/
def importFromYaml (engine : ℕ → Option String) (parsed : ProxyResult BootstrapConfig) (db : Db) :
    ProxyResult Unit × Db :=
  match parsed with
  | .error e => (.error e, db)
  | .ok config =>
    transaction (storageErrors engine) (Bootstrap.insertEntries (storageErrors engine) config) db

namespace Bootstrap

variable (faults : ℕ → Option ProxyError)

theorem okOrElse_follows {α : Type} (what name : String) (found : Option α) :
    Follows faults (okOrElse what name found) (orFail what name found) := by
  cases found with
  | none => exact .throw _
  | some a => exact .pure a

theorem insertModel_follows (m : ModelEntry) :
    Follows faults (insertModel faults m) (importModel m) :=
  (Follows.statement _).bind fun _ => .pure ()

theorem insertChannel_follows (c : ChannelEntry) :
    Follows faults (insertChannel faults c) (importChannel c) :=
  (Follows.statement _).bind fun _ => .pure ()

theorem insertKey_follows (k : KeyEntry) : Follows faults (insertKey faults k) (importKey k) := by
  unfold insertKey importKey
  refine .query fun db => ?_
  refine (okOrElse_follows faults "channel" k.channel _).bind fun channel => ?_
  exact (Follows.statement _).bind fun _ => .pure ()

theorem insertBinding_follows (b : BindingEntry) :
    Follows faults (insertBinding faults b) (importBinding b) := by
  unfold insertBinding importBinding
  refine .query fun db => ?_
  refine (okOrElse_follows faults "model" b.model _).bind fun model => ?_
  refine .query fun db => ?_
  refine (okOrElse_follows faults "channel" b.channel _).bind fun channel => ?_
  exact (Follows.statement _).bind fun _ => .statement _

/-- The statements of the transaction, one after the other, are the import. -/
theorem insertEntries_follows (config : BootstrapConfig) :
    Follows faults (insertEntries faults config) (importConfig config) := by
  refine (Follows.forM (insertModel_follows faults) config.models).bind fun _ => ?_
  refine (Follows.forM (insertChannel_follows faults) config.channels).bind fun _ => ?_
  refine (Follows.forM (insertKey_follows faults) config.keys).bind fun _ => ?_
  exact .forM (insertBinding_follows faults) config.bindings

/-! ### What the phases write -/

/-- The rows of a table, and after them new ones, which are as they should be but for their
ids. -/
def Appended {ρ : Type} (unnumbered : ρ → ρ) (rows rows' new : List ρ) : Prop :=
  ∃ added, rows' = rows ++ added ∧ added.map unnumbered = new

theorem Appended.of_appends {ρ : Type} {unnumbered : ρ → ρ} {rows rows' new : List ρ}
    (hbefore : rows <+: rows')
    (hmap : rows'.map unnumbered = rows.map unnumbered ++ new) :
    Appended unnumbered rows rows' new := by
  obtain ⟨added, rfl⟩ := hbefore
  rw [List.map_append] at hmap
  exact ⟨added, rfl, List.append_cancel_left hmap⟩

def modelRow (m : ModelEntry) : ModelRow := ⟨0, m.canonicalName, "priority"⟩

def channelRow (c : ChannelEntry) : ChannelConfig :=
  ⟨0, c.name, providerOf c.provider, c.baseUrl, "default"⟩

def keyRow (db : Db) (k : KeyEntry) : KeyConfig where
  id := 0
  channelId := channelId db k.channel
  apiKey := k.apiKey
  label := k.label
  costTier := costTierOf k.costTier
  keyPriority := k.keyPriority
  pricePer1kTokens := KeyRepo.storedReal k.pricePer1kTokens
  freeQuota := k.freeQuota
  usedQuota := 0
  quotaResetPeriod := k.quotaResetPeriod
  status := .active

/-- The id of a model, by its name. -/
def modelId (db : Db) (name : String) : ℤ :=
  ((ModelRepo.getModelByName name db).map ModelRow.id).getD 0

/-- What an entry binds. -/
def bound (db : Db) (b : BindingEntry) : ℤ × ℤ × String :=
  (modelId db b.model, channelId db b.channel, b.upstreamModelName)

/-- The last entry for a binding. -/
def lastFor (db : Db) (bs : List BindingEntry) (k : ℤ × ℤ × String) : Option BindingEntry :=
  bs.reverse.find? fun b => bound db b = k

/-- The row of a binding after an entry for it: a new one is free, one that is there keeps its
pricing. -/
def boundRow (k : ℤ × ℤ × String) (row : Option ModelChannelRow) :
    Option BindingEntry → Option ModelChannelRow
  | none => row
  | some b =>
    some (((row.getD (.fresh k.1 k.2.1 k.2.2 b.priority 1)).withPriority b.priority).withWeight 1)

/-- The row of a small model after an entry for it. Its quota is left alone. -/
def refreshed (r : DiscoveredModel) : DiscoveredModel := r.discovered false (some "bootstrap") none

/-- Small models that are there are refreshed, those that are not are new, each of them once. -/
def Discovered (pairs : List (ℤ × String)) (rows rows' : List DiscoveredModel) : Prop :=
  ∃ added, rows' = rows.map (fun r => if r.pair ∈ pairs then refreshed r else r) ++ added ∧
    (added.map DiscoveredModel.pair).Nodup ∧
    (∀ p, p ∈ added.map DiscoveredModel.pair ↔
      p ∈ pairs ∧ p ∉ rows.map DiscoveredModel.pair) ∧
    ∀ r ∈ added, r = refreshed (.fresh r.id r.channelId r.rawModelName)

variable {db db' : Db}

open Transaction

/-- Rounds that each append a row append the rows of all entries. -/
theorem forM_appended {ρ β : Type} (rows : Db → List ρ) {unnumbered : ρ → ρ} {row : β → ρ}
    {P : Db → Prop} {f : β → Stmt Unit} {xs : List β} (hkeeps : ∀ x, Keeps P (f x))
    (happend : ∀ x db db', P db → f x db = .ok ((), db') →
      ∃ r, rows db' = rows db ++ [r] ∧ unnumbered r = row x)
    (h : xs.forM f db = .ok ((), db')) (hP : P db) :
    Appended unnumbered (rows db) (rows db') (xs.map row) := by
  refine .of_appends ?_ ?_
  · refine (Keeps.forM (I := fun db' => P db' ∧ rows db <+: rows db') ?_ _ _ _ h
      ⟨hP, List.prefix_refl _⟩).2
    intro x _ db₁ _ db₂ h₁ hI
    obtain ⟨r, hr, _⟩ := happend x db₁ db₂ hI.1 h₁
    exact ⟨hkeeps x db₁ _ db₂ h₁ hI.1, hI.2.trans (hr ▸ List.prefix_append _ _)⟩
  · let columns (db : Db) : List ρ := (rows db).map unnumbered
    have hround : ∀ x db db', P db → f x db = .ok ((), db') →
        columns db' = columns db ++ [row x] := by
      intro x db db' hP h
      obtain ⟨r, hr, hrow⟩ := happend x db db' hP h
      show List.map _ _ = List.map _ _ ++ _
      rw [hr, List.map_append, List.map_singleton, hrow]
    show columns db' = columns db ++ xs.map row
    exact forM_append hkeeps hround h hP

theorem importModels_rows {ms : List ModelEntry} (h : ms.forM importModel db = .ok ((), db')) :
    Appended (fun r => { r with id := 0 }) db.models.rows db'.models.rows (ms.map modelRow) := by
  refine forM_appended (fun db => db.models.rows) (fun _ _ _ _ _ _ => trivial) ?_ h trivial
  intro m db₁ db₂ _ h₁
  obtain ⟨_, rfl⟩ := importModel_ok.mp h₁
  exact ⟨_, rfl, rfl⟩

theorem importChannels_rows {cs : List ChannelEntry}
    (h : cs.forM importChannel db = .ok ((), db')) :
    Appended (fun r => { r with id := 0 }) db.channels.rows db'.channels.rows
      (cs.map channelRow) := by
  refine forM_appended (fun db => db.channels.rows) (fun _ _ _ _ _ _ => trivial) ?_ h trivial
  intro c db₁ db₂ _ h₁
  obtain ⟨_, rfl⟩ := importChannel_ok.mp h₁
  exact ⟨_, rfl, rfl⟩

/-- The row that a key becomes. -/
theorem importKey_row {k : KeyEntry} (h : importKey k db = .ok ((), db')) :
    ∃ T, db' = { db with channelKeys := T } ∧
      T.rows = db.channelKeys.rows ++ [{ keyRow db k with id := db.channelKeys.nextId }] := by
  rw [importKey] at h
  simp only [bind_ok, get_ok, orFail_ok, pure_ok] at h
  obtain ⟨_, _, hget, c, _, ⟨_, hc, hr⟩, _, _, hcreate, hr'⟩ := h
  cases hget
  cases hr
  cases hr'
  have hid : channelId db k.channel = c.id := by
    rw [channelId, hc]
    rfl
  rw [keyRow, hid]
  rw [KeyRepo.createKey] at hcreate
  split at hcreate <;> cases hcreate
  exact ⟨_, rfl, rfl⟩

theorem importKeys_rows {ks : List KeyEntry} (h : ks.forM importKey db = .ok ((), db')) :
    Appended (fun r => { r with id := 0 }) db.channelKeys.rows db'.channelKeys.rows
      (ks.map (keyRow db)) := by
  have hkeeps : ∀ k, Keeps (fun db' => ∃ T, db' = { db with channelKeys := T }) (importKey k) := by
    rintro k db₁ _ db₂ h₁ ⟨T, rfl⟩
    obtain ⟨U, rfl, _⟩ := importKey_row h₁
    exact ⟨U, rfl⟩
  refine forM_appended (fun db => db.channelKeys.rows) hkeeps ?_ h ⟨_, rfl⟩
  rintro k db₁ db₂ ⟨T, rfl⟩ h₁
  obtain ⟨U, rfl, hrows⟩ := importKey_row h₁
  exact ⟨_, hrows, rfl⟩

/-! ### Bindings -/

theorem find?_addBinding {m c : ℤ} {upstream : String} {priority : ℤ}
    (h : ModelRepo.addBinding m c upstream priority db = .ok ((), db')) (k : ℤ × ℤ × String) :
    db'.modelChannels.find? k =
      if k = (m, c, upstream) then
        some ((((db.modelChannels.find? k).getD (.fresh m c upstream priority 1)).withPriority
          priority).withWeight 1)
      else db.modelChannels.find? k := by
  rw [ModelRepo.addBinding, ModelRepo.addBindingWithWeight] at h
  split at h
  · next htaken =>
    cases h
    obtain ⟨r, hr⟩ := Table.insert?_eq_none_iff.mp htaken
    have hr : db.modelChannels.find? (m, c, upstream) = some r := hr
    refine (Table.find?_update_key db.modelChannels (k := (m, c, upstream))
      (fun r => Bool.eq_iff_iff.mpr (by simp [key, ModelChannelRow.fresh]))
      (fun r => (r.withPriority priority).withWeight 1) (fun _ => rfl) k).trans ?_
    by_cases hk : k = (m, c, upstream)
    · rw [if_pos hk, if_pos hk, hk, hr, Option.map_some, Option.getD_some]
    · rw [if_neg hk, if_neg hk]
  · next T hT =>
    have hnone : db.modelChannels.find? (m, c, upstream) = none := by
      refine Option.eq_none_iff_forall_ne_some.mpr fun r hr => ?_
      rw [Table.insert?_eq_none_iff.mpr ⟨r, hr⟩] at hT
      cases hT
    split at h <;> cases h
    refine (Table.find?_insert? hT k).trans ?_
    by_cases hk : k = (m, c, upstream)
    · subst hk
      rw [if_pos rfl, hnone]
      exact if_pos rfl
    · rw [if_neg hk]
      exact if_neg hk

theorem lastFor_cons (b : BindingEntry) (bs : List BindingEntry) (k : ℤ × ℤ × String) :
    lastFor db (b :: bs) k =
      (lastFor db bs k).or (if bound db b = k then some b else none) := by
  rw [lastFor, List.reverse_cons, List.find?_append, List.find?_singleton, lastFor]
  simp only [decide_eq_true_eq]

/-- What one entry writes is overwritten by the next for the same binding. -/
theorem boundRow_or (k : ℤ × ℤ × String) (row : Option ModelChannelRow)
    (later earlier : Option BindingEntry) :
    boundRow k (boundRow k row earlier) later = boundRow k row (later.or earlier) := by
  cases later with
  | none => rfl
  | some b => cases earlier <;> cases row <;> rfl

/-- The two writes of a binding. -/
theorem importBinding_writes {b : BindingEntry} (h : importBinding b db = .ok ((), db')) :
    ∃ db₁, ModelRepo.addBinding (modelId db b.model) (channelId db b.channel) b.upstreamModelName
        b.priority db = .ok ((), db₁) ∧
      DiscoveredModelRepo.upsertDiscoveredModel (channelId db b.channel) b.upstreamModelName false
        (some "bootstrap") none db₁ = .ok ((), db') := by
  obtain ⟨m, c, db₁, hm, hc, hadd, hupsert⟩ := importBinding_cases h
  rw [modelId, channelId, hm, hc]
  exact ⟨db₁, hadd, hupsert⟩

theorem find?_importBinding {b : BindingEntry} (h : importBinding b db = .ok ((), db'))
    (k : ℤ × ℤ × String) :
    db'.modelChannels.find? k =
      boundRow k (db.modelChannels.find? k) (if bound db b = k then some b else none) := by
  obtain ⟨db₁, hadd, hupsert⟩ := importBinding_writes h
  obtain ⟨T, rfl⟩ := DiscoveredModelRepo.upsert_frame
    (f := DiscoveredModel.discovered _ _ _) hupsert
  refine (find?_addBinding hadd k).trans ?_
  show (if k = bound db b then _ else _) = _
  by_cases hk : bound db b = k
  · subst hk
    rw [if_pos rfl, if_pos rfl]
    rfl
  · rw [if_neg hk, if_neg (Ne.symm hk)]
    rfl

/-- Of the entries for a binding the last one wins. -/
theorem find?_importBindings {bs : List BindingEntry}
    (h : bs.forM importBinding db = .ok ((), db')) (k : ℤ × ℤ × String) :
    db'.modelChannels.find? k = boundRow k (db.modelChannels.find? k) (lastFor db bs k) := by
  induction bs generalizing db with
  | nil =>
    cases pure_ok.mp h
    rfl
  | cons b bs ih =>
    obtain ⟨db₁, h₁, hrest⟩ := forM_cons_ok.mp h
    have hsame : lastFor db₁ bs k = lastFor db bs k := by
      obtain ⟨_, _, _, _, rfl⟩ := importBinding_ok h₁
      rfl
    rw [ih hrest, find?_importBinding h₁, boundRow_or, lastFor_cons, hsame]

/-! ### Small models -/

theorem discovered_nil (rows : List DiscoveredModel) : Discovered [] rows rows := by
  refine ⟨[], ?_, List.nodup_nil, ?_, ?_⟩
  · simp
  · simp
  · simp

/-- One entry after the other. -/
theorem Discovered.trans {ps qs : List (ℤ × String)} {rows₁ rows₂ rows₃ : List DiscoveredModel}
    (h : Discovered ps rows₁ rows₂) (h' : Discovered qs rows₂ rows₃) :
    Discovered (ps ++ qs) rows₁ rows₃ := by
  obtain ⟨new, rfl, hnodup, hmem, hrows⟩ := h
  obtain ⟨new', rfl, hnodup', hmem', hrows'⟩ := h'
  have hpairs : (rows₁.map fun r => if r.pair ∈ ps then refreshed r else r).map
      DiscoveredModel.pair = rows₁.map DiscoveredModel.pair := by
    rw [List.map_map]
    refine List.map_congr_left fun r _ => ?_
    rw [Function.comp_apply]
    split <;> rfl
  rw [List.map_append, hpairs] at hmem'
  refine ⟨new ++ new', ?_, ?_, ?_, ?_⟩
  · have hnew : new.map (fun r => if r.pair ∈ qs then refreshed r else r) = new := by
      nth_rewrite 2 [← List.map_id new]
      refine List.map_congr_left fun r hr => ?_
      rw [id]
      split
      · rw [hrows r hr]
        rfl
      · rfl
    rw [List.map_append, hnew, List.map_map, List.append_assoc]
    congr 1
    refine List.map_congr_left fun r _ => ?_
    rw [Function.comp_apply]
    by_cases hp : r.pair ∈ ps
    · rw [if_pos hp, if_pos (List.mem_append_left qs hp)]
      split <;> rfl
    · rw [if_neg hp]
      simp only [List.mem_append, hp, false_or]
  · rw [List.map_append]
    refine hnodup.append hnodup' ?_
    intro p hp hp'
    exact ((hmem' p).mp hp').2 (List.mem_append_right _ hp)
  · intro p
    rw [List.map_append, List.mem_append, hmem', List.mem_append, List.mem_append, hmem]
    tauto
  · intro r hr
    rcases List.mem_append.mp hr with hr | hr
    · exact hrows r hr
    · exact hrows' r hr

theorem discovered_upsert {c : ℤ} {upstream : String}
    (h : DiscoveredModelRepo.upsertDiscoveredModel c upstream false (some "bootstrap") none db =
      .ok ((), db')) :
    Discovered [(c, upstream)] db.discoveredModels.rows db'.discoveredModels.rows := by
  have hany : db.discoveredModels.rows.any (DiscoveredModel.isFor c upstream) = true ↔
      (c, upstream) ∈ db.discoveredModels.rows.map DiscoveredModel.pair := by
    rw [List.any_eq_true, List.mem_map]
    simp only [DiscoveredModelRepo.isFor_eq, decide_eq_true_eq]
  rw [DiscoveredModelRepo.upsertDiscoveredModel, DiscoveredModelRepo.upsert] at h
  split at h
  · next hthere =>
    cases h
    refine ⟨[], ?_, List.nodup_nil, ?_, ?_⟩
    · rw [List.append_nil]
      refine List.map_congr_left fun r _ => ?_
      simp only [DiscoveredModelRepo.isFor_eq, decide_eq_true_eq, List.mem_singleton]
      rfl
    · intro p
      rw [List.map_nil, List.mem_singleton]
      constructor
      · exact fun hp => absurd hp List.not_mem_nil
      · rintro ⟨rfl, hp⟩
        exact absurd (hany.mp hthere) hp
    · simp
  · next hthere =>
    have hnew : (c, upstream) ∉ db.discoveredModels.rows.map DiscoveredModel.pair :=
      fun hmem => hthere (hany.mpr hmem)
    split at h <;> cases h
    refine ⟨[refreshed (.fresh db.discoveredModels.nextId c upstream)], ?_, ?_, ?_, ?_⟩
    · have hold : ∀ r ∈ db.discoveredModels.rows,
          (if r.pair ∈ [(c, upstream)] then refreshed r else r) = r := by
        intro r hr
        refine if_neg fun hmem => hnew ?_
        exact List.mem_map.mpr ⟨r, hr, List.mem_singleton.mp hmem⟩
      rw [List.map_congr_left hold, List.map_id']
      rfl
    · exact List.nodup_singleton _
    · intro p
      rw [List.map_singleton, List.mem_singleton, List.mem_singleton]
      constructor
      · rintro rfl
        exact ⟨rfl, hnew⟩
      · exact And.left
    · intro r hr
      cases List.mem_singleton.mp hr
      rfl

/-- A small model for each upstream model that an entry binds to. -/
theorem discovered_importBindings {bs : List BindingEntry}
    (h : bs.forM importBinding db = .ok ((), db')) :
    Discovered (bs.map fun b => (bound db b).2) db.discoveredModels.rows
      db'.discoveredModels.rows := by
  induction bs generalizing db with
  | nil =>
    cases pure_ok.mp h
    exact discovered_nil _
  | cons b bs ih =>
    obtain ⟨db₁, h₁, hrest⟩ := forM_cons_ok.mp h
    obtain ⟨db₂, hadd, hupsert⟩ := importBinding_writes h₁
    have hfirst := discovered_upsert hupsert
    obtain ⟨T, rfl⟩ := ModelRepo.addBindingWithWeight_frame hadd
    have hrest := ih hrest
    obtain ⟨_, _, _, _, rfl⟩ := importBinding_ok h₁
    exact hfirst.trans hrest

end Bootstrap

/-! ### All or nothing -/

open Bootstrap in
/-- The contents of a file are in the database: models, channels and keys as new rows, and for each
binding a row as its last entry has it and a small model. Nothing else changed. -/
structure Imported (config : BootstrapConfig) (db db' : Db) : Prop where
  models : Appended (fun r => { r with id := 0 }) db.models.rows db'.models.rows
    (config.models.map modelRow)
  channels : Appended (fun r => { r with id := 0 }) db.channels.rows db'.channels.rows
    (config.channels.map channelRow)
  keys : Appended (fun r => { r with id := 0 }) db.channelKeys.rows db'.channelKeys.rows
    (config.keys.map (keyRow db'))
  keyChannels : ∀ k ∈ config.keys, k.channel ∈ db'.channelNames
  bindingNames : ∀ b ∈ config.bindings, b.model ∈ db'.modelNames ∧ b.channel ∈ db'.channelNames
  bindings : ∀ k, db'.modelChannels.find? k =
    boundRow k (db.modelChannels.find? k) (lastFor db' config.bindings k)
  smallModels : Discovered (config.bindings.map fun b => (bound db' b).2) db.discoveredModels.rows
    db'.discoveredModels.rows
  others : db' = { db with
    models := db'.models
    channels := db'.channels
    channelKeys := db'.channelKeys
    modelChannels := db'.modelChannels
    discoveredModels := db'.discoveredModels }

section Import

open Bootstrap

variable {config : BootstrapConfig} {db db' : Db}

theorem imported_of_importConfig (h : importConfig config db = .ok ((), db')) :
    Imported config db db' := by
  obtain ⟨db₁, db₂, db₃, h₁, h₂, h₃, h₄⟩ := importConfig_ok.mp h
  have hmodels := importModels_rows h₁
  have hchannels := importChannels_rows h₂
  have hkeys := importKeys_rows h₃
  have hkeyChannels := importKeys_succeed.mp ⟨_, h₃⟩
  have hnames := importBindings_succeed.mp ⟨_, h₄⟩
  have hbindings := find?_importBindings h₄
  have hsmall := discovered_importBindings h₄
  -- each phase leaves the tables of the others alone
  obtain ⟨_, T, rfl⟩ := importModels_frame h₁
  obtain ⟨_, U, _, rfl⟩ := importChannels_frame h₂
  obtain ⟨_, V, rfl⟩ := importKeys_frame h₃
  obtain ⟨W, X, rfl⟩ := importBindings_frame h₄
  exact ⟨hmodels, hchannels, hkeys, hkeyChannels, hnames, hbindings, hsmall, rfl⟩

namespace Imported

/-- Every binding is there, as the last entry for it has it. -/
theorem binding (h : Imported config db db') {b : BindingEntry} (hb : b ∈ config.bindings) :
    ∃ last row, lastFor db' config.bindings (bound db' b) = some last ∧
      db'.modelChannels.find? (bound db' b) = some row ∧ row.priority = last.priority ∧
      row.weight = 1 := by
  have hsome : (lastFor db' config.bindings (bound db' b)).isSome := by
    rw [lastFor, List.find?_isSome]
    exact ⟨b, List.mem_reverse.mpr hb, decide_eq_true rfl⟩
  obtain ⟨last, hlast⟩ := Option.isSome_iff_exists.mp hsome
  have hrow := h.bindings (bound db' b)
  rw [hlast, boundRow] at hrow
  exact ⟨last, _, hlast, hrow, rfl, rfl⟩

/-- And its small model is there. -/
theorem smallModel (h : Imported config db db') {b : BindingEntry} (hb : b ∈ config.bindings) :
    ∃ r ∈ db'.discoveredModels.rows, r.pair = (bound db' b).2 ∧ r.isFree = false ∧
      r.source = some "bootstrap" := by
  obtain ⟨added, hrows, _, hnew, hadded⟩ := h.smallModels
  have hlisted : (bound db' b).2 ∈ config.bindings.map fun b => (bound db' b).2 :=
    List.mem_map_of_mem hb
  rw [hrows]
  by_cases hold : (bound db' b).2 ∈ db.discoveredModels.rows.map DiscoveredModel.pair
  · obtain ⟨r, hr, hpair⟩ := List.mem_map.mp hold
    refine ⟨refreshed r, List.mem_append_left _ (List.mem_map.mpr ⟨r, hr, ?_⟩), hpair, rfl, rfl⟩
    exact if_pos (hpair ▸ hlisted)
  · obtain ⟨r, hr, hpair⟩ := List.mem_map.mp ((hnew _).mpr ⟨hlisted, hold⟩)
    refine ⟨r, List.mem_append_right _ hr, hpair, ?_, ?_⟩
    · rw [hadded r hr]
      rfl
    · rw [hadded r hr]
      rfl

end Imported

variable {engine : ℕ → Option String}

/-- An engine that does not fail imports the files that the database takes in. -/
theorem importFromYaml_ok_iff (hengine : ∀ n, engine n = none) :
    (∃ db', importFromYaml engine (.ok config) db = (.ok (), db')) ↔ config.Importable db := by
  have hfollows := insertEntries_follows (storageErrors engine) config
  rw [← importConfig_ok_iff]
  constructor
  · rintro ⟨db', h⟩
    exact ⟨db', hfollows.transaction_ok h⟩
  · rintro ⟨db', h⟩
    refine ⟨db', hfollows.transaction_succeeds (fun n => ?_) h⟩
    rw [storageErrors, hengine]
    rfl

/-- **All or nothing**: whatever fails in the engine, an import that succeeds has imported the file,
and one that fails has changed nothing. Where the engine does not fail, it is the names in the file
that decide. -/
theorem importFromYaml_spec (engine : ℕ → Option String) (parsed : ProxyResult BootstrapConfig)
    (db : Db) :
    (∀ db', importFromYaml engine parsed db = (.ok (), db') →
      ∃ config, parsed = .ok config ∧ Imported config db db') ∧
    (∀ e db', importFromYaml engine parsed db = (.error e, db') → db' = db) ∧
    ((∀ n, engine n = none) → ((∃ db', importFromYaml engine parsed db = (.ok (), db')) ↔
      ∃ config, parsed = .ok config ∧ config.Importable db)) := by
  cases parsed with
  | error e =>
    refine ⟨?_, ?_, fun _ => ⟨?_, ?_⟩⟩
    · intro db' h
      cases h
    · intro e' db' h
      cases h
      rfl
    · rintro ⟨db', h⟩
      cases h
    · rintro ⟨config, h, -⟩
      cases h
  | ok config =>
    have hfollows := insertEntries_follows (storageErrors engine) config
    refine ⟨?_, ?_, fun hengine => (importFromYaml_ok_iff hengine).trans ⟨?_, ?_⟩⟩
    · intro db' h
      exact ⟨config, rfl, imported_of_importConfig (hfollows.transaction_ok h)⟩
    · intro e db' h
      exact hfollows.transaction_error h
    · intro himportable
      exact ⟨config, rfl, himportable⟩
    · rintro ⟨_, h, himportable⟩
      cases h
      exact himportable

/-- A file that lists a binding twice. -/
def repeatedBinding : BootstrapConfig where
  models := [⟨"chat"⟩]
  channels := [⟨"relay", "openai", "https://relay"⟩]
  bindings :=
    [{ model := "chat", channel := "relay", upstreamModelName := "chat-large", priority := 10 },
      { model := "chat", channel := "relay", upstreamModelName := "chat-large", priority := 20 }]

-- The last entry wins, and nothing is left of an import whose commit fails.
example : (importFromYaml (fun _ => none) (.ok repeatedBinding) {}).2.modelChannels.rows.map
    ModelChannelRow.priority = [20] := by decide +kernel
example : (importFromYaml (fun n => if n = 11 then some "disk I/O error" else none)
    (.ok repeatedBinding) {}).2 = {} := by decide +kernel

end Import

end Chennix
