import Chennix.Foundations.Calendar
import Chennix.Storage.Schema
import Mathlib.Data.List.Sort

/-!
# Statements on channels and small models

The statements of the repositories, each one atomic: it answers and leaves the next database, or
it fails and leaves the one it found. A statement that would break a `UNIQUE` column or a foreign
key fails; a deletion takes the rows along that refer to what it deletes, except for usage logs and
merged small models, which forbid it.

## Main definitions

* `Stmt` — a statement on the database
* `ChannelRepo` — the statements on `channels`
* `DiscoveredModelRepo` — the statements on `discovered_models`
-/

namespace Chennix

open Foundations

/-- A statement. -/
abbrev Stmt (α : Type) : Type := StateT Db (Except ProxyError) α

/-- `now_iso8601`: the time in Beijing. -/
def nowIso8601 (now : Calendar.Instant) : String :=
  Calendar.rfc3339 (Calendar.Instant.seconds now + 8 * 3600)
    (Calendar.Instant.fraction now ++ "+08:00")

/-- A statement that a `UNIQUE` column forbids. -/
def uniqueFailed (column : String) : ProxyError := .storage ("UNIQUE constraint failed: " ++ column)

def foreignKeyFailed : ProxyError := .storage "FOREIGN KEY constraint failed"

namespace ChannelConfig

/-- The row with its configurable columns replaced. -/
def configured (name : String) (provider : ChannelProvider) (baseUrl group : String)
    (r : ChannelConfig) : ChannelConfig :=
  { r with name := name, provider := provider, baseUrl := baseUrl, group := group }

theorem key_configured (name : String) (provider : ChannelProvider) (baseUrl group : String)
    (r : ChannelConfig) : key (r.configured name provider baseUrl group) = key r := rfl

end ChannelConfig

namespace ChannelRepo

def getChannelById (id : ℤ) (db : Db) : Option ChannelConfig := db.channels.find? id

def getChannelByName (name : String) (db : Db) : Option ChannelConfig :=
  db.channels.rows.find? fun c => c.name == name

/-- All channels, by id. -/
def listChannels (db : Db) : List ChannelConfig :=
  db.channels.rows.insertionSort fun c c' => c.id ≤ c'.id

def createChannelFull (name : String) (provider : ChannelProvider) (baseUrl group : String) :
    Stmt ℤ := fun db =>
  if db.channels.rows.any (fun c => c.name == name) then .error (uniqueFailed "channels.name")
  else .ok (db.channels.nextId, { db with
    channels := db.channels.insertNew (fun id => ⟨id, name, provider, baseUrl, group⟩)
      fun _ => rfl })

/-- The group is the default of the schema. -/
def createChannel (name : String) (provider : ChannelProvider) (baseUrl : String) : Stmt ℤ :=
  createChannelFull name provider baseUrl "default"

def updateChannel (id : ℤ) (name : String) (provider : ChannelProvider) (baseUrl group : String) :
    Stmt Unit := fun db =>
  if db.channels.rows.any (fun c => c.id == id) &&
      db.channels.rows.any (fun c => c.id != id && c.name == name) then
    .error (uniqueFailed "channels.name")
  else .ok ((), { db with
    channels := db.channels.update (fun c => c.id == id)
      (ChannelConfig.configured name provider baseUrl group)
      (ChannelConfig.key_configured name provider baseUrl group) })

/-- A usage log refers to the channel, or to a key that would go with it. -/
def logged (id : ℤ) (db : Db) : Bool :=
  db.usageLogs.rows.any fun l => l.channelId == id ||
    db.channelKeys.rows.any fun k => k.channelId == id && k.id == l.keyId

/-- The keys, bindings and small models of the channel go with it. -/
def deleteChannel (id : ℤ) : Stmt Unit := fun db =>
  if db.channels.rows.all fun c => c.id != id then .ok ((), db)
  else if logged id db then .error foreignKeyFailed
  else .ok ((), { db with
    channels := db.channels.delete fun c => c.id == id
    channelKeys := db.channelKeys.delete fun k => k.channelId == id
    modelChannels := db.modelChannels.delete fun b => b.channelId == id
    discoveredModels := db.discoveredModels.delete fun m => m.channelId == id })

section Frames

variable {db db' : Db} {id : ℤ} {name baseUrl group : String} {provider : ChannelProvider}

theorem createChannelFull_frame
    (h : createChannelFull name provider baseUrl group db = .ok (id, db')) :
    db' = { db with
      channels := db.channels.insertNew (fun id => ⟨id, name, provider, baseUrl, group⟩)
        fun _ => rfl } := by
  rw [createChannelFull] at h
  split at h <;> cases h
  rfl

theorem updateChannel_frame
    (h : updateChannel id name provider baseUrl group db = .ok ((), db')) :
    db' = { db with
      channels := db.channels.update (fun c => c.id == id)
        (ChannelConfig.configured name provider baseUrl group)
        (ChannelConfig.key_configured name provider baseUrl group) } := by
  rw [updateChannel] at h
  split at h <;> cases h
  rfl

theorem deleteChannel_frame (h : deleteChannel id db = .ok ((), db')) :
    db' = db ∨ db' = { db with
      channels := db.channels.delete fun c => c.id == id
      channelKeys := db.channelKeys.delete fun k => k.channelId == id
      modelChannels := db.modelChannels.delete fun b => b.channelId == id
      discoveredModels := db.discoveredModels.delete fun m => m.channelId == id } := by
  rw [deleteChannel] at h
  split at h
  · cases h
    exact .inl rfl
  · split at h <;> cases h
    exact .inr rfl

end Frames

end ChannelRepo

namespace DiscoveredModel

/-- The row of a small model that is new: no limit, nothing used. -/
def fresh (id channelId : ℤ) (rawModelName : String) : DiscoveredModel where
  id := id
  channelId := channelId
  rawModelName := rawModelName
  mergedToModelId := none
  isFree := false
  source := none
  metadata := none
  quotaLimit := none
  quotaUnit := none
  quotaWindow := none
  usedQuota := 0
  lastResetAt := none
  quotaStatus := "available"

/-- The row with what a discovery finds out. -/
def discovered (isFree : Bool) (source metadata : Option String) (r : DiscoveredModel) :
    DiscoveredModel :=
  { r with isFree := isFree, source := source, metadata := metadata }

/-- The row after a reset: nothing used, available. -/
def reset (now : String) (r : DiscoveredModel) : DiscoveredModel :=
  { r with usedQuota := 0, quotaStatus := "available", lastResetAt := some now }

/-- The row with another quota, of which nothing is used. -/
def withQuota (now : String) (limit : Option ℤ) (unit window : Option String)
    (r : DiscoveredModel) : DiscoveredModel :=
  { r.reset now with quotaLimit := limit, quotaUnit := unit, quotaWindow := window }

/-- The row after `used_quota = used_quota + delta`. -/
def addUsage (delta : ℤ) (quotaStatus : String) (r : DiscoveredModel) : DiscoveredModel :=
  { r with usedQuota := r.usedQuota + delta, quotaStatus := quotaStatus }

theorem key_discovered (isFree : Bool) (source metadata : Option String) (r : DiscoveredModel) :
    key (r.discovered isFree source metadata) = key r := rfl

theorem key_reset (now : String) (r : DiscoveredModel) : key (r.reset now) = key r := rfl

theorem key_withQuota (now : String) (limit : Option ℤ) (unit window : Option String)
    (r : DiscoveredModel) : key (r.withQuota now limit unit window) = key r := rfl

theorem key_addUsage (delta : ℤ) (quotaStatus : String) (r : DiscoveredModel) :
    key (r.addUsage delta quotaStatus) = key r := rfl

/-- The row is the one of an upstream model of a channel. -/
def isFor (channelId : ℤ) (rawModelName : String) (r : DiscoveredModel) : Bool :=
  r.channelId == channelId && r.rawModelName == rawModelName

/-- The small model that a row is about. -/
def pair (r : DiscoveredModel) : ℤ × String := (r.channelId, r.rawModelName)

end DiscoveredModel

namespace DiscoveredModelRepo

theorem isFor_eq {channelId : ℤ} {upstream : String} (r : DiscoveredModel) :
    r.isFor channelId upstream = decide (r.pair = (channelId, upstream)) := by
  rw [Bool.eq_iff_iff]
  simp [DiscoveredModel.isFor, DiscoveredModel.pair]

/-- Channel first, then name. -/
def rowLE (r r' : DiscoveredModel) : Prop :=
  r.channelId < r'.channelId ∨ r.channelId = r'.channelId ∧ r.rawModelName ≤ r'.rawModelName

instance (r r' : DiscoveredModel) : Decidable (rowLE r r') := inferInstanceAs (Decidable (_ ∨ _))

def listDiscoveredModels (db : Db) : List DiscoveredModel :=
  db.discoveredModels.rows.insertionSort rowLE

def getDiscoveredModel (channelId : ℤ) (rawModelName : String) (db : Db) :
    Option DiscoveredModel :=
  db.discoveredModels.rows.find? (DiscoveredModel.isFor channelId rawModelName)

/-- `binding_count` of a small model, zero where there is none. -/
def boundTo (channelId : ℤ) (rawModelName : String) (db : Db) : ℕ :=
  match getDiscoveredModel channelId rawModelName db with
  | none => 0
  | some m => db.modelChannels.count fun b =>
      b.channelId == m.channelId && b.upstreamModelName == m.rawModelName

/-- `INSERT … ON CONFLICT(channel_id, raw_model_name) DO UPDATE`. -/
def upsert (channelId : ℤ) (rawModelName : String) (f : DiscoveredModel → DiscoveredModel)
    (hf : ∀ r, key (f r) = key r) : Stmt Unit := fun db =>
  if db.discoveredModels.rows.any (DiscoveredModel.isFor channelId rawModelName) then
    .ok ((), { db with
      discoveredModels :=
        db.discoveredModels.update (DiscoveredModel.isFor channelId rawModelName) f hf })
  else if (db.channels.find? channelId).isNone then .error foreignKeyFailed
  else .ok ((), { db with
    discoveredModels := db.discoveredModels.insertNew
      (fun id => f (.fresh id channelId rawModelName)) fun _ => hf _ })

theorem upsert_frame {db db' : Db} {channelId : ℤ} {upstream : String}
    {f : DiscoveredModel → DiscoveredModel}
    {hf : ∀ r, key (f r) = key r}
    (h : upsert channelId upstream f hf db = .ok ((), db')) :
    ∃ T, db' = { db with discoveredModels := T } := by
  rw [upsert] at h
  split at h
  · cases h
    exact ⟨_, rfl⟩
  · split at h <;> cases h
    exact ⟨_, rfl⟩

theorem upsert_succeeds {db : Db} {channelId : ℤ} (upstream : String)
    {f : DiscoveredModel → DiscoveredModel} {hf : ∀ r, key (f r) = key r}
    (h : (db.channels.find? channelId).isSome) :
    ∃ db', upsert channelId upstream f hf db = .ok ((), db') := by
  rw [upsert]
  split
  · exact ⟨_, rfl⟩
  · rw [Option.isNone_eq_false_iff.mpr h]
    exact ⟨_, rfl⟩

/-- A discovery leaves the quota of a small model that is there as it was. -/
def upsertDiscoveredModel (channelId : ℤ) (rawModelName : String) (isFree : Bool)
    (source metadata : Option String) : Stmt Unit :=
  upsert channelId rawModelName (DiscoveredModel.discovered isFree source metadata)
    (DiscoveredModel.key_discovered isFree source metadata)

def updateDiscoveredModelQuota (now : String) (channelId : ℤ) (rawModelName : String)
    (limit : Option ℤ) (unit window : Option String) : Stmt Unit :=
  upsert channelId rawModelName (DiscoveredModel.withQuota now limit unit window)
    (DiscoveredModel.key_withQuota now limit unit window)

def resetDiscoveredModelQuota (now : String) (channelId : ℤ) (rawModelName : String) :
    Stmt Unit := fun db =>
  .ok ((), { db with
    discoveredModels := db.discoveredModels.update (DiscoveredModel.isFor channelId rawModelName)
      (DiscoveredModel.reset now) (DiscoveredModel.key_reset now) })

/-- Nothing happens where there is no such row. -/
def addDiscoveredModelUsage (channelId : ℤ) (rawModelName : String) (delta : ℤ)
    (quotaStatus : String) : Stmt Unit := fun db =>
  .ok ((), { db with
    discoveredModels := db.discoveredModels.update (DiscoveredModel.isFor channelId rawModelName)
      (DiscoveredModel.addUsage delta quotaStatus)
      (DiscoveredModel.key_addUsage delta quotaStatus) })

def deleteDiscoveredModel (channelId : ℤ) (rawModelName : String) : Stmt Unit := fun db =>
  .ok ((), { db with
    discoveredModels :=
      db.discoveredModels.delete (DiscoveredModel.isFor channelId rawModelName) })

end DiscoveredModelRepo

end Chennix
