import Chennix.Storage.Channels

/-!
# Statements on keys

The repository of the keys of channels.

## Main definitions

* `KeyRepo` — the statements on `channel_keys`
* `KeyRepo.createKeyAutoPriority`, `KeyRepo.updateKey`, `KeyRepo.reorderKeys` — the ones of the
  administration
-/

namespace Chennix

open Foundations

namespace KeyConfig

/-- The row with its configurable columns replaced. What is used of the quota stays. -/
def configured (apiKey : String) (costTier : CostTier) (priority : ℤ) (price : Option Float)
    (freeQuota : Option UInt64) (status : KeyStatus) (r : KeyConfig) : KeyConfig :=
  { r with
    apiKey := apiKey
    costTier := costTier
    keyPriority := priority
    pricePer1kTokens := price
    freeQuota := freeQuota
    status := status }

def withStatus (status : KeyStatus) (r : KeyConfig) : KeyConfig := { r with status := status }

def withPriority (priority : ℤ) (r : KeyConfig) : KeyConfig := { r with keyPriority := priority }

def withUsedQuota (used : UInt64) (r : KeyConfig) : KeyConfig := { r with usedQuota := used }

theorem key_configured (apiKey : String) (costTier : CostTier) (priority : ℤ)
    (price : Option Float) (freeQuota : Option UInt64) (status : KeyStatus) (r : KeyConfig) :
    key (r.configured apiKey costTier priority price freeQuota status) = key r := rfl

theorem key_withStatus (status : KeyStatus) (r : KeyConfig) :
    key (r.withStatus status) = key r := rfl

theorem key_withPriority (priority : ℤ) (r : KeyConfig) :
    key (r.withPriority priority) = key r := rfl

theorem key_withUsedQuota (used : UInt64) (r : KeyConfig) :
    key (r.withUsedQuota used) = key r := rfl

/-- The row after `used_quota = used_quota + tokens`. -/
def addUsage (tokens : UInt64) (r : KeyConfig) : KeyConfig :=
  r.withUsedQuota (r.usedQuota + tokens)

theorem key_addUsage (tokens : UInt64) (r : KeyConfig) : key (r.addUsage tokens) = key r := rfl

/-- What a key is for the upstream: an API key of a channel. -/
def credential (r : KeyConfig) : ℤ × String := (r.channelId, r.apiKey)

end KeyConfig

/-- The credentials of all keys. -/
def Db.credentials (db : Db) : List (ℤ × String) := db.channelKeys.rows.map KeyConfig.credential

namespace KeyRepo

/-- Priority first, then id. -/
def rowLE (k k' : KeyConfig) : Prop :=
  k.keyPriority < k'.keyPriority ∨ k.keyPriority = k'.keyPriority ∧ k.id ≤ k'.id

instance (k k' : KeyConfig) : Decidable (rowLE k k') := inferInstanceAs (Decidable (_ ∨ _))

def getKeysForChannel (channelId : ℤ) (db : Db) : List KeyConfig :=
  (db.channelKeys.rows.filter fun k => k.channelId == channelId).insertionSort rowLE

def getKeyById (id : ℤ) (db : Db) : Option KeyConfig := db.channelKeys.find? id

/-- The ids of the disabled keys. -/
def getDisabledKeyIds (db : Db) : List ℤ :=
  (db.channelKeys.rows.filter fun k => k.status == .disabled).map fun k => k.id

/-- How many keys of the channel have this API key, one of them perhaps not counted. -/
def countDuplicateApiKeyInChannel (channelId : ℤ) (apiKey : String) (excludeKeyId : Option ℤ)
    (db : Db) : ℕ :=
  db.channelKeys.count fun k =>
    k.channelId == channelId && k.apiKey == apiKey && excludeKeyId.all fun id => k.id != id

/-- A column cannot hold a NaN: it is stored as `NULL`. -/
def storedReal (price : Option Float) : Option Float := price.filter fun p => !p.isNaN

/-- A new key is active, and nothing of its quota is used. -/
def createKey (channelId : ℤ) (apiKey : String) (label : Option String) (costTier : CostTier)
    (keyPriority : ℤ) (pricePer1kTokens : Option Float) (freeQuota : Option UInt64)
    (quotaResetPeriod : Option String) : Stmt ℤ := fun db =>
  if (db.channels.find? channelId).isNone then .error foreignKeyFailed
  else .ok (db.channelKeys.nextId, { db with
    channelKeys := db.channelKeys.insertNew (fun id =>
      { id := id
        channelId := channelId
        apiKey := apiKey
        label := label
        costTier := costTier
        keyPriority := keyPriority
        pricePer1kTokens := storedReal pricePer1kTokens
        freeQuota := freeQuota
        usedQuota := 0
        quotaResetPeriod := quotaResetPeriod
        status := .active }) fun _ => rfl })

theorem createKey_succeeds {db : Db} {channelId : ℤ} (apiKey : String) (label : Option String)
    (costTier : CostTier) (keyPriority : ℤ) (pricePer1kTokens : Option Float)
    (freeQuota : Option UInt64) (quotaResetPeriod : Option String)
    (h : (db.channels.find? channelId).isSome) :
    ∃ id db', createKey channelId apiKey label costTier keyPriority pricePer1kTokens freeQuota
      quotaResetPeriod db = .ok (id, db') := by
  rw [createKey, Option.isNone_eq_false_iff.mpr h]
  exact ⟨_, _, rfl⟩

def updateKeyStatus (id : ℤ) (status : KeyStatus) : Stmt Unit := fun db =>
  .ok ((), { db with
    channelKeys := db.channelKeys.update (fun k => k.id == id) (KeyConfig.withStatus status)
      (KeyConfig.key_withStatus status) })

def addKeyUsage (id : ℤ) (tokens : UInt64) : Stmt Unit := fun db =>
  .ok ((), { db with
    channelKeys := db.channelKeys.update (fun k => k.id == id) (KeyConfig.addUsage tokens)
      (KeyConfig.key_addUsage tokens) })

def resetKeyQuota (keyId channelId : ℤ) : Stmt Unit := fun db =>
  .ok ((), { db with
    channelKeys := db.channelKeys.update (fun k => k.id == keyId && k.channelId == channelId)
      (KeyConfig.withUsedQuota 0) (KeyConfig.key_withUsedQuota 0) })

/-- A usage log forbids the deletion. -/
def deleteKey (id : ℤ) : Stmt Unit := fun db =>
  if db.channelKeys.rows.any (fun k => k.id == id) &&
      db.usageLogs.rows.any (fun l => l.keyId == id) then .error foreignKeyFailed
  else .ok ((), { db with channelKeys := db.channelKeys.delete fun k => k.id == id })

def costTierOf (isFree : Bool) : CostTier := if isFree then .free else .paid

/-- No quota where the limit is not positive. -/
def freeQuotaOf (quotaLimit : ℤ) : Option UInt64 :=
  if quotaLimit > 0 then some (.ofInt quotaLimit) else none

/-- No price where it is not positive. -/
def priceOf (pricePer1kTokens : Float) : Option Float :=
  if pricePer1kTokens > 0 then some pricePer1kTokens else none

def createKeyFull (channelId : ℤ) (apiKey : String) (label : Option String) (isFree : Bool)
    (priority quotaLimit : ℤ) (pricePer1kTokens : Float) : Stmt ℤ := fun db =>
  if (db.channels.find? channelId).isNone then .error foreignKeyFailed
  else .ok (db.channelKeys.nextId, { db with
    channelKeys := db.channelKeys.insertNew (fun id =>
      { id := id
        channelId := channelId
        apiKey := apiKey
        label := label
        costTier := costTierOf isFree
        keyPriority := priority
        pricePer1kTokens := priceOf pricePer1kTokens
        freeQuota := freeQuotaOf quotaLimit
        usedQuota := 0
        quotaResetPeriod := none
        status := .active }) fun _ => rfl })

/-- The priority of a key that comes last, in 32 bits. -/
def lastPriority (channelId : ℤ) (db : Db) : ℤ :=
  let priorities := (getKeysForChannel channelId db).map fun k => k.keyPriority
  (Int32.ofInt (priorities.max?.getD 0 + 10)).toInt

def createKeyAutoPriority (channelId : ℤ) (apiKey : String) (label : Option String)
    (isFree : Bool) (quotaLimit : ℤ) (pricePer1kTokens : Float) : Stmt ℤ := fun db =>
  createKeyFull channelId apiKey label isFree (lastPriority channelId db) quotaLimit
    pricePer1kTokens db

def updateKey (id : ℤ) (apiKey : String) (isFree : Bool) (priority quotaLimit : ℤ)
    (pricePer1kTokens : Float) (status : KeyStatus) : Stmt Unit := fun db =>
  .ok ((), { db with
    channelKeys := db.channelKeys.update (fun k => k.id == id)
      (KeyConfig.configured apiKey (costTierOf isFree) priority (priceOf pricePer1kTokens)
        (freeQuotaOf quotaLimit) status)
      (KeyConfig.key_configured apiKey (costTierOf isFree) priority (priceOf pricePer1kTokens)
        (freeQuotaOf quotaLimit) status) })

/-- The first id that occurs a second time. -/
def firstDuplicate : List ℤ → Option ℤ
  | ids => go [] ids
where
  /-- The ids seen so far, and those to come. -/
  go : List ℤ → List ℤ → Option ℤ
    | _, [] => none
    | seen, id :: rest => if id ∈ seen then some id else go (id :: seen) rest

/-- The position in the call order as a priority, in 32 bits. -/
def positionPriority (i : ℕ) : ℤ := ((Int32.ofNat i + 1) * 10).toInt

/-- The updates of `reorder_keys`, in the given order. -/
def setPriorities : ℕ → List ℤ → Table KeyConfig → Table KeyConfig
  | _, [], T => T
  | i, id :: ids, T =>
    setPriorities (i + 1) ids
      (T.update (fun k => k.id == id) (KeyConfig.withPriority (positionPriority i))
        (KeyConfig.key_withPriority (positionPriority i)))

/-- What no priority changes. -/
theorem map_setPriorities {α : Type} {g : KeyConfig → α} (i : ℕ) (ids : List ℤ)
    (T : Table KeyConfig) (hg : ∀ priority r, g (KeyConfig.withPriority priority r) = g r) :
    (setPriorities i ids T).rows.map g = T.rows.map g := by
  induction ids generalizing i T with
  | nil => rfl
  | cons id ids ih =>
    rw [setPriorities, ih]
    exact Table.map_rows_update _ _ _ (hg _)

/-- The ids must be those of the channel's keys, each once. -/
def reorderKeys (channelId : ℤ) (orderedKeyIds : List ℤ) : Stmt Unit := fun db =>
  let existing := (getKeysForChannel channelId db).map fun k => k.id
  if orderedKeyIds.length ≠ existing.length then
    .error (.storage (s!"reorder_keys: count mismatch (got {orderedKeyIds.length}, " ++
      s!"expected {existing.length})"))
  else match firstDuplicate orderedKeyIds with
    | some id => .error (.storage s!"reorder_keys: duplicate key id {id}")
    | none => match orderedKeyIds.find? fun id => id ∉ existing with
      | some id =>
        .error (.storage s!"reorder_keys: key id {id} does not belong to channel {channelId}")
      | none => .ok ((), { db with channelKeys := setPriorities 0 orderedKeyIds db.channelKeys })

section Frames

variable {db db' : Db} {id channelId quotaLimit : ℤ} {apiKey : String} {label : Option String}
  {isFree : Bool} {pricePer1kTokens : Float}

/-- A key is created for a channel that is there. -/
theorem createKeyAutoPriority_frame (h : createKeyAutoPriority channelId apiKey label isFree
      quotaLimit pricePer1kTokens db = .ok (id, db')) :
    (∃ c, db.channels.find? channelId = some c) ∧
      ∃ (row : ℤ → KeyConfig) (hrow : ∀ id, key (row id) = id),
        (∀ id, (row id).channelId = channelId ∧ (row id).apiKey = apiKey) ∧
        db' = { db with channelKeys := db.channelKeys.insertNew row hrow } := by
  rw [createKeyAutoPriority, createKeyFull] at h
  split at h
  · cases h
  · rename_i hchannel
    cases h
    exact ⟨Option.ne_none_iff_exists'.mp (Option.isNone_iff_eq_none.not.mp hchannel), _, _,
      fun _ => ⟨rfl, rfl⟩, rfl⟩

theorem deleteKey_frame (h : deleteKey id db = .ok ((), db')) :
    db' = { db with channelKeys := db.channelKeys.delete fun k => k.id == id } := by
  rw [deleteKey] at h
  split at h <;> cases h
  rfl

end Frames

theorem reorderKeys_frame {db db' : Db} {channelId : ℤ} {ids : List ℤ}
    (h : reorderKeys channelId ids db = .ok ((), db')) :
    db' = { db with channelKeys := setPriorities 0 ids db.channelKeys } := by
  rw [reorderKeys] at h
  split at h
  · cases h
  · split at h
    · cases h
    · split at h <;> cases h
      rfl

end KeyRepo

end Chennix
