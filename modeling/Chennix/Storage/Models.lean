import Chennix.Storage.Channels

/-!
# Statements on models and their bindings

The repository of the models, of their bindings to upstream models of channels and of the pricing
of a binding.

## Main definitions

* `ModelRepo` — the statements on `models` and `model_channels`
-/

namespace Chennix

open Foundations

namespace BillingType

def fromI32 (v : ℤ) : BillingType :=
  match v with
  | 1 => .perCall
  | 2 => .expression
  | _ => .token

def asI32 : BillingType → ℤ
  | .token => 0
  | .perCall => 1
  | .expression => 2

/-- What is stored is read back. -/
theorem fromI32_asI32 (t : BillingType) : fromI32 t.asI32 = t := by
  cases t <;> rfl

end BillingType

namespace ModelRow

def renamed (name : String) (r : ModelRow) : ModelRow := { r with canonicalName := name }

def withStrategy (strategy : String) (r : ModelRow) : ModelRow :=
  { r with routingStrategy := strategy }

theorem key_renamed (name : String) (r : ModelRow) : key (r.renamed name) = key r := rfl

theorem key_withStrategy (strategy : String) (r : ModelRow) :
    key (r.withStrategy strategy) = key r := rfl

end ModelRow

namespace ModelChannelRow

/-- The row of a binding that is new, with the defaults of the schema: it is free. -/
def fresh (modelId channelId : ℤ) (upstreamModelName : String) (priority weight : ℤ) :
    ModelChannelRow where
  modelId := modelId
  channelId := channelId
  upstreamModelName := upstreamModelName
  weight := weight
  billingType := 0
  inputPrice := 0
  outputPrice := 0
  callPrice := 0
  billingExpr := none
  priority := priority

def withWeight (weight : ℤ) (r : ModelChannelRow) : ModelChannelRow := { r with weight := weight }

def withPriority (priority : ℤ) (r : ModelChannelRow) : ModelChannelRow :=
  { r with priority := priority }

def withPricing (pricing : ChannelModelPricing) (r : ModelChannelRow) : ModelChannelRow :=
  { r with
    billingType := pricing.billingType.asI32
    inputPrice := pricing.inputPrice
    outputPrice := pricing.outputPrice
    callPrice := pricing.callPrice
    billingExpr := pricing.billingExpr }

/-- The pricing a row holds. -/
def pricing (r : ModelChannelRow) : ChannelModelPricing :=
  ⟨.fromI32 r.billingType, r.inputPrice, r.outputPrice, r.callPrice, r.billingExpr⟩

theorem key_withWeight (weight : ℤ) (r : ModelChannelRow) : key (r.withWeight weight) = key r := rfl

theorem key_withPriority (priority : ℤ) (r : ModelChannelRow) :
    key (r.withPriority priority) = key r := rfl

theorem key_withPricing (pricing : ChannelModelPricing) (r : ModelChannelRow) :
    key (r.withPricing pricing) = key r := rfl

/-- A pricing that has been stored is read back. -/
theorem pricing_withPricing (p : ChannelModelPricing) (r : ModelChannelRow) :
    (r.withPricing p).pricing = p := by
  rw [withPricing, pricing, BillingType.fromI32_asI32]

end ModelChannelRow

namespace ModelRepo

/-- All models, by id. -/
def listAllModels (db : Db) : List ModelRow :=
  db.models.rows.insertionSort fun m m' => m.id ≤ m'.id

def getModelById (id : ℤ) (db : Db) : Option ModelRow := db.models.find? id

def getModelByName (name : String) (db : Db) : Option ModelRow :=
  db.models.rows.find? fun m => m.canonicalName == name

def createModel (canonicalName : String) : Stmt ℤ := fun db =>
  if db.models.rows.any (fun m => m.canonicalName == canonicalName) then
    .error (uniqueFailed "models.canonical_name")
  else .ok (db.models.nextId, { db with
    models := db.models.insertNew (fun id => ⟨id, canonicalName, "priority"⟩) fun _ => rfl })

def renameModel (modelId : ℤ) (newName : String) : Stmt Unit := fun db =>
  if db.models.rows.all fun m => m.id != modelId then .error (.modelNotFound (toString modelId))
  else if db.models.rows.any fun m => m.id != modelId && m.canonicalName == newName then
    .error (uniqueFailed "models.canonical_name")
  else .ok ((), { db with
    models := db.models.update (fun m => m.id == modelId) (ModelRow.renamed newName)
      (ModelRow.key_renamed newName) })

/-- The bindings of the model go with it. A usage log or a small model merged into it forbids the
deletion. -/
def deleteModel (modelId : ℤ) : Stmt Unit := fun db =>
  if db.models.rows.all fun m => m.id != modelId then .ok ((), db)
  else if db.usageLogs.rows.any (fun l => l.modelId == modelId) ||
      db.discoveredModels.rows.any (fun m => m.mergedToModelId == some modelId) then
    .error foreignKeyFailed
  else .ok ((), { db with
    models := db.models.delete fun m => m.id == modelId
    modelChannels := db.modelChannels.delete fun b => b.modelId == modelId })

def updateRoutingStrategy (modelId : ℤ) (strategy : String) : Stmt Unit := fun db =>
  if db.models.rows.all fun m => m.id != modelId then .error (.modelNotFound (toString modelId))
  else .ok ((), { db with
    models := db.models.update (fun m => m.id == modelId) (ModelRow.withStrategy strategy)
      (ModelRow.key_withStrategy strategy) })

section Frames

variable {db db' : Db} {id : ℤ} {name : String}

theorem createModel_frame (h : createModel name db = .ok (id, db')) :
    ∃ T, db' = { db with models := T } := by
  rw [createModel] at h
  split at h <;> cases h
  exact ⟨_, rfl⟩

theorem renameModel_frame (h : renameModel id name db = .ok ((), db')) :
    ∃ T, db' = { db with models := T } := by
  rw [renameModel] at h
  split at h
  · cases h
  · split at h <;> cases h
    exact ⟨_, rfl⟩

theorem updateRoutingStrategy_frame (h : updateRoutingStrategy id name db = .ok ((), db')) :
    ∃ T, db' = { db with models := T } := by
  rw [updateRoutingStrategy] at h
  split at h <;> cases h
  exact ⟨_, rfl⟩

theorem deleteModel_frame (h : deleteModel id db = .ok ((), db')) :
    db' = db ∨ db' = { db with
      models := db.models.delete fun m => m.id == id
      modelChannels := db.modelChannels.delete fun b => b.modelId == id } := by
  rw [deleteModel] at h
  split at h
  · cases h
    exact .inl rfl
  · split at h <;> cases h
    exact .inr rfl

end Frames

/-- Priority first, then channel. Rows of one model that tie are found in the order of the primary
key, by name; characters are ordered like the bytes of their encoding. -/
def bindingLE (b b' : ModelChannelRow) : Prop :=
  b.priority < b'.priority ∨ b.priority = b'.priority ∧
    (b.channelId < b'.channelId ∨ b.channelId = b'.channelId ∧
      b.upstreamModelName ≤ b'.upstreamModelName)

instance (b b' : ModelChannelRow) : Decidable (bindingLE b b') :=
  inferInstanceAs (Decidable (_ ∨ _))

/-- The bindings of a model that exists. -/
def getBindingsForModel (modelId : ℤ) (db : Db) : List ModelChannelRow :=
  (db.modelChannels.rows.filter fun b => b.modelId == modelId &&
    (db.models.find? b.modelId).isSome).insertionSort bindingLE

/-- The bindings of a channel to models that exist, by priority and model. The order of those that
tie is left to the database: `rank` puts their names in it. -/
def getBindingsForChannel (rank : String → ℕ) (channelId : ℤ) (db : Db) : List ModelChannelRow :=
  (db.modelChannels.rows.filter fun b => b.channelId == channelId &&
    (db.models.find? b.modelId).isSome).insertionSort fun b b' =>
      b.priority < b'.priority ∨ b.priority = b'.priority ∧
        (b.modelId < b'.modelId ∨ b.modelId = b'.modelId ∧
          rank b.upstreamModelName ≤ rank b'.upstreamModelName)

def getBindingPricing (modelId channelId : ℤ) (upstreamModelName : String) (db : Db) :
    Option ChannelModelPricing :=
  (db.modelChannels.find? (modelId, channelId, upstreamModelName)).map ModelChannelRow.pricing

/-- A binding that is there gets the priority and the weight, and keeps its pricing. -/
def addBindingWithWeight (modelId channelId : ℤ) (upstreamModelName : String)
    (priority weight : ℤ) : Stmt Unit := fun db =>
  let row := ModelChannelRow.fresh modelId channelId upstreamModelName priority weight
  match db.modelChannels.insert? row with
  | none => .ok ((), { db with
      modelChannels := db.modelChannels.update (fun b => key b == key row)
        (fun b => (b.withPriority priority).withWeight weight) fun _ => rfl })
  | some T =>
    if (db.models.find? modelId).isNone || (db.channels.find? channelId).isNone then
      .error foreignKeyFailed
    else .ok ((), { db with modelChannels := T })

theorem addBindingWithWeight_frame {db db' : Db} {modelId channelId priority weight : ℤ}
    {upstream : String}
    (h : addBindingWithWeight modelId channelId upstream priority weight db =
      .ok ((), db')) : ∃ T, db' = { db with modelChannels := T } := by
  rw [addBindingWithWeight] at h
  split at h
  · cases h
    exact ⟨_, rfl⟩
  · split at h <;> cases h
    exact ⟨_, rfl⟩

theorem addBindingWithWeight_succeeds {db : Db} {modelId channelId : ℤ} (upstream : String)
    (priority weight : ℤ) (hmodel : (db.models.find? modelId).isSome)
    (hchannel : (db.channels.find? channelId).isSome) :
    ∃ db', addBindingWithWeight modelId channelId upstream priority weight db = .ok ((), db') := by
  rw [addBindingWithWeight]
  split
  · exact ⟨_, rfl⟩
  · rw [Option.isNone_eq_false_iff.mpr hmodel, Option.isNone_eq_false_iff.mpr hchannel]
    exact ⟨_, rfl⟩

def addBinding (modelId channelId : ℤ) (upstreamModelName : String) (priority : ℤ) : Stmt Unit :=
  addBindingWithWeight modelId channelId upstreamModelName priority 1

def removeBinding (modelId channelId : ℤ) (upstreamModelName : String) : Stmt Unit := fun db =>
  .ok ((), { db with
    modelChannels := db.modelChannels.delete fun b =>
      key b == (modelId, channelId, upstreamModelName) })

/-- Change the row of a binding, which must be there. -/
def updateBinding (modelId channelId : ℤ) (upstreamModelName : String)
    (f : ModelChannelRow → ModelChannelRow) (hf : ∀ r, key (f r) = key r) : Stmt Unit := fun db =>
  if (db.modelChannels.find? (modelId, channelId, upstreamModelName)).isNone then
    .error (.storage (s!"binding (model={modelId}, channel={channelId}, " ++
      s!"upstream={upstreamModelName}) not found"))
  else .ok ((), { db with
    modelChannels := db.modelChannels.update
      (fun b => key b == (modelId, channelId, upstreamModelName)) f hf })

theorem updateBinding_frame {db db' : Db} {modelId channelId : ℤ} {upstream : String}
    {f : ModelChannelRow → ModelChannelRow} {hf : ∀ r, key (f r) = key r}
    (h : updateBinding modelId channelId upstream f hf db = .ok ((), db')) :
    ∃ T, db' = { db with modelChannels := T } := by
  rw [updateBinding] at h
  split at h <;> cases h
  exact ⟨_, rfl⟩

def updateBindingWeight (modelId channelId : ℤ) (upstreamModelName : String) (weight : ℤ) :
    Stmt Unit :=
  updateBinding modelId channelId upstreamModelName (ModelChannelRow.withWeight weight)
    (ModelChannelRow.key_withWeight weight)

def updateBindingPricing (modelId channelId : ℤ) (upstreamModelName : String)
    (pricing : ChannelModelPricing) : Stmt Unit :=
  updateBinding modelId channelId upstreamModelName (ModelChannelRow.withPricing pricing)
    (ModelChannelRow.key_withPricing pricing)

/-- The updates of `reorder_bindings`, in the given order. Bindings that are not there are passed
over. -/
def setPriorities (modelId : ℤ) : ℕ → List (ℤ × String) → Table ModelChannelRow →
    Table ModelChannelRow
  | _, [], T => T
  | i, (channelId, upstream) :: rest, T =>
    let priority := ((Int32.ofNat i + 1) * 10).toInt
    setPriorities modelId (i + 1) rest
      (T.update (fun b => key b == (modelId, channelId, upstream))
        (ModelChannelRow.withPriority priority) (ModelChannelRow.key_withPriority priority))

def reorderBindings (modelId : ℤ) (orderedBindings : List (ℤ × String)) : Stmt Unit := fun db =>
  .ok ((), { db with modelChannels := setPriorities modelId 0 orderedBindings db.modelChannels })

end ModelRepo

end Chennix
