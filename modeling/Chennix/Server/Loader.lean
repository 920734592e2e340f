import Chennix.Core.Cache
import Chennix.Core.Normalizer
import Chennix.Storage.Keys
import Chennix.Storage.Models

/-!
# The storage adapter as a cache loader

The snapshot and the alias mapping as they are built from the database.

## Main definitions

* `StorageAdapter.loadAll` — the snapshot
* `StorageAdapter.loadAliasMapping` — the names of the models

## Main results

* `StorageAdapter.bindingsFor_loadAll`, `channel_loadAll`, `keysFor_loadAll` — what the snapshot
  holds of a model, a channel and its keys
* `StorageAdapter.getForModel_loadAll` — what it binds to a model
-/

namespace Chennix

open Foundations

/-- What the cache keeps of a binding. -/
def ModelChannelRow.toBinding (b : ModelChannelRow) : Binding :=
  ⟨b.channelId, b.upstreamModelName, b.priority, b.weight⟩

/-- What the cache keeps of the quota of a small model. -/
def DiscoveredModel.quotaState (m : DiscoveredModel) : QuotaState where
  limit := m.quotaLimit
  unit := m.quotaUnit.bind QuotaUnit.fromDbStr
  window := m.quotaWindow.bind QuotaWindow.fromDbStr
  used := m.usedQuota
  lastResetAt := m.lastResetAt
  status := .fromDbStr m.quotaStatus

namespace StorageAdapter

/-- The bindings of a model, by priority. -/
def loadBindings (modelId : ℤ) (db : Db) : List Binding :=
  ((ModelRepo.getBindingsForModel modelId db).map ModelChannelRow.toBinding).insertionSort
    fun b b' => b.priority ≤ b'.priority

/-- The pricing of the bindings of a model. -/
def loadPricing (modelId : ℤ) (db : Db) : List ((ℤ × ℤ × String) × ChannelModelPricing) :=
  (ModelRepo.getBindingsForModel modelId db).filterMap fun b =>
    (ModelRepo.getBindingPricing modelId b.channelId b.upstreamModelName db).map fun pricing =>
      ((modelId, b.channelId, b.upstreamModelName), pricing)

def loadAll (db : Db) : CacheData where
  channels := ChannelRepo.listChannels db
  keys := .ofList ((ChannelRepo.listChannels db).map fun c =>
    (c.id, KeyRepo.getKeysForChannel c.id db))
  bindings := .ofList ((ModelRepo.listAllModels db).map fun m => (m.id, loadBindings m.id db))
  channelModelPricing := .ofList ((ModelRepo.listAllModels db).flatMap fun m =>
    loadPricing m.id db)
  routingStrategy := .ofList ((ModelRepo.listAllModels db).map fun m =>
    (m.id, .fromDbStr m.routingStrategy))
  smallModelQuota := .ofList ((DiscoveredModelRepo.listDiscoveredModels db).map fun m =>
    ((m.channelId, m.rawModelName), m.quotaState))

/-- Each canonical name leads to its model. -/
def loadAliasMapping (db : Db) : AliasMapping :=
  (ModelRepo.listAllModels db).foldl
    (fun mapping m => mapping.insert m.canonicalName (m.id, m.canonicalName)) ∅

variable {db : Db}

theorem mem_listChannels {c : ChannelConfig} :
    c ∈ ChannelRepo.listChannels db ↔ c ∈ db.channels.rows :=
  List.mem_insertionSort _

theorem mem_listAllModels {m : ModelRow} :
    m ∈ ModelRepo.listAllModels db ↔ m ∈ db.models.rows :=
  List.mem_insertionSort _

/-- The snapshot knows the bindings of every model. -/
theorem bindingsFor_loadAll {m : ModelRow} (h : m ∈ db.models.rows) :
    (loadAll db).bindingsFor m.id = some (loadBindings m.id db) := by
  refine Map.ofList_of_mem (List.mem_map_of_mem (mem_listAllModels.mpr h)) ?_
  intro kv hkv hk
  obtain ⟨m', _, rfl⟩ := List.mem_map.mp hkv
  show loadBindings m'.id db = loadBindings m.id db
  rw [show m'.id = m.id from hk]

/-- The snapshot knows every channel. -/
theorem channel_loadAll {c : ChannelConfig} (h : c ∈ db.channels.rows) :
    (loadAll db).channel c.id = some c := by
  have hmem : c ∈ ChannelRepo.listChannels db := mem_listChannels.mpr h
  show (ChannelRepo.listChannels db).find? (fun c' => c'.id == c.id) = some c
  cases hf : (ChannelRepo.listChannels db).find? fun c' => c'.id == c.id with
  | none =>
    have := List.find?_eq_none.mp hf c hmem
    simp at this
  | some c' =>
    have hid : c'.id = c.id := by simpa using List.find?_some hf
    have hmem' : c' ∈ db.channels.rows := mem_listChannels.mp (List.mem_of_find?_eq_some hf)
    rw [List.inj_on_of_nodup_map db.channels.nodup hmem' h hid]

/-- The snapshot knows the keys of every channel. -/
theorem keysFor_loadAll {c : ChannelConfig} (h : c ∈ db.channels.rows) :
    (loadAll db).keysFor c.id = some (KeyRepo.getKeysForChannel c.id db) := by
  refine Map.ofList_of_mem (List.mem_map_of_mem (mem_listChannels.mpr h)) ?_
  intro kv hkv hk
  obtain ⟨c', _, rfl⟩ := List.mem_map.mp hkv
  show KeyRepo.getKeysForChannel c'.id db = KeyRepo.getKeysForChannel c.id db
  rw [show c'.id = c.id from hk]

theorem mem_getKeysForChannel {channelId : ℤ} {k : KeyConfig} :
    k ∈ KeyRepo.getKeysForChannel channelId db ↔
      k ∈ db.channelKeys.rows ∧ k.channelId = channelId := by
  rw [KeyRepo.getKeysForChannel, List.mem_insertionSort, List.mem_filter, beq_iff_eq]

theorem mem_loadBindings {modelId : ℤ} {b : Binding} :
    b ∈ loadBindings modelId db ↔
      ∃ r ∈ db.modelChannels.rows, (r.modelId = modelId ∧ (db.models.find? r.modelId).isSome) ∧
        r.toBinding = b := by
  rw [loadBindings, List.mem_insertionSort, List.mem_map]
  simp only [ModelRepo.getBindingsForModel, List.mem_insertionSort, List.mem_filter,
    Bool.and_eq_true, beq_iff_eq, and_assoc]

/-- The bindings of a model are different channels or different upstream models. -/
theorem loadBindings_distinct (modelId : ℤ) :
    (loadBindings modelId db).Pairwise fun b b' =>
      (b.channelId, b.upstreamModelName) ≠ (b'.channelId, b'.upstreamModelName) := by
  have hrows : (ModelRepo.getBindingsForModel modelId db).Pairwise fun r r' =>
      (r.channelId, r.upstreamModelName) ≠ (r'.channelId, r'.upstreamModelName) := by
    refine ((List.perm_insertionSort _ _).pairwise_iff fun hne => hne.symm).mpr ?_
    refine ((List.pairwise_map.mp db.modelChannels.nodup).filter _).imp_of_mem
      fun {r r'} hr hr' hne heq => hne ?_
    have hof (r : ModelChannelRow) (hr : r ∈ db.modelChannels.rows.filter fun b =>
        b.modelId == modelId && (db.models.find? b.modelId).isSome) : r.modelId = modelId := by
      simpa using (Bool.and_eq_true_iff.mp (List.mem_filter.mp hr).2).1
    exact Prod.ext ((hof r hr).trans (hof r' hr').symm) heq
  exact ((List.perm_insertionSort _ _).pairwise_iff fun hne => hne.symm).mpr
    (List.pairwise_map.mpr hrows)

/-- What the snapshot binds to a model comes from the database. -/
theorem mem_bindingsFor {modelId : ℤ} {bs : List Binding}
    (h : (loadAll db).bindingsFor modelId = some bs) : bs = loadBindings modelId db := by
  obtain ⟨m, _, hm⟩ := List.mem_map.mp (Map.mem_of_ofList h)
  obtain ⟨rfl, rfl⟩ := Prod.mk.inj hm
  rfl

theorem mem_keysFor {channelId : ℤ} {keys : List KeyConfig}
    (h : (loadAll db).keysFor channelId = some keys) :
    keys = KeyRepo.getKeysForChannel channelId db := by
  obtain ⟨c, _, hc⟩ := List.mem_map.mp (Map.mem_of_ofList h)
  obtain ⟨rfl, rfl⟩ := Prod.mk.inj hc
  rfl

/-- The bound channel that a snapshot of the database makes of a binding. -/
def boundChannel (db : Db) (b : Binding) : Option BoundChannel :=
  ((loadAll db).channel b.channelId).bind fun channel =>
    let keys := ((loadAll db).keysFor b.channelId).getD []
    if keys = [] then none
    else some (channel, keys, b.upstreamModelName, b.priority, b.weight)

theorem boundChannel_eq_some {b : Binding} {bound : BoundChannel}
    (h : boundChannel db b = some bound) :
    (bound.1.id, bound.2.2.1) = (b.channelId, b.upstreamModelName) ∧
      bound.2.1 = KeyRepo.getKeysForChannel b.channelId db := by
  obtain ⟨channel, hchannel, h⟩ := Option.bind_eq_some_iff.mp h
  have hid : channel.id = b.channelId := by simpa using List.find?_some hchannel
  cases hkeys : (loadAll db).keysFor b.channelId with
  | none => simp [hkeys] at h
  | some keys =>
    rw [hkeys, Option.getD_some] at h
    by_cases hnil : keys = []
    · simp [hnil] at h
    · rw [if_neg hnil] at h
      obtain rfl := Option.some.inj h
      exact ⟨Prod.ext hid rfl, mem_keysFor hkeys⟩

/-- The bound channels of a model, in a snapshot of the database. -/
theorem getForModel_loadAll (modelId : ℤ) (db : Db) :
    ∃ bs, (bs = loadBindings modelId db ∨ bs = []) ∧
      (loadAll db).getForModel modelId = bs.filterMap (boundChannel db) := by
  refine ⟨((loadAll db).bindingsFor modelId).getD [], ?_, rfl⟩
  cases h : (loadAll db).bindingsFor modelId with
  | none => exact .inr rfl
  | some bs => exact .inl (mem_bindingsFor h)

end StorageAdapter

end Chennix
