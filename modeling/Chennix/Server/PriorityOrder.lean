import Chennix.Core.Router
import Chennix.Server.Loader

/-!
# The stored order

The database returns the keys of a channel and the bindings of a model by priority. The router sorts
both by priority once more, which changes nothing any more: what it tries comes in the order of the
database.

## Main results

* `StorageAdapter.loadBindings_eq` — the bindings of the snapshot stand in the order of the database
* `Router.route_loadAll` — and so do the buckets
* `Router.keys_of_mem_route` — and the keys in each of them
-/

namespace Chennix

open Foundations StorageAdapter

namespace KeyRepo

instance : Std.Total rowLE := ⟨fun k k' => by unfold rowLE; omega⟩

instance : IsTrans KeyConfig rowLE := ⟨fun k₁ k₂ k₃ h h' => by unfold rowLE at *; omega⟩

theorem keyPriority_le {k k' : KeyConfig} (h : rowLE k k') : k.keyPriority ≤ k'.keyPriority := by
  unfold rowLE at h
  omega

/-- Keys are returned by priority. -/
theorem pairwise_getKeysForChannel (channelId : ℤ) (db : Db) :
    (getKeysForChannel channelId db).Pairwise fun k k' => k.keyPriority ≤ k'.keyPriority :=
  (List.pairwise_insertionSort rowLE _).imp keyPriority_le

end KeyRepo

namespace ModelRepo

instance : Std.Total bindingLE := ⟨fun b b' => by
  unfold bindingLE
  rcases String.le_total b.upstreamModelName b'.upstreamModelName with hname | hname
  · rw [and_iff_left hname]
    omega
  · rw [and_iff_left (a := b'.channelId = b.channelId) hname]
    omega⟩

instance : IsTrans ModelChannelRow bindingLE := ⟨fun b₁ b₂ b₃ h h' => by
  rcases h with h | ⟨hprio, h | ⟨hchannel, h⟩⟩ <;>
    rcases h' with h' | ⟨hprio', h' | ⟨hchannel', h'⟩⟩
  case inr.inr.inr.inr =>
    exact .inr ⟨hprio.trans hprio', .inr ⟨hchannel.trans hchannel', String.le_trans h h'⟩⟩
  all_goals unfold bindingLE; omega⟩

theorem priority_le {b b' : ModelChannelRow} (h : bindingLE b b') : b.priority ≤ b'.priority := by
  unfold bindingLE at h
  omega

/-- Bindings are returned by priority. -/
theorem pairwise_getBindingsForModel (modelId : ℤ) (db : Db) :
    (getBindingsForModel modelId db).Pairwise fun b b' => b.priority ≤ b'.priority :=
  (List.pairwise_insertionSort bindingLE _).imp priority_le

end ModelRepo

theorem StorageAdapter.loadBindings_eq (modelId : ℤ) (db : Db) :
    loadBindings modelId db =
      (ModelRepo.getBindingsForModel modelId db).map ModelChannelRow.toBinding :=
  List.Pairwise.insertionSort_eq
    (List.pairwise_map.mpr (ModelRepo.pairwise_getBindingsForModel modelId db))

theorem Bucket.sortKeys_eq {b : Bucket}
    (h : b.keys.Pairwise fun r r' => r.key.keyPriority ≤ r'.key.keyPriority) : b.sortKeys = b := by
  obtain ⟨keys, hkeys⟩ := b
  simp only [Bucket.sortKeys, Bucket.mk.injEq]
  exact h.insertionSort_eq

namespace Router

variable {userGroup : String} {isKeyAvailable quotaFilter : ℤ → String → Bool} {draw : ℕ → ℤ}
  {bound : BoundChannel} {b : Bucket}

/-- A bucket holds the keys that are available, in the order they are given. -/
theorem keys_bucket (h : bucket userGroup isKeyAvailable quotaFilter bound = some b) :
    b.keys = (bound.2.1.filter fun k => isKeyAvailable k.id bound.2.2.1).map fun k =>
      ⟨bound.1, k, bound.2.2.1, bound.2.2.2.1, bound.2.2.2.2⟩ := by
  obtain ⟨channel, keys, upstream, priority, weight⟩ := bound
  rw [bucket, Bucket.ofList?] at h
  split at h
  · cases h
  · split at h
    · cases h
    · split at h <;> cases h
      rfl

/-- The first key of a bucket, like all of its keys, is of the bound channel. -/
theorem first_bucket (h : bucket userGroup isKeyAvailable quotaFilter bound = some b) :
    b.first.channel = bound.1 ∧ b.first.upstreamModelName = bound.2.2.1 ∧
      b.first.bindingPriority = bound.2.2.2.1 := by
  have hmem : b.first ∈ b.keys := List.head_mem b.nonempty
  rw [keys_bucket h] at hmem
  obtain ⟨k, -, hk⟩ := List.mem_map.mp hmem
  rw [← hk]
  exact ⟨rfl, rfl, rfl⟩

/-- What the router makes of a binding, in a snapshot of the database. -/
def bucketOf (db : Db) (userGroup : String) (isKeyAvailable quotaFilter : ℤ → String → Bool)
    (binding : Binding) : Option Bucket :=
  (boundChannel db binding).bind (bucket userGroup isKeyAvailable quotaFilter)

theorem bucketOf_eq_some {db : Db} {binding : Binding}
    (h : bucketOf db userGroup isKeyAvailable quotaFilter binding = some b) :
    b.first.channel.id = binding.channelId ∧
      b.first.upstreamModelName = binding.upstreamModelName ∧
      b.first.bindingPriority = binding.priority ∧
      b.keys.map RoutedKey.key = (KeyRepo.getKeysForChannel binding.channelId db).filter
        fun k => isKeyAvailable k.id binding.upstreamModelName := by
  obtain ⟨bound, hbound, hb⟩ := Option.bind_eq_some_iff.mp h
  obtain ⟨hof, hkeys⟩ := boundChannel_eq_some hbound
  have hpriority : bound.2.2.2.1 = binding.priority := by
    obtain ⟨channel, -, h⟩ := Option.bind_eq_some_iff.mp hbound
    simp only [Option.ite_none_left_eq_some, Option.some.injEq] at h
    rw [← h.2]
  obtain ⟨hid, hupstream⟩ := Prod.mk.inj hof
  obtain ⟨hchannel, hfirst, hprio⟩ := first_bucket hb
  refine ⟨by rw [hchannel, hid], hfirst.trans hupstream, hprio.trans hpriority, ?_⟩
  rw [keys_bucket hb, hkeys, hupstream, List.map_map]
  exact List.map_id _

/-- **Bindings are tried in the order of the database**, and each with its keys in theirs. -/
theorem route_loadAll (db : Db) (modelId : ℤ) (userGroup : String)
    (isKeyAvailable quotaFilter : ℤ → String → Bool) (draw : ℕ → ℤ) :
    ∃ bs : List Binding,
      (bs = (ModelRepo.getBindingsForModel modelId db).map ModelChannelRow.toBinding ∨ bs = []) ∧
        route ((loadAll db).getForModel modelId) userGroup isKeyAvailable .priority quotaFilter
          draw = bs.filterMap (bucketOf db userGroup isKeyAvailable quotaFilter) := by
  obtain ⟨bs, hbs, hget⟩ := getForModel_loadAll modelId db
  rw [loadBindings_eq] at hbs
  refine ⟨bs, hbs, ?_⟩
  have hsorted : bs.Pairwise fun b b' => b.priority ≤ b'.priority := by
    rcases hbs with rfl | rfl
    · exact List.pairwise_map.mpr (ModelRepo.pairwise_getBindingsForModel modelId db)
    · exact List.Pairwise.nil
  have hgroups : (bs.filterMap (boundChannel db)).filterMap
      (bucket userGroup isKeyAvailable quotaFilter) =
        bs.filterMap (bucketOf db userGroup isKeyAvailable quotaFilter) :=
    List.filterMap_filterMap
  have hkeys : ∀ b ∈ bs.filterMap (bucketOf db userGroup isKeyAvailable quotaFilter),
      b.sortKeys = b := by
    intro b hb
    obtain ⟨binding, -, hof⟩ := List.mem_filterMap.mp hb
    have hpairs : (b.keys.map RoutedKey.key).Pairwise
        fun k k' => k.keyPriority ≤ k'.keyPriority := by
      rw [(bucketOf_eq_some hof).2.2.2]
      exact (KeyRepo.pairwise_getKeysForChannel binding.channelId db).filter _
    rw [List.pairwise_map] at hpairs
    exact Bucket.sortKeys_eq hpairs
  rw [route, hget, hgroups, routePriority, List.map_congr_left hkeys, List.map_id']
  refine List.Pairwise.insertionSort_eq (List.pairwise_filterMap.mpr (hsorted.imp ?_))
  intro b b' hle g hg g' hg'
  rw [(bucketOf_eq_some hg).2.2.1, (bucketOf_eq_some hg').2.2.1]
  exact hle

/-- **Keys are tried in the order of the database.** -/
theorem keys_of_mem_route {db : Db} {modelId : ℤ}
    (hb : b ∈ route ((loadAll db).getForModel modelId) userGroup isKeyAvailable .priority
      quotaFilter draw) :
    b.keys.map RoutedKey.key = (KeyRepo.getKeysForChannel b.first.channel.id db).filter
      fun k => isKeyAvailable k.id b.first.upstreamModelName := by
  obtain ⟨bs, -, hroute⟩ := route_loadAll db modelId userGroup isKeyAvailable quotaFilter draw
  rw [hroute] at hb
  obtain ⟨binding, -, hof⟩ := List.mem_filterMap.mp hb
  obtain ⟨hchannel, hupstream, -, hkeys⟩ := bucketOf_eq_some hof
  rw [hchannel, hupstream, hkeys]

end Router

end Chennix
