import Chennix.Core.Router
import Chennix.Foundations.StableSort

/-!
# Priority routing

What a request with the priority strategy is given: for each bound channel that the filters leave,
one bucket with the keys they leave of it. Buckets are sorted by the priority of their binding and
keys by their own, and what has the same priority stays in the order of the configuration.

## Main definitions

* `Router.offered` — the candidates the filters leave of a bound channel
* `Router.Admitted` — the filters leave something
* `Router.Distinct` — no binding and no key comes twice

## Main results

* `Router.route_byPriority` — the buckets are the admitted channels, nothing lost and nothing
  invented
* `Router.DistinctChannels.route` — what is bound once is a candidate once
-/

namespace Chennix

open Foundations

theorem Bucket.ofList?_eq_some {keys : List RoutedKey} {b : Bucket} :
    ofList? keys = some b ↔ keys ≠ [] ∧ b.keys = keys := by
  cases b with
  | mk keys' hne =>
    rw [ofList?]
    by_cases h : keys ≠ []
    · rw [dif_pos h, Option.some.injEq, Bucket.mk.injEq, eq_comm, and_iff_right h]
    · rw [dif_neg h]
      exact iff_of_false (Option.some_ne_none _).symm fun h' => h h'.1

namespace Router

variable (userGroup : String) (isKeyAvailable quotaFilter : ℤ → String → Bool)

/-- The candidates that availability leaves of a bound channel. -/
def offered : BoundChannel → List RoutedKey
  | (channel, keys, upstream, priority, weight) =>
    (keys.filter fun key => isKeyAvailable key.id upstream).map fun key =>
      ⟨channel, key, upstream, priority, weight⟩

/-- The group may use the channel, its small model has quota left, and a key is available. -/
def Admitted (bound : BoundChannel) : Prop :=
  groupMatch userGroup bound.1 = true ∧ quotaFilter bound.1.id bound.2.2.1 = true ∧
    offered isKeyAvailable bound ≠ []

instance (bound : BoundChannel) : Decidable (Admitted userGroup isKeyAvailable quotaFilter bound) :=
  inferInstanceAs (Decidable (_ ∧ _))

/-- The priority of a binding. -/
def bindingPriority (bound : BoundChannel) : ℤ := bound.2.2.2.1

variable {userGroup isKeyAvailable quotaFilter}

/-- A bound channel has a bucket exactly if it is admitted, and the bucket is what is offered. -/
theorem bucket_eq_some {bound : BoundChannel} {b : Bucket} :
    bucket userGroup isKeyAvailable quotaFilter bound = some b ↔
      Admitted userGroup isKeyAvailable quotaFilter bound ∧
        b.keys = offered isKeyAvailable bound := by
  obtain ⟨channel, keys, upstream, priority, weight⟩ := bound
  rw [bucket, Admitted]
  cases groupMatch userGroup channel with
  | false => simp
  | true =>
    cases quotaFilter channel.id upstream with
    | false => simp
    | true =>
      rw [Bool.not_true, if_neg Bool.false_ne_true, if_neg Bool.false_ne_true]
      show Bucket.ofList? (offered isKeyAvailable (channel, keys, upstream, priority, weight)) =
        some b ↔ _
      rw [Bucket.ofList?_eq_some]
      simp

/-- The bound channels that have a bucket, with their buckets. -/
def bucketsOf (channels : List BoundChannel) (userGroup : String)
    (isKeyAvailable quotaFilter : ℤ → String → Bool) : List (BoundChannel × Bucket) :=
  channels.filterMap fun bound =>
    (bucket userGroup isKeyAvailable quotaFilter bound).map fun b => (bound, b)

theorem map_fst_bucketsOf (channels : List BoundChannel) :
    (bucketsOf channels userGroup isKeyAvailable quotaFilter).map Prod.fst =
      channels.filter fun bound => Admitted userGroup isKeyAvailable quotaFilter bound := by
  rw [bucketsOf, List.map_filterMap, ← List.filterMap_eq_filter]
  refine List.filterMap_congr fun bound _ => ?_
  cases hb : bucket userGroup isKeyAvailable quotaFilter bound with
  | some b => simp [Option.guard, (bucket_eq_some.mp hb).1]
  | none =>
    have hnot : ¬ Admitted userGroup isKeyAvailable quotaFilter bound := fun had => by
      cases hb.symm.trans (bucket_eq_some.mpr ⟨had, rfl⟩ : _ = some ⟨_, had.2.2⟩)
    simp [Option.guard, hnot]

theorem map_snd_bucketsOf (channels : List BoundChannel) :
    (bucketsOf channels userGroup isKeyAvailable quotaFilter).map Prod.snd =
      channels.filterMap (bucket userGroup isKeyAvailable quotaFilter) := by
  rw [bucketsOf, List.map_filterMap]
  refine List.filterMap_congr fun bound _ => ?_
  rw [Option.map_map]
  exact Option.map_id'

theorem mem_bucketsOf {channels : List BoundChannel} {g : BoundChannel × Bucket}
    (h : g ∈ bucketsOf channels userGroup isKeyAvailable quotaFilter) :
    g.2.keys = offered isKeyAvailable g.1 := by
  obtain ⟨bound, _, hg⟩ := List.mem_filterMap.mp h
  obtain ⟨b, hb, rfl⟩ := Option.map_eq_some_iff.mp hg
  exact (bucket_eq_some.mp hb).2

/-- A bucket stands at the priority of its binding. -/
theorem first_sortKeys {g : BoundChannel × Bucket} (h : g.2.keys = offered isKeyAvailable g.1) :
    g.2.sortKeys.first.bindingPriority = bindingPriority g.1 := by
  have hmem : g.2.sortKeys.first ∈ g.2.keys := (List.mem_insertionSort _).mp (List.head_mem _)
  rw [h, offered] at hmem
  obtain ⟨key, _, hkey⟩ := List.mem_map.mp hmem
  exact congrArg RoutedKey.bindingPriority hkey.symm

/-- **Priority routing**: the buckets, each with the bound channel it is of. -/
theorem route_byPriority (channels : List BoundChannel) (userGroup : String)
    (isKeyAvailable quotaFilter : ℤ → String → Bool) (draw : ℕ → ℤ) :
    ∃ groups : List (BoundChannel × Bucket),
      route channels userGroup isKeyAvailable .priority quotaFilter draw = groups.map Prod.snd ∧
      SortsBy bindingPriority
        (channels.filter fun bound => Admitted userGroup isKeyAvailable quotaFilter bound)
        (groups.map Prod.fst) ∧
      ∀ g ∈ groups, g.2.keys ≠ [] ∧
        SortsBy (fun r : RoutedKey => r.key.keyPriority) (offered isKeyAvailable g.1) g.2.keys := by
  let pairs := (bucketsOf channels userGroup isKeyAvailable quotaFilter).map fun g =>
    (g.1, g.2.sortKeys)
  have hpairs : ∀ g ∈ pairs, ∃ g₀ ∈ bucketsOf channels userGroup isKeyAvailable quotaFilter,
      (g₀.1, g₀.2.sortKeys) = g := fun g hg => List.mem_map.mp hg
  have hfst : pairs.map Prod.fst =
      channels.filter fun bound => Admitted userGroup isKeyAvailable quotaFilter bound := by
    rw [← map_fst_bucketsOf, List.map_map]
    rfl
  have hsnd : pairs.map Prod.snd =
      (channels.filterMap (bucket userGroup isKeyAvailable quotaFilter)).map Bucket.sortKeys := by
    rw [← map_snd_bucketsOf, List.map_map, List.map_map]
    rfl
  have hfirst : ∀ g ∈ pairs, g.2.first.bindingPriority = bindingPriority g.1 := by
    intro g hg
    obtain ⟨g₀, hg₀, rfl⟩ := hpairs g hg
    exact first_sortKeys (mem_bucketsOf hg₀)
  refine ⟨pairs.insertionSort fun g g' => bindingPriority g.1 ≤ bindingPriority g'.1, ?_, ?_, ?_⟩
  · show sortBindings _ = _
    rw [sortBindings, ← hsnd]
    refine (List.map_insertionSort _ _ Prod.snd pairs fun g hg g' hg' => ?_).symm
    rw [hfirst g hg, hfirst g' hg']
  · rw [← hfst]
    exact (sortsBy_insertionSort (fun g : BoundChannel × Bucket => bindingPriority g.1) pairs).map
      fun g _ => rfl
  · intro g hg
    refine ⟨g.2.nonempty, ?_⟩
    obtain ⟨g₀, hg₀, rfl⟩ := hpairs g ((List.mem_insertionSort _).mp hg)
    rw [← mem_bucketsOf hg₀]
    exact sortsBy_insertionSort _ _

/-! ### No candidate twice -/

/-- No two buckets are of one binding, and no key is offered twice for an upstream model. -/
structure Distinct (groups : List Bucket) : Prop where
  inside : ∀ b ∈ groups, b.keys.Pairwise fun r r' => r.pair ≠ r'.pair
  across : groups.Pairwise fun b b' =>
    ∀ r ∈ b.keys, ∀ r' ∈ b'.keys, r.binding ≠ r'.binding ∧ r.pair ≠ r'.pair

/-- The same of bound channels. -/
structure DistinctChannels (channels : List BoundChannel) : Prop where
  bindings : channels.Pairwise fun c c' => (c.1.id, c.2.2.1) ≠ (c'.1.id, c'.2.2.1)
  keys : ∀ c ∈ channels, (c.2.1.map KeyConfig.id).Nodup
  /-- A key is of one channel. -/
  owner : ∀ c ∈ channels, ∀ c' ∈ channels, ∀ k ∈ c.2.1, ∀ k' ∈ c'.2.1, k.id = k'.id →
    c.1.id = c'.1.id

variable {groups groups' : List Bucket}

theorem Distinct.pairs (h : Distinct groups) :
    ((candidates groups).map RoutedKey.pair).Nodup := by
  rw [List.Nodup, List.pairwise_map, candidates, List.pairwise_flatMap]
  exact ⟨h.inside, h.across.imp fun h r hr r' hr' => (h r hr r' hr').2⟩

theorem Distinct.perm (h : Distinct groups) (hperm : groups.Perm groups') : Distinct groups' where
  inside b hb := h.inside b (hperm.mem_iff.mpr hb)
  across := by
    refine (hperm.pairwise_iff fun {b b'} hne r hr r' hr' => ?_).mp h.across
    exact ⟨(hne r' hr' r hr).1.symm, (hne r' hr' r hr).2.symm⟩

theorem Distinct.sorted (h : Distinct groups) :
    Distinct (sortBindings (groups.map Bucket.sortKeys)) := by
  have hmap : Distinct (groups.map Bucket.sortKeys) := by
    refine ⟨fun _ hb => ?_, List.pairwise_map.mpr (h.across.imp fun hne r hr r' hr' => ?_)⟩
    · obtain ⟨b, hmem, rfl⟩ := List.mem_map.mp hb
      exact ((List.perm_insertionSort _ b.keys).pairwise_iff fun hne => hne.symm).mpr
        (h.inside b hmem)
    · exact hne r ((List.mem_insertionSort _).mp hr) r' ((List.mem_insertionSort _).mp hr')
  exact hmap.perm (List.perm_insertionSort _ _).symm

theorem mem_offered {bound : BoundChannel} {r : RoutedKey}
    (h : r ∈ offered isKeyAvailable bound) :
    r.key ∈ bound.2.1 ∧ r.channel = bound.1 ∧ r.upstreamModelName = bound.2.2.1 := by
  obtain ⟨key, hkey, rfl⟩ := List.mem_map.mp h
  exact ⟨List.mem_of_mem_filter hkey, rfl, rfl⟩

/-- Filtering and expanding bring nothing in twice. -/
theorem DistinctChannels.buckets {channels : List BoundChannel} (h : DistinctChannels channels) :
    Distinct (channels.filterMap (bucket userGroup isKeyAvailable quotaFilter)) := by
  refine ⟨fun b hb => ?_, ?_⟩
  · obtain ⟨bound, hbound, hb⟩ := List.mem_filterMap.mp hb
    rw [(bucket_eq_some.mp hb).2]
    refine List.pairwise_map.mpr ((List.pairwise_map.mp (h.keys bound hbound)).filter _ |>.imp ?_)
    intro k k' hne heq
    exact hne (Prod.ext_iff.mp heq).1
  · rw [List.pairwise_filterMap]
    refine h.bindings.imp_of_mem fun {c c'} hc hc' hne b hb b' hb' r hr r' hr' => ?_
    rw [(bucket_eq_some.mp hb).2] at hr
    rw [(bucket_eq_some.mp hb').2] at hr'
    obtain ⟨hkey, hchannel, hupstream⟩ := mem_offered hr
    obtain ⟨hkey', hchannel', hupstream'⟩ := mem_offered hr'
    have hbinding : r.binding ≠ r'.binding := by
      rw [RoutedKey.binding, RoutedKey.binding, hchannel, hchannel', hupstream, hupstream']
      exact hne
    refine ⟨hbinding, fun hpair => hbinding ?_⟩
    obtain ⟨hid, hup⟩ := Prod.ext_iff.mp hpair
    rw [RoutedKey.binding, RoutedKey.binding, hchannel, hchannel',
      h.owner c hc c' hc' r.key hkey r'.key hkey' hid]
    exact congrArg _ hup

/-- Nor does the order. -/
theorem DistinctChannels.route {channels : List BoundChannel} (h : DistinctChannels channels)
    (strategy : RoutingStrategy) (draw : ℕ → ℤ) :
    Distinct (route channels userGroup isKeyAvailable strategy quotaFilter draw) := by
  cases strategy with
  | priority => exact h.buckets.sorted
  | loadBalance => exact h.buckets.sorted.perm (drawBindings_perm draw _ _ rfl).symm

end Router

end Chennix
