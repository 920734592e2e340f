import Chennix.Core.Cache
import Mathlib.Data.List.Sort

/-!
# Routing

From the channels a model is bound to, the candidates for one request: one bucket of keys for each
binding, in the order in which they are to be tried.

## Main definitions

* `RoutedKey`, `Bucket` — a candidate, and the candidates of one binding
* `Router.route` — filter, expand and order
* `routePriority`, `routeLoadBalance` — the two orders

## Main results

* `drawBindings_perm` — the draws leave no binding out
* `Router.mem_route` — which keys are candidates, whatever the order
-/

namespace Chennix

open Foundations

/-- A candidate. -/
structure RoutedKey where
  channel : ChannelConfig
  key : KeyConfig
  upstreamModelName : String
  bindingPriority : ℤ
  weight : ℤ
  deriving DecidableEq, Repr

namespace RoutedKey

/-- The binding the candidate is of: its channel and its upstream model. -/
def binding (r : RoutedKey) : ℤ × String := (r.channel.id, r.upstreamModelName)

/-- What an upstream is asked with: the key and the upstream model. -/
def pair (r : RoutedKey) : ℤ × String := (r.key.id, r.upstreamModelName)

end RoutedKey

/-- The candidates of one binding. A binding without candidates is no bucket. -/
structure Bucket where
  keys : List RoutedKey
  nonempty : keys ≠ []
  deriving DecidableEq

namespace Bucket

def ofList? (keys : List RoutedKey) : Option Bucket :=
  if h : keys ≠ [] then some ⟨keys, h⟩ else none

/-- The first candidate. -/
def first (b : Bucket) : RoutedKey := b.keys.head b.nonempty

/-- The candidates by key priority, those of the same priority in the order they had. -/
def sortKeys (b : Bucket) : Bucket where
  keys := b.keys.insertionSort fun r r' => r.key.keyPriority ≤ r'.key.keyPriority
  nonempty := by
    rw [Ne, ← List.length_eq_zero_iff, List.length_insertionSort, List.length_eq_zero_iff]
    exact b.nonempty

end Bucket

/-- The bindings by priority, those of the same priority in the order they had. -/
def sortBindings (groups : List Bucket) : List Bucket :=
  groups.insertionSort fun b b' => b.first.bindingPriority ≤ b'.first.bindingPriority

/-- By priority, lowest first. -/
def routePriority (groups : List Bucket) : List Bucket :=
  sortBindings (groups.map Bucket.sortKeys)

/-- The share of a binding in a draw. -/
def bindingWeight (b : Bucket) : ℤ := max b.first.weight 1

/-- The position a draw falls on: the first whose weights up to and including it exceed it. -/
def chosen (pick : ℤ) : (acc : ℤ) → List Bucket → ℕ
  | _, [] => 0
  | _, [_] => 0
  | acc, b :: b' :: rest =>
    if pick < acc + bindingWeight b then 0
    else chosen pick (acc + bindingWeight b) (b' :: rest) + 1

/-- Draw `n` times from what is left, given the draws. -/
def drawBindings (draw : ℕ → ℤ) : (n : ℕ) → List Bucket → List Bucket
  | 0, _ => []
  | n + 1, groups =>
    let i := chosen (draw n) 0 groups
    groups[i]?.toList ++ drawBindings draw n (groups.eraseIdx i)

/-- A draw falls on one of the bindings that are left. -/
theorem chosen_lt (pick : ℤ) : ∀ (acc : ℤ) (groups : List Bucket), groups ≠ [] →
    chosen pick acc groups < groups.length := by
  intro acc groups
  induction groups generalizing acc with
  | nil =>
    intro h
    exact absurd rfl h
  | cons b rest ih =>
    intro _
    cases rest with
    | nil => exact Nat.zero_lt_one
    | cons b' rest =>
      rw [chosen, List.length_cons]
      split
      · omega
      · have := ih (acc + bindingWeight b) (List.cons_ne_nil _ _)
        omega

/-- **No binding is left out**: drawing as often as there are bindings gives all of them. -/
theorem drawBindings_perm (draw : ℕ → ℤ) : ∀ (n : ℕ) (groups : List Bucket),
    groups.length = n → (drawBindings draw n groups).Perm groups := by
  intro n
  induction n with
  | zero =>
    intro groups hlen
    rw [List.length_eq_zero_iff.mp hlen]
    exact List.Perm.refl _
  | succ n ih =>
    intro groups hlen
    have hne : groups ≠ [] := List.ne_nil_of_length_eq_add_one hlen
    have hlt : chosen (draw n) 0 groups < groups.length := chosen_lt _ _ _ hne
    have hrest : (groups.eraseIdx (chosen (draw n) 0 groups)).length = n := by
      rw [List.length_eraseIdx_of_lt hlt, hlen, Nat.add_sub_cancel]
    rw [drawBindings, List.getElem?_eq_getElem hlt]
    refine ((ih _ hrest).cons _).trans ?_
    rw [List.eraseIdx_eq_take_drop_succ]
    refine List.perm_middle.symm.trans ?_
    rw [List.getElem_cons_drop, List.take_append_drop]

/-- By weighted draws without replacement. -/
def routeLoadBalance (draw : ℕ → ℤ) (groups : List Bucket) : List Bucket :=
  let groups := sortBindings (groups.map Bucket.sortKeys)
  drawBindings draw groups.length groups

namespace Router

/-- The group is one of the channel's, which are separated by commas. -/
def groupMatch (userGroup : String) (channel : ChannelConfig) : Bool :=
  (Text.split ',' channel.group).any fun g => Text.trim g == Text.trim userGroup

/-- The bucket of a binding, unless it is filtered out or has no key left. -/
def bucket (userGroup : String) (isKeyAvailable quotaFilter : ℤ → String → Bool) :
    BoundChannel → Option Bucket
  | (channel, keys, upstreamModelName, bindingPriority, weight) =>
    if !groupMatch userGroup channel then none
    else if !quotaFilter channel.id upstreamModelName then none
    else
      Bucket.ofList? ((keys.filter fun key => isKeyAvailable key.id upstreamModelName).map
        fun key => ⟨channel, key, upstreamModelName, bindingPriority, weight⟩)

/-- `Router::route`, given the draws of the load balancer. -/
def route (channels : List BoundChannel) (userGroup : String)
    (isKeyAvailable : ℤ → String → Bool) (strategy : RoutingStrategy)
    (quotaFilter : ℤ → String → Bool) (draw : ℕ → ℤ) : List Bucket :=
  let groups := channels.filterMap (bucket userGroup isKeyAvailable quotaFilter)
  match strategy with
  | .priority => routePriority groups
  | .loadBalance => routeLoadBalance draw groups

/-! ### Who is a candidate -/

/-- All candidates, binding by binding. -/
def candidates (groups : List Bucket) : List RoutedKey := groups.flatMap Bucket.keys

variable {groups : List Bucket} {r : RoutedKey}

theorem mem_candidates : r ∈ candidates groups ↔ ∃ b ∈ groups, r ∈ b.keys := List.mem_flatMap

theorem mem_candidates_perm {groups' : List Bucket} (h : groups.Perm groups') :
    r ∈ candidates groups ↔ r ∈ candidates groups' :=
  (h.flatMap_right _).mem_iff

theorem mem_candidates_sorted :
    r ∈ candidates (sortBindings (groups.map Bucket.sortKeys)) ↔ r ∈ candidates groups := by
  rw [sortBindings, mem_candidates_perm (List.perm_insertionSort _ _), mem_candidates,
    mem_candidates]
  constructor
  · rintro ⟨_, hsorted, hr⟩
    obtain ⟨b, hb, rfl⟩ := List.mem_map.mp hsorted
    exact ⟨b, hb, (List.mem_insertionSort _).mp hr⟩
  · rintro ⟨b, hb, hr⟩
    exact ⟨b.sortKeys, List.mem_map_of_mem hb, (List.mem_insertionSort _).mpr hr⟩

/-- Whatever the strategy, ordering neither adds a candidate nor leaves one out. -/
theorem mem_candidates_route {channels : List BoundChannel} {userGroup : String}
    {isKeyAvailable : ℤ → String → Bool} {strategy : RoutingStrategy}
    {quotaFilter : ℤ → String → Bool} {draw : ℕ → ℤ} :
    r ∈ candidates (route channels userGroup isKeyAvailable strategy quotaFilter draw) ↔
      r ∈ candidates (channels.filterMap (bucket userGroup isKeyAvailable quotaFilter)) := by
  cases strategy with
  | priority => exact mem_candidates_sorted
  | loadBalance =>
    exact (mem_candidates_perm (drawBindings_perm draw _ _ rfl)).trans mem_candidates_sorted

theorem mem_bucket {userGroup : String} {isKeyAvailable quotaFilter : ℤ → String → Bool}
    {bound : BoundChannel} :
    (∃ b, bucket userGroup isKeyAvailable quotaFilter bound = some b ∧ r ∈ b.keys) ↔
      groupMatch userGroup bound.1 = true ∧ quotaFilter bound.1.id bound.2.2.1 = true ∧
        ∃ k ∈ bound.2.1, isKeyAvailable k.id bound.2.2.1 = true ∧
          r = ⟨bound.1, k, bound.2.2.1, bound.2.2.2.1, bound.2.2.2.2⟩ := by
  obtain ⟨channel, keys, upstream, priority, weight⟩ := bound
  rw [bucket]
  by_cases hg : groupMatch userGroup channel = true
  · by_cases hq : quotaFilter channel.id upstream = true
    · rw [hg, hq, Bool.not_true, if_neg Bool.false_ne_true, if_neg Bool.false_ne_true]
      simp only [Bucket.ofList?, true_and]
      constructor
      · rintro ⟨b, hb, hr⟩
        split at hb
        · rw [Option.some.injEq] at hb
          subst hb
          obtain ⟨k, hk, rfl⟩ := List.mem_map.mp hr
          rw [List.mem_filter] at hk
          exact ⟨k, hk.1, hk.2, rfl⟩
        · exact absurd hb.symm (Option.some_ne_none b)
      · rintro ⟨k, hk, hav, rfl⟩
        have hfree : k ∈ keys.filter fun key => isKeyAvailable key.id upstream :=
          List.mem_filter.mpr ⟨hk, hav⟩
        have hmem := List.mem_map_of_mem (f := fun key : KeyConfig =>
          (⟨channel, key, upstream, priority, weight⟩ : RoutedKey)) hfree
        exact ⟨_, dif_pos (List.ne_nil_of_mem hmem), hmem⟩
    · rw [Bool.not_eq_true] at hq
      rw [hg, hq]
      simp
  · rw [Bool.not_eq_true] at hg
    rw [hg]
    simp

/-- **The candidates**: the keys of the channels that neither the group nor the two filters keep
out. -/
theorem mem_route {channels : List BoundChannel} {userGroup : String}
    {isKeyAvailable : ℤ → String → Bool} {strategy : RoutingStrategy}
    {quotaFilter : ℤ → String → Bool} {draw : ℕ → ℤ} :
    r ∈ candidates (route channels userGroup isKeyAvailable strategy quotaFilter draw) ↔
      ∃ bound ∈ channels, groupMatch userGroup bound.1 = true ∧
        quotaFilter bound.1.id bound.2.2.1 = true ∧
        ∃ k ∈ bound.2.1, isKeyAvailable k.id bound.2.2.1 = true ∧
          r = ⟨bound.1, k, bound.2.2.1, bound.2.2.2.1, bound.2.2.2.2⟩ := by
  rw [mem_candidates_route, mem_candidates]
  simp only [List.mem_filterMap, ← mem_bucket]
  constructor
  · rintro ⟨b, ⟨bound, hbound, hb⟩, hr⟩
    exact ⟨bound, hbound, b, hb, hr⟩
  · rintro ⟨bound, hbound, b, hb, hr⟩
    exact ⟨b, ⟨bound, hbound, hb⟩, hr⟩

end Router

end Chennix
