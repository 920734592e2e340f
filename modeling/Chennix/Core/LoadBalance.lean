import Chennix.Core.Router
import Chennix.Foundations.WeightedDraw

/-!
# The load balancer

`route_load_balance` as it runs: a loop over lists of keys that draws a binding by a running sum of
the weights, in 64 bits. Where a sum does not fit, the range to draw from is empty or the loop goes
on for too long, there is no result. Buckets may be empty here, though routing makes no empty ones.

## Main definitions

* `LoadBalance.DrawSource` — numbers as a random number generator gives them
* `LoadBalance.routeLoadBalance` — the loop
* `LoadBalance.Drawn` — the order in which draws without replacement empty a pool

## Main results

* `LoadBalance.drawn_of_drawAll` — the loop is such draws, one for each turn
* `LoadBalance.routeLoadBalance_buckets` — the router's load balancer is this loop
* `LoadBalance.routeLoadBalance_correct` — the loop ends, leaves no binding out, and gives the
  bindings in the order in which they are drawn, each draw weighted
-/

namespace Chennix.LoadBalance

open Foundations

/-- A random number generator: every time it is asked for a number below a positive bound it gives
one. -/
structure DrawSource where
  gen : (step : ℕ) → (total : ℤ) → ℤ
  within : ∀ step total, 0 < total → 0 ≤ gen step total ∧ gen step total < total

/-- The sum of two `i64`, if it is one. -/
def addI64 (a b : ℤ) : Option ℤ := if (a + b).bmod (2 ^ 64) = a + b then some (a + b) else none

/-- `gen_range(0..total)`, unless the range is empty. -/
def genRange (source : DrawSource) (step : ℕ) (total : ℤ) : Option ℤ :=
  if 0 < total then some (source.gen step total) else none

/-- The keys by priority, those of the same priority in the order they had. -/
def sortKeys (bucket : List RoutedKey) : List RoutedKey :=
  bucket.insertionSort fun r r' => r.key.keyPriority ≤ r'.key.keyPriority

/-- The priority of a binding: without keys the greatest `i32`. -/
def bindingPriority (bucket : List RoutedKey) : ℤ :=
  (bucket.head?.map RoutedKey.bindingPriority).getD 2147483647

def routePriority (groups : List (List RoutedKey)) : List (List RoutedKey) :=
  (groups.map sortKeys).insertionSort fun b b' => bindingPriority b ≤ bindingPriority b'

def bindingWeight (bucket : List RoutedKey) : ℤ :=
  (bucket.head?.map fun r => max r.weight 1).getD 1

/-- The sum of the weights. -/
def total (groups : List (List RoutedKey)) : Option ℤ :=
  groups.foldlM (fun acc bucket => addI64 acc (bindingWeight bucket)) 0

/-- The first position where the running sum exceeds the pick, if there is one. -/
def scan (pick : ℤ) : (acc : ℤ) → List (List RoutedKey) → Option (Option ℕ)
  | _, [] => some none
  | acc, bucket :: rest =>
    (addI64 acc (bindingWeight bucket)).bind fun acc =>
      if pick < acc then some (some 0)
      else (scan pick acc rest).map fun i => i.map (· + 1)

/-- The position that is drawn, the last one if the sum never exceeds the pick. -/
def chosen (pick : ℤ) (groups : List (List RoutedKey)) : Option ℕ :=
  (scan pick 0 groups).map fun i => i.getD (groups.length - 1)

/-- Draw until nothing is left. -/
def drawAll (source : DrawSource) : (fuel step : ℕ) → List (List RoutedKey) →
    Option (List (List RoutedKey))
  | 0, _, _ => none
  | fuel + 1, step, groups =>
    if groups.isEmpty then some []
    else do
      let sum ← total groups
      let pick ← genRange source step sum
      let i ← chosen pick groups
      let bucket ← groups[i]?
      let rest ← drawAll source fuel (step + 1) (groups.eraseIdx i)
      pure (bucket :: rest)

def routeLoadBalance (source : DrawSource) (fuel : ℕ) (groups : List (List RoutedKey)) :
    Option (List (List RoutedKey)) :=
  if groups.isEmpty then some groups else drawAll source fuel 0 (routePriority groups)

/-- The order in which the numbers of a source empty a pool. Each is asked for below the total of
the weights that are left; the binding it falls on comes next, and is taken out. -/
inductive Drawn (source : DrawSource) :
    (step : ℕ) → (pool out : List (List RoutedKey)) → Prop
  | nil (step : ℕ) : Drawn source step [] []
  | cons {step i : ℕ} {sum : ℤ} {pool out : List (List RoutedKey)} {bucket : List RoutedKey}
      (hsum : total pool = some sum) (hpos : 0 < sum)
      (hchosen : chosen (source.gen step sum) pool = some i) (hbucket : pool[i]? = some bucket)
      (hrest : Drawn source (step + 1) (pool.eraseIdx i) out) :
      Drawn source step pool (bucket :: out)

/-- The weights are `i32`, and there are fewer than 2³¹ bindings. -/
structure Fits (groups : List (List RoutedKey)) : Prop where
  few : groups.length < 2147483648
  weights : ∀ bucket ∈ groups, ∀ r ∈ bucket, -2147483648 ≤ r.weight ∧ r.weight ≤ 2147483647

/-! ### Arithmetic -/

variable {groups : List (List RoutedKey)} {pick acc : ℤ}

theorem addI64_eq {a b : ℤ} (hlow : 0 ≤ a + b) (hhigh : a + b < 2 ^ 63) :
    addI64 a b = some (a + b) := by
  rw [addI64, if_pos]
  exact Int.bmod_eq_of_le (by omega) (by omega)

theorem bindingWeight_pos (bucket : List RoutedKey) : 0 < bindingWeight bucket := by
  rw [bindingWeight]
  cases bucket with
  | nil => exact Int.one_pos
  | cons r rest => exact Int.one_pos.trans_le (le_max_right _ _)

theorem Fits.bindingWeight_le (h : Fits groups) {bucket : List RoutedKey} (hmem : bucket ∈ groups) :
    bindingWeight bucket ≤ 2147483647 := by
  rw [bindingWeight]
  cases bucket with
  | nil => decide
  | cons r rest => exact max_le (h.weights _ hmem r List.mem_cons_self).2 (by decide)

theorem Fits.of_subperm {groups' : List (List RoutedKey)} (h : Fits groups)
    (hsub : groups'.Subperm groups) : Fits groups' where
  few := hsub.length_le.trans_lt h.few
  weights bucket hbucket := h.weights bucket (hsub.subset hbucket)

/-- The weights are far from what 64 bits hold. -/
theorem Fits.total_lt (h : Fits groups) : WeightedDraw.total bindingWeight groups < 2 ^ 63 := by
  have hbound : WeightedDraw.total bindingWeight groups ≤ groups.length * 2147483647 := by
    have hle := List.sum_le_card_nsmul (groups.map bindingWeight) 2147483647 fun w hw => by
      obtain ⟨bucket, hmem, rfl⟩ := List.mem_map.mp hw
      exact h.bindingWeight_le hmem
    rwa [List.length_map, nsmul_eq_mul] at hle
  have hfew := h.few
  omega

theorem foldlM_addI64 (hlow : 0 ≤ acc)
    (hhigh : acc + WeightedDraw.total bindingWeight groups < 2 ^ 63) :
    groups.foldlM (fun acc bucket => addI64 acc (bindingWeight bucket)) acc =
      some (acc + WeightedDraw.total bindingWeight groups) := by
  induction groups generalizing acc with
  | nil => rw [WeightedDraw.total_nil, add_zero]; rfl
  | cons bucket rest ih =>
    have hpos := bindingWeight_pos bucket
    have hrest : 0 ≤ WeightedDraw.total bindingWeight rest :=
      WeightedDraw.total_nonneg fun b _ => bindingWeight_pos b
    rw [WeightedDraw.total_cons, ← add_assoc] at hhigh ⊢
    rw [List.foldlM_cons, addI64_eq (by omega) (by omega)]
    exact ih (by omega) hhigh

theorem Fits.total_eq (h : Fits groups) :
    total groups = some (WeightedDraw.total bindingWeight groups) := by
  rw [total, foldlM_addI64 le_rfl (by rw [zero_add]; exact h.total_lt), zero_add]

theorem scan_eq (hlow : 0 ≤ acc)
    (hhigh : acc + WeightedDraw.total bindingWeight groups < 2 ^ 63)
    (hpick : pick < acc + WeightedDraw.total bindingWeight groups) (hacc : acc ≤ pick) :
    scan pick acc groups =
      some (some (WeightedDraw.position bindingWeight (pick - acc) groups)) := by
  induction groups generalizing acc with
  | nil => exact absurd hpick (by rw [WeightedDraw.total_nil]; omega)
  | cons bucket rest ih =>
    have hpos := bindingWeight_pos bucket
    have hrest : 0 ≤ WeightedDraw.total bindingWeight rest :=
      WeightedDraw.total_nonneg fun b _ => bindingWeight_pos b
    rw [WeightedDraw.total_cons, ← add_assoc] at hhigh hpick
    rw [scan, addI64_eq (by omega) (by omega), Option.bind_some, WeightedDraw.position]
    by_cases hnow : pick < acc + bindingWeight bucket
    · rw [if_pos hnow, if_pos (by omega)]
    · rw [if_neg hnow, if_neg (by omega), ih (by omega) hhigh hpick (by omega), sub_sub]
      rfl

/-- A number below the total draws the binding it falls on. -/
theorem Fits.chosen_eq (h : Fits groups) (hlow : 0 ≤ pick)
    (hpick : pick < WeightedDraw.total bindingWeight groups) :
    chosen pick groups = some (WeightedDraw.position bindingWeight pick groups) := by
  rw [chosen, scan_eq le_rfl (by rw [zero_add]; exact h.total_lt) (by rwa [zero_add]) hlow,
    sub_zero]
  rfl

/-! ### The loop -/

variable (source : DrawSource)

/-- **One draw**: a number is drawn below the total, and falls on a binding. -/
theorem Fits.drawAll_succ (h : Fits groups) (hne : groups ≠ []) (step : ℕ) :
    ∃ pick, 0 ≤ pick ∧ pick < WeightedDraw.total bindingWeight groups ∧
      ∃ hlt : WeightedDraw.position bindingWeight pick groups < groups.length,
        ∀ fuel, drawAll source (fuel + 1) step groups =
          (drawAll source fuel (step + 1)
            (groups.eraseIdx (WeightedDraw.position bindingWeight pick groups))).map
              (groups[WeightedDraw.position bindingWeight pick groups] :: ·) := by
  have hpos := WeightedDraw.total_pos hne fun bucket _ => bindingWeight_pos bucket
  obtain ⟨hlow, hhigh⟩ := source.within step _ hpos
  have hlt := WeightedDraw.position_lt hlow hhigh
  refine ⟨_, hlow, hhigh, hlt, fun fuel => ?_⟩
  rw [drawAll, if_neg (by rwa [List.isEmpty_iff]), h.total_eq]
  simp only [Option.bind_eq_bind, Option.bind_some, genRange, if_pos hpos, h.chosen_eq hlow hhigh,
    List.getElem?_eq_getElem hlt]
  cases drawAll source fuel (step + 1) _ <;> rfl

theorem eraseIdx_subperm (groups : List (List RoutedKey)) (i : ℕ) :
    (groups.eraseIdx i).Subperm groups := (List.eraseIdx_sublist groups i).subperm

/-- **The loop ends**, and leaves no binding out. -/
theorem Fits.drawAll_perm (h : Fits groups) (step : ℕ) :
    ∃ out, (∀ fuel, groups.length < fuel → drawAll source fuel step groups = some out) ∧
      out.Perm groups := by
  induction hlen : groups.length generalizing groups step with
  | zero =>
    have hnil := List.length_eq_zero_iff.mp hlen
    subst hnil
    refine ⟨[], fun fuel hfuel => ?_, .refl _⟩
    obtain ⟨fuel, rfl⟩ := Nat.exists_eq_succ_of_ne_zero (Nat.ne_of_gt hfuel)
    rfl
  | succ n ih =>
    have hne : groups ≠ [] := List.ne_nil_of_length_eq_add_one hlen
    obtain ⟨pick, _, _, hlt, hdraw⟩ := h.drawAll_succ source hne step
    set i := WeightedDraw.position bindingWeight pick groups
    have hrest : (groups.eraseIdx i).length = n := by
      rw [List.length_eraseIdx_of_lt hlt, hlen, Nat.add_sub_cancel]
    obtain ⟨out, hout, hperm⟩ := ih (h.of_subperm (eraseIdx_subperm groups i)) (step + 1) hrest
    refine ⟨groups[i] :: out, fun fuel hfuel => ?_, ?_⟩
    · obtain ⟨fuel, rfl⟩ := Nat.exists_eq_succ_of_ne_zero (Nat.ne_zero_of_lt hfuel)
      rw [hdraw, hout fuel (by omega)]
      rfl
    · exact (hperm.cons _).trans (List.getElem_cons_eraseIdx_perm hlt)

/-- **Every turn is a draw**: what the loop gives is what is drawn. -/
theorem drawn_of_drawAll {fuel step : ℕ} {out : List (List RoutedKey)}
    (h : drawAll source fuel step groups = some out) : Drawn source step groups out := by
  induction fuel generalizing step groups out with
  | zero => cases h
  | succ fuel ih =>
    rw [drawAll] at h
    by_cases hempty : groups.isEmpty = true
    · rw [if_pos hempty] at h
      cases h
      rw [List.isEmpty_iff.mp hempty]
      exact .nil step
    · rw [if_neg hempty] at h
      obtain ⟨sum, hsum, h⟩ := Option.bind_eq_some_iff.mp h
      obtain ⟨pick, hpick, h⟩ := Option.bind_eq_some_iff.mp h
      obtain ⟨i, hi, h⟩ := Option.bind_eq_some_iff.mp h
      obtain ⟨bucket, hbucket, h⟩ := Option.bind_eq_some_iff.mp h
      obtain ⟨rest, hrest, h⟩ := Option.bind_eq_some_iff.mp h
      cases h
      rw [genRange] at hpick
      split at hpick
      · rename_i hpos
        cases hpick
        exact .cons hsum hpos hi hbucket (ih hrest)
      · cases hpick

theorem routePriority_perm (groups : List (List RoutedKey)) :
    (routePriority groups).Perm (groups.map sortKeys) := List.perm_insertionSort _ _

theorem Fits.routePriority (h : Fits groups) : Fits (routePriority groups) where
  few := by
    rw [(routePriority_perm groups).length_eq, List.length_map]
    exact h.few
  weights bucket hbucket r hr := by
    obtain ⟨bucket, hmem, rfl⟩ := List.mem_map.mp ((routePriority_perm groups).subset hbucket)
    exact h.weights bucket hmem r ((List.mem_insertionSort _).mp hr)

/-! ### The router's load balancer -/

section Buckets

variable {buckets : List Bucket}

theorem bindingWeight_keys (b : Bucket) : bindingWeight b.keys = Chennix.bindingWeight b := by
  rw [bindingWeight, List.head?_eq_some_head b.nonempty]
  rfl

theorem bindingPriority_keys (b : Bucket) : bindingPriority b.keys = b.first.bindingPriority := by
  rw [bindingPriority, List.head?_eq_some_head b.nonempty]
  rfl

theorem routePriority_keys (buckets : List Bucket) :
    LoadBalance.routePriority (buckets.map Bucket.keys) =
      (Chennix.routePriority buckets).map Bucket.keys := by
  rw [Chennix.routePriority, sortBindings, LoadBalance.routePriority]
  refine (congrArg _ ?_).trans (List.map_insertionSort _ _ _ _ fun b _ b' _ => ?_).symm
  · rw [List.map_map, List.map_map]
    rfl
  · rw [bindingPriority_keys, bindingPriority_keys]

/-- A number below the total draws the same binding. -/
theorem chosen_eq_position {acc : ℤ} (hacc : acc ≤ pick)
    (hpick : pick < acc + WeightedDraw.total bindingWeight (buckets.map Bucket.keys)) :
    Chennix.chosen pick acc buckets =
      WeightedDraw.position bindingWeight (pick - acc) (buckets.map Bucket.keys) := by
  induction buckets generalizing acc with
  | nil => rfl
  | cons b rest ih =>
    rw [List.map_cons] at hpick ⊢
    rw [WeightedDraw.position]
    rw [WeightedDraw.total_cons] at hpick
    cases rest with
    | nil =>
      rw [List.map_nil, WeightedDraw.total_nil] at hpick
      rw [if_pos (by omega)]
      rfl
    | cons b' rest =>
      rw [Chennix.chosen, ← bindingWeight_keys]
      by_cases hnow : pick < acc + bindingWeight b.keys
      · rw [if_pos hnow, if_pos (by omega)]
      · rw [if_neg hnow, if_neg (by omega), ih (by omega) (by omega), sub_sub]

theorem drawBindings_congr {draw draw' : ℕ → ℤ} {n : ℕ} (hsame : ∀ k < n, draw k = draw' k)
    (buckets : List Bucket) : drawBindings draw n buckets = drawBindings draw' n buckets := by
  induction n generalizing buckets with
  | zero => rfl
  | succ n ih =>
    rw [drawBindings, drawBindings, hsame n n.lt_succ_self,
      ih fun k hk => hsame k (hk.trans n.lt_succ_self)]

theorem drawAll_keys (h : Fits (buckets.map Bucket.keys)) (step : ℕ) :
    ∃ draw, ∀ fuel, buckets.length < fuel →
      drawAll source fuel step (buckets.map Bucket.keys) =
        some ((drawBindings draw buckets.length buckets).map Bucket.keys) := by
  induction hlen : buckets.length generalizing buckets step with
  | zero =>
    have hnil := List.length_eq_zero_iff.mp hlen
    subst hnil
    refine ⟨fun _ => 0, fun fuel hfuel => ?_⟩
    obtain ⟨fuel, rfl⟩ := Nat.exists_eq_succ_of_ne_zero (Nat.ne_of_gt hfuel)
    rfl
  | succ n ih =>
    have hne : buckets.map Bucket.keys ≠ [] :=
      List.ne_nil_of_length_eq_add_one ((List.length_map _).trans hlen)
    obtain ⟨pick, hlow, hhigh, hlt, hdraw⟩ := h.drawAll_succ source hne step
    have hchosen : Chennix.chosen pick 0 buckets =
        WeightedDraw.position bindingWeight (pick - 0) (buckets.map Bucket.keys) :=
      chosen_eq_position hlow (by rwa [zero_add])
    rw [sub_zero] at hchosen
    simp only [← hchosen] at hlt hdraw
    rw [List.length_map] at hlt
    have hrest : (buckets.eraseIdx (Chennix.chosen pick 0 buckets)).length = n := by
      rw [List.length_eraseIdx_of_lt hlt, hlen, Nat.add_sub_cancel]
    have herase : (buckets.map Bucket.keys).eraseIdx (Chennix.chosen pick 0 buckets) =
        (buckets.eraseIdx (Chennix.chosen pick 0 buckets)).map Bucket.keys :=
      List.eraseIdx_map _ _ _
    obtain ⟨draw, hrun⟩ := ih (herase ▸ h.of_subperm (eraseIdx_subperm _ _)) (step + 1) hrest
    refine ⟨fun k => if k = n then pick else draw k, fun fuel hfuel => ?_⟩
    obtain ⟨fuel, rfl⟩ := Nat.exists_eq_succ_of_ne_zero (Nat.ne_zero_of_lt hfuel)
    rw [hdraw, herase, hrun fuel (by omega), drawBindings, if_pos rfl,
      List.getElem?_eq_getElem hlt, Option.toList_some, List.singleton_append, List.map_cons,
      drawBindings_congr (fun k hk => if_neg hk.ne)]
    simp

/-- **The router's load balancer** is the loop, with the numbers that are drawn. -/
theorem routeLoadBalance_buckets (h : Fits (buckets.map Bucket.keys)) :
    ∃ draw, ∀ fuel, buckets.length < fuel →
      routeLoadBalance source fuel (buckets.map Bucket.keys) =
        some ((Chennix.routeLoadBalance draw buckets).map Bucket.keys) := by
  have hfits := h.routePriority
  rw [routePriority_keys] at hfits
  obtain ⟨draw, hrun⟩ := drawAll_keys source hfits 0
  refine ⟨draw, fun fuel hfuel => ?_⟩
  have hlength : (Chennix.routePriority buckets).length = buckets.length := by
    rw [Chennix.routePriority, sortBindings, List.length_insertionSort, List.length_map]
  rw [routeLoadBalance]
  split
  · rename_i hempty
    rw [List.isEmpty_iff, List.map_eq_nil_iff] at hempty
    subst hempty
    rfl
  · rw [routePriority_keys]
    exact hrun fuel (by rwa [hlength])

end Buckets

/-! ### The draw -/

/-- **Of the numbers below the total** a binding gets as many as its weight says. -/
theorem Fits.card_chosen (h : Fits groups) {i : ℕ} {r : RoutedKey}
    (hr : groups[i]?.bind List.head? = some r) :
    (((Finset.Ico 0 (WeightedDraw.total bindingWeight groups)).filter
      fun pick => chosen pick groups = some i).card : ℤ) = max r.weight 1 := by
  obtain ⟨bucket, hbucket, hhead⟩ := Option.bind_eq_some_iff.mp hr
  obtain ⟨hi, rfl⟩ := List.getElem?_eq_some_iff.mp hbucket
  have hsame : ((Finset.Ico 0 (WeightedDraw.total bindingWeight groups)).filter fun pick =>
      chosen pick groups = some i) = (Finset.Ico 0 (WeightedDraw.total bindingWeight groups)).filter
        fun pick => WeightedDraw.position bindingWeight pick groups = i := by
    refine Finset.filter_congr fun pick hpick => ?_
    rw [Finset.mem_Ico] at hpick
    rw [h.chosen_eq hpick.1 hpick.2, Option.some_inj]
  rw [hsame, WeightedDraw.card_position (fun b _ => bindingWeight_pos b) hi, bindingWeight, hhead]
  rfl

/-- **Load balancing** ends with all bindings, each with its keys in the order they have by
priority, in the order in which they are drawn without replacement. Whatever bindings are left, the
total of the weights is positive and fits 64 bits, and of the numbers below it a binding gets as
many as its weight says. The router does the same with its buckets. -/
theorem routeLoadBalance_correct (h : Fits groups) :
    (∃ out, (∀ fuel, groups.length < fuel → routeLoadBalance source fuel groups = some out) ∧
      out.Perm (LoadBalance.routePriority groups) ∧
      Drawn source 0 (LoadBalance.routePriority groups) out) ∧
    (∀ pool, Fits pool → pool ≠ [] → ∃ sum, total pool = some sum ∧ 0 < sum ∧
      ∀ i r, pool[i]?.bind List.head? = some r →
        (((Finset.Ico 0 sum).filter fun pick => chosen pick pool = some i).card : ℤ) =
          max r.weight 1) ∧
    ∀ buckets : List Bucket, groups = buckets.map Bucket.keys → ∃ draw, ∀ fuel,
      groups.length < fuel → routeLoadBalance source fuel groups =
        some ((Chennix.routeLoadBalance draw buckets).map Bucket.keys) := by
  refine ⟨?_, fun pool hpool hne => ?_, ?_⟩
  · obtain ⟨out, hout, hperm⟩ := h.routePriority.drawAll_perm source 0
    have hlength : (LoadBalance.routePriority groups).length = groups.length := by
      rw [(routePriority_perm groups).length_eq, List.length_map]
    refine ⟨out, fun fuel hfuel => ?_, hperm,
      drawn_of_drawAll source (hout (groups.length + 1) (by omega))⟩
    rw [routeLoadBalance]
    split
    · rename_i hempty
      rw [List.isEmpty_iff] at hempty
      subst hempty
      rw [hperm.eq_nil]
    · exact hout fuel (by rwa [hlength])
  · exact ⟨_, hpool.total_eq, WeightedDraw.total_pos hne fun b _ => bindingWeight_pos b,
      fun i r hr => hpool.card_chosen hr⟩
  · rintro buckets rfl
    obtain ⟨draw, hdraw⟩ := routeLoadBalance_buckets source h
    exact ⟨draw, fun fuel hfuel => hdraw fuel (by rwa [List.length_map] at hfuel)⟩

/-- Three bindings: one with weight 3, one with weight 0 and one without keys. -/
def sampleGroups : List (List RoutedKey) :=
  let channel : ChannelConfig := ⟨1, "balanced", .openaiCompatible, "http://balanced", "default"⟩
  let key : KeyConfig := ⟨1, 1, "sk-1", none, .paid, 0, none, none, 0, none, .active⟩
  [[⟨channel, key, "large", 1, 3⟩], [⟨channel, key, "small", 0, 0⟩], []]

/-- A generator that always gives the least number. -/
def leastDraws : DrawSource := ⟨fun _ _ => 0, fun _ _ hpos => ⟨le_rfl, hpos⟩⟩

theorem routeLoadBalance_sample :
    (∃ out, routeLoadBalance leastDraws 4 sampleGroups = some out ∧
      out.Perm (LoadBalance.routePriority sampleGroups) ∧
      Drawn leastDraws 0 (LoadBalance.routePriority sampleGroups) out) ∧
    ∃ sum, total sampleGroups = some sum ∧
      (((Finset.Ico 0 sum).filter fun pick => chosen pick sampleGroups = some 0).card : ℤ) = 3 := by
  have hfits : Fits sampleGroups := ⟨by decide, by decide⟩
  obtain ⟨⟨out, hout, hperm, hdrawn⟩, hweighted, -⟩ := routeLoadBalance_correct leastDraws hfits
  obtain ⟨sum, hsum, -, hcard⟩ := hweighted sampleGroups hfits (by decide)
  exact ⟨⟨out, hout 4 (by decide), hperm, hdrawn⟩, sum, hsum, hcard 0 _ rfl⟩

end Chennix.LoadBalance
