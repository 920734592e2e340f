import Chennix.Foundations.Reordering
import Chennix.Server.Admin
import Chennix.Server.PriorityOrder

/-!
# New keys and bindings

A key that is created and a binding that is added get a priority ten above the greatest there is, so
that they are tried last. Priorities are stored in 32 bits: where the greatest leaves no room, ten
above it is the least there is, and what was to come last comes first.

## Main definitions

* `lastInLine` — the priority of what comes last
* `KeyAddedLast`, `BindingAddedLast` — it comes last in the database and at the router

## Main results

* `insertionSort_lastInLine_iff` — when a row is read last
* `KeyRepo.keyAddedLast_iff`, `bindingAddedLast_iff` — when it does
* `addedLast_iff` — both
-/

namespace Chennix

open Foundations StorageAdapter Transaction AdminM

/-! ### Ten above the greatest -/

/-- The priority of what comes after rows with these priorities, in 32 bits. -/
def lastInLine (priorities : List ℤ) : ℤ := (Int32.ofInt (priorities.max?.getD 0 + 10)).toInt

/-- A priority as it is stored. -/
def Stored (priority : ℤ) : Prop := -2 ^ 31 ≤ priority ∧ priority < 2 ^ 31

instance (p : ℤ) : Decidable (Stored p) := inferInstanceAs (Decidable (_ ∧ _))

/-- The greatest priority that leaves room for one more. -/
def greatestFollowed : ℤ := 2147483637

section Priorities

variable {priorities : List ℤ} (hstored : ∀ p ∈ priorities, Stored p)

include hstored

/-- Where all of them leave room, ten above the greatest is what it says. -/
theorem lastInLine_eq (h : ∀ p ∈ priorities, p ≤ greatestFollowed) :
    lastInLine priorities = priorities.max?.getD 0 + 10 := by
  rw [lastInLine, Int32.toInt_ofInt]
  unfold Stored at hstored
  unfold greatestFollowed at h
  cases hmax : priorities.max? with
  | none => decide
  | some m =>
    have hm := (List.max?_eq_some_iff.mp hmax).1
    have := hstored m hm
    have := h m hm
    exact Int.bmod_eq_of_le (by simp [Int32.size]; omega) (by simp [Int32.size]; omega)

theorem lt_lastInLine (h : ∀ p ∈ priorities, p ≤ greatestFollowed) {p : ℤ} (hp : p ∈ priorities) :
    p < lastInLine priorities := by
  rw [lastInLine_eq hstored h]
  cases hmax : priorities.max? with
  | none =>
    rw [List.max?_eq_none_iff.mp hmax] at hp
    cases hp
  | some m =>
    have := (List.max?_eq_some_iff.mp hmax).2 p hp
    rw [Option.getD_some]
    omega

/-- Where one of them leaves no room, ten above the greatest is below it. -/
theorem le_greatestFollowed (h : ∀ p ∈ priorities, p ≤ lastInLine priorities) :
    ∀ p ∈ priorities, p ≤ greatestFollowed := by
  intro p hp
  cases hmax : priorities.max? with
  | none =>
    rw [List.max?_eq_none_iff.mp hmax] at hp
    cases hp
  | some m =>
    obtain ⟨hm, hgreatest⟩ := List.max?_eq_some_iff.mp hmax
    have hmstored := hstored m hm
    have hle := h m hm
    have := hgreatest p hp
    unfold Stored at hmstored
    unfold greatestFollowed
    rw [lastInLine, hmax, Int32.toInt_ofInt, Option.getD_some] at hle
    by_contra hroom
    have hsize : (Int32.size : ℤ) = 2 ^ 32 := rfl
    have hwraps : (m + 10).bmod Int32.size = m + 10 - 2 ^ 32 := by
      rw [Int.bmod_def, Int.emod_eq_of_lt (by omega) (by omega), if_neg (by omega)]
      rfl
    omega

end Priorities

/-- **When a row comes last** of rows that are read by priority, where its own is ten above the
greatest. -/
theorem insertionSort_lastInLine_iff {ρ : Type} {le : ρ → ρ → Prop} [DecidableRel le]
    [Std.Total le] [IsTrans ρ le] (prio : ρ → ℤ) (hle : ∀ r r', le r r' → prio r ≤ prio r')
    (hlt : ∀ r r', prio r < prio r' → le r r') {rows : List ρ} {r : ρ}
    (hstored : ∀ r ∈ rows.insertionSort le, Stored (prio r))
    (hr : prio r = lastInLine ((rows.insertionSort le).map prio)) :
    (rows ++ [r]).insertionSort le = rows.insertionSort le ++ [r] ↔
      ∀ r ∈ rows.insertionSort le, prio r ≤ greatestFollowed := by
  rw [← List.forall_mem_map (P := Stored)] at hstored
  rw [← List.forall_mem_map (P := fun p => p ≤ greatestFollowed)]
  constructor
  · intro hread
    have hsorted := List.pairwise_insertionSort le (rows ++ [r])
    rw [hread, List.pairwise_append] at hsorted
    refine le_greatestFollowed hstored (List.forall_mem_map.mpr fun r' hr' => ?_)
    rw [← hr]
    exact hle r' r (hsorted.2.2 r' hr' r List.mem_cons_self)
  · intro hroom
    refine insertionSort_concat fun r' hr' => hlt r' r ?_
    rw [hr]
    exact lt_lastInLine hstored hroom
      (List.mem_map_of_mem ((List.mem_insertionSort _).mpr hr'))

/-! ### Keys -/

namespace KeyRepo

/-- The key that was created comes last, in the database and in every bucket of the channel, and its
priority is ten above the greatest. -/
structure KeyAddedLast (db : Db) (channelId id : ℤ) (db' : Db) : Prop where
  read : ∃ k, k.id = id ∧ k.keyPriority =
      ((getKeysForChannel channelId db).map fun k => k.keyPriority).max?.getD 0 + 10 ∧
    getKeysForChannel channelId db' = getKeysForChannel channelId db ++ [k]
  routed : ∀ modelId userGroup isKeyAvailable quotaFilter draw,
    ∀ b ∈ Router.route ((loadAll db').getForModel modelId) userGroup isKeyAvailable .priority
      quotaFilter draw,
    b.first.channel.id = channelId →
      let free := fun id => isKeyAvailable id b.first.upstreamModelName
      b.keys.map (fun r => r.key.id) =
        ((getKeysForChannel channelId db).map fun k => k.id).filter free ++ [id].filter free

section Create

variable {db db' : Db} {channelId id quotaLimit : ℤ} {apiKey : String} {label : Option String}
  {isFree : Bool} {pricePer1kTokens : Float}

/-- The rows of the channel with the new one. -/
theorem filter_createKey (h : createKeyAutoPriority channelId apiKey label isFree quotaLimit
      pricePer1kTokens db = .ok (id, db')) :
    ∃ k : KeyConfig, k.id = id ∧ k.keyPriority = lastPriority channelId db ∧
      (db'.channelKeys.rows.filter fun k => k.channelId == channelId) =
        (db.channelKeys.rows.filter fun k => k.channelId == channelId) ++ [k] := by
  rw [createKeyAutoPriority, createKeyFull] at h
  split at h
  · cases h
  · cases h
    refine ⟨⟨db.channelKeys.nextId, channelId, apiKey, label, costTierOf isFree,
      lastPriority channelId db, priceOf pricePer1kTokens, freeQuotaOf quotaLimit, 0, none,
      .active⟩, rfl, rfl, ?_⟩
    show (db.channelKeys.rows ++ [_]).filter _ = _
    rw [List.filter_append]
    congr 1
    simp

/-- **When a new key comes last**: the keys of the channel leave room for its priority. -/
theorem keyAddedLast_iff (hstored : ∀ k ∈ getKeysForChannel channelId db, Stored k.keyPriority)
    (h : createKeyAutoPriority channelId apiKey label isFree quotaLimit pricePer1kTokens db =
      .ok (id, db')) :
    KeyAddedLast db channelId id db' ↔
      ∀ k ∈ getKeysForChannel channelId db, k.keyPriority ≤ greatestFollowed := by
  obtain ⟨k, hid, hpriority, hrows⟩ := filter_createKey h
  have hread : getKeysForChannel channelId db' = getKeysForChannel channelId db ++ [k] ↔
      ∀ k ∈ getKeysForChannel channelId db, k.keyPriority ≤ greatestFollowed := by
    have hlast : k.keyPriority =
        lastInLine ((getKeysForChannel channelId db).map fun k => k.keyPriority) := hpriority
    unfold getKeysForChannel at hstored hlast ⊢
    rw [hrows]
    exact insertionSort_lastInLine_iff KeyConfig.keyPriority (fun _ _ => keyPriority_le)
      (fun _ _ => .inl) hstored hlast
  rw [← hread]
  constructor
  · intro h
    obtain ⟨k', hid', -, hlast⟩ := h.read
    have hsame : k = k' := by
      refine List.inj_on_of_nodup_map db'.channelKeys.nodup ?_ ?_ (hid.trans hid'.symm)
      · refine List.mem_of_mem_filter (p := fun k => k.channelId == channelId) ?_
        rw [hrows]
        exact List.mem_append_right _ List.mem_cons_self
      · refine (mem_getKeysForChannel.mp (?_ : k' ∈ getKeysForChannel channelId db')).1
        rw [hlast]
        exact List.mem_append_right _ List.mem_cons_self
    rw [hlast, hsame]
  · intro hlast
    have hvalue := lastInLine_eq (List.forall_mem_map.mpr hstored)
      (List.forall_mem_map.mpr (hread.mp hlast))
    refine ⟨⟨k, hid, hpriority.trans hvalue, hlast⟩, ?_⟩
    intro modelId userGroup isKeyAvailable quotaFilter draw b hb hchannel free
    have hkeys := congrArg (List.map fun k => k.id) (Router.keys_of_mem_route hb)
    rw [List.map_map, hchannel, hlast] at hkeys
    refine hkeys.trans ?_
    rw [← hid, List.filter_append, List.map_append, List.filter_map]
    congr 1
    by_cases hfree : free k.id <;> simp [free] at hfree ⊢ <;> simp [hfree]

end Create

end KeyRepo

/-! ### Bindings -/

/-- A binding that the database returns last, and no other is like, is tried last. -/
theorem Router.getLast?_route {db : Db} {modelId : ℤ} {rows : List ModelChannelRow}
    {row : ModelChannelRow} (hread : ModelRepo.getBindingsForModel modelId db = rows ++ [row])
    (hnew : ∀ b ∈ rows, (b.channelId, b.upstreamModelName) ≠
      (row.channelId, row.upstreamModelName)) {userGroup : String}
    {isKeyAvailable quotaFilter : ℤ → String → Bool} {draw : ℕ → ℤ} {b : Bucket}
    (hb : b ∈ route ((loadAll db).getForModel modelId) userGroup isKeyAvailable .priority
      quotaFilter draw)
    (hof : (b.first.channel.id, b.first.upstreamModelName) =
      (row.channelId, row.upstreamModelName)) :
    (route ((loadAll db).getForModel modelId) userGroup isKeyAvailable .priority
      quotaFilter draw).getLast? = some b := by
  obtain ⟨bs, hbs, hroute⟩ := route_loadAll db modelId userGroup isKeyAvailable quotaFilter draw
  rw [hroute] at hb ⊢
  rcases hbs with rfl | rfl
  · rw [hread, List.map_append, List.filterMap_append] at hb ⊢
    rcases List.mem_append.mp hb with hb | hb
    · obtain ⟨binding, hbinding, hbucket⟩ := List.mem_filterMap.mp hb
      obtain ⟨b₀, hb₀, rfl⟩ := List.mem_map.mp hbinding
      obtain ⟨hchannel, hupstream, -⟩ := bucketOf_eq_some hbucket
      refine absurd ?_ (hnew b₀ hb₀)
      rw [← hof, hchannel, hupstream]
      rfl
    · obtain ⟨binding, hbinding, hbucket⟩ := List.mem_filterMap.mp hb
      obtain rfl : binding = row.toBinding := by simpa using hbinding
      simp [hbucket]
  · cases hb

/-- The binding that was added comes last, in the database and at the router, and its priority is
ten above the greatest. -/
structure BindingAddedLast (db : Db) (modelId : ℤ) (item : BindingItem) (db' : Db) : Prop where
  read : ∃ b : ModelChannelRow, b.channelId = item.channelId ∧
    b.upstreamModelName = item.upstreamModelName ∧
    b.priority = ((ModelRepo.getBindingsForModel modelId db).map
      fun b => b.priority).max?.getD 0 + 10 ∧
    ModelRepo.getBindingsForModel modelId db' = ModelRepo.getBindingsForModel modelId db ++ [b]
  routed : ∀ userGroup isKeyAvailable quotaFilter draw,
    let groups := Router.route ((loadAll db').getForModel modelId) userGroup isKeyAvailable
      .priority quotaFilter draw
    ∀ b ∈ groups, b.first.channel.id = item.channelId →
      b.first.upstreamModelName = item.upstreamModelName → groups.getLast? = some b

section Add

variable {s : AppState} {modelId : ℤ} {item : BindingItem}

theorem lastBindingPriority_eq (modelId : ℤ) (db : Db) : lastBindingPriority modelId db =
    lastInLine ((ModelRepo.getBindingsForModel modelId db).map fun b => b.priority) := by
  rw [lastBindingPriority, lastInLine]
  cases ((ModelRepo.getBindingsForModel modelId db).map fun b => b.priority).max? with
  | none => decide
  | some m => rfl

/-- A binding is added to a model, of a small model of a channel, which is not bound yet. -/
structure Addable (db : Db) (modelId : ℤ) (item : BindingItem) : Prop where
  model : (ModelRepo.getModelById modelId db).isSome
  channel : (ChannelRepo.getChannelById item.channelId db).isSome
  small : (DiscoveredModelRepo.getDiscoveredModel item.channelId item.upstreamModelName db).isSome
  new : db.modelChannels.find? (modelId, item.channelId, item.upstreamModelName) = none

/-- The row that is added. -/
def addedRow (db : Db) (modelId : ℤ) (item : BindingItem) : ModelChannelRow :=
  .fresh modelId item.channelId item.upstreamModelName (lastBindingPriority modelId db) 1

/-- The row is inserted. -/
theorem addBindingHandler_ok (h : Addable s.db modelId item) :
    ∃ s', addBindingHandler modelId item s = .ok ((), s') ∧ s'.db.models = s.db.models ∧
      s'.db.modelChannels.rows = s.db.modelChannels.rows ++ [addedRow s.db modelId item] := by
  obtain ⟨model, hmodel⟩ := Option.isSome_iff_exists.mp h.model
  obtain ⟨channel, hchannel⟩ := Option.isSome_iff_exists.mp h.channel
  obtain ⟨small, hsmall⟩ := Option.isSome_iff_exists.mp h.small
  obtain ⟨T, hT⟩ : ∃ T, s.db.modelChannels.insert? (addedRow s.db modelId item) = some T := by
    refine ⟨_, dif_neg fun hmem => ?_⟩
    obtain ⟨b, hb, hkey⟩ := List.mem_map.mp hmem
    exact Table.find?_eq_none_iff.mp h.new b hb hkey
  have hinsert : ModelRepo.addBindingWithWeight modelId item.channelId item.upstreamModelName
      (lastBindingPriority modelId s.db) 1 s.db = .ok ((), { s.db with modelChannels := T }) := by
    have hmodelFound := Option.isNone_eq_false_iff.mpr h.model
    have hchannelFound := Option.isNone_eq_false_iff.mpr h.channel
    simp only [ModelRepo.getModelById, ChannelRepo.getChannelById] at hmodelFound hchannelFound
    have hrow : s.db.modelChannels.insert? (ModelChannelRow.fresh modelId item.channelId
        item.upstreamModelName (lastBindingPriority modelId s.db) 1) = some T := hT
    simp only [ModelRepo.addBindingWithWeight, hrow, hmodelFound, hchannelFound, Bool.or_false,
      Bool.false_eq_true, if_false]
  have hok : addBindingHandler modelId item s = .ok ((),
      { s with db := { s.db with modelChannels := T }, cache := none }) := by
    refine droppingCache_ok.mpr ⟨_, ?_, rfl⟩
    simp only [bind_ok, get_ok, orElse_ok, lift_ok]
    exact ⟨_, _, rfl, _, _, ⟨model, hmodel, rfl⟩, _, _, rfl, _, _, ⟨channel, hchannel, rfl⟩,
      _, _, rfl, _, _, ⟨small, hsmall, rfl⟩, _, _, rfl, hinsert⟩
  exact ⟨_, hok, rfl, Table.insert?_rows hT⟩

/-- **When a new binding comes last**: the bindings of the model leave room for its priority. -/
theorem bindingAddedLast_iff (h : Addable s.db modelId item)
    (hstored : ∀ b ∈ ModelRepo.getBindingsForModel modelId s.db, Stored b.priority) :
    ∃ s', addBindingHandler modelId item s = .ok ((), s') ∧
      (BindingAddedLast s.db modelId item s'.db ↔
        ∀ b ∈ ModelRepo.getBindingsForModel modelId s.db, b.priority ≤ greatestFollowed) := by
  obtain ⟨s', hok, hmodels, hrows⟩ := addBindingHandler_ok h
  refine ⟨s', hok, ?_⟩
  have hbound : (s'.db.modelChannels.rows.filter fun b => b.modelId == modelId &&
      (s'.db.models.find? b.modelId).isSome) = (s.db.modelChannels.rows.filter fun b =>
        b.modelId == modelId && (s.db.models.find? b.modelId).isSome) ++
          [addedRow s.db modelId item] := by
    rw [hrows, hmodels, List.filter_append]
    congr 1
    have hfound : (s.db.models.find? modelId).isSome := h.model
    simp [addedRow, ModelChannelRow.fresh, hfound]
  have hnew : ∀ b ∈ ModelRepo.getBindingsForModel modelId s.db,
      ¬(b.channelId = item.channelId ∧ b.upstreamModelName = item.upstreamModelName) := by
    rintro b hb ⟨hchannel, hupstream⟩
    obtain ⟨hb, hmodel⟩ := List.mem_filter.mp ((List.mem_insertionSort _).mp hb)
    refine Table.find?_eq_none_iff.mp h.new b hb ?_
    simp only [Bool.and_eq_true, beq_iff_eq] at hmodel
    rw [← hmodel.1, ← hchannel, ← hupstream]
    rfl
  have hread : ModelRepo.getBindingsForModel modelId s'.db =
      ModelRepo.getBindingsForModel modelId s.db ++ [addedRow s.db modelId item] ↔
      ∀ b ∈ ModelRepo.getBindingsForModel modelId s.db, b.priority ≤ greatestFollowed := by
    have hlast := lastBindingPriority_eq modelId s.db
    unfold ModelRepo.getBindingsForModel at hstored hlast ⊢
    rw [hbound]
    exact insertionSort_lastInLine_iff ModelChannelRow.priority
      (fun _ _ => ModelRepo.priority_le)
      (fun _ _ => .inl) hstored hlast
  rw [← hread]
  constructor
  · intro h
    obtain ⟨b, -, -, -, hlast⟩ := h.read
    have hsame : addedRow s.db modelId item = b := by
      have hmem : addedRow s.db modelId item ∈ ModelRepo.getBindingsForModel modelId s'.db := by
        rw [ModelRepo.getBindingsForModel, hbound, List.mem_insertionSort]
        exact List.mem_append_right _ List.mem_cons_self
      rw [hlast] at hmem
      rcases List.mem_append.mp hmem with hmem | hmem
      · exact absurd ⟨rfl, rfl⟩ (hnew _ hmem)
      · simpa using hmem
    rw [hlast, hsame]
  · intro hlast
    have hvalue := lastInLine_eq (List.forall_mem_map.mpr hstored)
      (List.forall_mem_map.mpr (hread.mp hlast))
    refine ⟨⟨_, rfl, rfl, (lastBindingPriority_eq modelId s.db).trans hvalue, hlast⟩, ?_⟩
    intro userGroup isKeyAvailable quotaFilter draw groups b hb hchannel hupstream
    exact Router.getLast?_route hlast (fun b₀ hb₀ heq => hnew b₀ hb₀ (Prod.mk.inj heq)) hb
      (Prod.ext hchannel hupstream)

end Add

/-! ### Both -/

/-- **When new keys and bindings are tried last**: where the priorities there are leave room. -/
theorem addedLast_iff {db : Db} {channelId : ℤ}
    (hchannel : (ChannelRepo.getChannelById channelId db).isSome)
    (hkeys : ∀ k ∈ KeyRepo.getKeysForChannel channelId db, Stored k.keyPriority) (apiKey : String)
    (label : Option String) (isFree : Bool) (quotaLimit : ℤ) (pricePer1kTokens : Float)
    {s : AppState} {modelId : ℤ} {item : BindingItem} (haddable : Addable s.db modelId item)
    (hbindings : ∀ b ∈ ModelRepo.getBindingsForModel modelId s.db, Stored b.priority) :
    (∃ id db', KeyRepo.createKeyAutoPriority channelId apiKey label isFree quotaLimit
        pricePer1kTokens db = .ok (id, db') ∧
      (KeyRepo.KeyAddedLast db channelId id db' ↔
        ∀ k ∈ KeyRepo.getKeysForChannel channelId db, k.keyPriority ≤ greatestFollowed)) ∧
    ∃ s', addBindingHandler modelId item s = .ok ((), s') ∧
      (BindingAddedLast s.db modelId item s'.db ↔
        ∀ b ∈ ModelRepo.getBindingsForModel modelId s.db, b.priority ≤ greatestFollowed) := by
  refine ⟨?_, bindingAddedLast_iff haddable hbindings⟩
  obtain ⟨id, db', h⟩ : ∃ id db', KeyRepo.createKeyAutoPriority channelId apiKey label isFree
      quotaLimit pricePer1kTokens db = .ok (id, db') := by
    rw [KeyRepo.createKeyAutoPriority, KeyRepo.createKeyFull,
      Option.isNone_eq_false_iff.mpr (show (db.channels.find? channelId).isSome from hchannel)]
    exact ⟨_, _, rfl⟩
  exact ⟨id, db', h, KeyRepo.keyAddedLast_iff hkeys h⟩

/-- A channel with a key and a model with a binding, both of a priority, and another small model. -/
def priced (priority : ℤ) : Db where
  channels := ⟨[⟨1, "east", .openaiCompatible, "http://east", "default"⟩], List.nodup_singleton _⟩
  channelKeys := ⟨[⟨1, 1, "a", none, .paid, priority, none, none, 0, none, .active⟩],
    List.nodup_singleton _⟩
  models := ⟨[⟨1, "wide", "priority"⟩], List.nodup_singleton _⟩
  modelChannels := ⟨[.fresh 1 1 "small" priority 1], List.nodup_singleton _⟩
  discoveredModels := ⟨[⟨1, 1, "tiny", none, false, none, none, none, none, none, 0, none,
    "available"⟩], List.nodup_singleton _⟩

theorem priced_addable (priority : ℤ) : Addable (priced priority) 1 ⟨1, "tiny"⟩ :=
  ⟨rfl, rfl, rfl, rfl⟩

/-- Both of priority ten, and what is added comes last. -/
theorem priced_addedLast :
    (∃ id db', KeyRepo.createKeyAutoPriority 1 "b" none false 0 0 (priced 10) = .ok (id, db') ∧
      KeyRepo.KeyAddedLast (priced 10) 1 id db') ∧
    ∃ s', addBindingHandler 1 ⟨1, "tiny"⟩ (.startup (fun _ => none) (priced 10) 0) = .ok ((), s') ∧
      BindingAddedLast (priced 10) 1 ⟨1, "tiny"⟩ s'.db := by
  obtain ⟨⟨id, db', hkey, hlast⟩, s', hbinding, hlast'⟩ := @addedLast_iff (priced 10) 1 rfl
    (by decide) "b" none false 0 0 (.startup (fun _ => none) (priced 10) 0) 1 ⟨1, "tiny"⟩
    (priced_addable 10) (by decide)
  exact ⟨⟨id, db', hkey, hlast.mpr (by decide)⟩, s', hbinding, hlast'.mpr (by decide)⟩

/-- Where the priorities are the greatest there are, what is added is tried first. -/
theorem not_addedLast :
    (∃ db', KeyRepo.createKeyAutoPriority 1 "b" none false 0 0 (priced 2147483647) =
        .ok (2, db') ∧ ¬KeyRepo.KeyAddedLast (priced 2147483647) 1 2 db') ∧
    ∃ s', addBindingHandler 1 ⟨1, "tiny"⟩ (.startup (fun _ => none) (priced 2147483647) 0) =
        .ok ((), s') ∧ ¬BindingAddedLast (priced 2147483647) 1 ⟨1, "tiny"⟩ s'.db := by
  constructor
  · refine ⟨_, rfl, fun h => ?_⟩
    have hcreate : KeyRepo.createKeyAutoPriority 1 "b" none false 0 0 (priced 2147483647) =
      .ok (2, _) := rfl
    exact absurd ((KeyRepo.keyAddedLast_iff (by decide) hcreate).mp h) (by decide)
  · obtain ⟨s', hok, hiff⟩ := bindingAddedLast_iff
      (s := .startup (fun _ => none) (priced 2147483647) 0) (priced_addable 2147483647) (by decide)
    refine ⟨s', hok, fun h => ?_⟩
    exact absurd (hiff.mp h) (by decide)

end Chennix
