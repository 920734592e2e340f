import Chennix.Foundations.Reordering
import Chennix.Server.PriorityOrder

/-!
# Reordering keys and bindings

An administrator puts the keys of a channel, or the bindings of a model, into an order, which is
stored as a priority in each row: ten times its position, counted from one. An order of keys must
name each key of the channel once; an order of bindings is taken as it is.

Priorities have 32 bits, in which ten times the position has no room from the 214748365th on.

## Main definitions

* `KeysReordered`, `BindingsReordered` — what a new order does, if it takes effect exactly

## Main results

* `keysReordered` — an order of keys does
* `bindingsReordered_iff` — an order of bindings does where the priorities have room
* `reordered_iff` — both
-/

namespace Chennix

open Foundations StorageAdapter

/-- The database after a statement: as it was, if the statement fails. -/
def Stmt.after {α : Type} (stmt : Stmt α) (db : Db) : Db :=
  match stmt db with
  | .ok (_, db') => db'
  | .error _ => db

/-! ### Keys -/

namespace KeyRepo

/-- What an order of the keys of a channel does, if it takes effect exactly. -/
structure KeysReordered (db : Db) (channelId : ℤ) (orderedKeyIds : List ℤ) : Prop where
  accepted : (∃ db', reorderKeys channelId orderedKeyIds db = .ok ((), db')) ↔
    orderedKeyIds.Perm ((getKeysForChannel channelId db).map fun k => k.id)
  ordered : ∀ db', reorderKeys channelId orderedKeyIds db = .ok ((), db') →
    (getKeysForChannel channelId db').map (fun k => k.id) = orderedKeyIds
  /-- In each bucket of the channel, whatever model is asked for and whoever asks. -/
  routed : ∀ db', reorderKeys channelId orderedKeyIds db = .ok ((), db') →
    ∀ modelId userGroup isKeyAvailable quotaFilter draw,
      ∀ b ∈ Router.route ((loadAll db').getForModel modelId) userGroup isKeyAvailable .priority
        quotaFilter draw,
      b.first.channel.id = channelId → b.keys.map (fun r => r.key.id) =
        orderedKeyIds.filter fun id => isKeyAvailable id b.first.upstreamModelName
  refused : ∀ e, reorderKeys channelId orderedKeyIds db = .error e →
    (reorderKeys channelId orderedKeyIds).after db = db
  others : ∀ channelId' ≠ channelId,
    getKeysForChannel channelId' ((reorderKeys channelId orderedKeyIds).after db) =
      getKeysForChannel channelId' db

theorem firstDuplicate_go_eq_none_iff (seen ids : List ℤ) :
    firstDuplicate.go seen ids = none ↔ ids.Nodup ∧ ∀ id ∈ ids, id ∉ seen := by
  induction ids generalizing seen with
  | nil => simp [firstDuplicate.go]
  | cons id rest ih =>
    rw [firstDuplicate.go]
    by_cases hid : id ∈ seen
    · simp [hid]
    · rw [if_neg hid, ih, List.nodup_cons, List.forall_mem_cons]
      simp only [List.mem_cons, not_or]
      grind

theorem firstDuplicate_eq_none_iff (ids : List ℤ) : firstDuplicate ids = none ↔ ids.Nodup := by
  rw [firstDuplicate, firstDuplicate_go_eq_none_iff]
  simp

theorem nodup_getKeysForChannel (channelId : ℤ) (db : Db) :
    ((getKeysForChannel channelId db).map fun k => k.id).Nodup :=
  (((List.perm_insertionSort _ _).map _).nodup_iff).mpr
    (db.channelKeys.nodup.sublist (List.filter_sublist.map _))

/-- **Accepted orders** are the permutations: the three checks are one. -/
theorem reorderKeys_ok_iff (channelId : ℤ) (ids : List ℤ) (db : Db) :
    (∃ db', reorderKeys channelId ids db = .ok ((), db')) ↔
      ids.Perm ((getKeysForChannel channelId db).map fun k => k.id) := by
  have hnodup := nodup_getKeysForChannel channelId db
  unfold reorderKeys
  generalize (getKeysForChannel channelId db).map (fun k => k.id) = existing at hnodup ⊢
  by_cases hlen : ids.length = existing.length
  · simp only [hlen, ne_eq, not_true_eq_false, if_false]
    cases hdup : firstDuplicate ids with
    | some id =>
      refine iff_of_false nofun fun hperm => ?_
      rw [(firstDuplicate_eq_none_iff ids).mpr (hperm.nodup_iff.mpr hnodup)] at hdup
      cases hdup
    | none =>
      cases hfind : ids.find? fun id => id ∉ existing with
      | some id =>
        refine iff_of_false nofun fun hperm => ?_
        have hout := List.find?_some hfind
        simp only [decide_eq_true_eq] at hout
        exact hout (hperm.mem_iff.mp (List.mem_of_find?_eq_some hfind))
      | none =>
        refine iff_of_true ⟨_, rfl⟩ ?_
        have hsub : ids ⊆ existing := fun id hid => by
          simpa using List.find?_eq_none.mp hfind id hid
        exact (List.subperm_of_subset ((firstDuplicate_eq_none_iff ids).mp hdup)
          hsub).perm_of_length_le hlen.ge
  · simp only [hlen, ne_eq, not_false_eq_true, if_true]
    exact iff_of_false nofun fun hperm => hlen hperm.length_eq

theorem setPriorities_eq (i : ℕ) (ids : List ℤ) (T : Table KeyConfig) :
    setPriorities i ids T = T.updateEach (fun k => k.id)
      (fun i => KeyConfig.withPriority (positionPriority i))
      (fun i => KeyConfig.key_withPriority (positionPriority i)) i ids := by
  induction ids generalizing i T with
  | nil => rfl
  | cons id ids ih => exact ih (i + 1) _

/-- A row with the priority of its position, if it has one. -/
def placed (ids : List ℤ) (k : KeyConfig) : KeyConfig :=
  if k.id ∈ ids then k.withPriority (positionPriority (ids.idxOf k.id)) else k

theorem rows_setPriorities {ids : List ℤ} (hnodup : ids.Nodup) (T : Table KeyConfig) :
    (setPriorities 0 ids T).rows = T.rows.map (placed ids) := by
  have hname (i : ℕ) (k : KeyConfig) : (k.withPriority (positionPriority i)).id = k.id := rfl
  rw [setPriorities_eq, Table.rows_updateEach hname hnodup]
  simp only [Nat.zero_add]
  rfl

/-- Ten times the position, counted from one, in 32 bits. -/
theorem positionPriority_bmod (i : ℕ) :
    positionPriority i = Int.bmod (10 * i + 10) (2 ^ 32) := by
  rw [positionPriority, Int32.toInt_mul, Int32.toInt_add, Int32.toInt_ofNat]
  simp [Int.add_mul, Int.mul_comm]

theorem positionPriority_eq {i : ℕ} (h : i < 214748364) : positionPriority i = 10 * i + 10 := by
  rw [positionPriority_bmod, Int.bmod_eq_of_le (by omega) (by omega)]

section Accepted

variable {db db' : Db} {channelId : ℤ} {ids : List ℤ}
  (h : reorderKeys channelId ids db = .ok ((), db'))

include h

/-- The rows of a channel after the update: those of before, with new priorities. -/
theorem filter_channelKeys (channelId' : ℤ) :
    (db'.channelKeys.rows.filter fun k => k.channelId == channelId') =
      (db.channelKeys.rows.filter fun k => k.channelId == channelId').map (placed ids) := by
  have hperm := (reorderKeys_ok_iff channelId ids db).mp ⟨db', h⟩
  have hnodup := hperm.nodup_iff.mpr (nodup_getKeysForChannel channelId db)
  rw [reorderKeys_frame h, rows_setPriorities hnodup, List.filter_map]
  congr 1
  refine List.filter_congr fun k _ => ?_
  rw [Function.comp_apply, placed]
  split <;> rfl

theorem getKeysForChannel_reordered (hfew : ids.length < 2 ^ 27) :
    (getKeysForChannel channelId db').map (fun k => k.id) = ids := by
  have hperm := (reorderKeys_ok_iff channelId ids db).mp ⟨db', h⟩
  have hnodup := hperm.nodup_iff.mpr (nodup_getKeysForChannel channelId db)
  have hid (k : KeyConfig) : (placed ids k).id = k.id := by
    rw [placed]
    split <;> rfl
  rw [getKeysForChannel, filter_channelKeys h]
  refine map_insertionSort_eq positionPriority
    (fun (k k' : KeyConfig) (hk : rowLE k k') => keyPriority_le hk) hnodup ?_ ?_ ?_
  · rw [List.map_map]
    have hrows : ids.Perm ((db.channelKeys.rows.filter fun k => k.channelId == channelId).map
        fun k => k.id) := hperm.trans ((List.perm_insertionSort _ _).map _)
    simpa [Function.comp_def, hid] using hrows.symm
  · intro k hk
    obtain ⟨k₀, hk₀, rfl⟩ := List.mem_map.mp hk
    have hmem : k₀.id ∈ ids := by
      refine hperm.mem_iff.mpr (List.mem_map_of_mem ?_)
      exact (List.mem_insertionSort _).mpr hk₀
    rw [hid, placed, if_pos hmem]
    rfl
  · intro i j hij hj
    rw [positionPriority_eq (by omega), positionPriority_eq (by omega)]
    omega

end Accepted

/-- **An order of keys takes effect exactly**, or is refused. -/
theorem keysReordered (db : Db) (channelId : ℤ) (ids : List ℤ)
    (hfew : (getKeysForChannel channelId db).length < 2 ^ 27) : KeysReordered db channelId ids := by
  have hlen {db' : Db} (h : reorderKeys channelId ids db = .ok ((), db')) :
      ids.length < 2 ^ 27 := by
    rw [((reorderKeys_ok_iff channelId ids db).mp ⟨db', h⟩).length_eq, List.length_map]
    exact hfew
  refine ⟨reorderKeys_ok_iff channelId ids db, fun db' h => getKeysForChannel_reordered h (hlen h),
    ?_, ?_, ?_⟩
  · intro db' h modelId userGroup isKeyAvailable quotaFilter draw b hb hchannel
    have hkeys := congrArg (List.map fun k => k.id) (Router.keys_of_mem_route hb)
    rw [List.map_map, hchannel] at hkeys
    refine hkeys.trans ?_
    rw [← getKeysForChannel_reordered h (hlen h), List.filter_map]
    rfl
  · intro e he
    rw [Stmt.after, he]
  · intro channelId' hne
    rw [Stmt.after]
    cases h : reorderKeys channelId ids db with
    | error e => rfl
    | ok r =>
      have hperm := (reorderKeys_ok_iff channelId ids db).mp ⟨r.2, h⟩
      rw [getKeysForChannel, filter_channelKeys h, getKeysForChannel]
      congr 1
      nth_rewrite 2 [← List.map_id (db.channelKeys.rows.filter _)]
      refine List.map_congr_left fun k hk => ?_
      rw [placed, if_neg, id]
      intro hmem
      obtain ⟨k', hk', hid⟩ := List.mem_map.mp (hperm.mem_iff.mp hmem)
      rw [mem_getKeysForChannel] at hk'
      rw [List.mem_filter, beq_iff_eq] at hk
      have hsame := List.inj_on_of_nodup_map db.channelKeys.nodup hk'.1 hk.1 hid
      exact hne (by rw [← hk.2, ← hk'.2, hsame])

end KeyRepo

/-! ### Bindings -/

namespace ModelRepo

/-- What a binding binds a model to. -/
def target (b : ModelChannelRow) : ℤ × String := (b.channelId, b.upstreamModelName)

/-- What an order of the bindings of a model does, if it takes effect exactly. -/
structure BindingsReordered (db : Db) (modelId : ℤ) (orderedBindings : List (ℤ × String)) :
    Prop where
  ordered : (getBindingsForModel modelId ((reorderBindings modelId orderedBindings).after db)).map
    target = orderedBindings
  others : ∀ modelId' ≠ modelId,
    getBindingsForModel modelId' ((reorderBindings modelId orderedBindings).after db) =
      getBindingsForModel modelId' db

/-- The greatest number of bindings whose positions, times ten, have room in 32 bits. -/
def maxOrdered : ℕ := 214748364

theorem setPriorities_eq (modelId : ℤ) (i : ℕ) (ordered : List (ℤ × String))
    (T : Table ModelChannelRow) :
    setPriorities modelId i ordered T = T.updateEach key
      (fun i => ModelChannelRow.withPriority (KeyRepo.positionPriority i))
      (fun i => ModelChannelRow.key_withPriority (KeyRepo.positionPriority i)) i
      (ordered.map (Prod.mk modelId)) := by
  induction ordered generalizing i T with
  | nil => rfl
  | cons p ordered ih => exact ih (i + 1) _

/-- A row with the priority of its position, if it has one. -/
def placed (modelId : ℤ) (ordered : List (ℤ × String)) (b : ModelChannelRow) : ModelChannelRow :=
  let names := ordered.map (Prod.mk modelId)
  if key b ∈ names then b.withPriority (KeyRepo.positionPriority (names.idxOf (key b))) else b

theorem key_placed (modelId : ℤ) (ordered : List (ℤ × String)) (b : ModelChannelRow) :
    key (placed modelId ordered b) = key b := by
  simp only [placed]
  split <;> rfl

/-- The rows of the models that are there. -/
def boundRows (modelId : ℤ) (db : Db) : List ModelChannelRow :=
  db.modelChannels.rows.filter fun b => b.modelId == modelId && (db.models.find? b.modelId).isSome

theorem boundRows_reordered {ordered : List (ℤ × String)} (hnodup : ordered.Nodup)
    (modelId modelId' : ℤ) (db : Db) :
    boundRows modelId' ((reorderBindings modelId ordered).after db) =
      (boundRows modelId' db).map (placed modelId ordered) := by
  have hname (i : ℕ) (b : ModelChannelRow) :
      key (b.withPriority (KeyRepo.positionPriority i)) = key b := rfl
  have hnames : (ordered.map (Prod.mk modelId)).Nodup :=
    hnodup.map fun p p' h => (Prod.mk.inj h).2
  have hrows : (setPriorities modelId 0 ordered db.modelChannels).rows =
      db.modelChannels.rows.map (placed modelId ordered) := by
    rw [setPriorities_eq, Table.rows_updateEach hname hnames]
    simp only [Nat.zero_add]
    rfl
  show (setPriorities modelId 0 ordered db.modelChannels).rows.filter _ = _
  rw [hrows, List.filter_map, boundRows]
  congr 1
  refine List.filter_congr fun b _ => ?_
  have hmodel : (placed modelId ordered b).modelId = b.modelId :=
    congrArg Prod.fst (key_placed modelId ordered b)
  rw [Function.comp_apply, hmodel]
  rfl

theorem perm_boundRows (modelId : ℤ) (db : Db) :
    (getBindingsForModel modelId db).Perm (boundRows modelId db) :=
  List.perm_insertionSort _ _

theorem modelId_of_mem {modelId : ℤ} {db : Db} {b : ModelChannelRow}
    (hb : b ∈ boundRows modelId db) : b.modelId = modelId := by
  simpa using (Bool.and_eq_true_iff.mp (List.mem_filter.mp hb).2).1

/-- The keys of a model's bindings are what it is bound to. -/
theorem map_key_eq {modelId : ℤ} {rows : List ModelChannelRow}
    (h : ∀ b ∈ rows, b.modelId = modelId) :
    rows.map key = (rows.map target).map (Prod.mk modelId) := by
  rw [List.map_map]
  refine List.map_congr_left fun b hb => ?_
  rw [Function.comp_apply, ← h b hb]
  rfl

theorem nodup_bindings (modelId : ℤ) (db : Db) :
    ((getBindingsForModel modelId db).map target).Nodup := by
  refine (((perm_boundRows modelId db).map target).nodup_iff).mpr ?_
  refine List.Nodup.of_map (Prod.mk modelId) ?_
  rw [← map_key_eq fun b => modelId_of_mem]
  exact db.modelChannels.nodup.sublist (List.filter_sublist.map _)

/-- The order of other models is left alone. -/
theorem getBindingsForModel_other {modelId modelId' : ℤ} (hne : modelId' ≠ modelId) (db : Db)
    {ordered : List (ℤ × String)} (hnodup : ordered.Nodup) :
    getBindingsForModel modelId' ((reorderBindings modelId ordered).after db) =
      getBindingsForModel modelId' db := by
  show (boundRows modelId' _).insertionSort bindingLE = (boundRows modelId' db).insertionSort _
  rw [boundRows_reordered hnodup]
  congr 1
  nth_rewrite 2 [← List.map_id (boundRows modelId' db)]
  refine List.map_congr_left fun b hb => ?_
  simp only [placed]
  rw [if_neg, id]
  intro hmem
  obtain ⟨p, -, hp⟩ := List.mem_map.mp hmem
  exact hne ((modelId_of_mem hb).symm.trans (congrArg Prod.fst hp).symm)

/-- The rows of a model after the update, which its order names: where the order is read. -/
structure Placed (modelId : ℤ) (ordered : List (ℤ × String)) (rows : List ModelChannelRow) :
    Prop where
  model : ∀ b ∈ rows, b.modelId = modelId
  perm : (rows.map key).Perm (ordered.map (Prod.mk modelId))
  priority : ∀ b ∈ rows, b.priority =
    KeyRepo.positionPriority ((ordered.map (Prod.mk modelId)).idxOf (key b))

theorem placed_boundRows {db : Db} {modelId : ℤ} {ordered : List (ℤ × String)}
    (hperm : ordered.Perm ((getBindingsForModel modelId db).map target)) :
    Placed modelId ordered (boundRows modelId ((reorderBindings modelId ordered).after db)) := by
  have hnodup := hperm.nodup_iff.mpr (nodup_bindings modelId db)
  have hkeys : ((boundRows modelId db).map key).Perm (ordered.map (Prod.mk modelId)) := by
    rw [map_key_eq fun b => modelId_of_mem]
    exact (((perm_boundRows modelId db).symm.map target).trans hperm.symm).map _
  rw [boundRows_reordered hnodup]
  refine ⟨?_, ?_, ?_⟩
  · intro b hb
    obtain ⟨b₀, hb₀, rfl⟩ := List.mem_map.mp hb
    exact (congrArg Prod.fst (key_placed modelId ordered b₀)).trans (modelId_of_mem hb₀)
  · rw [List.map_map]
    simpa [Function.comp_def, key_placed] using hkeys
  · intro b hb
    obtain ⟨b₀, hb₀, rfl⟩ := List.mem_map.mp hb
    rw [key_placed]
    simp only [placed]
    rw [if_pos (hkeys.mem_iff.mp (List.mem_map_of_mem hb₀))]
    rfl

/-- What is read of the rows is the order just if all of its positions have room. -/
theorem Placed.read_iff {modelId : ℤ} {ordered : List (ℤ × String)} {rows : List ModelChannelRow}
    (h : Placed modelId ordered rows) (hnodup : ordered.Nodup) :
    (rows.insertionSort bindingLE).map target = ordered ↔ ordered.length ≤ maxOrdered := by
  have hnames : (ordered.map (Prod.mk modelId)).Nodup :=
    hnodup.map fun p p' hp => (Prod.mk.inj hp).2
  have hkey : (rows.insertionSort bindingLE).map key =
      ((rows.insertionSort bindingLE).map target).map (Prod.mk modelId) :=
    map_key_eq fun b hb => h.model b ((List.mem_insertionSort _).mp hb)
  have hle (b b' : ModelChannelRow) (hb : bindingLE b b') : b.priority ≤ b'.priority :=
    priority_le hb
  constructor
  · intro hread
    by_contra hmany
    refine map_insertionSort_ne hle hnames h.priority (i := 0) (j := maxOrdered) (by decide)
      (by rw [List.length_map]; omega) ?_ (by rw [hkey, hread])
    rw [KeyRepo.positionPriority_bmod, KeyRepo.positionPriority_bmod]
    decide
  · intro hfew
    have hread := map_insertionSort_eq _ hle hnames h.perm h.priority fun i j hij hj => by
      rw [List.length_map] at hj
      unfold maxOrdered at hfew
      rw [KeyRepo.positionPriority_eq (by omega), KeyRepo.positionPriority_eq (by omega)]
      omega
    rw [hkey] at hread
    exact List.map_injective_iff.mpr (fun p p' hp => (Prod.mk.inj hp).2) hread

/-- **When an order of bindings takes effect exactly**: where all positions have room. -/
theorem bindingsReordered_iff {db : Db} {modelId : ℤ} {ordered : List (ℤ × String)}
    (hperm : ordered.Perm ((getBindingsForModel modelId db).map target)) :
    BindingsReordered db modelId ordered ↔
      (getBindingsForModel modelId db).length ≤ maxOrdered := by
  have hnodup := hperm.nodup_iff.mpr (nodup_bindings modelId db)
  rw [← List.length_map (f := target), ← hperm.length_eq,
    ← (placed_boundRows hperm).read_iff hnodup]
  refine ⟨fun h => h.ordered, fun h => ⟨h, fun modelId' hne => ?_⟩⟩
  exact getBindingsForModel_other hne db hnodup

end ModelRepo

section Both

open KeyRepo ModelRepo

/-- **When orders take effect exactly**: those of keys always, as long as there are fewer than
2^27, and those of bindings where there are no more than their priorities have room for. -/
theorem reordered_iff (db : Db) {channelId : ℤ} (orderedKeyIds : List ℤ)
    (hfew : (getKeysForChannel channelId db).length < 2 ^ 27) {modelId : ℤ}
    {orderedBindings : List (ℤ × String)}
    (hperm : orderedBindings.Perm ((getBindingsForModel modelId db).map target)) :
    KeysReordered db channelId orderedKeyIds ∧ BindingsReordered db modelId orderedBindings ↔
      (getBindingsForModel modelId db).length ≤ maxOrdered := by
  rw [bindingsReordered_iff hperm, and_iff_right (keysReordered db channelId orderedKeyIds hfew)]

/-- A channel with two keys, and a model with two bindings to it. -/
def pairs : Db where
  channels := ⟨[⟨1, "east", .openaiCompatible, "http://east", "default"⟩], by decide⟩
  channelKeys := ⟨[⟨1, 1, "a", none, .paid, 10, none, none, 0, none, .active⟩,
    ⟨2, 1, "b", none, .paid, 20, none, none, 0, none, .active⟩], by decide⟩
  models := ⟨[⟨1, "large", "priority"⟩], by decide⟩
  modelChannels := ⟨[.fresh 1 1 "small" 10 1, .fresh 1 1 "large" 20 1], by decide⟩

/-- Both are turned round. -/
theorem pairs_reordered : KeysReordered pairs 1 [2, 1] ∧
    BindingsReordered pairs 1 [(1, "large"), (1, "small")] :=
  (reordered_iff pairs [2, 1] (by decide) (by decide)).mpr (by decide)

/-- A model with bindings to many channels. -/
def crowded (n : ℕ) : Db where
  models := ⟨[⟨1, "large", "priority"⟩], by decide⟩
  modelChannels := ⟨(List.range n).map fun i : ℕ => .fresh 1 i "small" 10 1, by
    rw [List.map_map]
    refine List.nodup_range.map fun i j h => ?_
    have hchannel : (i : ℤ) = j := congrArg (fun k => k.2.1) h
    omega⟩

/-- The bindings by channel. -/
def crowdedOrder (n : ℕ) : List (ℤ × String) := (List.range n).map fun i : ℕ => ((i : ℤ), "small")

theorem crowdedOrder_perm (n : ℕ) :
    (crowdedOrder n).Perm ((getBindingsForModel 1 (crowded n)).map target) := by
  have hrows : boundRows 1 (crowded n) = (crowded n).modelChannels.rows := by
    refine List.filter_eq_self.mpr fun b hb => ?_
    obtain ⟨i, -, rfl⟩ := List.mem_map.mp hb
    rfl
  have horder : crowdedOrder n = (crowded n).modelChannels.rows.map target := by
    rw [crowded, List.map_map]
    rfl
  rw [horder, ← hrows]
  exact ((perm_boundRows 1 (crowded n)).map target).symm

/-- One binding too many. -/
theorem crowded_not_reordered :
    (crowdedOrder 214748365).Perm ((getBindingsForModel 1 (crowded 214748365)).map target) ∧
      ¬BindingsReordered (crowded 214748365) 1 (crowdedOrder 214748365) := by
  have hperm := crowdedOrder_perm 214748365
  refine ⟨hperm, fun h => ?_⟩
  have hfew := (bindingsReordered_iff hperm).mp h
  rw [← List.length_map (f := target), ← hperm.length_eq, crowdedOrder, List.length_map,
    List.length_range] at hfew
  exact absurd hfew (by decide)

end Both

end Chennix
