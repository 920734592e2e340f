import Chennix.Config.Enforcement
import Chennix.Config.Wiring

/-!
# Orders about keys

An administrator who sets the status of a key orders the server to use it, or not to use it. The
status is stored in the database and the snapshot is dropped. Routing asks the health manager, which
took the disabled keys from the database when the server started, and is told of keys that an
upstream has refused, but not of what administrators store.

What was ordered last of a key is recorded beside the state, and what has happened to the key since.

## Main definitions

* `KeyOrder`, `KeyHistory` — the last order about each key, and the state with this record
* `KeyHistory.Honoured` — whom the orders keep out, and whom they let in
* `KeyHistory.RouterKnows` — the health manager says of each key what was ordered
* `KeyHistory.Informed` — the event finds in the health manager what it should write there

## Main results

* `KeyHistory.routerKnows_iff` — the health manager is right, in all states of a run, exactly if
  every event was informed
* `KeyHistory.honoured_of_informed` — then orders are honoured
-/

namespace Chennix

open Foundations StorageAdapter

/-- What was ordered last of a key, and what has happened to the key since. -/
structure KeyOrder where
  /-- The status an administrator stored. -/
  status : Option KeyStatus
  disabled : Bool
  /-- The upstream models it was put in cooldown for. -/
  cooled : List String

namespace KeyOrder

/-- Nothing was ordered. -/
def none : KeyOrder := ⟨.none, false, []⟩

/-- An administrator has stored a status. -/
def stored (status : KeyStatus) : KeyOrder := ⟨some status, false, []⟩

/-- The key is not to be used. -/
def Off (o : KeyOrder) : Prop := o.status = some .disabled ∨ o.status = some .quotaExhausted

/-- The key is to be used, and has not been disabled since. -/
def On (o : KeyOrder) : Prop := o.status = some .active ∧ o.disabled = false

/-- What is remembered of the key is what was ordered. -/
structure Fits (o : KeyOrder) (now : Calendar.Instant) (s : KeyRuntimeState) : Prop where
  off : o.Off → s.usable = false
  on : o.On → s.usable = true
  fresh : o.On → ∀ upstream ∉ o.cooled, s.cooling now upstream = false

end KeyOrder

/-- The server with a record of what was ordered of the keys. -/
structure KeyHistory extends AppState where
  order : ℤ → KeyOrder

/-- The status that a handler stores for a key. -/
def AdminCall.storesStatus (db : Db) (keyId : ℤ) : AdminCall → Option KeyStatus
  | .updateKey channelId keyId' payload =>
    if keyId' = keyId ∧ (db.channelKeys.find? keyId).isSome ∧
        KeyRepo.countDuplicateApiKeyInChannel channelId payload.apiKey (some keyId') db = 0 then
      keyStatusOf payload.status
    else none
  | _ => none

namespace KeyHistory

/-- The beginning of the record. -/
def start (s : AppState) : KeyHistory := ⟨s, fun _ => .none⟩

variable (lib : Libraries)

/-- The order about a key after an event. -/
def record (h : KeyHistory) (keyId : ℤ) : Event → KeyOrder
  | .admin call _ => (call.storesStatus h.db keyId).elim (h.order keyId) KeyOrder.stored
  | .call ⟨.markDisabled keyId', _⟩ _ =>
    if keyId' = keyId then { h.order keyId with disabled := true } else h.order keyId
  | .call ⟨.markCooldown keyId' upstream, _⟩ _ =>
    if keyId' = keyId then { h.order keyId with cooled := upstream :: (h.order keyId).cooled }
    else h.order keyId
  | _ => h.order keyId

/-- The server goes its way, and what is ordered of the keys is recorded. -/
def step (h : KeyHistory) (e : Event) : Option KeyHistory :=
  (h.toAppState.step lib e).map fun s' => ⟨s', fun keyId => h.record keyId e⟩

/-- A key that is not to be used is no candidate of any request. One that is to be used is, of every
request that asks for a model the key serves, unless the group or the quota of the small model keeps
the request out, or a cooldown since the order is still running. -/
structure Honoured (h : KeyHistory) : Prop where
  keepsOut : ∀ keyId, (h.order keyId).Off → ∀ chance ctx,
    ∀ r ∈ Router.candidates (h.selectKeys lib.lower chance ctx).1, r.key.id ≠ keyId
  letsIn : ∀ keyId, (h.order keyId).On → ∀ chance ctx c upstream,
    h.db.BindsKey ctx.modelId keyId c upstream →
      Router.groupMatch ctx.userGroup c = true →
      h.health.isSmallModelAvailable c.id upstream = true →
      (upstream ∈ (h.order keyId).cooled →
        (h.health.stateOf keyId).cooling h.now upstream = false) →
      ∃ r ∈ Router.candidates (h.selectKeys lib.lower chance ctx).1,
        r.key.id = keyId ∧ r.binding = (c.id, upstream)

/-- The health manager says of each key what was ordered last. -/
def RouterKnows (h : KeyHistory) : Prop :=
  ∀ keyId, (h.order keyId).Fits h.now (h.health.stateOf keyId)

/-- The status that an administrator stores is what the health manager says already: a key that is
switched off is disabled there, one that is switched on is not, and is not cooling down either. -/
def Informed (h : KeyHistory) : Event → Prop
  | .admin call _ => ∀ keyId, ∀ status ∈ call.storesStatus h.db keyId,
    (KeyOrder.stored status).Fits h.now (h.health.stateOf keyId)
  | _ => True

end KeyHistory

/-! ### What is remembered of a key -/

namespace KeyOrder

variable {o : KeyOrder} {now now' : Calendar.Instant} {st st' : KeyRuntimeState}

/-- Where nothing was ordered, anything fits. -/
theorem none_fits : KeyOrder.none.Fits now st where
  off hoff := by rcases hoff with h | h <;> cases h
  on hon := by cases hon.1
  fresh hon := by cases hon.1

/-- Time goes on, usage is counted and cooldowns end. -/
theorem Fits.later (h : o.Fits now st) (husable : st'.usable = st.usable)
    (hcooling : ∀ upstream, st.cooling now upstream = false → st'.cooling now' upstream = false) :
    o.Fits now' st' where
  off hoff := husable.trans (h.off hoff)
  on hon := husable.trans (h.on hon)
  fresh hon upstream hcooled := hcooling upstream (h.fresh hon upstream hcooled)

end KeyOrder

theorem KeyRuntimeState.cooling_eq_false {st : KeyRuntimeState} {now : Calendar.Instant}
    {upstream : String} : st.cooling now upstream = false ↔
      ∀ entry ∈ st.cooldowns upstream, ∀ t ∈ entry.cooldownUntil, t ≤ now := by
  rw [cooling]
  cases st.cooldowns upstream with
  | none => simp
  | some entry =>
    obtain ⟨_ | t, failures⟩ := entry <;> simp

namespace HealthManager

variable {health : HealthManager} {now : Calendar.Instant} {keyId : ℤ} {upstream : String}
  {o : KeyOrder}

/-- A key that has been disabled is not used, whatever was ordered before. -/
theorem fits_markDisabled :
    KeyOrder.Fits { o with disabled := true } now ((health.markDisabled keyId).stateOf keyId) := by
  rw [markDisabled, stateOf_updateKey]
  exact ⟨fun _ => rfl, fun hon => Bool.noConfusion hon.2, fun _ _ _ => rfl⟩

/-- A key that has been put in cooldown for an upstream model is used as before for the others. -/
theorem fits_markCooldown (h : o.Fits now (health.stateOf keyId)) :
    KeyOrder.Fits { o with cooled := upstream :: o.cooled } now
      ((health.markCooldown now keyId upstream).stateOf keyId) := by
  rw [markCooldown, stateOf_updateKey]
  refine ⟨h.off, h.on, fun hon upstream' hcooled => ?_⟩
  have hne : upstream' ≠ upstream := fun heq => hcooled (heq ▸ List.mem_cons_self)
  have hold := h.fresh hon upstream' fun hmem => hcooled (List.mem_cons_of_mem _ hmem)
  rw [KeyRuntimeState.cooling_eq_false] at hold ⊢
  have hsame := Map.insert_of_ne (m := (health.stateOf keyId).cooldowns) hne
  exact fun entry hentry => hold entry ((hsame _).symm.trans hentry)

theorem fits_addUsage {tokens : UInt64} {keyId' : ℤ} (h : o.Fits now (health.stateOf keyId)) :
    o.Fits now ((health.addUsage keyId' tokens).stateOf keyId) := by
  by_cases heq : keyId = keyId'
  · subst heq
    rw [addUsage, stateOf_updateKey]
    exact h.later rfl fun _ hcooling => hcooling
  · rwa [addUsage, stateOf_updateKey_of_ne heq]

/-- The recovery loop forgets the cooldowns that are over. -/
theorem fits_checkRecoveries (h : o.Fits now (health.stateOf keyId)) :
    o.Fits now ((health.checkRecoveries now).stateOf keyId) := by
  have hstate : (health.checkRecoveries now).stateOf keyId =
      { health.stateOf keyId with cooldowns := fun upstream =>
          ((health.stateOf keyId).cooldowns upstream).filter fun entry =>
            entry.cooldownUntil.any fun t => now < t } := by
    show ((health.states keyId).map _).getD KeyRuntimeState.new = _
    rw [stateOf]
    cases health.states keyId <;> rfl
  rw [hstate]
  refine h.later rfl fun upstream hcooling => ?_
  rw [KeyRuntimeState.cooling_eq_false] at hcooling ⊢
  exact fun entry hentry => hcooling entry (Option.mem_filter_iff.mp hentry).1

theorem fits_elapse (duration : ℕ) (h : o.Fits now (health.stateOf keyId)) :
    o.Fits (now + duration) (health.stateOf keyId) := by
  refine h.later rfl fun upstream hcooling => ?_
  rw [KeyRuntimeState.cooling_eq_false] at hcooling ⊢
  intro entry hentry t ht
  have hle := hcooling entry hentry t ht
  exact hle.trans (Int.le_add_of_nonneg_right (Int.natCast_nonneg duration))

end HealthManager

/-! ### Runs -/

namespace AppState

variable {lib : Libraries} {s s' : AppState} {chance : Chance}

theorem query_now {α : Type} (stmt : Stmt α) (s : AppState) : (s.query stmt).2.now = s.now := by
  rw [query]
  cases stmt s.db <;> rfl

theorem get_now (lower : String → String) (rank : String → ℕ) (s : AppState) :
    (ConfigCache.get lower rank s).2.now = s.now := by
  cases hc : s.cache with
  | none => rw [ConfigCache.get_of_none hc]
  | some d => rw [ConfigCache.get_of_some hc]

end AppState

namespace KeyHistory

variable {lib : Libraries} {h h' : KeyHistory}

/-- The router passes over the keys the health manager tells it to, and binds the keys the snapshot
shows. -/
theorem RouterKnows.honoured (hknows : h.RouterKnows)
    (hshows : ∀ keyId, (h.order keyId).status ≠ none → h.ShowsWiring) : h.Honoured lib where
  keepsOut keyId hoff chance ctx r hr := by
    obtain ⟨bound, _, _, _, k, _, havailable, rfl⟩ := AppState.mem_selectKeys.mp hr
    rintro rfl
    have hunusable := (hknows k.id).off hoff
    have hblocked := HealthManager.isAvailable_of_disabled hunusable h.now bound.2.2.1
    exact Bool.false_ne_true (hblocked.symm.trans havailable)
  letsIn keyId hon chance ctx c upstream hbinds hgroup hquota hcooled := by
    obtain ⟨db, hw, hshown⟩ := hshows keyId fun hnone => by cases hon.1.symm.trans hnone
    obtain ⟨bound, hbound, rfl, rfl, k, hk, rfl⟩ := (hbinds.congr hw.symm).exists_bound
    rw [← hshown] at hbound
    have hfree : (h.health.stateOf k.id).cooling h.now bound.2.2.1 = false := by
      by_cases hmem : bound.2.2.1 ∈ (h.order k.id).cooled
      · exact hcooled hmem
      · exact (hknows k.id).fresh hon _ hmem
    have havailable := HealthManager.isAvailable_of_free ((hknows k.id).on hon) hfree
    exact ⟨_, AppState.mem_selectKeys.mpr
      ⟨bound, hbound, hgroup, hquota, k, hk, havailable, rfl⟩, rfl, rfl⟩

theorem step_eq_some {e : Event} (hstep : step lib h e = some h') :
    h.toAppState.step lib e = some h'.toAppState ∧ ∀ keyId, h'.order keyId = h.record keyId e := by
  obtain ⟨s', hs', rfl⟩ := Option.map_eq_some_iff.mp hstep
  exact ⟨hs', fun _ => rfl⟩

/-- The calls of a request tell the health manager of what they do to a key. -/
theorem fits_answer {keyId : ℤ} (a : ExecCall) (chance : Chance)
    (hfits : (h.order keyId).Fits h.now (h.health.stateOf keyId)) :
    (h.record keyId (.call a chance)).Fits (h.answer lib.lower chance a.1 a.2).2.now
      ((h.answer lib.lower chance a.1 a.2).2.health.stateOf keyId) := by
  obtain ⟨q, reply⟩ := a
  cases q with
  | selectKeys ctx =>
    show (h.order keyId).Fits (ConfigCache.get lib.lower chance.rank h.toAppState).2.now
      ((ConfigCache.get lib.lower chance.rank h.toAppState).2.health.stateOf keyId)
    rwa [AppState.get_now, AppState.get_health]
  | getChannelModelPricing modelId channelId upstream =>
    show (h.order keyId).Fits (ConfigCache.get lib.lower chance.rank h.toAppState).2.now
      ((ConfigCache.get lib.lower chance.rank h.toAppState).2.health.stateOf keyId)
    rwa [AppState.get_now, AppState.get_health]
  | markCooldown keyId' upstream =>
    rw [record]
    split
    · rename_i heq
      subst heq
      exact HealthManager.fits_markCooldown hfits
    · rename_i hne
      show (h.order keyId).Fits h.now ((h.health.markCooldown h.now keyId' upstream).stateOf keyId)
      rwa [HealthManager.markCooldown,
        HealthManager.stateOf_updateKey_of_ne fun heq => hne heq.symm]
  | markDisabled keyId' =>
    show (h.record keyId _).Fits (h.toAppState.markDisabled keyId').now
      ((h.toAppState.markDisabled keyId').health.stateOf keyId)
    rw [AppState.markDisabled, AppState.persistStatus, AppState.query_now, AppState.query_health,
      record]
    split
    · rename_i heq
      subst heq
      exact HealthManager.fits_markDisabled
    · rename_i hne
      show (h.order keyId).Fits h.now ((h.health.markDisabled keyId').stateOf keyId)
      rwa [HealthManager.markDisabled,
        HealthManager.stateOf_updateKey_of_ne fun heq => hne heq.symm]
  | logUsage entry =>
    show (h.order keyId).Fits (h.query (StorageAdapter.logUsage entry)).2.now
      ((h.query (StorageAdapter.logUsage entry)).2.health.stateOf keyId)
    rwa [AppState.query_now, AppState.query_health]
  | addKeyUsage keyId' tokens =>
    show (h.order keyId).Fits (h.query (KeyRepo.addKeyUsage keyId' tokens)).2.now
      ((h.query (KeyRepo.addKeyUsage keyId' tokens)).2.health.stateOf keyId)
    rwa [AppState.query_now, AppState.query_health]
  | addUsage keyId' tokens => exact HealthManager.fits_addUsage hfits
  | addSmallModelUsage channelId upstream delta status =>
    show (h.order keyId).Fits (h.query (DiscoveredModelRepo.addDiscoveredModelUsage channelId
        upstream delta status)).2.now ((h.query (DiscoveredModelRepo.addDiscoveredModelUsage
        channelId upstream delta status)).2.health.stateOf keyId)
    rwa [AppState.query_now, AppState.query_health]
  | _ => exact hfits

/-- **One event** keeps the health manager right exactly if it is informed. -/
theorem routerKnows_step {e : Event} (hknows : h.RouterKnows) (hstep : step lib h e = some h') :
    h'.RouterKnows ↔ h.Informed e := by
  obtain ⟨hs, horder⟩ := step_eq_some hstep
  cases e with
  | request chance =>
    refine iff_of_true (fun keyId => ?_) trivial
    rw [horder, ← Option.some.inj hs, AppState.get_now, AppState.get_health]
    exact hknows keyId
  | call a chance =>
    refine iff_of_true (fun keyId => ?_) trivial
    rw [horder, ← Option.some.inj hs]
    exact fits_answer a chance (hknows keyId)
  | admin call chance =>
    obtain ⟨hhealth, hnow⟩ : (h.administer lib call chance).health = h.health ∧
      (h.administer lib call chance).now = h.now := AppState.health_administer call
    refine forall_congr' fun keyId => ?_
    rw [horder, ← Option.some.inj hs, hhealth, hnow, record]
    cases call.storesStatus h.db keyId with
    | none => exact iff_of_true (hknows keyId) fun _ hnone => by cases hnone
    | some status =>
      constructor
      · rintro hfits _ ⟨⟩
        exact hfits
      · exact fun hinformed => hinformed status rfl
  | recover =>
    refine iff_of_true (fun keyId => ?_) trivial
    rw [horder, ← Option.some.inj hs]
    exact HealthManager.fits_checkRecoveries (hknows keyId)
  | elapse duration =>
    refine iff_of_true (fun keyId => ?_) trivial
    rw [horder, ← Option.some.inj hs]
    exact HealthManager.fits_elapse duration (hknows keyId)

/-- **The health manager** says what was ordered of the keys, wherever a run of the server has got
to, if and only if each event of the run was informed. -/
theorem routerKnows_iff (lib : Libraries) (s : AppState) (es : List Event) :
    (∀ es' h, es' <+: es → Machine.run (step lib) (start s) es' = some h → h.RouterKnows) ↔
      Machine.Along (step lib) Informed (start s) es := by
  refine Machine.invariant_iff_along (J := fun _ => True) ?_ (fun _ _ _ _ _ => trivial) ?_ trivial
    fun _ => KeyOrder.none_fits
  · intro h e
    cases e <;> exact ⟨_, rfl⟩
  · intro h e h' _ hknows hstep
    exact routerKnows_step hknows hstep

/-- An order drops the snapshot. -/
theorem cache_of_storesStatus {s : AppState} {call : AdminCall} {keyId : ℤ} {status : KeyStatus}
    (chance : Chance) (h : call.storesStatus s.db keyId = some status) :
    (s.administer lib call chance).cache = none := by
  cases call with
  | updateKey channelId keyId' payload =>
    rw [AdminCall.storesStatus] at h
    split at h
    · rename_i hcond
      obtain ⟨_, _, hs⟩ := AppState.administer_updateKey_ok lib chance h hcond.2.2
      rw [hs]
    · cases h
  | _ => cases h

/-- Since the first order, snapshots show the wiring. -/
theorem showsWiring_step {e : Event} (he : e.LeavesWiring) (hstep : step lib h e = some h')
    (hshows : ∀ keyId, (h.order keyId).status ≠ none → h.ShowsWiring) (keyId : ℤ)
    (hordered : (h'.order keyId).status ≠ none) : h'.ShowsWiring := by
  obtain ⟨hs, horder⟩ := step_eq_some hstep
  rw [horder] at hordered
  have hold (hbefore : (h.order keyId).status ≠ none) : h'.ShowsWiring :=
    (AppState.ShowsWiring.step he hs (hshows keyId hbefore)).2
  cases e with
  | admin call chance =>
    rw [record] at hordered
    cases hstores : call.storesStatus h.db keyId with
    | none =>
      rw [hstores] at hordered
      exact hold hordered
    | some status =>
      rw [← Option.some.inj hs]
      exact AppState.showsWiring_of_none (cache_of_storesStatus chance hstores)
  | call a chance =>
    refine hold fun hnone => hordered ?_
    obtain ⟨q, reply⟩ := a
    cases q with
    | markDisabled keyId' => rw [record]; split <;> exact hnone
    | markCooldown keyId' upstream => rw [record]; split <;> exact hnone
    | _ => exact hnone
  | _ => exact hold hordered

/-- **Orders are honoured** wherever a run of the server has got to whose events were informed. -/
theorem honoured_of_informed (lib : Libraries) (s : AppState) (es : List Event)
    (hwiring : ∀ e ∈ es, e.LeavesWiring)
    (hinformed : Machine.Along (step lib) Informed (start s) es) {es' : List Event}
    {h : KeyHistory} (hpre : es' <+: es)
    (hrun : Machine.run (step lib) (start s) es' = some h) : h.Honoured lib := by
  refine ((routerKnows_iff lib s es).mpr hinformed es' h hpre hrun).honoured ?_
  exact Machine.run_invariant (C := fun _ e => e.LeavesWiring)
    (I := fun h => ∀ keyId, (h.order keyId).status ≠ none → h.ShowsWiring)
    (fun h e h' he hshows hstep => showsWiring_step he hstep hshows) hrun
    (Machine.along_of_labels fun e he => hwiring e (hpre.subset he))
    fun _ hnone => absurd rfl hnone

/-! ### A key that is switched off -/

/-- The administrator edits the only key, and gives it a status. -/
def editEvent (status : String) : Event :=
  .admin (.updateKey 1 1 ⟨"sk-1", false, 0, 0, 0, status⟩) QuotaOp.plainChance

/-- The key is disabled, and the next request gets it all the same. -/
theorem not_honoured :
    ¬ ∀ (lib : Libraries) (parseDbDatetime : String → Option Calendar.Instant) (db : Db)
      (now : Calendar.Instant) (es : List Event) (h : KeyHistory), (∀ e ∈ es, e.LeavesWiring) →
      Machine.run (step lib) (start (.startup parseDbDatetime db now)) es = some h →
        h.Honoured lib := by
  intro hall
  have hhonoured := hall QuotaOp.plainLibraries (fun _ => none) QuotaHistory.onceDb 0
    [editEvent "disabled"] _ (fun e he => by rw [List.mem_singleton.mp he]; trivial) rfl
  have hcandidate : 1 ∈ (Router.candidates ((QuotaHistory.onceServer.administer
      QuotaOp.plainLibraries (.updateKey 1 1 ⟨"sk-1", false, 0, 0, 0, "disabled"⟩)
      QuotaOp.plainChance).selectKeys Text.toAsciiLower QuotaOp.plainChance
        ⟨1, 1, "default", 1, "large"⟩).1).map fun r => r.key.id := by
    decide +kernel
  obtain ⟨r, hr, hkey⟩ := List.mem_map.mp hcandidate
  exact hhonoured.keepsOut 1 (.inl (by decide +kernel)) QuotaOp.plainChance _ r hr hkey

/-- The edit is informed if the health manager says of the key what the status says. -/
theorem informed_edit {h : KeyHistory} {text : String} {status : KeyStatus}
    (hstatus : keyStatusOf text = some status)
    (hfits : (KeyOrder.stored status).Fits h.now (h.health.stateOf 1)) :
    h.Informed (editEvent text) := by
  intro keyId status' hstores
  rw [AdminCall.storesStatus] at hstores
  split at hstores
  · rename_i hcond
    obtain ⟨rfl, _⟩ := hcond
    cases hstatus.symm.trans hstores
    exact hfits
  · cases hstores

/-- The administrator confirms that the key is used. An upstream refuses it, and the administrator
switches it off. -/
def editEvents : List Event :=
  [editEvent "active", .call ⟨.markDisabled 1, ()⟩ QuotaOp.plainChance, editEvent "disabled"]

/-- Both edits find in the health manager what they store. -/
theorem honoured_sample :
    ∃ h, Machine.run (step QuotaOp.plainLibraries) (start QuotaHistory.onceServer) editEvents =
        some h ∧ (h.order 1).Off ∧ h.Honoured QuotaOp.plainLibraries := by
  refine ⟨_, rfl, .inl (by decide +kernel), honoured_of_informed QuotaOp.plainLibraries
    QuotaHistory.onceServer editEvents ?_ ?_ (List.prefix_refl _) rfl⟩
  · intro e he
    rw [editEvents, List.mem_cons, List.mem_cons, List.mem_singleton] at he
    obtain rfl | rfl | rfl := he <;> trivial
  · have hactive : (KeyOrder.stored .active).Fits 0 .new := by
      refine ⟨?_, fun _ => rfl, fun _ _ _ => rfl⟩
      rintro (hoff | hoff) <;> cases hoff
    refine ⟨informed_edit (show _ = some .active by decide) hactive, ?_⟩
    rintro _ ⟨⟩
    refine ⟨trivial, ?_⟩
    rintro _ ⟨⟩
    refine ⟨informed_edit (show _ = some .disabled by decide) ⟨fun _ => by decide +kernel, ?_, ?_⟩,
      fun _ _ => trivial⟩
    · intro hon
      cases hon.1
    · intro hon
      cases hon.1

end KeyHistory

end Chennix
