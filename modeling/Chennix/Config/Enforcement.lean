import Chennix.Config.QuotaCopies
import Chennix.Server.Candidates

/-!
# Quotas at routing

A small model whose quota is used up should get no more requests until its window is over or an
administrator gives it a new quota, and should get requests again after that. Routing asks the
health manager. But a request that uses up a quota records it in the database and in the snapshot,
and so do administrators; of the health manager's copy only the recovery loop takes care.

What has been done to a quota last is recorded beside the state.

## Main definitions

* `Standing`, `QuotaHistory` — what has been done to each quota last, and the state with this record
* `QuotaHistory.Enforced` — who gets no requests, and who gets them again
* `QuotaHistory.RouterKnows` — the health manager says of each quota what was done to it
* `QuotaHistory.Informed` — the event finds in the health manager what it should write there

## Main results

* `QuotaHistory.routerKnows_iff` — the health manager is right, in all states of a run, exactly if
  every event was informed
* `QuotaHistory.enforced_of_informed` — then quotas are enforced
-/

namespace Chennix

open Foundations StorageAdapter AdminM

/-- What has been done to a quota last. -/
inductive Standing
  /-- Nothing that matters, or it was reset and nothing is left of it. -/
  | untouched
  /-- A request has used it up. -/
  | exhausted
  /-- It was reset, and less is used than the limit. -/
  | renewed
  deriving DecidableEq

/-- The standing of a small model, and whether it gets requests. -/
def Standing.fits : Standing → Bool → Bool
  | untouched, _ => true
  | exhausted, admitted => !admitted
  | renewed, admitted => admitted

namespace AppState

variable (s : AppState) (pair : ℤ × String)

/-- Routing does not pass over the small model for its quota. -/
def admits : Bool := s.health.isSmallModelAvailable pair.1 pair.2

/-- Less is used than the limit, if there is one. -/
def BelowLimit : Prop :=
  ∃ r ∈ DiscoveredModelRepo.getDiscoveredModel pair.1 pair.2 s.db, ∀ l ∈ r.quotaLimit,
    r.usedQuota < l

instance : Decidable (s.BelowLimit pair) :=
  inferInstanceAs (Decidable (∃ r ∈ DiscoveredModelRepo.getDiscoveredModel pair.1 pair.2 s.db,
    ∀ l ∈ r.quotaLimit, r.usedQuota < l))

/-- The window of the quota is over, by what its row says. -/
def rolledOver (parseDbDatetime : String → Option Calendar.Instant) : Bool :=
  (DiscoveredModelRepo.getDiscoveredModel pair.1 pair.2 s.db).any fun r =>
    (r.smallModelState parseDbDatetime).due s.now

/-- The standing of a quota that was reset. -/
def afterReset : Standing := if s.BelowLimit pair then .renewed else .untouched

end AppState

/-- The server with a record of what was done to the quotas. -/
structure QuotaHistory extends AppState where
  standing : ℤ × String → Standing

instance (payload : UpdateSmallModelQuotaRequest) : Decidable payload.Valid :=
  inferInstanceAs (Decidable (_ ∧ _))

instance (channelId : ℤ) (upstream : String) (db : Db) :
    Decidable (DiscoveredModelRepo.Writable channelId upstream db) :=
  inferInstanceAs (Decidable (_ ∨ _))

namespace QuotaHistory

/-- The beginning of the record. -/
def start (s : AppState) : QuotaHistory := ⟨s, fun _ => .untouched⟩

variable (lib : Libraries) (parseDbDatetime : String → Option Calendar.Instant)

/-- The standing of a quota after an event that has led to `s'`. A request records at the end that
it has used the quota up; the recovery loop resets the quotas whose window is over. -/
def record (h : QuotaHistory) (s' : AppState) (pair : ℤ × String) : Event → Standing
  | .call ⟨.addSmallModelUsage channelId upstream _ status, _⟩ _ =>
    if (channelId, upstream) = pair ∧ status = "exhausted" then .exhausted else h.standing pair
  | .admin (.resetSmallModelQuota channelId upstream) _ =>
    if (channelId, upstream) = pair then s'.afterReset pair else h.standing pair
  | .admin (.updateSmallModelQuota channelId payload) _ =>
    if (channelId, payload.upstreamModelName) = pair ∧ payload.Valid ∧
        DiscoveredModelRepo.Writable channelId payload.upstreamModelName h.db then
      s'.afterReset pair
    else h.standing pair
  | .recover =>
    if h.rolledOver pair parseDbDatetime then
      if h.health.resetDue h.now pair then s'.afterReset pair else .untouched
    else h.standing pair
  | _ => h.standing pair

/-- The server goes its way, and what is done to the quotas is recorded. -/
def step (h : QuotaHistory) (e : Event) : Option QuotaHistory :=
  (h.toAppState.step lib e).map fun s' => ⟨s', fun pair => h.record parseDbDatetime s' pair e⟩

/-- A small model whose quota was used up last is no candidate of any request. One whose quota was
reset is, wherever it is bound, with all keys that are available. -/
structure Enforced (h : QuotaHistory) : Prop where
  keepsOut : ∀ pair, h.standing pair = .exhausted → ∀ chance ctx,
    ∀ r ∈ Router.candidates (h.selectKeys lib.lower chance ctx).1, r.binding ≠ pair
  letsIn : ∀ pair, h.standing pair = .renewed → ∀ chance ctx,
    ∀ bound ∈ h.snapshot.getForModel ctx.modelId, (bound.1.id, bound.2.2.1) = pair →
      Router.groupMatch ctx.userGroup bound.1 = true →
      ∀ k ∈ bound.2.1, h.health.isAvailable h.now k.id bound.2.2.1 = true →
        ⟨bound.1, k, bound.2.2.1, bound.2.2.2.1, bound.2.2.2.2⟩ ∈
          Router.candidates (h.selectKeys lib.lower chance ctx).1

/-- The health manager says of each quota what was done to it last. -/
def RouterKnows (h : QuotaHistory) : Prop := ∀ pair, (h.standing pair).fits (h.admits pair) = true

/-- What the event should tell the health manager is what it says already. A quota that is used up
is blocked, one that is reset below its limit is not, and the recovery loop resets no quota that is
used up and whose window is not over. -/
def Informed (h : QuotaHistory) : Event → Prop
  | .call ⟨.addSmallModelUsage channelId upstream _ status, _⟩ _ =>
    status = "exhausted" → h.admits (channelId, upstream) = false
  | .admin (.resetSmallModelQuota channelId upstream) _ =>
    (∃ r ∈ DiscoveredModelRepo.getDiscoveredModel channelId upstream h.db,
      ∀ l ∈ r.quotaLimit, 0 < l) → h.admits (channelId, upstream) = true
  | .admin (.updateSmallModelQuota channelId payload) _ =>
    payload.Valid → DiscoveredModelRepo.Writable channelId payload.upstreamModelName h.db →
      (∀ l ∈ payload.limit, 0 < l) → h.admits (channelId, payload.upstreamModelName) = true
  | .recover => ∀ pair, h.standing pair = .exhausted → h.health.resetDue h.now pair = true →
      h.rolledOver pair parseDbDatetime = true
  | _ => True

end QuotaHistory

/-! ### What a reset leaves -/

namespace AppState

variable {lib : Libraries} {s s' : AppState} {pair : ℤ × String}

theorem afterReset_fits {admitted : Bool} :
    (s.afterReset pair).fits admitted = true ↔ (s.BelowLimit pair → admitted = true) := by
  rw [afterReset]
  by_cases hbelow : s.BelowLimit pair
  · rw [if_pos hbelow]
    exact ⟨fun h _ => h, fun h => h hbelow⟩
  · rw [if_neg hbelow]
    exact ⟨fun _ h => absurd h hbelow, fun _ => rfl⟩

/-- A reset leaves less used than the limit, unless the limit allows nothing. -/
theorem belowLimit_administer_reset {channelId : ℤ} {upstream : String} {chance : Chance} :
    (s.administer lib (.resetSmallModelQuota channelId upstream) chance).BelowLimit
        (channelId, upstream) ↔
      ∃ r ∈ DiscoveredModelRepo.getDiscoveredModel channelId upstream s.db,
        ∀ l ∈ r.quotaLimit, 0 < l := by
  rw [administer_reset, BelowLimit, DiscoveredModelRepo.getDiscoveredModel_updateFor
    (DiscoveredModel.key_reset _) (fun _ => rfl) (channelId, upstream)]
  cases DiscoveredModelRepo.getDiscoveredModel channelId upstream s.db with
  | none => simp
  | some r => simp [DiscoveredModel.reset]

/-- So does a new quota. -/
theorem belowLimit_administer_update {channelId : ℤ} {payload : UpdateSmallModelQuotaRequest}
    {chance : Chance} (hvalid : payload.Valid)
    (hw : DiscoveredModelRepo.Writable channelId payload.upstreamModelName s.db) :
    (s.administer lib (.updateSmallModelQuota channelId payload) chance).BelowLimit
        (channelId, payload.upstreamModelName) ↔ ∀ l ∈ payload.limit, 0 < l := by
  obtain ⟨db, hs, _, hview, _⟩ := administer_update lib chance hvalid hw
  obtain ⟨r, hrow, hr⟩ := Option.map_eq_some_iff.mp hview
  have hlimit : r.quotaLimit = payload.limit := congrArg QuotaView.limit hr
  have hused : r.usedQuota = 0 := congrArg QuotaView.used hr
  rw [hs, BelowLimit]
  show (∃ r ∈ DiscoveredModelRepo.getDiscoveredModel channelId payload.upstreamModelName db, _) ↔ _
  rw [hrow]
  simp [hlimit, hused]

/-! ### What the health manager is told -/

theorem admits_eq : s.admits pair = !(s.health.smallModelStates pair).any SmallModelState.blocked :=
  HealthManager.isSmallModelAvailable_eq pair.1 pair.2 s.health

/-- Nothing but the recovery loop decides who gets requests. -/
theorem admits_step {e : Event} (he : e ≠ .recover) (h : s.step lib e = some s') :
    s'.admits pair = s.admits pair := by
  rw [admits_eq, admits_eq, smallModelStates_step he h]

/-- The recovery loop admits whatever it resets. -/
theorem admits_recover :
    s.checkRecoveries.admits pair = (s.health.resetDue s.now pair || s.admits pair) := by
  rw [admits_eq, admits_eq, HealthManager.resetDue]
  show (!((s.health.smallModelStates pair).map _).any _) = _
  cases s.health.smallModelStates pair with
  | none => rfl
  | some m =>
    rw [Option.map_some, Option.any_some, Option.any_some, Option.any_some]
    cases hdue : m.due s.now with
    | false => rfl
    | true =>
      rw [if_pos rfl, SmallModelState.blocked, SmallModelState.reset]
      simp

end AppState

/-! ### Runs -/

namespace QuotaHistory

variable {lib : Libraries} {parseDbDatetime : String → Option Calendar.Instant}
  {h h' : QuotaHistory}

/-- The router passes over a small model that is not admitted, and over no other. -/
theorem RouterKnows.enforced (hknows : h.RouterKnows) : h.Enforced lib where
  keepsOut pair hpair chance ctx r hr := by
    obtain ⟨bound, _, _, hquota, k, _, _, rfl⟩ := AppState.mem_selectKeys.mp hr
    intro heq
    have hblocked := hknows pair
    rw [hpair, Standing.fits, Bool.not_eq_true', ← heq] at hblocked
    exact Bool.false_ne_true (hblocked.symm.trans hquota)
  letsIn pair hpair chance ctx bound hbound heq hgroup k hk havailable := by
    subst heq
    have hadmitted := hknows (bound.1.id, bound.2.2.1)
    rw [hpair, Standing.fits] at hadmitted
    exact AppState.mem_selectKeys.mpr ⟨bound, hbound, hgroup, hadmitted, k, hk, havailable, rfl⟩

theorem step_eq_some {e : Event} (hstep : step lib parseDbDatetime h e = some h') :
    h.toAppState.step lib e = some h'.toAppState ∧
      ∀ pair, h'.standing pair = h.record parseDbDatetime h'.toAppState pair e := by
  obtain ⟨s', hs', rfl⟩ := Option.map_eq_some_iff.mp hstep
  exact ⟨hs', fun _ => rfl⟩

/-- An event that is about one quota, if about any, and tells the health manager nothing. -/
theorem routerKnows_one {p : ℤ × String} {c : Prop} [Decidable c] {st : Standing}
    (hknows : h.RouterKnows)
    (hstanding : ∀ pair, h'.standing pair = if p = pair ∧ c then st else h.standing pair)
    (hadmits : ∀ pair, h'.admits pair = h.admits pair) :
    h'.RouterKnows ↔ (c → st.fits (h.admits p) = true) := by
  constructor
  · intro hknows' hc
    have hp := hknows' p
    rwa [hstanding, if_pos ⟨rfl, hc⟩, hadmits] at hp
  · intro hst pair
    rw [hstanding, hadmits]
    split
    · rename_i hpair
      obtain ⟨rfl, hc⟩ := hpair
      exact hst hc
    · exact hknows pair

/-- **One event** keeps the health manager right exactly if it is informed. -/
theorem routerKnows_step {e : Event} (hknows : h.RouterKnows)
    (hstep : step lib parseDbDatetime h e = some h') :
    h'.RouterKnows ↔ h.Informed parseDbDatetime e := by
  obtain ⟨hs, hstanding⟩ := step_eq_some hstep
  have hadmits (he : e ≠ .recover) (pair : ℤ × String) : h'.admits pair = h.admits pair :=
    AppState.admits_step he hs
  have hsame (he : e ≠ .recover) (hst : ∀ pair, h'.standing pair = h.standing pair) :
      h'.RouterKnows := by
    intro pair
    rw [hst, hadmits he]
    exact hknows pair
  cases e with
  | request chance => exact iff_of_true (hsame Event.noConfusion hstanding) trivial
  | elapse duration => exact iff_of_true (hsame Event.noConfusion hstanding) trivial
  | call a chance =>
    obtain ⟨q, reply⟩ := a
    cases q with
    | addSmallModelUsage channelId upstream delta status =>
      refine (routerKnows_one (p := (channelId, upstream)) (c := status = "exhausted") hknows
        hstanding (hadmits Event.noConfusion)).trans ?_
      rw [Informed, Standing.fits, Bool.not_eq_true']
    | _ => exact iff_of_true (hsame Event.noConfusion hstanding) trivial
  | admin call chance =>
    cases call with
    | resetSmallModelQuota channelId upstream =>
      have hs' := Option.some.inj hs
      have hrecord (pair : ℤ × String) : h'.standing pair =
          if (channelId, upstream) = pair ∧ True then h'.afterReset (channelId, upstream)
          else h.standing pair := by
        rw [hstanding, record]
        simp only [and_true]
        split
        · rename_i hpair
          rw [hpair]
        · rfl
      rw [routerKnows_one hknows hrecord (hadmits Event.noConfusion), AppState.afterReset_fits,
        Informed, ← hs', AppState.belowLimit_administer_reset]
      exact ⟨fun hall => hall trivial, fun hall _ => hall⟩
    | updateSmallModelQuota channelId payload =>
      have hs' := Option.some.inj hs
      have hrecord (pair : ℤ × String) : h'.standing pair =
          if (channelId, payload.upstreamModelName) = pair ∧ payload.Valid ∧
              DiscoveredModelRepo.Writable channelId payload.upstreamModelName h.db then
            h'.afterReset (channelId, payload.upstreamModelName)
          else h.standing pair := by
        rw [hstanding, record]
        split
        · rename_i hpair
          rw [hpair.1]
        · rfl
      rw [routerKnows_one hknows hrecord (hadmits Event.noConfusion), AppState.afterReset_fits,
        Informed, and_imp]
      refine forall_congr' fun hvalid => forall_congr' fun hw => ?_
      rw [← hs', AppState.belowLimit_administer_update hvalid hw]
    | _ => exact iff_of_true (hsame Event.noConfusion hstanding) trivial
  | recover =>
    have hs' := Option.some.inj hs
    have hadmitted (pair : ℤ × String) :
        h'.admits pair = (h.health.resetDue h.now pair || h.admits pair) := by
      rw [← hs', AppState.admits_recover]
    constructor
    · intro hknows' pair hexhausted hdue
      by_contra hwindow
      have hpair := hknows' pair
      rw [hstanding, record, if_neg hwindow, hexhausted, hadmitted, hdue] at hpair
      exact Bool.false_ne_true hpair
    · intro hinformed pair
      rw [hstanding, record, hadmitted]
      by_cases hwindow : h.rolledOver pair parseDbDatetime = true
      · rw [if_pos hwindow]
        by_cases hdue : h.health.resetDue h.now pair = true
        · rw [if_pos hdue, hdue, AppState.afterReset_fits]
          exact fun _ => rfl
        · rw [if_neg hdue]
          rfl
      · rw [if_neg hwindow]
        have hpair := hknows pair
        cases hst : h.standing pair with
        | untouched => rfl
        | exhausted =>
          -- The window is not over, so the loop leaves the quota alone.
          have hdue : h.health.resetDue h.now pair = false := by
            rw [← Bool.not_eq_true]
            exact fun hdue => hwindow (hinformed pair hst hdue)
          rwa [hdue, Bool.false_or, ← hst]
        | renewed =>
          rw [hst, Standing.fits] at hpair
          rw [hpair, Bool.or_true]
          rfl

/-- **The health manager** is right about the quotas wherever a run of the server has got to if and
only if each of its events was informed. -/
theorem routerKnows_iff (lib : Libraries) (parseDbDatetime : String → Option Calendar.Instant)
    (s : AppState) (es : List Event) :
    (∀ es' h, es' <+: es → Machine.run (step lib parseDbDatetime) (start s) es' = some h →
      h.RouterKnows) ↔
      Machine.Along (step lib parseDbDatetime) (Informed parseDbDatetime) (start s) es := by
  refine Machine.invariant_iff_along (J := fun _ => True) ?_ (fun _ _ _ _ _ => trivial) ?_ trivial
    fun _ => rfl
  · intro h e
    cases e <;> exact ⟨_, rfl⟩
  · intro h e h' _ hknows hstep
    exact routerKnows_step hknows hstep

/-- **Quotas are enforced** wherever a run of the server has got to whose events were informed. -/
theorem enforced_of_informed (lib : Libraries)
    (parseDbDatetime : String → Option Calendar.Instant) (s : AppState) (es : List Event)
    (hinformed : Machine.Along (step lib parseDbDatetime) (Informed parseDbDatetime) (start s) es)
    {es' : List Event} {h : QuotaHistory} (hpre : es' <+: es)
    (hrun : Machine.run (step lib parseDbDatetime) (start s) es' = some h) : h.Enforced lib :=
  ((routerKnows_iff lib parseDbDatetime s es).mpr hinformed es' h hpre hrun).enforced

/-! ### A quota that is used up -/

/-- A model that is bound to a small model, which may be called once. -/
def onceDb : Db :=
  { QuotaOp.quotaDb with
    channelKeys := ⟨[⟨1, 1, "sk-1", none, .paid, 0, none, none, 0, none, .active⟩],
      List.nodup_singleton _⟩
    models := ⟨[⟨1, "large", "priority"⟩], List.nodup_singleton _⟩
    modelChannels := ⟨[⟨1, 1, "small", 1, 0, 0, 0, 0, none, 0⟩], List.nodup_singleton _⟩
    discoveredModels := ⟨[{ DiscoveredModel.fresh 1 1 "small" with
      quotaLimit := some 1, quotaUnit := some "call", quotaWindow := some "total" }],
      List.nodup_singleton _⟩ }

def onceServer : AppState := .startup (fun _ => none) onceDb 0

/-- A request reads the snapshot and, having succeeded, adds itself to the quota. -/
def onceEvents : List Event :=
  .request QuotaOp.plainChance ::
    ((accumulateSmallModelQuota 1 "small" .zero).run
      (AppState.offline QuotaOp.plainLibraries QuotaOp.plainChance)
      (ConfigCache.get Text.toAsciiLower (fun _ => 0) onceServer).2).trace.map fun a =>
        .call a QuotaOp.plainChance

def onceHistory : QuotaHistory :=
  (Machine.run (step QuotaOp.plainLibraries fun _ => none) (start onceServer) onceEvents).getD
    (start onceServer)

theorem onceHistory_run :
    Machine.run (step QuotaOp.plainLibraries fun _ => none) (start onceServer) onceEvents =
      some onceHistory := by
  obtain ⟨h, hh⟩ := Option.isSome_iff_exists.mp (show (Machine.run
    (step QuotaOp.plainLibraries fun _ => none) (start onceServer) onceEvents).isSome = true by
      decide +kernel)
  rw [onceHistory, hh, Option.getD_some]

/-- The quota is used up, and the next request gets the small model all the same. -/
theorem not_enforced :
    ¬ ∀ (lib : Libraries) (parseDbDatetime : String → Option Calendar.Instant) (db : Db)
      (now : Calendar.Instant) (es : List Event) (h : QuotaHistory), db.UniquePairs →
      Machine.run (step lib parseDbDatetime) (start (.startup parseDbDatetime db now)) es =
        some h → h.Enforced lib := by
  intro hall
  have henforced := hall QuotaOp.plainLibraries (fun _ => none) onceDb 0 onceEvents onceHistory
    (by decide) onceHistory_run
  have hcandidate : (1, "small") ∈ (Router.candidates (onceHistory.selectKeys Text.toAsciiLower
      QuotaOp.plainChance ⟨1, 1, "default", 1, "large"⟩).1).map RoutedKey.binding := by
    decide +kernel
  obtain ⟨r, hr, hbinding⟩ := List.mem_map.mp hcandidate
  exact henforced.keepsOut (1, "small") (by decide +kernel) QuotaOp.plainChance _ r hr hbinding

/-- The same, but the small model may be called once a day, and has been. -/
def usedUpServer : AppState :=
  .startup (fun _ => none) { onceDb with
    discoveredModels := ⟨[{ DiscoveredModel.fresh 1 1 "small" with
      quotaLimit := some 1, quotaUnit := some "call", quotaWindow := some "day", usedQuota := 1,
      quotaStatus := "exhausted" }], List.nodup_singleton _⟩ } 0

/-- One more call is recorded, and the small model gets no requests. The recovery loop resets the
quota, and the next request gets it. -/
theorem enforced_sample :
    (∃ h, Machine.run (step QuotaOp.plainLibraries fun _ => none) (start usedUpServer)
        [.request QuotaOp.plainChance,
          .call ⟨.addSmallModelUsage 1 "small" 1 "exhausted", .ok ()⟩ QuotaOp.plainChance] =
        some h ∧
      h.standing (1, "small") = .exhausted ∧ h.Enforced QuotaOp.plainLibraries) ∧
    ∃ h, Machine.run (step QuotaOp.plainLibraries fun _ => none) (start usedUpServer)
        [.recover, .request QuotaOp.plainChance] = some h ∧
      h.standing (1, "small") = .renewed ∧ h.Enforced QuotaOp.plainLibraries := by
  constructor
  · refine ⟨_, rfl, by decide +kernel, enforced_of_informed QuotaOp.plainLibraries (fun _ => none)
      usedUpServer [.request QuotaOp.plainChance,
        .call ⟨.addSmallModelUsage 1 "small" 1 "exhausted", .ok ()⟩ QuotaOp.plainChance] ?_
      (List.prefix_refl _) rfl⟩
    refine ⟨trivial, fun h hh => ⟨fun _ => ?_, fun _ _ => trivial⟩⟩
    cases hh
    decide +kernel
  · refine ⟨_, rfl, by decide +kernel, enforced_of_informed QuotaOp.plainLibraries (fun _ => none)
      usedUpServer [.recover, .request QuotaOp.plainChance] ?_ (List.prefix_refl _) rfl⟩
    refine ⟨fun pair hexhausted => ?_, fun _ _ => ⟨trivial, fun _ _ => trivial⟩⟩
    cases hexhausted

end QuotaHistory

end Chennix
