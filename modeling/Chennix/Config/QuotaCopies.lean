import Chennix.Core.Tracker
import Chennix.Server.Events

/-!
# The copies of a small model's quota

The quota of a small model is kept three times: in its row, in the cached snapshot and in the
health manager, which is the one that routing asks. Four operations change it, and each of them
forgets a copy: a successful request and the two handlers forget the health manager, the recovery
loop forgets the snapshot. So the copies agree for as long as an operation finds in the forgotten
copy what it would write there.

## Main definitions

* `QuotaView` — what a copy says
* `AppState.CopiesAgree` — all copies say the same
* `QuotaOp`, `QuotaOp.step` — the operations, one after another
* `QuotaOp.Harmless` — what is forgotten is there already

## Main results

* `copiesAgree_startup` — the copies agree when the server starts
* `QuotaOp.copiesAgree_step` — an operation keeps them agreeing exactly when it is harmless
* `QuotaOp.copiesAgree_iff` — the same for whole runs
-/

namespace Chennix

open Foundations StorageAdapter AdminM

/-- What a copy says of a quota. -/
structure QuotaView where
  limit : Option ℤ
  used : ℤ
  status : QuotaStatus
  deriving DecidableEq, Repr

/-- The same limit, and nothing of it used. -/
def QuotaView.unused (v : QuotaView) : QuotaView := ⟨v.limit, 0, .available⟩

def DiscoveredModel.view (r : DiscoveredModel) : QuotaView :=
  ⟨r.quotaLimit, r.usedQuota, .fromDbStr r.quotaStatus⟩

def QuotaState.view (q : QuotaState) : QuotaView := ⟨q.limit, q.used, q.status⟩

def SmallModelState.view (m : SmallModelState) : QuotaView := ⟨m.limit, m.used, m.status⟩

/-- The snapshot says what the row says. -/
theorem DiscoveredModel.view_quotaState (r : DiscoveredModel) : r.quotaState.view = r.view := by
  rw [QuotaState.view, quotaState, view]

/-- What the health manager takes from a row when the server starts. -/
def DiscoveredModel.smallModelState (parseDbDatetime : String → Option Calendar.Instant)
    (r : DiscoveredModel) : SmallModelState where
  window := r.quotaWindow.bind QuotaWindow.fromDbStr
  limit := r.quotaLimit
  used := r.usedQuota
  lastResetAt := r.lastResetAt.bind parseDbDatetime
  status := .fromDbStr r.quotaStatus

theorem DiscoveredModel.view_smallModelState
    (parseDbDatetime : String → Option Calendar.Instant) (r : DiscoveredModel) :
    (r.smallModelState parseDbDatetime).view = r.view := by
  rw [SmallModelState.view, smallModelState, view]

namespace AppState

variable (s : AppState)

/-- What the row says. -/
def rowView (channelId : ℤ) (upstream : String) : Option QuotaView :=
  (DiscoveredModelRepo.getDiscoveredModel channelId upstream s.db).map DiscoveredModel.view

/-- What the snapshot says that the next request gets. -/
def nextView (lib : Libraries) (rank : String → ℕ) (channelId : ℤ) (upstream : String) :
    Option QuotaView :=
  ((ConfigCache.get lib.lower rank s).1.smallModelQuotaFor channelId upstream).map QuotaState.view

/-- What the health manager says. -/
def healthView (channelId : ℤ) (upstream : String) : Option QuotaView :=
  (s.health.smallModelStates (channelId, upstream)).map SmallModelState.view

/-- The three copies of every quota agree. -/
structure CopiesAgree (lib : Libraries) : Prop where
  next : ∀ rank channelId upstream,
    s.nextView lib rank channelId upstream = s.rowView channelId upstream
  health : ∀ channelId upstream, s.healthView channelId upstream = s.rowView channelId upstream

end AppState

/-- `UNIQUE(channel_id, raw_model_name)`. -/
def Db.UniquePairs (db : Db) : Prop := (db.discoveredModels.rows.map DiscoveredModel.pair).Nodup

instance (db : Db) : Decidable db.UniquePairs := inferInstanceAs (Decidable (List.Nodup _))

/-! ### Rows -/

namespace DiscoveredModelRepo

variable {db db' : Db} {channelId : ℤ} {upstream : String}

/-- The row of a small model, searched for by what it is about. -/
theorem getDiscoveredModel_eq (pair : ℤ × String) (db : Db) :
    getDiscoveredModel pair.1 pair.2 db =
      db.discoveredModels.rows.find? fun r => r.pair = pair := by
  rw [getDiscoveredModel]
  exact congrArg (List.find? · _) (funext isFor_eq)

theorem mem_listDiscoveredModels {r : DiscoveredModel} :
    r ∈ listDiscoveredModels db ↔ r ∈ db.discoveredModels.rows :=
  List.mem_insertionSort _

/-- What the rows of the small models that `P` selects become. -/
theorem getDiscoveredModel_update (db : Db) {p : DiscoveredModel → Bool}
    {f : DiscoveredModel → DiscoveredModel} (hf : ∀ r, key (f r) = key r) {P : ℤ × String → Prop}
    [DecidablePred P] (hp : ∀ r, p r = decide (P r.pair)) (hpair : ∀ r, (f r).pair = r.pair)
    (pair : ℤ × String) :
    getDiscoveredModel pair.1 pair.2
        { db with discoveredModels := db.discoveredModels.update p f hf } =
      (getDiscoveredModel pair.1 pair.2 db).map fun r => if P pair then f r else r := by
  rw [getDiscoveredModel_eq, getDiscoveredModel_eq]
  exact Table.find?_rows_update _ hf hp hpair pair

/-- What the row of one small model becomes. -/
theorem getDiscoveredModel_updateFor {f : DiscoveredModel → DiscoveredModel}
    (hf : ∀ r, key (f r) = key r) (hpair : ∀ r, (f r).pair = r.pair) (pair : ℤ × String) :
    getDiscoveredModel pair.1 pair.2 { db with
        discoveredModels :=
          db.discoveredModels.update (DiscoveredModel.isFor channelId upstream) f hf } =
      (getDiscoveredModel pair.1 pair.2 db).map fun r =>
        if pair = (channelId, upstream) then f r else r :=
  getDiscoveredModel_update (P := fun pair => pair = (channelId, upstream)) db hf isFor_eq hpair
    pair

theorem uniquePairs_update {p : DiscoveredModel → Bool} {f : DiscoveredModel → DiscoveredModel}
    (hf : ∀ r, key (f r) = key r) (hpair : ∀ r, (f r).pair = r.pair) (h : db.UniquePairs) :
    Db.UniquePairs { db with discoveredModels := db.discoveredModels.update p f hf } := by
  rw [Db.UniquePairs, Table.map_rows_update _ _ hf hpair]
  exact h

/-- The quota of a small model is written if it has a row, or its channel has. -/
def Writable (channelId : ℤ) (upstream : String) (db : Db) : Prop :=
  (getDiscoveredModel channelId upstream db).isSome ∨ (db.channels.find? channelId).isSome

theorem any_isFor (db : Db) :
    db.discoveredModels.rows.any (DiscoveredModel.isFor channelId upstream) =
      (getDiscoveredModel channelId upstream db).isSome :=
  List.isSome_find?.symm

/-- A quota that cannot be written is refused. -/
theorem upsert_refused {f : DiscoveredModel → DiscoveredModel} {hf : ∀ r, key (f r) = key r}
    (h : ¬ Writable channelId upstream db) :
    upsert channelId upstream f hf db = .error foreignKeyFailed := by
  rw [Writable, not_or, Bool.not_eq_true, Bool.not_eq_true] at h
  rw [upsert, any_isFor, h.1, if_neg Bool.false_ne_true, if_pos]
  simpa using h.2

/-- What an upsert leaves: the row of its small model is as it wrote it, the others stay. -/
theorem upsert_ok {f : DiscoveredModel → DiscoveredModel} {hf : ∀ r, key (f r) = key r}
    (hpair : ∀ r, (f r).pair = r.pair) (h : Writable channelId upstream db) :
    ∃ db', upsert channelId upstream f hf db = .ok ((), db') ∧
      (db.UniquePairs → db'.UniquePairs) ∧
      (∃ r, getDiscoveredModel channelId upstream db' = some (f r)) ∧
      ∀ pair ≠ (channelId, upstream), getDiscoveredModel pair.1 pair.2 db' =
        getDiscoveredModel pair.1 pair.2 db := by
  rw [upsert, any_isFor]
  cases hrow : getDiscoveredModel channelId upstream db with
  | some r =>
    refine ⟨_, if_pos rfl, uniquePairs_update hf hpair, ⟨r, ?_⟩, fun pair hne => ?_⟩
    · rw [getDiscoveredModel_updateFor hf hpair (channelId, upstream), hrow, Option.map_some,
        if_pos rfl]
    · simp [getDiscoveredModel_updateFor hf hpair pair, hne]
  | none =>
    have hchannel : (db.channels.find? channelId).isSome := by
      simpa [Writable, hrow] using h
    have hnone : ¬ (db.channels.find? channelId).isNone := by
      simpa using Option.isSome_iff_ne_none.mp hchannel
    have hfresh (id : ℤ) : (f (.fresh id channelId upstream)).pair = (channelId, upstream) :=
      hpair _
    rw [getDiscoveredModel_eq (channelId, upstream), List.find?_eq_none] at hrow
    rw [Option.isSome_none, if_neg Bool.false_ne_true, if_neg hnone]
    refine ⟨_, rfl, fun hu => ?_, ⟨.fresh db.discoveredModels.nextId channelId upstream, ?_⟩,
      fun pair hne => ?_⟩
    · show (List.map _ (db.discoveredModels.rows ++ [_])).Nodup
      rw [List.map_append, List.map_singleton, hfresh]
      refine List.Nodup.append hu (List.nodup_singleton _) ?_
      simpa [List.disjoint_singleton] using hrow
    · rw [getDiscoveredModel_eq (channelId, upstream)]
      show (db.discoveredModels.rows ++ [_]).find? _ = _
      rw [List.find?_append, List.find?_eq_none.mpr hrow, Option.none_or]
      exact List.find?_cons_of_pos (decide_eq_true (hfresh _))
    · rw [getDiscoveredModel_eq, getDiscoveredModel_eq]
      show (db.discoveredModels.rows ++ [_]).find? _ = _
      rw [List.find?_append, List.find?_cons_of_neg, List.find?_nil, Option.or_none]
      simpa [hfresh] using hne.symm

theorem updateDiscoveredModelQuota_ok (now : String) (limit : Option ℤ)
    (unit window : Option String) (h : Writable channelId upstream db) :
    ∃ db', updateDiscoveredModelQuota now channelId upstream limit unit window db = .ok ((), db') ∧
      (db.UniquePairs → db'.UniquePairs) ∧
      (∃ r : DiscoveredModel,
        getDiscoveredModel channelId upstream db' = some (r.withQuota now limit unit window)) ∧
      ∀ pair ≠ (channelId, upstream), getDiscoveredModel pair.1 pair.2 db' =
        getDiscoveredModel pair.1 pair.2 db :=
  upsert_ok (fun _ => rfl) h

end DiscoveredModelRepo

/-! ### Views -/

namespace DiscoveredModel

variable (r : DiscoveredModel) (now : String)

theorem view_withQuota (limit : Option ℤ) (unit window : Option String) :
    (r.withQuota now limit unit window).view = ⟨limit, 0, .available⟩ :=
  congrArg (QuotaView.mk limit 0) (QuotaStatus.fromDbStr_asDbStr .available)

theorem view_reset : (r.reset now).view = r.view.unused :=
  congrArg (QuotaView.mk r.quotaLimit 0) (QuotaStatus.fromDbStr_asDbStr .available)

theorem view_addUsage (delta : ℤ) (status : QuotaStatus) :
    (r.addUsage delta status.asDbStr).view = ⟨r.view.limit, r.view.used + delta, status⟩ :=
  congrArg (QuotaView.mk r.quotaLimit (r.usedQuota + delta)) (QuotaStatus.fromDbStr_asDbStr status)

end DiscoveredModel

namespace AppState

variable {lib : Libraries} {s s' : AppState}

/-- The snapshot of a database says what the rows say. -/
theorem smallModelQuotaFor_loadAll {db : Db} (hu : db.UniquePairs) (channelId : ℤ)
    (upstream : String) :
    (loadAll db).smallModelQuotaFor channelId upstream =
      (DiscoveredModelRepo.getDiscoveredModel channelId upstream db).map
        DiscoveredModel.quotaState := by
  rw [DiscoveredModelRepo.getDiscoveredModel_eq (channelId, upstream)]
  exact Map.ofList_index hu (fun _ => DiscoveredModelRepo.mem_listDiscoveredModels) _

theorem nextView_eq (rank : String → ℕ) (channelId : ℤ) (upstream : String) :
    s.nextView lib rank channelId upstream =
      ((s.cache.getD (loadAll s.db)).smallModelQuotaFor channelId upstream).map
        QuotaState.view := by
  rw [nextView, ConfigCache.get_fst]

theorem nextView_of_none (hu : s.db.UniquePairs) (hc : s.cache = none) (rank : String → ℕ)
    (channelId : ℤ) (upstream : String) :
    s.nextView lib rank channelId upstream = s.rowView channelId upstream := by
  rw [nextView_eq, hc, Option.getD_none, smallModelQuotaFor_loadAll hu, rowView, Option.map_map]
  exact congrArg (Option.map · _) (funext DiscoveredModel.view_quotaState)

theorem nextView_of_some {d : CacheData} (hc : s.cache = some d) (rank : String → ℕ)
    (channelId : ℤ) (upstream : String) :
    s.nextView lib rank channelId upstream =
      (d.smallModelQuotaFor channelId upstream).map QuotaState.view := by
  rw [nextView_eq, hc, Option.getD_some]

theorem smallModelStates_loadDisabled (ids : List ℤ) (h : HealthManager) :
    (h.loadDisabled ids).smallModelStates = h.smallModelStates := by
  induction ids generalizing h with
  | nil => rfl
  | cons id ids ih => exact ih _

/-- The health manager that a server starts with says what the rows say. -/
theorem healthView_startup {parseDbDatetime : String → Option Calendar.Instant} {db : Db}
    (hu : db.UniquePairs) (now : Calendar.Instant) (channelId : ℤ) (upstream : String) :
    (startup parseDbDatetime db now).healthView channelId upstream =
      (startup parseDbDatetime db now).rowView channelId upstream := by
  have hloaded : (startup parseDbDatetime db now).health.smallModelStates =
      Map.ofList ((DiscoveredModelRepo.listDiscoveredModels db).map fun r =>
        (r.pair, r.smallModelState parseDbDatetime)) := by
    rw [Map.ofList, List.foldl_map]
    show List.foldl _ (HealthManager.loadDisabled _ _).smallModelStates _ = _
    rw [smallModelStates_loadDisabled]
    rfl
  rw [healthView, hloaded,
    Map.ofList_index hu fun _ => DiscoveredModelRepo.mem_listDiscoveredModels, rowView,
    DiscoveredModelRepo.getDiscoveredModel_eq (channelId, upstream), Option.map_map]
  exact congrArg (Option.map · _) (funext (DiscoveredModel.view_smallModelState parseDbDatetime))

/-- **At the start** the copies agree. -/
theorem copiesAgree_startup (parseDbDatetime : String → Option Calendar.Instant) {db : Db}
    (hu : db.UniquePairs) (now : Calendar.Instant) :
    (startup parseDbDatetime db now).CopiesAgree lib where
  next := nextView_of_none hu rfl
  health := healthView_startup hu now

end AppState

/-! ### Operations -/

/-- A reply to every call, where no upstream is there to give one. -/
def ExecReq.noReply : (q : ExecReq) → q.Resp
  | selectKeys _ => .ok []
  | getChannelModelPricing _ _ _ => .ok none
  | billing q => q.failure .clientAuthFailed
  | isAvailable _ _ => false
  | adaptorExecute _ _ => none
  | adaptorExecuteStream _ _ => none
  | markCooldown _ _ => ()
  | markDisabled _ => ()
  | logUsage _ => .ok ()
  | addKeyUsage _ _ => .ok ()
  | addUsage _ _ => ()
  | getSmallModelQuota _ _ => none
  | updateSmallModelQuota _ _ _ _ => ()
  | addSmallModelUsage _ _ _ _ => .ok ()

/-- The server as it answers a program that asks no upstream. -/
def AppState.offline (lib : Libraries) (chance : Chance) (q : ExecReq) (s : AppState) :
    q.Resp × AppState :=
  s.answer lib.lower chance q q.noReply

/-- The operations on quotas, one after another. -/
inductive QuotaOp
  /-- A request reads the snapshot. -/
  | request (chance : Chance)
  /-- A request has succeeded on a small model. -/
  | succeed (channelId : ℤ) (upstream : String) (usage : Usage) (chance : Chance)
  /-- The recovery loop comes round. -/
  | recover
  | update (channelId : ℤ) (payload : UpdateSmallModelQuotaRequest) (chance : Chance)
  | reset (channelId : ℤ) (upstream : String) (chance : Chance)
  /-- Time passes, in nanoseconds. -/
  | elapse (duration : ℕ)

namespace QuotaOp

variable (lib : Libraries)

/-- What an operation does, from its beginning to its end. -/
def step (s : AppState) : QuotaOp → Option AppState
  | request chance => s.step lib (.request chance)
  | succeed channelId upstream usage chance =>
    some ((accumulateSmallModelQuota channelId upstream usage).run (AppState.offline lib chance)
      s).state
  | recover => s.step lib .recover
  | update channelId payload chance =>
    s.step lib (.admin (.updateSmallModelQuota channelId payload) chance)
  | reset channelId upstream chance =>
    s.step lib (.admin (.resetSmallModelQuota channelId upstream) chance)
  | elapse duration => s.step lib (.elapse duration)

end QuotaOp

/-- Nothing is used, and the small model is available. -/
def SmallModelState.Unused (m : SmallModelState) : Prop := m.used = 0 ∧ m.status = .available

theorem SmallModelState.unused_iff {m : SmallModelState} : m.Unused ↔ m.view = m.view.unused := by
  simp [Unused, view, QuotaView.unused]

/-- The handler takes the units and windows it knows. -/
def UpdateSmallModelQuotaRequest.Valid (payload : UpdateSmallModelQuotaRequest) : Prop :=
  (payload.unit = "token" ∨ payload.unit = "call") ∧
    (payload.window = "day" ∨ payload.window = "month" ∨ payload.window = "total")

/-- What an operation writes is in the copy it forgets already. -/
def QuotaOp.Harmless (s : AppState) : QuotaOp → Prop
  | .request _ => True
  | .succeed channelId upstream usage _ =>
    ∀ q, (s.cache.bind fun d => d.smallModelQuotaFor channelId upstream) = some q →
      q.limit = none ∨ quotaDelta q.unit usage = none
  | .recover => s.cache = none ∨ ∀ pair m, s.health.smallModelStates pair = some m →
      m.due s.now = true → m.Unused
  | .update channelId payload _ =>
    payload.Valid → DiscoveredModelRepo.Writable channelId payload.upstreamModelName s.db →
      ∃ m, s.health.smallModelStates (channelId, payload.upstreamModelName) = some m ∧
        m.limit = payload.limit ∧ m.Unused
  | .reset channelId upstream _ =>
    ∀ m, s.health.smallModelStates (channelId, upstream) = some m → m.Unused
  | .elapse _ => True

/-! ### A successful request -/

theorem quotaDelta_ne_zero {unit : Option QuotaUnit} {usage : Usage} {delta : ℤ}
    (h : quotaDelta unit usage = some delta) : delta ≠ 0 := by
  rcases unit with _ | _ | _
  · cases h
  · intro hzero
    simp only [quotaDelta] at h
    split at h <;> simp_all
  · cases h
    decide

/-- The state after a request has been added to a quota. -/
def AppState.recorded (channelId : ℤ) (upstream : String) (delta : ℤ) (out : ℤ × QuotaStatus)
    (s : AppState) : AppState :=
  { s with
    cache := s.cache.map (CacheData.updateSmallModelQuota channelId upstream out.1 out.2)
    db := { s.db with
      discoveredModels := s.db.discoveredModels.update (DiscoveredModel.isFor channelId upstream)
        (DiscoveredModel.addUsage delta out.2.asDbStr)
        (DiscoveredModel.key_addUsage delta out.2.asDbStr) } }

theorem AppState.rowView_recorded (channelId : ℤ) (upstream : String) (delta : ℤ)
    (out : ℤ × QuotaStatus) (s : AppState) :
    (s.recorded channelId upstream delta out).rowView channelId upstream =
      (s.rowView channelId upstream).map fun v => ⟨v.limit, v.used + delta, out.2⟩ := by
  rw [rowView, recorded, DiscoveredModelRepo.getDiscoveredModel_updateFor
    (DiscoveredModel.key_addUsage delta out.2.asDbStr) (fun _ => rfl) (channelId, upstream),
    rowView, Option.map_map, Option.map_map]
  refine congrArg (Option.map · _) (funext fun r => ?_)
  rw [Function.comp_apply, if_pos rfl, DiscoveredModel.view_addUsage, Function.comp_apply]

/-- What a success leaves: it is recorded where the snapshot has a limit and a unit for it. -/
theorem run_accumulateSmallModelQuota (lib : Libraries) (chance : Chance) (channelId : ℤ)
    (upstream : String) (usage : Usage) (s : AppState) :
    ((accumulateSmallModelQuota channelId upstream usage).run (AppState.offline lib chance)
      s).state =
      match s.cache.bind fun d => d.smallModelQuotaFor channelId upstream with
      | none => s
      | some q => match q.limit, quotaDelta q.unit usage with
        | some limit, some delta =>
          s.recorded channelId upstream delta (accumulated q.used delta limit)
        | _, _ => s := by
  rw [accumulateSmallModelQuota, await_bind, Program.run]
  show (Program.run _ _ s).state = _
  cases hq : s.cache.bind fun d => d.smallModelQuotaFor channelId upstream with
  | none =>
    rw [show (AppState.offline lib chance (.getSmallModelQuota channelId upstream) s).1 = none
      from hq]
    rfl
  | some q =>
    rw [show (AppState.offline lib chance (.getSmallModelQuota channelId upstream) s).1 = some q
      from hq]
    dsimp only
    cases q.limit with
    | none => rfl
    | some limit =>
      cases quotaDelta q.unit usage with
      | none => rfl
      | some delta => rfl

/-! ### The handlers -/

section Handlers

variable {lib : Libraries} {s : AppState} {channelId : ℤ}

theorem refuseIf_of_not {c : Prop} [Decidable c] {e : AdminError} (h : ¬ c) :
    refuseIf c e = pure () :=
  if_neg h

theorem refuseIf_of {c : Prop} [Decidable c] {e : AdminError} (h : c) : refuseIf c e = throw e :=
  if_pos h

/-- What the handler does under the lock, for a payload that is valid. -/
theorem updateSmallModelQuotaHandler_of_valid {payload : UpdateSmallModelQuotaRequest}
    (h : payload.Valid) (now : Calendar.Instant) :
    updateSmallModelQuotaHandler now channelId payload =
      droppingCache (liftM (DiscoveredModelRepo.updateDiscoveredModelQuota (nowIso8601 now)
        channelId payload.upstreamModelName payload.limit (some payload.unit)
        (some payload.window))) := by
  rw [updateSmallModelQuotaHandler, refuseIf_of_not, refuseIf_of_not]
  · rfl
  · rintro ⟨hday, hmonth, htotal⟩
    exact h.2.elim hday (Or.elim · hmonth htotal)
  · rintro ⟨htoken, hcall⟩
    exact h.1.elim htoken hcall

/-- A payload that is not valid is refused. -/
theorem updateSmallModelQuotaHandler_of_not_valid {payload : UpdateSmallModelQuotaRequest}
    (h : ¬ payload.Valid) (now : Calendar.Instant) (s : AppState) :
    ∃ e, updateSmallModelQuotaHandler now channelId payload s = .error e := by
  rw [UpdateSmallModelQuotaRequest.Valid, not_and_or, not_or, not_or, not_or] at h
  rw [updateSmallModelQuotaHandler]
  by_cases hunit : payload.unit ≠ "token" ∧ payload.unit ≠ "call"
  · rw [refuseIf_of hunit]
    exact ⟨_, rfl⟩
  · rw [refuseIf_of_not hunit, refuseIf_of (h.resolve_left hunit)]
    exact ⟨_, rfl⟩

/-- The update of a quota that is refused leaves everything alone. -/
theorem administer_update_refused {payload : UpdateSmallModelQuotaRequest} (chance : Chance)
    (h : payload.Valid → ¬ DiscoveredModelRepo.Writable channelId payload.upstreamModelName s.db) :
    s.administer lib (.updateSmallModelQuota channelId payload) chance = s := by
  have herror : ∃ e, updateSmallModelQuotaHandler s.now channelId payload s = .error e := by
    by_cases hvalid : payload.Valid
    · rw [updateSmallModelQuotaHandler_of_valid hvalid]
      refine ⟨.ofProxy foreignKeyFailed, ?_⟩
      show ((Except.mapError _ (DiscoveredModelRepo.upsert _ _ _ _ s.db)).map _) = _
      rw [DiscoveredModelRepo.upsert_refused (h hvalid)]
      rfl
    · exact updateSmallModelQuotaHandler_of_not_valid hvalid _ s
  obtain ⟨e, he⟩ := herror
  rw [AppState.administer, AdminCall.handle, AdminCall.replying, he]
  rfl

/-- What the update of a quota leaves. -/
theorem administer_update (lib : Libraries) {payload : UpdateSmallModelQuotaRequest}
    (chance : Chance) (hvalid : payload.Valid)
    (h : DiscoveredModelRepo.Writable channelId payload.upstreamModelName s.db) :
    ∃ db, s.administer lib (.updateSmallModelQuota channelId payload) chance =
        { s with db := db, cache := none } ∧ (s.db.UniquePairs → db.UniquePairs) ∧
      (DiscoveredModelRepo.getDiscoveredModel channelId payload.upstreamModelName db).map
        DiscoveredModel.view = some ⟨payload.limit, 0, .available⟩ ∧
      ∀ pair ≠ (channelId, payload.upstreamModelName),
        DiscoveredModelRepo.getDiscoveredModel pair.1 pair.2 db =
          DiscoveredModelRepo.getDiscoveredModel pair.1 pair.2 s.db := by
  obtain ⟨db, hok, hunique, ⟨r, hrow⟩, hothers⟩ :=
    DiscoveredModelRepo.updateDiscoveredModelQuota_ok (nowIso8601 s.now) payload.limit
      (some payload.unit) (some payload.window) h
  refine ⟨db, ?_, hunique, ?_, hothers⟩
  · have hreply : updateSmallModelQuotaHandler s.now channelId payload s =
        .ok ((), { s with db := db, cache := none }) := by
      rw [updateSmallModelQuotaHandler_of_valid hvalid, droppingCache_ok]
      exact ⟨db, lift_ok.mpr hok, rfl⟩
    rw [AppState.administer, AdminCall.handle, AdminCall.replying, hreply]
    rfl
  · rw [hrow, Option.map_some, DiscoveredModel.view_withQuota]

/-- What the reset of a quota leaves. -/
theorem administer_reset (upstream : String) (chance : Chance) :
    s.administer lib (.resetSmallModelQuota channelId upstream) chance = { s with
      cache := none
      db := { s.db with
        discoveredModels := s.db.discoveredModels.update (DiscoveredModel.isFor channelId upstream)
          (DiscoveredModel.reset (nowIso8601 s.now))
          (DiscoveredModel.key_reset (nowIso8601 s.now)) } } := rfl

end Handlers

/-! ### One operation -/

namespace AppState

variable {lib : Libraries} {s s' : AppState}

/-- Rows and entries that say the same as before, under a snapshot that does. -/
theorem CopiesAgree.congr (h : s.CopiesAgree lib)
    (hnext : ∀ rank channelId upstream,
      s'.nextView lib rank channelId upstream = s.nextView lib rank channelId upstream)
    (hdb : s'.db = s.db) (hhealth : s'.health = s.health) : s'.CopiesAgree lib where
  next rank channelId upstream := by
    rw [hnext, h.next, rowView, rowView, hdb]
  health channelId upstream := by
    rw [rowView, hdb, healthView, hhealth]
    exact h.health channelId upstream

/-- Without a snapshot the row and the health manager decide. -/
theorem copiesAgree_of_none (hu : s.db.UniquePairs) (hc : s.cache = none) :
    s.CopiesAgree lib ↔
      ∀ channelId upstream, s.healthView channelId upstream = s.rowView channelId upstream :=
  ⟨fun h => h.health, fun h => ⟨nextView_of_none hu hc, h⟩⟩

end AppState

namespace QuotaOp

open AppState

variable {lib : Libraries} {s s' : AppState}

theorem copiesAgree_request (h : s.CopiesAgree lib) (chance : Chance) :
    (ConfigCache.get lib.lower chance.rank s).2.CopiesAgree lib := by
  cases hc : s.cache with
  | some d =>
    rw [ConfigCache.get_of_some hc]
    exact h
  | none =>
    rw [ConfigCache.get_of_none hc]
    refine h.congr (fun rank channelId upstream => ?_) rfl rfl
    rw [nextView_eq, nextView_eq, hc]
    rfl

theorem copiesAgree_elapse (h : s.CopiesAgree lib) (duration : ℕ) :
    CopiesAgree { s with now := s.now + duration } lib := by
  refine h.congr (fun rank channelId upstream => ?_) rfl rfl
  rw [nextView_eq, nextView_eq]

/-- **A success** that is recorded leaves the health manager behind. -/
theorem copiesAgree_succeed (h : s.CopiesAgree lib) (channelId : ℤ) (upstream : String)
    (usage : Usage) (chance : Chance)
    (hs : step lib s (.succeed channelId upstream usage chance) = some s') :
    s'.CopiesAgree lib ↔ Harmless s (.succeed channelId upstream usage chance) := by
  have hs' := Option.some.inj hs
  rw [run_accumulateSmallModelQuota] at hs'
  rw [Harmless]
  cases hq : s.cache.bind fun d => d.smallModelQuotaFor channelId upstream with
  | none =>
    rw [hq] at hs'
    cases hs'
    exact iff_of_true h fun q hq' => by cases hq'
  | some q =>
    rw [hq] at hs'
    dsimp only at hs'
    cases hlimit : q.limit with
    | none =>
      rw [hlimit] at hs'
      cases hs'
      refine iff_of_true h fun q' hq' => .inl ?_
      cases hq'
      exact hlimit
    | some limit =>
      cases hdelta : quotaDelta q.unit usage with
      | none =>
        rw [hlimit, hdelta] at hs'
        cases hs'
        refine iff_of_true h fun q' hq' => .inr ?_
        cases hq'
        exact hdelta
      | some delta =>
        rw [hlimit, hdelta] at hs'
        refine iff_of_false (fun h' => ?_) fun hall => ?_
        · -- The row has grown, the entry of the health manager has not.
          obtain ⟨d, hc, hd⟩ := Option.bind_eq_some_iff.mp hq
          have hrow : s.rowView channelId upstream = some q.view := by
            rw [← h.next (fun _ => 0), nextView_of_some hc, hd, Option.map_some]
          have hgrown : s.healthView channelId upstream = s'.rowView channelId upstream := by
            rw [← h'.health, ← hs']
            rfl
          rw [← hs', rowView_recorded, h.health, hrow, Option.map_some] at hgrown
          have hused : q.used = q.used + delta := congrArg QuotaView.used (Option.some.inj hgrown)
          have hne := quotaDelta_ne_zero hdelta
          omega
        · rcases hall q rfl with hn | hn
          · rw [hlimit] at hn
            cases hn
          · rw [hdelta] at hn
            cases hn

/-- A reset in memory changes nothing exactly where nothing is used. -/
theorem healthView_unused_iff {channelId : ℤ} {upstream : String} :
    s.healthView channelId upstream = (s.healthView channelId upstream).map QuotaView.unused ↔
      ∀ m, s.health.smallModelStates (channelId, upstream) = some m → m.Unused := by
  rw [healthView]
  cases s.health.smallModelStates (channelId, upstream) with
  | none => simp
  | some m => simp [SmallModelState.unused_iff]

theorem rowView_recover (channelId : ℤ) (upstream : String) :
    s.checkRecoveries.rowView channelId upstream =
      if s.health.resetDue s.now (channelId, upstream) then
        (s.rowView channelId upstream).map QuotaView.unused
      else s.rowView channelId upstream := by
  have hget := DiscoveredModelRepo.getDiscoveredModel_update
    (P := fun pair => s.health.resetDue s.now pair = true)
    (p := fun r => s.health.resetDue s.now r.pair) s.db
    (DiscoveredModel.key_reset (nowIso8601 s.now)) (fun _ => Bool.decide_eq_true.symm)
    (fun _ => rfl) (channelId, upstream)
  rw [rowView, rowView, Option.map_map]
  refine (congrArg (Option.map DiscoveredModel.view) hget).trans ?_
  rw [Option.map_map]
  split
  · refine congrArg (Option.map · _) (funext fun r => ?_)
    rw [Function.comp_apply, DiscoveredModel.view_reset, Function.comp_apply]
  · rfl

theorem healthView_recover (channelId : ℤ) (upstream : String) :
    s.checkRecoveries.healthView channelId upstream =
      if s.health.resetDue s.now (channelId, upstream) then
        (s.healthView channelId upstream).map QuotaView.unused
      else s.healthView channelId upstream := by
  show ((s.health.smallModelStates (channelId, upstream)).map _).map _ = _
  rw [HealthManager.resetDue, healthView]
  cases s.health.smallModelStates (channelId, upstream) with
  | none => rfl
  | some m =>
    simp only [Option.map_some, Option.any_some]
    split <;> rfl

/-- **The recovery loop** leaves the snapshot behind, where there is one and something was used. -/
theorem copiesAgree_recover (hu : s.db.UniquePairs) (h : s.CopiesAgree lib) :
    s.checkRecoveries.CopiesAgree lib ↔ Harmless s .recover := by
  have hhealth (channelId : ℤ) (upstream : String) :
      s.checkRecoveries.healthView channelId upstream =
        s.checkRecoveries.rowView channelId upstream := by
    rw [healthView_recover, rowView_recover, h.health]
  rw [Harmless]
  cases hc : s.cache with
  | none =>
    have hu' : s.checkRecoveries.db.UniquePairs :=
      DiscoveredModelRepo.uniquePairs_update _ (fun _ => rfl) hu
    exact iff_of_true ⟨nextView_of_none hu' hc, hhealth⟩ (.inl rfl)
  | some d =>
    have hnext (rank : String → ℕ) (channelId : ℤ) (upstream : String) :
        s.checkRecoveries.nextView lib rank channelId upstream =
          s.healthView channelId upstream := by
      rw [h.health, ← h.next rank, nextView_of_some hc,
        nextView_of_some (s := s.checkRecoveries) hc]
    constructor
    · intro h'
      right
      intro pair m hm hdue
      have hview := h'.next (fun _ => 0) pair.1 pair.2
      have hreset : s.health.resetDue s.now pair = true := by
        rw [HealthManager.resetDue, hm, Option.any_some, hdue]
      rw [hnext, ← h'.health, healthView_recover, if_pos hreset] at hview
      exact healthView_unused_iff.mp hview m hm
    · rintro (hnone | hunused)
      · cases hnone
      · refine ⟨fun rank channelId upstream => ?_, hhealth⟩
        rw [hnext, ← hhealth, healthView_recover]
        split
        · rename_i hreset
          refine healthView_unused_iff.mpr fun m hm => hunused _ m hm ?_
          rwa [HealthManager.resetDue, hm, Option.any_some] at hreset
        · rfl

/-- **The update of a quota** leaves the health manager behind. -/
theorem copiesAgree_update (hu : s.db.UniquePairs) (h : s.CopiesAgree lib) (channelId : ℤ)
    (payload : UpdateSmallModelQuotaRequest) (chance : Chance) :
    (s.administer lib (.updateSmallModelQuota channelId payload) chance).CopiesAgree lib ↔
      Harmless s (.update channelId payload chance) := by
  rw [Harmless]
  by_cases hvalid : payload.Valid
  · by_cases hw : DiscoveredModelRepo.Writable channelId payload.upstreamModelName s.db
    · obtain ⟨db, hs, hu', hrow, hothers⟩ := administer_update lib chance hvalid hw
      rw [hs, copiesAgree_of_none (hu' hu) rfl]
      have hentry : (∃ m,
          s.health.smallModelStates (channelId, payload.upstreamModelName) = some m ∧
            m.limit = payload.limit ∧ m.Unused) ↔
          s.healthView channelId payload.upstreamModelName =
            some ⟨payload.limit, 0, .available⟩ := by
        rw [healthView, Option.map_eq_some_iff]
        simp [SmallModelState.Unused, SmallModelState.view]
      constructor
      · intro h' _ _
        rw [hentry]
        exact (h' channelId payload.upstreamModelName).trans hrow
      · intro hm channelId' upstream'
        by_cases hpair : (channelId', upstream') = (channelId, payload.upstreamModelName)
        · obtain ⟨rfl, rfl⟩ := Prod.mk.inj hpair
          exact (hentry.mp (hm hvalid hw)).trans hrow.symm
        · exact (h.health channelId' upstream').trans
            (congrArg (Option.map DiscoveredModel.view) (hothers _ hpair)).symm
    · rw [administer_update_refused chance fun _ => hw]
      exact iff_of_true h fun _ hw' => absurd hw' hw
  · rw [administer_update_refused chance fun hv => absurd hv hvalid]
    exact iff_of_true h fun hv => absurd hv hvalid

/-- **The reset of a quota** leaves the health manager behind. -/
theorem copiesAgree_reset (hu : s.db.UniquePairs) (h : s.CopiesAgree lib) (channelId : ℤ)
    (upstream : String) (chance : Chance) :
    (s.administer lib (.resetSmallModelQuota channelId upstream) chance).CopiesAgree lib ↔
      Harmless s (.reset channelId upstream chance) := by
  have hrow (channelId' : ℤ) (upstream' : String) :
      (s.administer lib (.resetSmallModelQuota channelId upstream) chance).rowView channelId'
        upstream' =
        if (channelId', upstream') = (channelId, upstream) then
          (s.rowView channelId' upstream').map QuotaView.unused
        else s.rowView channelId' upstream' := by
    rw [administer_reset, rowView, DiscoveredModelRepo.getDiscoveredModel_updateFor
      (DiscoveredModel.key_reset _) (fun _ => rfl) (channelId', upstream'), rowView, Option.map_map]
    split
    · rw [Option.map_map]
      refine congrArg (Option.map · _) (funext fun r => ?_)
      rw [Function.comp_apply, DiscoveredModel.view_reset, Function.comp_apply]
    · rfl
  have hu' : (s.administer lib (.resetSmallModelQuota channelId upstream) chance).db.UniquePairs :=
    DiscoveredModelRepo.uniquePairs_update _ (fun _ => rfl) hu
  rw [copiesAgree_of_none hu' rfl, Harmless, ← healthView_unused_iff]
  constructor
  · intro h'
    have hpair := h' channelId upstream
    rwa [hrow, if_pos rfl, ← h.health] at hpair
  · intro hunused channelId' upstream'
    rw [hrow]
    split
    · rename_i hpair
      obtain ⟨rfl, rfl⟩ := Prod.mk.inj hpair
      rw [← h.health]
      exact hunused
    · exact h.health channelId' upstream'

/-- **One operation** keeps the copies agreeing exactly when it is harmless. -/
theorem copiesAgree_step (hu : s.db.UniquePairs) (h : s.CopiesAgree lib) {op : QuotaOp}
    (hs : step lib s op = some s') : s'.CopiesAgree lib ↔ Harmless s op := by
  cases op with
  | request chance =>
    cases hs
    exact iff_of_true (copiesAgree_request h chance) trivial
  | succeed channelId upstream usage chance =>
    exact copiesAgree_succeed h channelId upstream usage chance hs
  | recover =>
    cases hs
    exact copiesAgree_recover hu h
  | update channelId payload chance =>
    cases hs
    exact copiesAgree_update hu h channelId payload chance
  | reset channelId upstream chance =>
    cases hs
    exact copiesAgree_reset hu h channelId upstream chance
  | elapse duration =>
    cases hs
    exact iff_of_true (copiesAgree_elapse h duration) trivial

/-- No operation gives a small model a second row. -/
theorem uniquePairs_step (hu : s.db.UniquePairs) {op : QuotaOp} (hs : step lib s op = some s') :
    s'.db.UniquePairs := by
  cases op with
  | request chance =>
    cases hs
    cases hc : s.cache with
    | none => rwa [ConfigCache.get_of_none hc]
    | some d => rwa [ConfigCache.get_of_some hc]
  | succeed channelId upstream usage chance =>
    have hs' := Option.some.inj hs
    rw [run_accumulateSmallModelQuota] at hs'
    rw [← hs']
    split
    · exact hu
    · split
      · exact DiscoveredModelRepo.uniquePairs_update _ (fun _ => rfl) hu
      · exact hu
  | recover =>
    cases hs
    exact DiscoveredModelRepo.uniquePairs_update _ (fun _ => rfl) hu
  | update channelId payload chance =>
    cases hs
    by_cases hvalid : payload.Valid
    · by_cases hw : DiscoveredModelRepo.Writable channelId payload.upstreamModelName s.db
      · obtain ⟨db, hadminister, hu', _⟩ := administer_update lib chance hvalid hw
        rw [hadminister]
        exact hu' hu
      · rwa [administer_update_refused chance fun _ => hw]
    · rwa [administer_update_refused chance fun hv => absurd hv hvalid]
  | reset channelId upstream chance =>
    cases hs
    exact DiscoveredModelRepo.uniquePairs_update _ (fun _ => rfl) hu
  | elapse duration =>
    cases hs
    exact hu

/-- **The three copies** agree wherever a run of the server has got to if and only if each of its
operations is harmless. -/
theorem copiesAgree_iff (lib : Libraries) (parseDbDatetime : String → Option Calendar.Instant)
    {db : Db} (hu : db.UniquePairs) (now : Calendar.Instant) (ops : List QuotaOp) :
    (∀ ops' s', ops' <+: ops →
      Machine.run (step lib) (startup parseDbDatetime db now) ops' = some s' →
      s'.CopiesAgree lib) ↔
      Machine.Along (step lib) Harmless (startup parseDbDatetime db now) ops := by
  refine Machine.invariant_iff_along (J := fun s => s.db.UniquePairs) ?_ ?_ ?_ hu
    (copiesAgree_startup parseDbDatetime hu now)
  · intro s op
    cases op <;> exact ⟨_, rfl⟩
  · intro s op s' hu hs
    exact uniquePairs_step hu hs
  · intro s op s' hu h hs
    exact copiesAgree_step hu h hs

/-! ### A copy left behind -/

/-- A database with a small model that may be called ten times a day. -/
def quotaDb : Db where
  channels := ⟨[⟨1, "metered", .openaiCompatible, "http://metered", "default"⟩],
    List.nodup_singleton _⟩
  discoveredModels := ⟨[{ DiscoveredModel.fresh 1 1 "small" with
    quotaLimit := some 10, quotaUnit := some "call", quotaWindow := some "day" }],
    List.nodup_singleton _⟩

/-- Libraries that this database does not need. -/
def plainLibraries : Libraries := ⟨Text.toAsciiLower, fun _ _ => .error "no expressions"⟩

/-- Entries in the order they are held in, and draws that fall on the first. -/
def plainChance : Chance := ⟨fun _ => 0, fun _ => 0⟩

/-- One request succeeds: its row has one use, the health manager has none. -/
theorem not_copiesAgree :
    ¬ ∀ (lib : Libraries) (parseDbDatetime : String → Option Calendar.Instant) (db : Db)
      (now : Calendar.Instant) (ops : List QuotaOp) (s' : AppState), db.UniquePairs →
      Machine.run (step lib) (startup parseDbDatetime db now) ops = some s' →
      s'.CopiesAgree lib := by
  intro h
  have hrun := h plainLibraries (fun _ => none) quotaDb 0
    [.request plainChance, .succeed 1 "small" .zero plainChance] _ (by decide) rfl
  exact absurd (hrun.health 1 "small") (by decide +kernel)

/-- A reset of a quota of which nothing is used, between two requests. -/
theorem copiesAgree_sample :
    ∃ s', Machine.run (step plainLibraries) (startup (fun _ => none) quotaDb 0)
      [.request plainChance, .reset 1 "small" plainChance, .request plainChance] = some s' ∧
      s'.CopiesAgree plainLibraries := by
  have hu : quotaDb.UniquePairs := by decide
  refine ⟨_, rfl, (copiesAgree_iff plainLibraries (fun _ => none) hu 0
    [.request plainChance, .reset 1 "small" plainChance, .request plainChance]).mpr ?_ _ _
    (List.prefix_refl _) rfl⟩
  refine ⟨trivial, fun s₁ h₁ => ⟨fun m hm => ?_, fun s₂ _ => ⟨trivial, fun s₃ _ => trivial⟩⟩⟩
  cases h₁
  have hentry : (startup (fun _ => none) quotaDb 0).health.smallModelStates (1, "small") =
      some ⟨some .day, some 10, 0, none, .available⟩ := by decide +kernel
  cases hentry.symm.trans hm
  exact ⟨rfl, rfl⟩

end QuotaOp

end Chennix
