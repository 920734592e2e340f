import Chennix.Execution.Routing
import Chennix.Execution.Settlement
import Chennix.Execution.Story
import Chennix.Server.Candidates
import Mathlib.Data.List.Flatten

/-!
# The law of the retry loop

What the loop does with its candidates, whatever the upstreams reply: which keys it tries and in
which order, when it leaves a key, a binding or the loop, what it makes of the keys, what it writes
down, and what it reports when all keys are exhausted.

## Main definitions

* `Surroundings.OfServer` — what an execution meets inside the server
* `attemptsOf`, `marksOf`, `rowsOf` — what a trace says about the candidates
* `RetryLaw` — the law

## Main results

* `AppState.selectKeys_distinct` — no binding and no key is a candidate twice
* `disabled_run` — a key that was disabled is not available again
* `Executor.execute_retries` — every execution follows the law
-/

namespace Chennix

open Foundations Program StorageAdapter

/-! ### The candidates -/

/-- What a snapshot of the database binds to a model, it binds once. -/
theorem distinctChannels_loadAll (modelId : ℤ) (db : Db) :
    Router.DistinctChannels ((loadAll db).getForModel modelId) := by
  obtain ⟨bs, hbs, hget⟩ := getForModel_loadAll modelId db
  rw [hget]
  have hbound : ∀ bound ∈ bs.filterMap (boundChannel db), ∃ b, boundChannel db b = some bound :=
    fun bound hmem => (List.mem_filterMap.mp hmem).imp fun _ h => h.2
  have hkey : ∀ bound ∈ bs.filterMap (boundChannel db), ∀ k ∈ bound.2.1,
      k ∈ db.channelKeys.rows ∧ k.channelId = bound.1.id := by
    intro bound hmem k hk
    obtain ⟨b, hb⟩ := hbound bound hmem
    obtain ⟨hpair, hkeys⟩ := boundChannel_eq_some hb
    rw [hkeys, mem_getKeysForChannel] at hk
    exact ⟨hk.1, hk.2.trans (Prod.ext_iff.mp hpair).1.symm⟩
  refine ⟨?_, fun bound hmem => ?_, fun c hc c' hc' k hk k' hk' hid => ?_⟩
  · rw [List.pairwise_filterMap]
    have hdistinct : bs.Pairwise fun b b' =>
        (b.channelId, b.upstreamModelName) ≠ (b'.channelId, b'.upstreamModelName) := by
      rcases hbs with rfl | rfl
      · exact loadBindings_distinct modelId
      · exact .nil
    refine hdistinct.imp fun hne bound hb bound' hb' => ?_
    rw [(boundChannel_eq_some hb).1, (boundChannel_eq_some hb').1]
    exact hne
  · obtain ⟨b, hb⟩ := hbound bound hmem
    rw [(boundChannel_eq_some hb).2]
    exact ((List.perm_insertionSort _ _).map _).nodup_iff.mpr
      (db.channelKeys.nodup.sublist (List.filter_sublist.map _))
  · obtain ⟨hrow, hchannel⟩ := hkey c hc k hk
    obtain ⟨hrow', hchannel'⟩ := hkey c' hc' k' hk'
    rw [← hchannel, ← hchannel', List.inj_on_of_nodup_map db.channelKeys.nodup hrow hrow' hid]

/-- **No candidate twice.** -/
theorem AppState.selectKeys_distinct {s : AppState} {db : Db} (h : s.snapshot = loadAll db)
    (lower : String → String) (chance : Chance) (ctx : ExecutionContext) :
    Router.Distinct (s.selectKeys lower chance ctx).1 := by
  rw [selectKeys_fst, h]
  exact (distinctChannels_loadAll ctx.modelId db).route _ _

/-- What an execution meets inside the server: candidates routed over a snapshot of a database, in
whatever state keys and small models were then, the pricing of a snapshot, and the storage adapter
as the billing repository, on the database as others leave it. -/
structure Surroundings.OfServer (env : Surroundings) (ctx : ExecutionContext) : Prop where
  candidates : ∃ (lower : String → String) (chance : Chance) (s : AppState) (db : Db),
    s.snapshot = loadAll db ∧ env.candidates = .ok (s.selectKeys lower chance ctx).1
  pricing : ∀ modelId channelId upstream, ∃ d : CacheData,
    env.pricing modelId channelId upstream = .ok (d.pricingFor modelId channelId upstream)
  repository : ∀ billed q, ∃ now db, env.repository billed q = (BillingReq.answer now db q).1

theorem BillingReq.not_exhausted {q : BillingReq} {now : String} {db : Db} {e : ProxyError}
    (h : (q.answer now db).1 = q.failure e) : ¬e.Exhausted := by
  by_cases hq : q.Infallible
  · exact absurd h (answer_ne_failure hq rfl e)
  · cases q with
    | preChargeAtomic u k amount unlimited =>
      obtain ⟨msg, rfl⟩ := preChargeAtomic_error h
      exact not_exhausted_config msg
    | _ => exact absurd trivial hq

theorem Surroundings.OfServer.plain {env : Surroundings} {ctx : ExecutionContext}
    (h : env.OfServer ctx) : env.Plain where
  pricing modelId channelId upstream e he := by
    obtain ⟨d, hd⟩ := h.pricing modelId channelId upstream
    cases hd.symm.trans he
  repository billed q e he := by
    obtain ⟨now, db, hr⟩ := h.repository billed q
    exact BillingReq.not_exhausted (hr.symm.trans he)

theorem Surroundings.OfServer.distinct {env : Surroundings} {ctx : ExecutionContext}
    (h : env.OfServer ctx) {candidates : List Bucket}
    (hcandidates : env.candidates = .ok candidates) :
    Router.Distinct candidates := by
  obtain ⟨lower, chance, s, db, hs, hselect⟩ := h.candidates
  obtain rfl := Except.ok.inj (hselect.symm.trans hcandidates)
  exact AppState.selectKeys_distinct hs lower chance ctx

/-! ### A disabled key stays disabled -/

/-- The key is not usable at all. -/
def HealthManager.Disabled (h : HealthManager) (keyId : ℤ) : Prop :=
  (h.stateOf keyId).usable = false

namespace HealthManager

theorem Disabled.updateKey {h : HealthManager} {k : ℤ} (hk : h.Disabled k) (k' : ℤ)
    {f : KeyRuntimeState → KeyRuntimeState}
    (hf : ∀ s : KeyRuntimeState, s.usable = false → (f s).usable = false) :
    (h.updateKey k' f).Disabled k := by
  rw [Disabled]
  by_cases heq : k = k'
  · rw [← heq, stateOf_updateKey]
    exact hf _ hk
  · rw [stateOf_updateKey_of_ne heq]
    exact hk

theorem disabled_markDisabled (h : HealthManager) (k : ℤ) : (h.markDisabled k).Disabled k := by
  rw [Disabled, markDisabled, stateOf_updateKey]
  rfl

end HealthManager

/-- No call of an execution makes a disabled key usable. -/
theorem Surroundings.disabled_answer (env : Surroundings) {s : Situation} {k : ℤ}
    (hk : s.health.Disabled k) (q : ExecReq) : (env.answer q s).2.health.Disabled k := by
  cases q with
  | markCooldown keyId upstream =>
    show (HealthManager.markCooldown _ _ _ _).Disabled k
    rw [HealthManager.markCooldown]
    exact hk.updateKey keyId fun _ h => h
  | markDisabled keyId =>
    show (HealthManager.markDisabled _ _).Disabled k
    rw [HealthManager.markDisabled]
    exact hk.updateKey keyId fun _ _ => rfl
  | addUsage keyId tokens =>
    show (HealthManager.addUsage _ _ _).Disabled k
    rw [HealthManager.addUsage]
    exact hk.updateKey keyId fun _ h => h
  | _ => exact hk

/-- A disabled key is not found available. -/
theorem story_of_disabled (env : Surroundings) {α : Type} (p : ExecM α) {s : Situation} {k : ℤ}
    (hk : s.health.Disabled k) (upstream : String) :
    .checks k upstream true ∉ story (p.run env.answer s).trace := by
  induction p generalizing s with
  | pure a => exact List.not_mem_nil
  | call q cont ih =>
    have hrest := ih (env.answer q s).1 (env.disabled_answer hk q)
    intro hmem
    rw [story, List.mem_filterMap] at hmem
    obtain ⟨a, ha, hseen⟩ := hmem
    rcases List.mem_cons.mp ha with rfl | ha
    · cases q with
      | isAvailable keyId upstream' =>
        obtain ⟨rfl, rfl, htrue⟩ := Happening.checks.inj (Option.some.inj hseen)
        have hfalse := HealthManager.isAvailable_of_disabled hk (env.clock s.readings) upstream'
        exact Bool.false_ne_true (hfalse.symm.trans htrue)
      | _ => cases hseen
    · exact hrest (List.mem_filterMap.mpr ⟨a, ha, hseen⟩)

/-- The key that the first of two happenings disables is not found available in the second. -/
def StaysDisabled (x y : Happening) : Prop :=
  ∀ k upstream, x = .disables k → y ≠ .checks k upstream true

/-- **Disabled is disabled**, to the end of a run. -/
theorem disabled_run (env : Surroundings) {α : Type} (p : ExecM α) (s : Situation) :
    (story (p.run env.answer s).trace).Pairwise StaysDisabled := by
  induction p generalizing s with
  | pure a => exact .nil
  | call q cont ih =>
    have hrest := ih (env.answer q s).1 (env.answer q s).2
    show (List.filterMap happening? (_ :: _)).Pairwise StaysDisabled
    cases hseen : happening? ⟨q, (env.answer q s).1⟩ with
    | none =>
      rw [List.filterMap_cons_none hseen]
      exact hrest
    | some x =>
      rw [List.filterMap_cons_some hseen]
      refine .cons (fun y hy k upstream hx hcheck => ?_) hrest
      obtain rfl := hx
      cases q with
      | markDisabled keyId =>
        obtain rfl := Happening.disables.inj (Option.some.inj hseen)
        exact story_of_disabled env (cont ()) (HealthManager.disabled_markDisabled _ keyId) upstream
          (hcheck ▸ hy)
      | _ => cases hseen

/-! ### The law -/

namespace Happening

/-- The attempt that is made. -/
def attempt? : Happening → Option Attempt
  | asks a => some a
  | _ => none

/-- What is made of a key. -/
def mark? : Happening → Option Happening
  | coolsDown keyId upstream => some (coolsDown keyId upstream)
  | disables keyId => some (disables keyId)
  | _ => none

/-- The row that is to be written. -/
def entry? : Happening → Option UsageEntry
  | records entry => some entry
  | _ => none

end Happening

/-- The attempts of a trace. -/
def attemptsOf (t : List ExecCall) : List Attempt := (story t).filterMap Happening.attempt?

/-- What a trace makes of the keys. -/
def marksOf (t : List ExecCall) : List Happening := (story t).filterMap Happening.mark?

/-- The row that a call has written. -/
def row? : ExecCall → Option UsageEntry
  | ⟨.logUsage entry, .ok ()⟩ => some entry.outline
  | _ => none

/-- The rows of the usage log that a trace has written. -/
def rowsOf (t : List ExecCall) : List UsageEntry := t.filterMap row?

namespace Attempt

/-- The upstream refused the key. -/
def Refused (a : Attempt) : Prop :=
  ∃ body, a.reply = some (.error (.upstream 401 body)) ∨
    a.reply = some (.error (.upstream 403 body))

/-- The upstream does not serve such a request. -/
def Inapplicable (a : Attempt) : Prop :=
  ∃ body, a.reply = some (.error (.upstream 404 body)) ∨
    a.reply = some (.error (.upstream 400 body)) ∧ bodyContainsContextLengthExceeded body = true

/-- The upstream's error is for the client. -/
def Returned (a : Attempt) : Prop :=
  ∃ e, a.reply = some (.error e) ∧ classifyFailure e = .returnToClient

theorem Refused.mark {a : Attempt} (h : a.Refused) : a.mark = some (.disables a.rk.key.id) := by
  obtain ⟨body, h | h⟩ := h
  · rw [Attempt.mark, h]
    rfl
  · rw [Attempt.mark, h]
    rfl

theorem Inapplicable.action {a : Attempt} (h : a.Inapplicable) :
    ∃ e, a.reply = some (.error e) ∧ classifyFailure e = .skipBinding := by
  obtain ⟨body, h | ⟨h, hbody⟩⟩ := h
  · exact ⟨_, h, rfl⟩
  · refine ⟨_, h, ?_⟩
    show (if bodyContainsContextLengthExceeded body then _ else _) = _
    rw [if_pos hbody]

theorem Inapplicable.way {a : Attempt} (h : a.Inapplicable) : a.way = .skip := by
  obtain ⟨e, he, hskip⟩ := h.action
  rw [Attempt.way, he]
  show (classifyFailure e).way = .skip
  rw [hskip]
  rfl

theorem Inapplicable.mark {a : Attempt} (h : a.Inapplicable) : a.mark = none := by
  obtain ⟨e, he, hskip⟩ := h.action
  rw [Attempt.mark, he]
  show (classifyFailure e).mark a.rk = none
  rw [hskip]
  rfl

theorem way_of_accepted {a : Attempt} (h : a.accepted = true) : a.way = .leave := by
  rw [accepted] at h
  rw [way]
  match hreply : a.reply with
  | none => simp [hreply] at h
  | some (.error e) => simp [hreply] at h
  | some (.ok reply) => rfl

theorem Returned.way {a : Attempt} (h : a.Returned) : a.way = .leave := by
  obtain ⟨e, he, hreturn⟩ := h
  rw [Attempt.way, he]
  show (classifyFailure e).way = .leave
  rw [hreturn]
  rfl

end Attempt

/-- The law of the retry loop, for an execution with the given candidates that made the calls `t`
and answered `r`. -/
structure RetryLaw (ctx : ExecutionContext) (candidates : List Bucket) (t : List ExecCall)
    (r : Except ExecutionFailure ExecutionResult) : Prop where
  /-- The attempts are keys of the first bindings, in their order. -/
  inOrder : ((attemptsOf t).map Attempt.rk).Sublist
    (Router.candidates (candidates.take maxBindingAttempts))
  once : ((attemptsOf t).map fun a => a.rk.pair).Nodup
  /-- A key that was refused is not tried again. -/
  refused : (attemptsOf t).Pairwise fun a a' => a.Refused → a'.rk.key.id ≠ a.rk.key.id
  /-- A binding that does not serve such a request is left, and its key spared. -/
  inapplicable : (attemptsOf t).Pairwise fun a a' => a.Inapplicable → a'.rk.binding ≠ a.rk.binding
  spared : ∀ a ∈ attemptsOf t, a.Inapplicable → a.mark = none
  marks : marksOf t = (attemptsOf t).filterMap Attempt.mark
  /-- Nothing is tried after a response, nor after an error that is for the client. -/
  last : (attemptsOf t).Pairwise fun a _ => ¬(a.accepted = true ∨ a.Returned)
  /-- Every attempt has one row, which says whether it failed. -/
  rows : rowsOf t = (attemptsOf t).map (Attempt.row ctx)
  /-- A failure of all keys names the attempts. -/
  labels : ∀ failure model attemptedKeys lastError, r = .error failure →
    failure.error = .allKeysExhausted model attemptedKeys lastError →
      attemptedKeys = (attemptsOf t).map Attempt.label ∧ failure.attemptedKeys = attemptedKeys

/-! ### Every execution follows the law -/

section Reading

variable (ctx : ExecutionContext)

theorem FailureAction.mark_cases (action : FailureAction) (rk : RoutedKey) :
    action.mark rk = none ∨ action.mark rk = some (.coolsDown rk.key.id rk.upstreamModelName) ∨
      action.mark rk = some (.disables rk.key.id) := by
  cases action with
  | cooldown => exact .inr (.inl rfl)
  | disable => exact .inr (.inr rfl)
  | returnToClient => exact .inl rfl
  | skipBinding => exact .inl rfl

theorem Attempt.mark_cases (a : Attempt) :
    a.mark = none ∨ a.mark = some (.coolsDown a.rk.key.id a.rk.upstreamModelName) ∨
      a.mark = some (.disables a.rk.key.id) := by
  rw [mark]
  match a.reply with
  | none => exact .inr (.inl rfl)
  | some (.ok _) => exact .inl rfl
  | some (.error e) => exact (classifyFailure e).mark_cases a.rk

/-- What is seen of a turn, read back. -/
theorem Turn.story_reading (turn : Turn) :
    (turn.story ctx).filterMap Happening.attempt? = attemptsIn [turn] ∧
      (turn.story ctx).filterMap Happening.mark? = (attemptsIn [turn]).filterMap Attempt.mark ∧
      (turn.story ctx).filterMap Happening.entry? = (attemptsIn [turn]).map (Attempt.row ctx) := by
  cases turn with
  | passes rk => exact ⟨rfl, rfl, rfl⟩
  | tries a =>
    rcases a.mark_cases with h | h | h <;>
      simp [Turn.story, attemptsIn, Turn.attempt?, h, Happening.attempt?, Happening.mark?,
        Happening.entry?, List.filterMap_cons]

theorem story_reading (turns : List Turn) :
    (turns.flatMap (Turn.story ctx)).filterMap Happening.attempt? = attemptsIn turns ∧
      (turns.flatMap (Turn.story ctx)).filterMap Happening.mark? =
        (attemptsIn turns).filterMap Attempt.mark ∧
      (turns.flatMap (Turn.story ctx)).filterMap Happening.entry? =
        (attemptsIn turns).map (Attempt.row ctx) := by
  induction turns with
  | nil => exact ⟨rfl, rfl, rfl⟩
  | cons turn turns ih =>
    obtain ⟨hattempts, hmarks, hrows⟩ := turn.story_reading ctx
    rw [List.flatMap_cons, ← List.singleton_append, attemptsIn_append]
    simp only [List.filterMap_append, List.map_append, hattempts, hmarks, hrows, ih, and_self]

end Reading

/-- A usage writer that does not fail writes what it is given. -/
theorem rowsOf_run {env : Surroundings} (hwriter : ∀ entry, env.usageWriter entry = .ok ())
    {α : Type} (p : ExecM α) (s : Situation) :
    rowsOf (p.run env.answer s).trace =
      (story (p.run env.answer s).trace).filterMap Happening.entry? := by
  induction p generalizing s with
  | pure a => rfl
  | call q k ih =>
    have hrest := ih (env.answer q s).1 (env.answer q s).2
    show List.filterMap row? (_ :: _) = (List.filterMap happening? (_ :: _)).filterMap _
    cases q with
    | logUsage entry =>
      have hrow : row? ⟨.logUsage entry, (env.answer (.logUsage entry) s).1⟩ =
          some entry.outline := by
        rw [show (env.answer (.logUsage entry) s).1 = .ok () from hwriter entry]
        rfl
      rw [List.filterMap_cons_some hrow]
      exact congrArg _ hrest
    | _ => exact hrest

/-- **The law holds of the turns** that the loop takes through different candidates. -/
theorem RetryLaw.of_turns {ctx : ExecutionContext} {candidates : List Bucket} {t : List ExecCall}
    {r : Except ExecutionFailure ExecutionResult} {turns : List (List Turn)} {way : Way}
    (hdistinct : Router.Distinct candidates) (hdisabled : (story t).Pairwise StaysDisabled)
    (hrows : rowsOf t = (story t).filterMap Happening.entry?)
    (hplays : PlaysAll (candidates.take maxBindingAttempts) turns way)
    (hstory : story t = turns.flatten.flatMap (Turn.story ctx))
    (hlabels : ∀ failure model attemptedKeys lastError, r = .error failure →
      failure.error = .allKeysExhausted model attemptedKeys lastError →
        attemptedKeys = (attemptsIn turns.flatten).map Attempt.label ∧
          failure.attemptedKeys = attemptedKeys) : RetryLaw ctx candidates t r := by
  obtain ⟨hattempts, hmarks, hentries⟩ := story_reading ctx turns.flatten
  rw [← hstory] at hattempts hmarks hentries
  have hattempts : attemptsOf t = attemptsIn turns.flatten := hattempts
  have htake : (candidates.take maxBindingAttempts).Sublist candidates := List.take_sublist ..
  have hbefore := hplays.before
    ((hdistinct.across.sublist htake).imp fun h r hr r' hr' => (h r hr r' hr').1)
  have hpairs : ((attemptsIn turns.flatten).map fun a => a.rk.pair).Nodup := by
    have hsub := (hplays.inOrder.trans (htake.flatMap Bucket.keys)).map RoutedKey.pair
    rw [List.map_map] at hsub
    exact hdistinct.pairs.sublist hsub
  -- What holds between the turns holds between the attempts among them.
  have hattempt : ∀ {R : Attempt → Attempt → Prop},
      turns.flatten.Pairwise (fun turn turn' => ∀ a a', turn = .tries a → turn' = .tries a' →
        R a a') → (attemptsOf t).Pairwise R := by
    intro R h
    rw [hattempts, attemptsIn, List.pairwise_filterMap]
    exact h.imp fun h a ha a' ha' =>
      h a a' (Turn.attempt?_eq_some ha) (Turn.attempt?_eq_some ha')
  refine ⟨?_, ?_, ?_, ?_, fun a _ h => h.mark, ?_, ?_, ?_, ?_⟩
  · rw [hattempts]
    exact hplays.inOrder
  · rw [hattempts]
    exact hpairs
  · rw [hstory, List.pairwise_flatMap] at hdisabled
    refine hattempt (hdisabled.2.imp ?_)
    rintro _ _ h a a' rfl rfl hrefused hkey
    refine h (.disables a.rk.key.id) ?_ (.checks a'.rk.key.id a'.rk.upstreamModelName true)
      List.mem_cons_self a.rk.key.id a'.rk.upstreamModelName rfl (by rw [hkey])
    simp [Turn.story, hrefused.mark]
  · refine hattempt (hbefore.imp ?_)
    rintro _ _ h a a' rfl rfl hinapplicable
    exact h.2 hinapplicable.way
  · rw [marksOf, hmarks, hattempts]
  · refine hattempt (hbefore.imp ?_)
    rintro _ _ h a a' rfl rfl hfinal
    refine h.1 ?_
    rcases hfinal with haccepted | hreturned
    · exact Attempt.way_of_accepted haccepted
    · exact hreturned.way
  · rw [hrows, hentries, hattempts]
  · rw [hattempts]
    exact hlabels

/-- Where nothing happens there is nothing to be said. -/
theorem RetryLaw.of_nil {ctx : ExecutionContext} {candidates : List Bucket} {t : List ExecCall}
    {r : Except ExecutionFailure ExecutionResult}
    (hrows : rowsOf t = (story t).filterMap Happening.entry?) (hstory : story t = [])
    (hlabels : ∀ failure model attemptedKeys lastError, r = .error failure →
      failure.error = .allKeysExhausted model attemptedKeys lastError →
        attemptedKeys = [] ∧ failure.attemptedKeys = attemptedKeys) :
    RetryLaw ctx candidates t r := by
  have hattempts : attemptsOf t = [] := by rw [attemptsOf, hstory, List.filterMap_nil]
  have hmarks : marksOf t = [] := by rw [marksOf, hstory, List.filterMap_nil]
  rw [hstory, List.filterMap_nil] at hrows
  constructor <;> simp [hattempts, hmarks, hrows]
  exact hlabels

namespace Executor

variable {self : Executor} {ctx : ExecutionContext} {entryFormat : EntryFormat} {body : Json}

/-- **The retry loop follows its law**, whatever the upstreams reply and whatever state the keys
are in. -/
theorem execute_retries (self : Executor) (entryFormat : EntryFormat) (body : Json)
    {env : Surroundings} (hserver : env.OfServer ctx)
    (hwriter : ∀ entry, env.usageWriter entry = .ok ()) {candidates : List Bucket}
    (hcandidates : env.candidates = .ok candidates) (health : HealthManager) :
    let run := (self.execute ctx entryFormat body).run env.answer (Surroundings.start health)
    RetryLaw ctx candidates run.trace run.answer := by
  intro run
  have hdistinct := hserver.distinct hcandidates
  have hdisabled : (story run.trace).Pairwise StaysDisabled := disabled_run env _ _
  have hrows : rowsOf run.trace = (story run.trace).filterMap Happening.entry? :=
    rowsOf_run hwriter _ _
  have hgoes : Goes ctx candidates (story run.trace) run.answer :=
    self.execute_shows entryFormat body hserver.plain hcandidates _
  generalize hstory : story run.trace = l at hgoes
  generalize hanswer : run.answer = r at hgoes
  cases hgoes with
  | early hr =>
    refine RetryLaw.of_nil hrows hstory ?_
    intro failure model attemptedKeys lastError hf he
    obtain ⟨-, rfl⟩ := hr failure (hanswer ▸ hf) ⟨_, _, _, he⟩
    exact ⟨(ProxyError.allKeysExhausted.inj he).2.1.symm, (ProxyError.allKeysExhausted.inj he).2.1⟩
  | left hplays hr =>
    refine RetryLaw.of_turns hdistinct hdisabled hrows hplays hstory ?_
    intro failure model attemptedKeys lastError hf he
    exact absurd ⟨_, _, _, he⟩ (hr failure hf)
  | exhausted hplays hlabels herror =>
    refine RetryLaw.of_turns hdistinct hdisabled hrows hplays hstory ?_
    intro failure' model attemptedKeys lastError hf he
    obtain rfl := Except.error.inj hf
    obtain ⟨-, hkeys, -⟩ := ProxyError.allKeysExhausted.inj (herror.symm.trans he)
    exact ⟨hkeys.symm.trans hlabels, hkeys⟩

end Executor

/-! ### A small server -/

/-- A model bound to four channels with one key each. -/
def Db.fourChannels : Db where
  users := Db.sample.users
  tokens := Db.sample.tokens
  channels := ⟨[⟨1, "ch-1", .openaiCompatible, "http://ch-1", "default"⟩,
    ⟨2, "ch-2", .openaiCompatible, "http://ch-2", "default"⟩,
    ⟨3, "ch-3", .openaiCompatible, "http://ch-3", "default"⟩,
    ⟨4, "ch-4", .openaiCompatible, "http://ch-4", "default"⟩], by decide⟩
  channelKeys := ⟨[⟨10, 1, "sk-10", none, .paid, 100, none, none, 0, none, .active⟩,
    ⟨20, 2, "sk-20", some "spare", .paid, 100, none, none, 0, none, .active⟩,
    ⟨30, 3, "sk-30", none, .paid, 100, none, none, 0, none, .active⟩,
    ⟨40, 4, "sk-40", none, .paid, 100, none, none, 0, none, .active⟩], by decide⟩
  models := ⟨[⟨7, "model-7", "priority"⟩], by decide⟩
  modelChannels := ⟨[⟨7, 1, "up", 1, 0, 0, 0, 0, none, 1⟩, ⟨7, 2, "up", 1, 0, 0, 0, 0, none, 2⟩,
    ⟨7, 3, "up", 1, 0, 0, 0, 0, none, 3⟩, ⟨7, 4, "up", 1, 0, 0, 0, 0, none, 4⟩], by decide⟩

/-- The server that has just started over it. -/
def AppState.fourChannels : AppState := .startup (fun _ => none) .fourChannels 0

/-- The candidates of a request to that server. -/
def fourCandidates : List Bucket :=
  (AppState.fourChannels.selectKeys id ⟨fun _ => 0, fun _ => 0⟩ Executor.sampleContext).1

/-- What an execution meets there. -/
def Surroundings.sample (script : List (ℤ × String) → Outcome) : Surroundings where
  candidates := .ok fourCandidates
  pricing _ _ _ := .ok none
  repository _ q := (q.answer "" Db.fourChannels).1
  usageWriter _ := .ok ()
  smallModelQuota _ _ := none
  clock n := n
  script := script

theorem Surroundings.sample_ofServer (script : List (ℤ × String) → Outcome) :
    (Surroundings.sample script).OfServer Executor.sampleContext where
  candidates := ⟨id, ⟨fun _ => 0, fun _ => 0⟩, AppState.fourChannels, Db.fourChannels, rfl, rfl⟩
  pricing _ _ _ := ⟨loadAll {}, rfl⟩
  repository _ _ := ⟨"", Db.fourChannels, rfl⟩

/-- An execution of one request there, given the health of the keys. -/
def Executor.sampleExecution (script : List (ℤ × String) → Chennix.Outcome)
    (health : HealthManager) :
    Run ExecReq ExecReq.Resp (Except ExecutionFailure ExecutionResult) Situation :=
  (Executor.sample.execute Executor.sampleContext .openAI (.object [])).run
    (Surroundings.sample script).answer
    (Surroundings.start health)

/-- The first upstream does not answer, the second does not know the model, the third responds. -/
def sampleScript (attempted : List (ℤ × String)) : Outcome :=
  if attempted.length = 1 then .timeout
  else if attempted.length = 2 then .failed (.upstream 404 "no such model")
  else .accepted (200, []) ⟨200, []⟩

theorem Executor.execute_retries_sample :
    let run := sampleExecution sampleScript .new
    (attemptsOf run.trace).map (fun a => a.rk.key.id) = [10, 20, 30] ∧
      RetryLaw Executor.sampleContext fourCandidates run.trace run.answer := by
  refine ⟨by decide +kernel, ?_⟩
  exact Executor.execute_retries Executor.sample .openAI (.object [])
    (Surroundings.sample_ofServer sampleScript)
    (fun _ => rfl) rfl .new

end Chennix
