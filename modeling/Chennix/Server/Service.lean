import Chennix.Foundations.Slots
import Chennix.Server.ConnectionTest

/-!
# The server with its requests

The running server and the requests it is serving, at any point of each, and the connection tests
that administrators have asked for. A request or a test makes its calls one at a time, and between
them others make theirs, handlers run, the recovery loop comes round and time passes. A request that
is never continued stands for one whose client has left before the response had begun.

Each request carries the trace of the calls it has made, for the invariants only, and so does each
test.

## Main definitions

* `Running`, `RunningTest`, `Service` — a request in service, a test, and the server with all of
  them
* `Service.answer`, `Service.answerTest` — their calls, as the server answers them
* `Service.step` — the steps

## Main results

* `Service.step_cases` — the inversion of a step
* `Service.always_step`, `Service.grows_step` — what a step leaves of the requests
-/

namespace Chennix

open Foundations

/-- The row that an entry becomes. -/
def RequestLogEntry.row (entry : RequestLogEntry) (now : String) (id : ℤ) : RequestLogRow where
  id := id
  requestId := entry.requestId
  clientIp := entry.clientIp
  method := entry.method
  path := entry.path
  clientModel := entry.clientModel
  normalizedModel := entry.normalizedModel
  channelName := entry.channelName
  keyLabel := entry.keyLabel
  upstreamModel := entry.upstreamModel
  durationMs := entry.durationMs
  userId := entry.userId
  tokenId := entry.tokenId
  quotaCost := entry.quotaCost
  errorMessage := entry.errorMessage
  createdAt := now
  upstreamStatus := entry.upstreamStatus.map (↑)
  responseStatus := some entry.responseStatus
  stream := if entry.stream then 1 else 0

/-- A request in service. -/
structure Running where
  incoming : Incoming
  /-- What is left of it. -/
  rest : ProxyM Served
  trace : List ProxyCall

/-- A connection test in progress. -/
structure RunningTest where
  incoming : IncomingTest
  /-- What is left of it. -/
  rest : TestM (AdminResult ConnectionTestResult)
  trace : List TestCall

/-- The test has come to its end. -/
def RunningTest.isThrough (t : RunningTest) : Bool := t.rest.answer?.isSome

/-- The server, its request log, the requests it is serving and the tests in progress. -/
structure Service where
  app : AppState
  requestLogs : Table RequestLogRow
  requests : List Running
  tests : List RunningTest

namespace Service

/-- The steps. -/
inductive Label
  /-- A request passes the authentication. -/
  | arrive (r : Incoming)
  /-- A request makes its next call. An upstream's reply is given. -/
  | call (i : ℕ) (chance : Chance) (reply : (q : ExecReq) → q.Resp)
  /-- What else writes the database, or happens to the server. -/
  | background (l : ServerStep)
  /-- An administrator asks for a connection test. -/
  | test (t : IncomingTest)
  /-- A test makes its next call. What comes from an upstream is given. -/
  | testCall (i : ℕ) (chance : Chance) (reply : (q : TestReq) → q.Resp)

/-- The log with a row for an entry. -/
def log (s : Service) (entry : RequestLogEntry) : Service :=
  { s with requestLogs := s.requestLogs.insertNew (entry.row (nowIso8601 s.app.now)) fun _ => rfl }

/-- The reply to a call of a request, and the server after it. -/
def answer (lib : ServerLibraries) (chance : Chance) (reply : (q : ExecReq) → q.Resp)
    (s : Service) : (q : ProxyReq) → q.Resp × Service
  | .loadSnapshot => (.ok (), { s with app := (ConfigCache.get lib.lower chance.rank s.app).2 })
  | .resolve modelName => (.ok (Normalizer.resolve lib.lower s.app.normalizer modelName), s)
  | .exec q =>
    let (r, app) := s.app.answer lib.lower chance q (reply q)
    (r, { s with app := app })
  | .logRequest entry => (.ok (), s.log entry)

theorem requests_answer (lib : ServerLibraries) (s : Service) (chance : Chance)
    (reply : (q : ExecReq) → q.Resp) (q : ProxyReq) :
    (s.answer lib chance reply q).2.requests = s.requests := by
  cases q <;> rfl

theorem tests_answer (lib : ServerLibraries) (s : Service) (chance : Chance)
    (reply : (q : ExecReq) → q.Resp) (q : ProxyReq) :
    (s.answer lib chance reply q).2.tests = s.tests := by
  cases q <;> rfl

/-- The reply to a call of a test, and the server after it. -/
def answerTest (chance : Chance) (reply : (q : TestReq) → q.Resp) (s : Service) :
    (q : TestReq) → q.Resp × Service
  | .findChannel channelId => (TestTarget.findChannel chance.rank channelId s.app.db, s)
  | .findModel modelId => (TestTarget.findModel modelId s.app.db, s)
  | .findBinding modelId payload => (TestTarget.findBinding modelId payload s.app.db, s)
  | .buildClient timeoutSecs => (reply (.buildClient timeoutSecs), s)
  | .send request => (reply (.send request), s)
  | .updateUsedQuotaDelta userId delta =>
    let (r, app) := s.app.query
      (UserRepo.updateUsedQuotaDelta (nowIso8601 s.app.now) userId delta)
    (r, { s with app := app })
  | .logRequest entry => (.ok (), s.log entry)

theorem requests_answerTest (s : Service) (chance : Chance) (reply : (q : TestReq) → q.Resp)
    (q : TestReq) : (s.answerTest chance reply q).2.requests = s.requests := by
  cases q <;> rfl

theorem tests_answerTest (s : Service) (chance : Chance) (reply : (q : TestReq) → q.Resp)
    (q : TestReq) : (s.answerTest chance reply q).2.tests = s.tests := by
  cases q <;> rfl

/-- **A call of a test** writes the table of users only. -/
theorem db_answerTest (s : Service) (chance : Chance) (reply : (q : TestReq) → q.Resp)
    (q : TestReq) :
    (s.answerTest chance reply q).2.app.db = s.app.db ∨
      ∃ userId delta, (s.answerTest chance reply q).2.app.db =
        s.app.db.addUserUsed (nowIso8601 s.app.now) userId delta fun _ => true := by
  cases q with
  | updateUsedQuotaDelta userId delta => exact .inr ⟨userId, delta, rfl⟩
  | _ => exact .inl rfl

/-- The server with request `i` replaced. -/
def setRequest (s : Service) (i : ℕ) (r : Running) : Service :=
  { s with requests := s.requests.set i r }

/-- The server with test `i` replaced. -/
def setTest (s : Service) (i : ℕ) (t : RunningTest) : Service :=
  { s with tests := s.tests.set i t }

/-- The requests of a server make their calls as requests only, and its tests as tests. -/
def isBackground : ServerStep → Bool
  | .event (.request _) => false
  | .event (.call _ _) => false
  | .testCharge _ _ => false
  | _ => true

/-- One step. -/
def step (lib : ServerLibraries) (executor : Executor) (s : Service) : Label → Option Service
  | .arrive r => some { s with requests := s.requests ++ [⟨r, serveRequest executor r, []⟩] }
  | .call i chance reply =>
    match s.requests[i]? with
    | none => none
    | some r =>
      match r.rest with
      | .pure _ => none
      | .call q k =>
        let (a, s) := s.answer lib chance reply q
        some (s.setRequest i ⟨r.incoming, k a, r.trace ++ [⟨q, a⟩]⟩)
  | .background l =>
    if isBackground l then (l.step lib s.app).map fun app => { s with app := app } else none
  | .test t => some { s with tests := s.tests ++ [⟨t, t.handle lib.evaluator, []⟩] }
  | .testCall i chance reply =>
    match s.tests[i]? with
    | none => none
    | some t =>
      match t.rest with
      | .pure _ => none
      | .call q k =>
        let (a, s) := s.answerTest chance reply q
        some (s.setTest i ⟨t.incoming, k a, t.trace ++ [⟨q, a⟩]⟩)

variable {lib : ServerLibraries} {executor : Executor} {s s' : Service} {l : Label}

/-- A call of a request is the next one of some request. -/
theorem call_cases {i : ℕ} {chance : Chance} {reply : (q : ExecReq) → q.Resp}
    (h : step lib executor s (.call i chance reply) = some s') :
    ∃ r q k, s.requests[i]? = some r ∧ r.rest = .call q k ∧
      s' = (s.answer lib chance reply q).2.setRequest i
        ⟨r.incoming, k (s.answer lib chance reply q).1,
          r.trace ++ [⟨q, (s.answer lib chance reply q).1⟩]⟩ := by
  rw [step] at h
  cases hr : s.requests[i]? with
  | none => rw [hr] at h; cases h
  | some r =>
    rw [hr] at h
    obtain ⟨incoming, rest, trace⟩ := r
    cases rest with
    | pure a => cases h
    | call q k => exact ⟨_, q, k, rfl, rfl, (Option.some.inj h).symm⟩

/-- A call of a test is the next one of some test. -/
theorem testCall_cases {i : ℕ} {chance : Chance} {reply : (q : TestReq) → q.Resp}
    (h : step lib executor s (.testCall i chance reply) = some s') :
    ∃ t q k, s.tests[i]? = some t ∧ t.rest = .call q k ∧
      s' = (s.answerTest chance reply q).2.setTest i
        ⟨t.incoming, k (s.answerTest chance reply q).1,
          t.trace ++ [⟨q, (s.answerTest chance reply q).1⟩]⟩ := by
  rw [step] at h
  cases ht : s.tests[i]? with
  | none => rw [ht] at h; cases h
  | some t =>
    rw [ht] at h
    obtain ⟨incoming, rest, trace⟩ := t
    cases rest with
    | pure a => cases h
    | call q k => exact ⟨_, q, k, rfl, rfl, (Option.some.inj h).symm⟩

/-- **A step**: a request arrives, a request makes its next call, or something happens beside
them; a test is asked for, or a test makes its next call. -/
theorem step_cases (h : step lib executor s l = some s') :
    (∃ r, l = .arrive r ∧
      s' = { s with requests := s.requests ++ [⟨r, serveRequest executor r, []⟩] }) ∨
    (∃ i r q k chance reply, l = .call i chance reply ∧ s.requests[i]? = some r ∧
      r.rest = .call q k ∧
      s' = (s.answer lib chance reply q).2.setRequest i
        ⟨r.incoming, k (s.answer lib chance reply q).1,
          r.trace ++ [⟨q, (s.answer lib chance reply q).1⟩]⟩) ∨
    (∃ bg app, l = .background bg ∧ isBackground bg = true ∧ bg.step lib s.app = some app ∧
      s' = { s with app := app }) ∨
    (∃ t, l = .test t ∧
      s' = { s with tests := s.tests ++ [⟨t, t.handle lib.evaluator, []⟩] }) ∨
    ∃ i t q k chance reply, l = .testCall i chance reply ∧ s.tests[i]? = some t ∧
      t.rest = .call q k ∧
      s' = (s.answerTest chance reply q).2.setTest i
        ⟨t.incoming, k (s.answerTest chance reply q).1,
          t.trace ++ [⟨q, (s.answerTest chance reply q).1⟩]⟩ := by
  cases l with
  | arrive r => exact .inl ⟨r, rfl, (Option.some.inj h).symm⟩
  | call i chance reply =>
    obtain ⟨r, q, k, hr, hrest, hs'⟩ := call_cases h
    exact .inr (.inl ⟨i, r, q, k, chance, reply, rfl, hr, hrest, hs'⟩)
  | background bg =>
    rw [step] at h
    split at h
    · rename_i hbg
      obtain ⟨app, happ, hs'⟩ := Option.map_eq_some_iff.mp h
      exact .inr (.inr (.inl ⟨bg, app, rfl, hbg, happ, hs'.symm⟩))
    · cases h
  | test t => exact .inr (.inr (.inr (.inl ⟨t, rfl, (Option.some.inj h).symm⟩)))
  | testCall i chance reply =>
    obtain ⟨t, q, k, ht, hrest, hs'⟩ := testCall_cases h
    exact .inr (.inr (.inr (.inr ⟨i, t, q, k, chance, reply, rfl, ht, hrest, hs'⟩)))

/-- A call of a test concerns no request. -/
theorem requests_testCall {i : ℕ} {chance : Chance} {reply : (q : TestReq) → q.Resp}
    (h : step lib executor s (.testCall i chance reply) = some s') : s'.requests = s.requests := by
  obtain ⟨t, q, k, -, -, rfl⟩ := testCall_cases h
  exact requests_answerTest s chance reply q

/-- **Invariants of requests**, each with its own, wherever a step finds them. -/
theorem always_step {φ J : Incoming → List ProxyCall → Prop}
    (h : ∀ r, Program.Always (φ r) (serveRequest executor r) (fun _ => J r) [])
    (hall : ∀ r ∈ s.requests, Program.Always (φ r.incoming) r.rest (fun _ => J r.incoming) r.trace)
    (hstep : step lib executor s l = some s') :
    ∀ r ∈ s'.requests, Program.Always (φ r.incoming) r.rest (fun _ => J r.incoming) r.trace := by
  rcases step_cases hstep with ⟨r, -, rfl⟩ | ⟨i, r, q, k, chance, reply, -, hr, hrest, rfl⟩ |
    ⟨bg, app, -, -, -, rfl⟩ | ⟨t, -, rfl⟩ | ⟨j, t, q, k, chance, reply, -, -, -, rfl⟩
  · exact Slots.forall_concat hall (h r)
  · have hnow := hall r (List.mem_of_getElem? hr)
    rw [hrest] at hnow
    show ∀ r' ∈ List.set _ _ _, _
    rw [requests_answer]
    exact Slots.forall_set hall (hnow.2 _ () trivial)
  · exact hall
  · exact hall
  · show ∀ r' ∈ (s.answerTest chance reply q).2.requests, _
    rw [requests_answerTest]
    exact hall

/-- Requests keep their places, and their traces grow. -/
theorem grows_step (hstep : step lib executor s l = some s') {i : ℕ} {r : Running}
    (hr : s.requests[i]? = some r) :
    ∃ r', s'.requests[i]? = some r' ∧ r'.incoming = r.incoming ∧ r.trace <+: r'.trace := by
  have hlt : i < s.requests.length := (List.getElem?_eq_some_iff.mp hr).1
  rcases step_cases hstep with ⟨_, -, rfl⟩ | ⟨j, r', q, k, chance, reply, -, hr', -, rfl⟩ |
    ⟨bg, app, -, -, -, rfl⟩ | ⟨t, -, rfl⟩ | ⟨j, t, q, k, chance, reply, -, -, -, rfl⟩
  · exact ⟨r, (List.getElem?_append_left hlt).trans hr, rfl, List.prefix_refl _⟩
  · show ∃ r', (List.set _ _ _)[i]? = _ ∧ _
    rw [requests_answer, List.getElem?_set]
    by_cases hij : j = i
    · subst hij
      cases hr.symm.trans hr'
      exact ⟨_, (if_pos rfl).trans (if_pos hlt), rfl, List.prefix_append ..⟩
    · exact ⟨r, (if_neg hij).trans hr, rfl, List.prefix_refl _⟩
  · exact ⟨r, hr, rfl, List.prefix_refl _⟩
  · exact ⟨r, hr, rfl, List.prefix_refl _⟩
  · show ∃ r', (s.answerTest chance reply q).2.requests[i]? = _ ∧ _
    rw [requests_answerTest]
    exact ⟨r, hr, rfl, List.prefix_refl _⟩

theorem grows_run {ls : List Label} (hrun : Machine.run (step lib executor) s ls = some s') {i : ℕ}
    {r : Running} (hr : s.requests[i]? = some r) :
    ∃ r', s'.requests[i]? = some r' ∧ r'.incoming = r.incoming ∧ r.trace <+: r'.trace := by
  refine Machine.run_invariant' (I := fun s' => ∃ r', s'.requests[i]? = some r' ∧
    r'.incoming = r.incoming ∧ r.trace <+: r'.trace)
    (fun s₁ l s₂ ⟨r₁, hr₁, hsame, hpre⟩ hstep => ?_) hrun ⟨r, hr, rfl, List.prefix_refl _⟩
  obtain ⟨r₂, hr₂, hsame', hpre'⟩ := grows_step hstep hr₁
  exact ⟨r₂, hr₂, hsame'.trans hsame, hpre.trans hpre'⟩

end Service

end Chennix
