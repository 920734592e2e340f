import Chennix.Execution.Failover

/-!
# The story of a request

What an execution does about its candidates, one turn of the loop after the other: it passes over a
key that is not available, or it asks the key's upstream, writes a row about it and draws its
conclusions about the key. A turn leads to the next key, to the next binding, or out of the loop;
so the turns of a whole execution follow its candidates, and determine all it does besides money.

## Main definitions

* `Attempt` — a candidate that was asked, and the reply
* `Turn` — one turn of the loop
* `Happening`, `story` — what is seen of an execution
* `Plays`, `PlaysAll` — the turns that the loop may take through its candidates

## Main results

* `attempt_shows`, `tryKeys_shows`, `tryBindings_shows` — the loop takes such turns
* `Executor.execute_shows` — the story of a whole execution
-/

namespace Chennix

open Foundations Program

/-- All keys were exhausted. -/
def ProxyError.Exhausted (e : ProxyError) : Prop :=
  ∃ model attemptedKeys lastError, e = .allKeysExhausted model attemptedKeys lastError

/-- Where a turn of the loop leads. -/
inductive Way
  /-- To the next key. -/
  | next
  /-- To the next binding. -/
  | skip
  /-- Out of the loop. -/
  | leave
  deriving DecidableEq, Repr

/-- A candidate whose upstream was asked, and what it replied. -/
structure Attempt where
  rk : RoutedKey
  /-- `none` if the upstream did not reply in time. -/
  reply : Option (ProxyResult (ℕ × Bytes))
  deriving DecidableEq

/-- What is seen of an execution. -/
inductive Happening
  | checks (keyId : ℤ) (upstream : String) (available : Bool)
  | asks (a : Attempt)
  /-- The usage, its cost and the text of the error are left out. -/
  | records (entry : UsageEntry)
  | coolsDown (keyId : ℤ) (upstream : String)
  | disables (keyId : ℤ)
  deriving DecidableEq

/-- A row without its usage, its cost and the text of its error. -/
def UsageEntry.outline (entry : UsageEntry) : UsageEntry :=
  { entry with usage := .zero, quotaCost := 0, error := none }

/-- What is seen of a call. -/
def happening? : ExecCall → Option Happening
  | ⟨.isAvailable keyId upstream, available⟩ => some (.checks keyId upstream available)
  | ⟨.adaptorExecute rk _, reply⟩ => some (.asks ⟨rk, reply⟩)
  | ⟨.logUsage entry, _⟩ => some (.records entry.outline)
  | ⟨.markCooldown keyId upstream, _⟩ => some (.coolsDown keyId upstream)
  | ⟨.markDisabled keyId, _⟩ => some (.disables keyId)
  | _ => none

/-- What is seen of the calls of a trace. -/
def story (t : List ExecCall) : List Happening := t.filterMap happening?

namespace FailureAction

/-- Where the action leads. -/
def way : FailureAction → Way
  | cooldown => .next
  | disable => .next
  | returnToClient => .leave
  | skipBinding => .skip

/-- What the action does to the key. -/
def mark (rk : RoutedKey) : FailureAction → Option Happening
  | cooldown => some (.coolsDown rk.key.id rk.upstreamModelName)
  | disable => some (.disables rk.key.id)
  | returnToClient => none
  | skipBinding => none

end FailureAction

namespace Attempt

/-- The name of the key in reports. -/
def label (a : Attempt) : String := a.rk.key.label.getD s!"key-{a.rk.key.id}"

/-- Where the reply leads. -/
def way (a : Attempt) : Way :=
  match a.reply with
  | none => .next
  | some (.ok _) => .leave
  | some (.error e) => (classifyFailure e).way

/-- What the reply makes of the key. -/
def mark (a : Attempt) : Option Happening :=
  match a.reply with
  | none => some (.coolsDown a.rk.key.id a.rk.upstreamModelName)
  | some (.ok _) => none
  | some (.error e) => (classifyFailure e).mark a.rk

/-- A response was obtained. -/
def accepted (a : Attempt) : Bool :=
  match a.reply with
  | some (.ok _) => true
  | _ => false

/-- The row about the attempt, in outline. -/
def row (ctx : ExecutionContext) (a : Attempt) : UsageEntry :=
  ⟨ctx.userId, ctx.tokenId, a.rk.channel.id, a.rk.key.id, ctx.modelId, .zero, 0, "chat",
    if a.accepted then "success" else "failed", none⟩

end Attempt

/-- One turn of the loop. -/
inductive Turn
  /-- The key is not available. -/
  | passes (rk : RoutedKey)
  | tries (a : Attempt)

namespace Turn

/-- Whose turn it is. -/
def rk : Turn → RoutedKey
  | passes rk => rk
  | tries a => a.rk

def way : Turn → Way
  | passes _ => .next
  | tries a => a.way

def attempt? : Turn → Option Attempt
  | passes _ => none
  | tries a => some a

/-- What is seen of the turn. -/
def story (ctx : ExecutionContext) : Turn → List Happening
  | passes rk => [.checks rk.key.id rk.upstreamModelName false]
  | tries a => .checks a.rk.key.id a.rk.upstreamModelName true :: .asks a ::
      .records (a.row ctx) :: a.mark.toList

end Turn

/-- The attempts among the turns. -/
def attemptsIn (turns : List Turn) : List Attempt := turns.filterMap Turn.attempt?

/-- The turns that the loop may take through the keys of a binding, and where they lead. -/
inductive Plays : List RoutedKey → List Turn → Way → Prop
  | nil : Plays [] [] .next
  | next {turn : Turn} {rks : List RoutedKey} {turns : List Turn} {way : Way}
      (hway : turn.way = .next) (rest : Plays rks turns way) :
      Plays (turn.rk :: rks) (turn :: turns) way
  | last {turn : Turn} {rks : List RoutedKey} (hway : turn.way ≠ .next) :
      Plays (turn.rk :: rks) [turn] turn.way

/-- The turns that the loop may take through the bindings, binding by binding, and where they
lead. -/
inductive PlaysAll : List Bucket → List (List Turn) → Way → Prop
  | nil : PlaysAll [] [] .next
  | next {b : Bucket} {bs : List Bucket} {turns : List Turn} {rest : List (List Turn)}
      {way way' : Way} (h : Plays b.keys turns way) (hway : way ≠ .leave)
      (hrest : PlaysAll bs rest way') : PlaysAll (b :: bs) (turns :: rest) way'
  | last {b : Bucket} {bs : List Bucket} {turns : List Turn} (h : Plays b.keys turns .leave) :
      PlaysAll (b :: bs) [turns] .leave

/-- The end of the last binding is the end of the loop, however it is reached. -/
theorem PlaysAll.ne_skip {bs : List Bucket} {turns : List (List Turn)} {way : Way}
    (h : PlaysAll bs turns way) : way ≠ .skip := by
  induction h with
  | nil => exact Way.noConfusion
  | next _ _ _ ih => exact ih
  | last _ => exact Way.noConfusion

/-- Whatever comes after a turn: the turn did not lead out of the loop, and if it led to the next
binding, that is where the loop has got to. -/
def Turn.Before (turn turn' : Turn) : Prop :=
  turn.way ≠ .leave ∧ (turn.way = .skip → turn'.rk.binding ≠ turn.rk.binding)

section Turns

variable {rks : List RoutedKey} {turns : List Turn} {way : Way}

theorem Turn.attempt?_eq_some {turn : Turn} {a : Attempt} (h : turn.attempt? = some a) :
    turn = .tries a := by
  cases turn with
  | passes rk => cases h
  | tries a' => exact congrArg Turn.tries (Option.some.inj h)

theorem attemptsIn_append (turns turns' : List Turn) :
    attemptsIn (turns ++ turns') = attemptsIn turns ++ attemptsIn turns' :=
  List.filterMap_append

/-- One turn tries its own key, or none. -/
theorem attemptsIn_singleton (turn : Turn) :
    ((attemptsIn [turn]).map Attempt.rk).Sublist [turn.rk] := by
  cases turn with
  | passes rk => exact List.nil_sublist _
  | tries a => exact List.Sublist.refl _

/-- The keys of a binding are tried in their order. -/
theorem Plays.inOrder (h : Plays rks turns way) :
    ((attemptsIn turns).map Attempt.rk).Sublist rks := by
  induction h with
  | nil => exact List.Sublist.refl _
  | @next turn rks turns way _ _ ih =>
    rw [← List.singleton_append, attemptsIn_append, List.map_append]
    exact (attemptsIn_singleton turn).append ih
  | @last turn rks _ => exact (attemptsIn_singleton turn).trans (by simp)

/-- All turns but the last lead to the next key. -/
theorem Plays.pairwise (h : Plays rks turns way) :
    turns.Pairwise fun turn _ => turn.way = .next := by
  induction h with
  | nil => exact .nil
  | next hway _ ih => exact .cons (fun _ _ => hway) ih
  | last _ => exact List.pairwise_singleton ..

theorem Plays.mem (h : Plays rks turns way) : ∀ turn ∈ turns, turn.rk ∈ rks := by
  induction h with
  | nil => simp
  | next _ _ ih =>
    intro turn hmem
    rcases List.mem_cons.mp hmem with rfl | hmem
    · exact List.mem_cons_self
    · exact List.mem_cons_of_mem _ (ih turn hmem)
  | last _ =>
    intro turn hmem
    rw [List.mem_singleton.mp hmem]
    exact List.mem_cons_self

theorem Plays.ne_leave (h : Plays rks turns way) (hway : way ≠ .leave) :
    ∀ turn ∈ turns, turn.way ≠ .leave := by
  induction h with
  | nil => simp
  | next hnext _ ih =>
    intro turn hmem
    rcases List.mem_cons.mp hmem with rfl | hmem
    · simp [hnext]
    · exact ih hway turn hmem
  | last _ =>
    intro turn hmem
    rw [List.mem_singleton.mp hmem]
    exact hway

variable {bs : List Bucket} {all : List (List Turn)}

/-- The candidates are tried in their order. -/
theorem PlaysAll.inOrder (h : PlaysAll bs all way) :
    ((attemptsIn all.flatten).map Attempt.rk).Sublist (Router.candidates bs) := by
  induction h with
  | nil => exact List.Sublist.refl _
  | next h _ _ ih =>
    rw [List.flatten_cons, attemptsIn_append, List.map_append]
    exact h.inOrder.append ih
  | last h =>
    rw [List.flatten_singleton]
    exact h.inOrder.trans (List.sublist_append_left ..)

theorem PlaysAll.mem (h : PlaysAll bs all way) :
    ∀ turn ∈ all.flatten, ∃ b ∈ bs, turn.rk ∈ b.keys := by
  induction h with
  | nil => simp
  | @next b bs turns rest _ _ h _ _ ih =>
    intro turn hmem
    rcases List.mem_append.mp hmem with hmem | hmem
    · exact ⟨b, List.mem_cons_self, h.mem turn hmem⟩
    · obtain ⟨b', hb', hrk⟩ := ih turn hmem
      exact ⟨b', List.mem_cons_of_mem _ hb', hrk⟩
  | @last b bs turns h =>
    intro turn hmem
    rw [List.flatten_singleton] at hmem
    exact ⟨b, List.mem_cons_self, h.mem turn hmem⟩

theorem Plays.before (h : Plays rks turns way) : turns.Pairwise Turn.Before := by
  refine h.pairwise.imp fun hway => ⟨?_, fun hskip => ?_⟩
  · simp [hway]
  · rw [hway] at hskip
    cases hskip

/-- **The order of the turns**, over different bindings. -/
theorem PlaysAll.before (h : PlaysAll bs all way)
    (hbs : bs.Pairwise fun b b' => ∀ r ∈ b.keys, ∀ r' ∈ b'.keys, r.binding ≠ r'.binding) :
    all.flatten.Pairwise Turn.Before := by
  induction h with
  | nil => exact .nil
  | next h hway hrest ih =>
    rw [List.pairwise_cons] at hbs
    rw [List.flatten_cons, List.pairwise_append]
    refine ⟨h.before, ih hbs.2, fun turn hturn turn' hturn' => ?_⟩
    obtain ⟨b', hb', hrk'⟩ := hrest.mem turn' hturn'
    exact ⟨h.ne_leave hway turn hturn,
      fun _ => (hbs.1 b' hb' _ (h.mem turn hturn) _ hrk').symm⟩
  | last h =>
    rw [List.flatten_singleton]
    exact h.before

end Turns

/-! ### The loop -/

/-- The labels of the attempts so far, in the variables of the loop. -/
structure Progress.Tells (p : Progress) (labels : List String) : Prop where
  attempted : p.attempted = labels
  untried : p.lastTriedRk = none → labels = []

/-- A loop body is left as the turns say, with the labels of the attempts so far. -/
inductive Flow.Leads {α : Type} (labels : List String) : Way → Flow α → Prop
  | next {p : Progress} (hp : p.Tells labels) : Leads labels .next (.next p)
  | skip {p : Progress} (hp : p.Tells labels) : Leads labels .skip (.skip p)
  | leave {r : Except ExecutionFailure α} (hr : ∀ failure, r = .error failure →
      ¬failure.error.Exhausted) : Leads labels .leave (.done r)

/-- The loop goes on when keys are exhausted: what it returns to the client is another error. -/
theorem not_exhausted_of_returnToClient {e : ProxyError}
    (h : classifyFailure e = .returnToClient) : ¬e.Exhausted := by
  rintro ⟨model, attemptedKeys, lastError, rfl⟩
  cases h

/-- Calls that nothing is seen of. -/
def Unnoticed (q : ExecReq) : Prop := ∀ r, happening? ⟨q, r⟩ = none

theorem billing_unnoticed {α : Type} (p : BillingM α) : Only Unnoticed (billing p) :=
  (Only.embed p).mono fun q hq r => by
    obtain ⟨q, rfl⟩ := hq
    rfl

theorem actualPricing_unnoticed (ctx : ExecutionContext) (first rk : RoutedKey)
    (modelPricing : Option ChannelModelPricing) :
    Only Unnoticed (Executor.actualPricing ctx first modelPricing rk) := by
  unfold Executor.actualPricing
  split
  · trivial
  · refine ⟨fun _ => rfl, fun r => ?_⟩
    cases r <;> trivial

theorem accumulateSmallModelQuota_unnoticed (channelId : ℤ) (upstream : String) (usage : Usage) :
    Only Unnoticed (accumulateSmallModelQuota channelId upstream usage) :=
  (accumulateSmallModelQuota_calls channelId upstream usage).mono fun q hq r => by
    cases q <;> first | exact hq.elim | rfl

/-- How the execution that waits for a whole response asks its candidates. -/
def Executor.wholeExchange (self : Executor) (ctx : ExecutionContext) (entryFormat : EntryFormat)
    (first : RoutedKey) (modelPricing : Option ChannelModelPricing) (session : BillingSession) :
    Exchange (ℕ × Bytes) ExecutionResult where
  send rk reqBody := await (.adaptorExecute rk reqBody)
  timeout := self.upstreamTimeout
  succeed := self.settleAndReturn ctx entryFormat session first modelPricing

section Loop

variable {env : Surroundings} {self : Executor} {ctx : ExecutionContext}
  {entryFormat : EntryFormat} {body : Json} {session : BillingSession}

/-- **Success.** One row, and a result. -/
theorem settleAndReturn_shows (first rk : RoutedKey) (modelPricing : Option ChannelModelPricing)
    (reply : ℕ × Bytes) (attempted : List String) (s : Situation) :
    Shows env.answer happening?
      (self.settleAndReturn ctx entryFormat session first modelPricing rk rk.channel.provider reply
        attempted)
      (fun l r _ => l = [.records (Attempt.row ctx ⟨rk, some (.ok reply)⟩)] ∧ ∃ res, r = .ok res)
      s := by
  obtain ⟨body, hbody⟩ := finalBody_ok self.codec self.now entryFormat rk.channel.provider reply.2
    ((self.codec.fromSlice reply.2).toOption.getD .null)
  refine Shows.quiet_bind (fun _ h => h) (actualPricing_unnoticed ..) ?_
  refine Shows.quiet_bind (fun _ h => h) (billing_unnoticed _) ?_
  refine Shows.bind (Shows.seen rfl (Shows.unseen rfl (Shows.unseen rfl ?_)))
  refine Shows.quiet_bind (fun _ h => h) (accumulateSmallModelQuota_unnoticed ..) ?_
  rw [hbody]
  exact ⟨rfl, _, rfl⟩

/-- The end of the loop by a refund. -/
theorem refundAndFail_shows {α : Type} (failure : ExecutionFailure) (s : Situation) :
    Shows env.answer happening? (refundAndFail session failure : ExecM (Except ExecutionFailure α))
      (fun l r _ => l = [] ∧ r = .error failure) s :=
  Shows.quiet_bind (fun _ h => h) (billing_unnoticed _) ⟨rfl, rfl⟩

/-- What is seen of a turn after the upstream was asked. -/
def Attempt.rest (ctx : ExecutionContext) (a : Attempt) : List Happening :=
  .records (a.row ctx) :: a.mark.toList

variable {p : Progress} {labels : List String}

theorem attemptTimedOut_shows {α : Type} (rk : RoutedKey) (seconds : ℕ) (hp : p.Tells labels)
    (s : Situation) :
    Shows env.answer happening? (attemptTimedOut ctx rk seconds p : ExecM (Flow α))
      (fun l flow _ => l = Attempt.rest ctx ⟨rk, none⟩ ∧ flow.Leads labels .next) s :=
  Shows.seen rfl (Shows.seen rfl ⟨rfl, .next ⟨hp.attempted, hp.untried⟩⟩)

theorem attemptFailed_shows {α : Type} (rk : RoutedKey) (e : ProxyError) (hp : p.Tells labels)
    (s : Situation) :
    Shows env.answer happening? (attemptFailed ctx session rk e p : ExecM (Flow α))
      (fun l flow _ => l = Attempt.rest ctx ⟨rk, some (.error e)⟩ ∧
        flow.Leads labels (Attempt.way ⟨rk, some (.error e)⟩)) s := by
  refine Shows.bind (Shows.seen rfl (Shows.pure ?_))
  rw [show Attempt.way ⟨rk, some (.error e)⟩ = (classifyFailure e).way from rfl,
    show Attempt.rest ctx ⟨rk, some (.error e)⟩ =
      .records (Attempt.row ctx ⟨rk, some (.error e)⟩) :: ((classifyFailure e).mark rk).toList
      from rfl]
  cases h : classifyFailure e with
  | returnToClient =>
    refine Shows.bind ((refundAndFail_shows _ _).mono fun l r _ hr => ?_)
    obtain ⟨rfl, rfl⟩ := hr
    refine Shows.pure ⟨rfl, .leave fun failure hf => ?_⟩
    cases hf
    exact not_exhausted_of_returnToClient h
  | disable => exact Shows.seen rfl (Shows.pure ⟨rfl, .next ⟨hp.attempted, hp.untried⟩⟩)
  | cooldown => exact Shows.seen rfl (Shows.pure ⟨rfl, .next ⟨hp.attempted, hp.untried⟩⟩)
  | skipBinding => exact Shows.pure ⟨rfl, .skip ⟨hp.attempted, hp.untried⟩⟩

variable (first : RoutedKey) (modelPricing : Option ChannelModelPricing)

/-- **One turn.** -/
theorem attempt_shows (rk : RoutedKey) (hp : p.Tells labels) (s : Situation) :
    Shows env.answer happening?
      (attempt ctx session rk self.codec entryFormat body
        (self.wholeExchange ctx entryFormat first modelPricing session) p)
      (fun l flow _ => ∃ turn : Turn, turn.rk = rk ∧ l = turn.story ctx ∧
        flow.Leads (labels ++ (attemptsIn [turn]).map Attempt.label) turn.way) s := by
  refine Shows.bind (Shows.seen rfl (Shows.pure ?_))
  cases h : (env.answer (.isAvailable rk.key.id rk.upstreamModelName) s).1 with
  | false =>
    refine Shows.pure ⟨.passes rk, rfl, rfl, .next ?_⟩
    rwa [show attemptsIn [Turn.passes rk] = [] from rfl, List.map_nil, List.append_nil]
  | true =>
    obtain ⟨out, hout⟩ := prepareRequest_ok self.codec entryFormat body rk.channel
      rk.upstreamModelName
    simp only [attemptAvailable, hout]
    refine Shows.bind (Shows.seen rfl (Shows.pure ?_))
    generalize (env.answer (.adaptorExecute rk _) _).1 = reply
    rw [hp.attempted]
    have hp' : Progress.Tells { p with
        attempted := labels ++ [rk.key.label.getD s!"key-{rk.key.id}"]
        lastTriedRk := some rk } (labels ++ [rk.key.label.getD s!"key-{rk.key.id}"]) :=
      ⟨rfl, fun h => absurd h (Option.some_ne_none rk)⟩
    cases reply with
    | none =>
      refine (attemptTimedOut_shows rk _ hp' _).mono fun l flow _ hflow => ?_
      exact ⟨.tries ⟨rk, none⟩, rfl, by rw [hflow.1]; rfl, hflow.2⟩
    | some reply =>
      cases reply with
      | error e =>
        refine (attemptFailed_shows rk e hp' _).mono fun l flow _ hflow => ?_
        exact ⟨.tries ⟨rk, some (.error e)⟩, rfl, by rw [hflow.1]; rfl, hflow.2⟩
      | ok reply =>
        refine Shows.bind ((settleAndReturn_shows first rk modelPricing reply _ _).mono
          fun l r _ hr => ?_)
        obtain ⟨rfl, res, rfl⟩ := hr
        exact Shows.pure ⟨.tries ⟨rk, some (.ok reply)⟩, rfl, rfl, .leave fun _ h => by cases h⟩

theorem tryKeys_shows (rks : List RoutedKey) (hp : p.Tells labels) (s : Situation) :
    Shows env.answer happening?
      (tryKeys ctx session self.codec entryFormat body
        (self.wholeExchange ctx entryFormat first modelPricing session) rks p)
      (fun l flow _ => ∃ turns way, Plays rks turns way ∧ l = turns.flatMap (Turn.story ctx) ∧
        flow.Leads (labels ++ (attemptsIn turns).map Attempt.label) way) s := by
  induction rks generalizing p labels s with
  | nil =>
    refine Shows.pure ⟨[], .next, .nil, rfl, .next ?_⟩
    rwa [show attemptsIn [] = [] from rfl, List.map_nil, List.append_nil]
  | cons rk rks ih =>
    refine Shows.bind ((attempt_shows first modelPricing rk hp s).mono fun l flow s hturn => ?_)
    obtain ⟨turn, rfl, rfl, hflow⟩ := hturn
    generalize hway : turn.way = way at hflow
    cases hflow with
    | next hp =>
      refine (ih hp s).mono fun l flow _ hrest => ?_
      obtain ⟨turns, way, hplays, rfl, hflow⟩ := hrest
      refine ⟨turn :: turns, way, .next hway hplays, rfl, ?_⟩
      rwa [List.append_assoc, ← List.map_append, ← attemptsIn_append] at hflow
    | skip hp =>
      have hlast : turn.way ≠ .next := by simp [hway]
      exact Shows.pure ⟨[turn], .skip, hway ▸ .last hlast, by simp, .skip hp⟩
    | leave hr =>
      have hlast : turn.way ≠ .next := by simp [hway]
      exact Shows.pure ⟨[turn], .leave, hway ▸ .last hlast, by simp, .leave hr⟩

theorem tryBindings_shows (bindings : List Bucket) (hp : p.Tells labels) (s : Situation) :
    Shows env.answer happening?
      (tryBindings ctx session self.codec entryFormat body
        (self.wholeExchange ctx entryFormat first modelPricing session) bindings p)
      (fun l flow _ => ∃ turns way, PlaysAll bindings turns way ∧
        l = turns.flatten.flatMap (Turn.story ctx) ∧
        flow.Leads (labels ++ (attemptsIn turns.flatten).map Attempt.label) way) s := by
  induction bindings generalizing p labels s with
  | nil =>
    refine Shows.pure ⟨[], .next, .nil, rfl, .next ?_⟩
    rwa [List.flatten_nil, show attemptsIn [] = [] from rfl, List.map_nil, List.append_nil]
  | cons b bindings ih =>
    refine Shows.bind ((tryKeys_shows first modelPricing b.keys hp s).mono
      fun l flow s hkeys => ?_)
    obtain ⟨turns, way, hplays, rfl, hflow⟩ := hkeys
    -- However a binding is left, unless for good, the next one is begun with the same labels.
    have hnext : ∀ p' : Progress, way ≠ .leave →
        p'.Tells (labels ++ (attemptsIn turns).map Attempt.label) →
        Shows env.answer happening?
          (tryBindings ctx session self.codec entryFormat body
            (self.wholeExchange ctx entryFormat first modelPricing session) bindings p')
          (fun l flow _ => ∃ turns' way', PlaysAll (b :: bindings) turns' way' ∧
            turns.flatMap (Turn.story ctx) ++ l = turns'.flatten.flatMap (Turn.story ctx) ∧
            flow.Leads (labels ++ (attemptsIn turns'.flatten).map Attempt.label) way') s := by
      intro p' hway hp
      refine (ih hp s).mono fun l flow _ hrest => ?_
      obtain ⟨rest, way', hrest, rfl, hflow⟩ := hrest
      refine ⟨turns :: rest, way', .next hplays hway hrest, ?_, ?_⟩
      · rw [List.flatten_cons, List.flatMap_append]
      · rwa [List.append_assoc, ← List.map_append, ← attemptsIn_append] at hflow
    cases hflow with
    | next hp => exact hnext _ (by simp) hp
    | skip hp => exact hnext _ (by simp) hp
    | leave hr => exact Shows.pure ⟨[turns], .leave, .last hplays, by simp, .leave hr⟩

/-- How an execution may go, given its candidates: what is seen of it, and its answer. -/
inductive Goes (ctx : ExecutionContext) (candidates : List Bucket) :
    List Happening → Except ExecutionFailure ExecutionResult → Prop
  /-- It does not come to the loop. -/
  | early {r : Except ExecutionFailure ExecutionResult}
      (hr : ∀ failure, r = .error failure → failure.error.Exhausted → candidates = [] ∧
        failure = .noAttempt (.allKeysExhausted ctx.canonicalName [] none)) :
      Goes ctx candidates [] r
  /-- A turn leads out of the loop. -/
  | left {turns : List (List Turn)} {r : Except ExecutionFailure ExecutionResult}
      (hturns : PlaysAll (candidates.take maxBindingAttempts) turns .leave)
      (hr : ∀ failure, r = .error failure → ¬failure.error.Exhausted) :
      Goes ctx candidates (turns.flatten.flatMap (Turn.story ctx)) r
  /-- The loop comes to its end. -/
  | exhausted {turns : List (List Turn)} {failure : ExecutionFailure} {lastError : Option String}
      (hturns : PlaysAll (candidates.take maxBindingAttempts) turns .next)
      (hlabels : failure.attemptedKeys = (attemptsIn turns.flatten).map Attempt.label)
      (herror : failure.error =
        .allKeysExhausted ctx.canonicalName failure.attemptedKeys lastError) :
      Goes ctx candidates (turns.flatten.flatMap (Turn.story ctx)) (.error failure)

theorem allKeysExhausted_labels (ctx : ExecutionContext) (hp : p.Tells labels) :
    (allKeysExhausted ctx p).attemptedKeys = labels ∧
      (allKeysExhausted ctx p).error = .allKeysExhausted ctx.canonicalName
        (allKeysExhausted ctx p).attemptedKeys p.lastError := by
  refine ⟨?_, rfl⟩
  rw [allKeysExhausted]
  cases hrk : p.lastTriedRk with
  | none => exact (hp.untried hrk).symm
  | some rk => exact hp.attempted

end Loop

/-- No part of the server but the loop itself says that all keys are exhausted. -/
structure Surroundings.Plain (env : Surroundings) : Prop where
  pricing : ∀ modelId channelId upstream e,
    env.pricing modelId channelId upstream = .error e → ¬e.Exhausted
  repository : ∀ billed q e, env.repository billed q = q.failure e → ¬e.Exhausted

section Execution

variable {env : Surroundings} {ctx : ExecutionContext}

theorem not_exhausted_config (msg : String) : ¬(ProxyError.config msg).Exhausted := by
  rintro ⟨model, attemptedKeys, lastError, h⟩
  cases h

theorem preCharge_shows (henv : env.Plain) (estimated : ℤ) (s : Situation) :
    Shows env.answer happening?
      (billing (BillingManager.preCharge ctx.userId ctx.tokenId estimated))
      (fun l r _ => l = [] ∧ ∀ e, r = .error e → ¬e.Exhausted) s := by
  rw [BillingManager.preCharge]
  split
  · refine Shows.pure ⟨rfl, fun e he => ?_⟩
    cases he
    exact not_exhausted_config _
  · refine Shows.unseen rfl ?_
    generalize h : (env.answer (.billing (.getTokenUnlimited ctx.tokenId)) s).1 = reply
    match reply with
    | .error e =>
      refine Shows.pure ⟨rfl, fun e' he => ?_⟩
      cases he
      exact henv.repository s.billed (.getTokenUnlimited ctx.tokenId) e h
    | .ok none =>
      refine Shows.pure ⟨rfl, fun e he => ?_⟩
      cases he
      exact not_exhausted_config _
    | .ok (some unlimited) =>
      show Shows _ _ (embed _ _ (if estimated = 0 then _ else _)) _ _
      split
      · exact Shows.pure ⟨rfl, fun e he => by cases he⟩
      · refine Shows.unseen rfl ?_
        generalize h : (env.answer (.billing (.preChargeAtomic ..)) _).1 = reply
        match reply with
        | .error e =>
          refine Shows.pure ⟨rfl, fun e' he => ?_⟩
          cases he
          exact henv.repository _ (.preChargeAtomic ..) e h
        | .ok () => exact Shows.pure ⟨rfl, fun e he => by cases he⟩

/-- **The story of an execution.** -/
theorem Executor.execute_shows (self : Executor) (entryFormat : EntryFormat) (body : Json)
    (henv : env.Plain) {candidates : List Bucket} (hcandidates : env.candidates = .ok candidates)
    (s : Situation) :
    Shows env.answer happening? (self.execute ctx entryFormat body)
      (fun l r _ => Goes ctx candidates l r) s := by
  refine Shows.bind (Shows.unseen rfl (Shows.pure ?_))
  rw [show (env.answer (.selectKeys ctx) s).1 = .ok candidates from hcandidates]
  cases candidates with
  | nil =>
    refine Shows.pure (.early fun failure hf _ => ?_)
    cases hf
    exact ⟨rfl, rfl⟩
  | cons binding bindings =>
    refine Shows.bind (Shows.unseen rfl (Shows.pure ?_))
    generalize hprice : (env.answer (.getChannelModelPricing _ _ _) _).1 = price
    cases price with
    | error e =>
      refine Shows.pure (.early fun failure hf hex => ?_)
      cases hf
      exact absurd hex (henv.pricing _ _ _ e hprice)
    | ok modelPricing =>
      refine Shows.bind ((preCharge_shows henv _ _).mono fun l r s hcharge => ?_)
      obtain ⟨rfl, hr⟩ := hcharge
      cases r with
      | error e =>
        refine Shows.pure (.early fun failure hf hex => ?_)
        cases hf
        exact absurd hex (hr e rfl)
      | ok session =>
        have hnew : Progress.Tells {} [] := ⟨rfl, fun _ => rfl⟩
        refine Shows.bind ((tryBindings_shows binding.first modelPricing _ hnew s).mono
          fun l flow s hloop => ?_)
        obtain ⟨turns, way, hplays, rfl, hflow⟩ := hloop
        cases hflow with
        | next hp =>
          refine (refundAndFail_shows _ s).mono fun l r _ hr => ?_
          obtain ⟨rfl, rfl⟩ := hr
          obtain ⟨hlabels, herror⟩ := allKeysExhausted_labels ctx hp
          rw [List.nil_append, List.nil_append, List.append_nil]
          exact .exhausted hplays hlabels herror
        | skip hp => exact absurd rfl hplays.ne_skip
        | leave hr =>
          refine Shows.pure ?_
          rw [List.nil_append, List.nil_append, List.append_nil]
          exact .left hplays hr

end Execution

end Chennix
