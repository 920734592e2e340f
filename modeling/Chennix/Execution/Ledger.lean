import Chennix.Core.Executor
import Chennix.Server.Pipeline

/-!
# What an execution has charged

One execution over the database, while nobody else touches its accounts. Whatever routing, health
and upstreams answer, the calls that have moved quota and the responses that have been received
determine each other at every suspension point: nothing, a reservation, a reservation given back,
or a reservation with a response, adjusted to its cost or not.

## Main definitions

* `Executor.serves` — who answers the calls: the database, a fixed pricing, and anybody
* `Executor.responseCosts` — the actual costs of the responses received
* `Executor.Stands` — the calls and responses an execution may have behind it

## Main results

* `Executor.execute_stands`, `Executor.executeStream_stands` — every suspension point stands so
* `Executor.accounts` — the accounts are what the trace has charged
-/

namespace Chennix

open Foundations Program BillingManager

/-- The accounts of two databases agree. -/
def Db.SameAccounts (db db' : Db) : Prop := db'.users = db.users ∧ db'.tokens = db.tokens

namespace Executor

variable (executor : Executor) (ctx : ExecutionContext)
  (pricing : ℤ → ℤ → String → Option ChannelModelPricing)

/-- The billing calls are answered by the database and the pricing lookups by a snapshot. The
other calls answer anything, and leave the accounts alone. -/
def serves : Handler ExecReq ExecReq.Resp Db
  | .billing q, db, r, db' => ∃ now, q.answer now db = (r, db')
  | .getChannelModelPricing modelId channelId upstream, db, r, db' =>
    r = .ok (pricing modelId channelId upstream) ∧ db.SameAccounts db'
  | _, db, _, db' => db.SameAccounts db'

/-- The actual cost of a candidate's response. -/
def costOf (rk : RoutedKey) (bytes : Bytes) : ℤ :=
  actualCost executor.evaluator (executor.usageOf rk.channel.provider bytes)
    (pricing ctx.modelId rk.channel.id rk.upstreamModelName)

/-- The actual cost of the response that a call received, if it received one. -/
def responseCost : ExecCall → Option ℤ
  | ⟨.adaptorExecute rk _, some (.ok reply)⟩ => some (executor.costOf ctx pricing rk reply.2)
  | _ => none

/-- The actual costs of the responses received. -/
def responseCosts (t : List ExecCall) : List ℤ := t.filterMap (executor.responseCost ctx pricing)

/-- The calls of a trace that have moved quota, and the costs of the responses received. -/
structure Ledger (m : List BillingCall) (costs : List ℤ) (t : List ExecCall) : Prop where
  moves : moves (billingCalls t) = m
  costs : executor.responseCosts ctx pricing t = costs
  sound : ¬Faulty (billingCalls t)

/-- The session that an execution has opened. -/
structure Opens (s : BillingSession) (t : List ExecCall) : Prop where
  user : s.userId = ctx.userId
  token : s.tokenId = ctx.tokenId
  reserved : 0 ≤ s.preCharged
  unsettled : s.settled = false
  flag : (⟨.getTokenUnlimited ctx.tokenId, .ok (some s.tokenUnlimited)⟩ : BillingCall) ∈
    billingCalls t

variable {ctx} in
/-- It stays the session of the execution. -/
theorem Opens.mono {s : BillingSession} {t t' : List ExecCall} (h : Opens ctx s t)
    (hpre : t <+: t') : Opens ctx s t' := by
  obtain ⟨t₁, rfl⟩ := hpre
  refine { h with flag := ?_ }
  rw [billingCalls_append]
  exact List.mem_append_left _ h.flag

variable {ctx} in
theorem Opens.snoc {s : BillingSession} {t : List ExecCall} (h : Opens ctx s t) (a : ExecCall) :
    Opens ctx s (t ++ [a]) := h.mono (List.prefix_append ..)

/-- What an execution may have behind it. -/
inductive Stands (t : List ExecCall) : Prop
  | idle (h : executor.Ledger ctx pricing [] [] t)
  | opened (s : BillingSession) (hs : Opens ctx s t)
      (h : executor.Ledger ctx pricing s.reserveMoves [] t)
  | refunded (s : BillingSession) (hs : Opens ctx s t)
      (h : executor.Ledger ctx pricing (s.reserveMoves ++ s.refundMoves) [] t)
  | answered (s : BillingSession) (hs : Opens ctx s t) (cost : ℤ)
      (h : executor.Ledger ctx pricing s.reserveMoves [cost] t)
  | adjusted (s : BillingSession) (hs : Opens ctx s t) (cost : ℤ) (hcost : 0 ≤ cost)
      (h : executor.Ledger ctx pricing (s.reserveMoves ++ s.adjustMoves cost) [cost] t)

/-- What an execution has behind it when it ends without a result. -/
inductive Ends (t : List ExecCall) : Prop
  | idle (h : executor.Ledger ctx pricing [] [] t)
  | refunded (s : BillingSession) (hs : Opens ctx s t)
      (h : executor.Ledger ctx pricing (s.reserveMoves ++ s.refundMoves) [] t)

variable {executor ctx pricing} {m : List BillingCall} {costs : List ℤ} {t : List ExecCall}
  {db db' : Db}

theorem Ends.stands (h : executor.Ends ctx pricing t) : executor.Stands ctx pricing t := by
  cases h with
  | idle h => exact .idle h
  | refunded s hs h => exact .refunded s hs h

/-! ### Single calls -/

theorem responseCosts_append (t t' : List ExecCall) :
    executor.responseCosts ctx pricing (t ++ t') =
      executor.responseCosts ctx pricing t ++ executor.responseCosts ctx pricing t' :=
  List.filterMap_append

theorem responseCosts_snoc_none {a : ExecCall} (ha : executor.responseCost ctx pricing a = none) :
    executor.responseCosts ctx pricing (t ++ [a]) = executor.responseCosts ctx pricing t := by
  simp [responseCosts, ha]

theorem responseCost_quiet {q : ExecReq} (hq : q.Quiet) (r : q.Resp) :
    executor.responseCost ctx pricing ⟨q, r⟩ = none := by
  cases q with
  | adaptorExecute rk body => exact hq.elim
  | _ => rfl

theorem billingCalls_snoc (t : List ExecCall) (q : BillingReq) (r : q.Resp) :
    billingCalls (t ++ [⟨.billing q, r⟩]) = billingCalls t ++ [⟨q, r⟩] :=
  billingCalls_append t _

theorem Ledger.quiet (h : executor.Ledger ctx pricing m costs t) {q : ExecReq} (hq : q.Quiet)
    (r : q.Resp) : executor.Ledger ctx pricing m costs (t ++ [⟨q, r⟩]) where
  moves := by rw [billingCalls_quiet hq]; exact h.moves
  costs := (responseCosts_snoc_none (responseCost_quiet hq r)).trans h.costs
  sound := by rw [billingCalls_quiet hq]; exact h.sound

/-- An upstream that brings no response. -/
theorem Ledger.unanswered (h : executor.Ledger ctx pricing m costs t) {rk : RoutedKey} {body : Json}
    {r : Option (ProxyResult (ℕ × Bytes))}
    (hr : executor.responseCost ctx pricing ⟨.adaptorExecute rk body, r⟩ = none) :
    executor.Ledger ctx pricing m costs (t ++ [⟨.adaptorExecute rk body, r⟩]) where
  moves := by rw [billingCalls_snoc_none rfl]; exact h.moves
  costs := (responseCosts_snoc_none hr).trans h.costs
  sound := by rw [billingCalls_snoc_none rfl]; exact h.sound

/-- An upstream that brings a response. -/
theorem Ledger.answered (h : executor.Ledger ctx pricing m [] t) (rk : RoutedKey) (body : Json)
    (reply : ℕ × Bytes) :
    executor.Ledger ctx pricing m [executor.costOf ctx pricing rk reply.2]
      (t ++ [⟨.adaptorExecute rk body, some (.ok reply)⟩]) where
  moves := by rw [billingCalls_snoc_none rfl]; exact h.moves
  costs := by rw [responseCosts_append, h.costs]; rfl
  sound := by rw [billingCalls_snoc_none rfl]; exact h.sound

/-- The database fails no call. -/
theorem not_faulty_snoc {now : String} {q : BillingReq} {r : q.Resp}
    (hf : ¬Faulty (billingCalls t)) (h : q.answer now db = (r, db')) :
    ¬Faulty (billingCalls (t ++ [⟨.billing q, r⟩])) := by
  rw [billingCalls_snoc]
  rintro ⟨q', e, hq', hmem⟩
  rcases List.mem_append.mp hmem with hmem | hmem
  · exact hf ⟨q', e, hq', hmem⟩
  · have heq := List.mem_singleton.mp hmem
    cases heq
    exact BillingReq.answer_ne_failure hq' h e rfl

/-! ### Operations of the billing manager -/

/-- An operation of the billing manager inside an execution: what is known of it as a program of
its own, while the responses received stay what they are. -/
theorem billing_rule {α : Type} {p : BillingM α} {φ : List BillingCall → Prop}
    {post : α → List BillingCall → Prop} (db : Db) (h : Always φ p post (billingCalls t))
    (hcosts : executor.responseCosts ctx pricing t = costs) (hf : ¬Faulty (billingCalls t)) :
    Throughout (serves pricing)
      (fun t' _ => (φ (billingCalls t') ∧ executor.responseCosts ctx pricing t' = costs ∧
        ¬Faulty (billingCalls t')) ∧ t <+: t') (billing p)
      (fun a t' _ => (post a (billingCalls t') ∧ executor.responseCosts ctx pricing t' = costs ∧
        ¬Faulty (billingCalls t')) ∧ t <+: t') t db := by
  refine ((Always.embed billingCall? (fun _ _ => rfl) h).and
    (Throughout.of_only ?_ (fun _ _ h => h) (Only.embed p) ⟨hcosts, hf⟩)).grows
  rintro _ r t db db' ⟨q, rfl⟩ ⟨now, hans⟩ ⟨hcosts, hf⟩
  exact ⟨(responseCosts_snoc_none rfl).trans hcosts, not_faulty_snoc hf hans⟩

/-- A refund leads from the open session to an end. -/
theorem refund_ends {α : Type} {s : BillingSession} (hs : Opens ctx s t)
    (failure : ExecutionFailure) (h : executor.Ledger ctx pricing s.reserveMoves [] t) :
    Throughout (serves pricing) (fun t _ => executor.Stands ctx pricing t)
      (refundAndFail s failure : ExecM (Except ExecutionFailure α))
      (fun r t _ => r = .error failure ∧ executor.Ends ctx pricing t) t db := by
  have hrule := billing_rule db (refund_moves (s := s) h.moves) h.costs h.sound
  refine Throughout.bind ((hrule.imp fun t _ h => ?_).mono fun r t _ h => ?_)
  · obtain ⟨⟨hm, hcosts, hf⟩, hpre⟩ := h
    exact .opened s (hs.mono hpre) ⟨hm, hcosts, hf⟩
  · obtain ⟨⟨hpost, hcosts, hf⟩, hpre⟩ := h
    match r with
    | .ok () => exact ⟨rfl, .refunded s (hs.mono hpre) ⟨hpost, hcosts, hf⟩⟩
    | .error e => exact (hf hpost.2).elim

/-- A session with a response, after its settlement. A negative cost has been refused. -/
structure Settles (executor : Executor) (ctx : ExecutionContext)
    (pricing : ℤ → ℤ → String → Option ChannelModelPricing) (s : BillingSession) (cost : ℤ)
    (t : List ExecCall) : Prop where
  opens : Opens ctx s t
  ledger : cost < 0 ∧ executor.Ledger ctx pricing s.reserveMoves [cost] t ∨
    0 ≤ cost ∧ executor.Ledger ctx pricing (s.reserveMoves ++ s.adjustMoves cost) [cost] t

theorem Settles.stands {s : BillingSession} {cost : ℤ}
    (h : executor.Settles ctx pricing s cost t) : executor.Stands ctx pricing t := by
  obtain ⟨hs, ⟨-, h⟩ | ⟨hcost, h⟩⟩ := h
  · exact .answered s hs cost h
  · exact .adjusted s hs cost hcost h

theorem Settles.quiet {s : BillingSession} {cost : ℤ} (h : executor.Settles ctx pricing s cost t)
    {q : ExecReq} (hq : q.Quiet) (r : q.Resp) :
    executor.Settles ctx pricing s cost (t ++ [⟨q, r⟩]) :=
  ⟨h.opens.snoc _,
    h.ledger.imp (fun h => ⟨h.1, h.2.quiet hq r⟩) fun h => ⟨h.1, h.2.quiet hq r⟩⟩

theorem settle_settles {s : BillingSession} {cost : ℤ} (hs : Opens ctx s t)
    (h : executor.Ledger ctx pricing s.reserveMoves [cost] t) :
    Throughout (serves pricing) (fun t _ => executor.Stands ctx pricing t)
      (billing (settle s cost)) (fun _ t _ => executor.Settles ctx pricing s cost t) t db := by
  have hrule := billing_rule db (settle_moves cost hs.unsettled h.moves) h.costs h.sound
  refine (hrule.imp fun t _ h => ?_).mono fun r t _ h => ?_
  · obtain ⟨⟨⟨hcost, hm | hm⟩, hcosts, hf⟩, hpre⟩ := h
    · exact .answered s (hs.mono hpre) cost ⟨hm, hcosts, hf⟩
    · exact .adjusted s (hs.mono hpre) cost hcost ⟨hm, hcosts, hf⟩
  · obtain ⟨⟨hpost, hcosts, hf⟩, hpre⟩ := h
    refine ⟨hs.mono hpre, ?_⟩
    match r with
    | (.ok (), s') => exact .inr ⟨hpost.1, hpost.2.1, hcosts, hf⟩
    | (.error e, s') =>
      rcases hpost with ⟨hneg, hm⟩ | ⟨-, hfaulty⟩
      · exact .inl ⟨hneg, hm, hcosts, hf⟩
      · exact (hf hfaulty).elim

/-! ### Executions -/

/-- The session of an execution is open, with no response yet. -/
structure Waits (executor : Executor) (ctx : ExecutionContext)
    (pricing : ℤ → ℤ → String → Option ChannelModelPricing) (s : BillingSession)
    (t : List ExecCall) : Prop where
  opens : Opens ctx s t
  ledger : executor.Ledger ctx pricing s.reserveMoves [] t

theorem Waits.stands {s : BillingSession} (h : executor.Waits ctx pricing s t) :
    executor.Stands ctx pricing t := .opened s h.opens h.ledger

theorem Waits.quiet {s : BillingSession} (h : executor.Waits ctx pricing s t) {q : ExecReq}
    (hq : q.Quiet) (r : q.Resp) : executor.Waits ctx pricing s (t ++ [⟨q, r⟩]) :=
  ⟨h.opens.snoc _, h.ledger.quiet hq r⟩

/-- The pricing of the candidate that was used is the snapshot's. -/
theorem actualPricing_rule {I : List ExecCall → Prop} {first : RoutedKey} (rk : RoutedKey)
    (hI : ∀ t, I t → executor.Stands ctx pricing t)
    (hquiet : ∀ t q r, ExecReq.Quiet q → I t → I (t ++ [⟨q, r⟩])) (h : I t) :
    Throughout (serves pricing) (fun t _ => executor.Stands ctx pricing t)
      (actualPricing ctx first (pricing ctx.modelId first.channel.id first.upstreamModelName) rk)
      (fun p t _ => p = pricing ctx.modelId rk.channel.id rk.upstreamModelName ∧ I t) t db := by
  unfold actualPricing
  split
  · rename_i hsame
    exact ⟨by rw [hsame.1, hsame.2], h⟩
  · refine throughout_await (hI t h) fun r db' hserves => ?_
    obtain ⟨rfl, -⟩ := hserves
    exact ⟨rfl, hquiet _ _ _ trivial h⟩

/-- What `execute` ends with. -/
def Outcome (executor : Executor) (ctx : ExecutionContext)
    (pricing : ℤ → ℤ → String → Option ChannelModelPricing) :
    Except ExecutionFailure ExecutionResult → List ExecCall → Prop
  | .error _, t => executor.Ends ctx pricing t
  | .ok res, t => ∃ s, executor.Settles ctx pricing s res.quotaCost t

/-- What `executeStream` ends with. -/
def StreamOutcome (executor : Executor) (ctx : ExecutionContext)
    (pricing : ℤ → ℤ → String → Option ChannelModelPricing) :
    Except ExecutionFailure StreamBootstrap → List ExecCall → Prop
  | .error _, t => executor.Ends ctx pricing t
  | .ok b, t => executor.Waits ctx pricing b.session t

theorem Outcome.stands {r : Except ExecutionFailure ExecutionResult}
    (h : executor.Outcome ctx pricing r t) : executor.Stands ctx pricing t := by
  match r with
  | .error e => exact Ends.stands h
  | .ok res =>
    obtain ⟨s, h⟩ := h
    exact h.stands

theorem StreamOutcome.stands {r : Except ExecutionFailure StreamBootstrap}
    (h : executor.StreamOutcome ctx pricing r t) : executor.Stands ctx pricing t := by
  match r with
  | .error e => exact Ends.stands h
  | .ok b => exact Waits.stands h

/-- From a response to the result. -/
theorem settleAndReturn_outcome {s : BillingSession} {first rk : RoutedKey}
    {entryFormat : EntryFormat} {reply : ℕ × Bytes} (attempted : List String) (hs : Opens ctx s t)
    (h : executor.Ledger ctx pricing s.reserveMoves [executor.costOf ctx pricing rk reply.2] t) :
    Throughout (serves pricing) (fun t _ => executor.Stands ctx pricing t)
      (executor.settleAndReturn ctx entryFormat s first
        (pricing ctx.modelId first.channel.id first.upstreamModelName) rk rk.channel.provider reply
        attempted)
      (fun r t _ => executor.Outcome ctx pricing r t) t db := by
  refine Throughout.bind ((actualPricing_rule
    (I := fun t => Opens ctx s t ∧ executor.Ledger ctx pricing s.reserveMoves
      [executor.costOf ctx pricing rk reply.2] t) rk
    (fun t h => .answered s h.1 _ h.2) (fun t q r hq h => ⟨h.1.snoc _, h.2.quiet hq r⟩)
    ⟨hs, h⟩).mono fun p t db hp => ?_)
  obtain ⟨rfl, hs, h⟩ := hp
  refine Throughout.bind ((settle_settles hs h).mono fun _ t db h => ?_)
  refine Throughout.bind ((Throughout.of_only (I := fun t _ => executor.Settles ctx pricing s _ t)
    (fun q r t _ _ hq _ h => h.quiet hq r) (fun t _ h => h.stands)
    (Tracker.trackSuccess_quiet ctx rk _ _ "chat") h).mono fun _ t db h => ?_)
  obtain ⟨body, hbody⟩ := finalBody_ok executor.codec executor.now entryFormat
    rk.channel.provider reply.2 ((executor.codec.fromSlice reply.2).toOption.getD .null)
  simp only [hbody]
  exact ⟨s, h⟩

/-- An execution, given that its exchanges end well. -/
theorem execution_rule {ρ α : Type} {entryFormat : EntryFormat} {body : Json}
    {post : Except ExecutionFailure α → List ExecCall → Prop}
    {exchange : RoutedKey → Option ChannelModelPricing → BillingSession → Exchange ρ α}
    (hends : ∀ e t, executor.Ends ctx pricing t → post (.error e) t)
    (hsend : ∀ first s rk reqBody t db, executor.Waits ctx pricing s t →
      let ex := exchange first (pricing ctx.modelId first.channel.id first.upstreamModelName) s
      Throughout (serves pricing) (fun t _ => executor.Stands ctx pricing t) (ex.send rk reqBody)
        (ex.Leaves (serves pricing) (fun t _ => executor.Stands ctx pricing t)
          (fun t _ => executor.Waits ctx pricing s t) (fun r t _ => post r t) rk) t db)
    (h : executor.Ledger ctx pricing [] [] t) :
    Throughout (serves pricing) (fun t _ => executor.Stands ctx pricing t)
      (executor.execution ctx entryFormat body exchange) (fun r t _ => post r t) t db := by
  refine throughout_await (.idle h) fun routed db _ => ?_
  have h₁ := h.quiet (q := .selectKeys ctx) trivial routed
  match routed with
  | .error e => exact hends _ _ (.idle h₁)
  | .ok [] => exact hends _ _ (.idle h₁)
  | .ok (binding :: bindings) =>
    refine throughout_await (.idle h₁) fun r db hserves => ?_
    obtain ⟨rfl, -⟩ := hserves
    have h₂ := h₁.quiet (q := .getChannelModelPricing ctx.modelId binding.first.channel.id
      binding.first.upstreamModelName) trivial
      (.ok (pricing ctx.modelId binding.first.channel.id binding.first.upstreamModelName))
    refine Throughout.bind ((billing_rule _ (preCharge_moves _ _ _ h₂.moves) h₂.costs h₂.sound).imp
      (fun t _ h => ?_) |>.mono fun r t db h => ?_)
    · exact .idle ⟨h.1.1, h.1.2.1, h.1.2.2⟩
    · obtain ⟨⟨hpost, hcosts, hf⟩, -⟩ := h
      match r with
      | .error e => exact hends _ _ (.idle ⟨hpost, hcosts, hf⟩)
      | .ok s =>
        obtain ⟨huser, htoken, hpre, hpos, hset, hm, hflag⟩ := hpost
        refine tryAll_rule (I := fun t _ => executor.Waits ctx pricing s t)
          ⟨fun t _ h => h.stands, fun q r t _ _ hq _ h => h.quiet hq r,
            fun failure t db h => (refund_ends h.opens failure h.ledger).mono ?_,
            fun rk reqBody t db h => hsend _ s rk reqBody t db h⟩ _
          ⟨⟨huser, htoken, hpre ▸ hpos, hset, hflag⟩, hm, hcosts, hf⟩
        rintro _ t _ ⟨rfl, hend⟩
        exact hends _ _ hend

variable {entryFormat : EntryFormat} {body : Json}

/-- **`execute`.** At every suspension point and at the end its calls and responses stand so. -/
theorem execute_stands (h : executor.Ledger ctx pricing [] [] t) :
    Throughout (serves pricing) (fun t _ => executor.Stands ctx pricing t)
      (executor.execute ctx entryFormat body) (fun r t _ => executor.Outcome ctx pricing r t)
      t db := by
  refine execution_rule (fun e t h => h) (fun first s rk reqBody t db h => ?_) h
  refine throughout_await h.stands fun reply db _ => ?_
  have hs := h.opens.snoc ⟨.adaptorExecute rk reqBody, reply⟩
  match reply with
  | none => exact ⟨hs, h.ledger.unanswered rfl⟩
  | some (.error e) => exact ⟨hs, h.ledger.unanswered rfl⟩
  | some (.ok reply) =>
    exact fun attempted => settleAndReturn_outcome attempted hs (h.ledger.answered ..)

/-- A call of an execution moves the accounts by what it charges. -/
theorem accounts_serves {q : ExecReq} {r : q.Resp} (h : serves pricing q db r db') :
    (∀ u, Option.Rel (UserRow.Charged (charged (Charge.onUser u) (billingCalls [⟨q, r⟩])))
      (db.users.find? u) (db'.users.find? u)) ∧
    ∀ k, Option.Rel (TokenRow.Charged (charged (Charge.onToken k) (billingCalls [⟨q, r⟩])))
      (db.tokens.find? k) (db'.tokens.find? k) := by
  have hsame : db.SameAccounts db' →
      (∀ u, Option.Rel (UserRow.Charged 0) (db.users.find? u) (db'.users.find? u)) ∧
        ∀ k, Option.Rel (TokenRow.Charged 0) (db.tokens.find? k) (db'.tokens.find? k) := by
    rintro ⟨husers, htokens⟩
    rw [husers, htokens]
    exact ⟨fun u => UserRow.Charged.refl _, fun k => TokenRow.Charged.refl _⟩
  cases q with
  | billing q =>
    obtain ⟨now, h⟩ := h
    exact ⟨Db.users_answer h, Db.tokens_answer h⟩
  | getChannelModelPricing modelId channelId upstream => exact hsame h.2
  | _ => exact hsame h

variable {α : Type} {p p' : ExecM α}

/-- **The accounts** after a partial run are what its trace has charged. -/
theorem accounts_run (h : Exec (serves pricing) p db t p' db') :
    (∀ u, Option.Rel (UserRow.Charged (charged (Charge.onUser u) (billingCalls t)))
      (db.users.find? u) (db'.users.find? u)) ∧
    ∀ k, Option.Rel (TokenRow.Charged (charged (Charge.onToken k) (billingCalls t)))
      (db.tokens.find? k) (db'.tokens.find? k) := by
  induction h with
  | refl p db => exact ⟨fun u => UserRow.Charged.refl _, fun k => TokenRow.Charged.refl _⟩
  | @call q k db db₁ db₂ r t p h _ ih =>
    have hcons : billingCalls (⟨q, r⟩ :: t) = billingCalls [⟨q, r⟩] ++ billingCalls t :=
      billingCalls_append [⟨q, r⟩] t
    have hcall := accounts_serves h
    simp only [hcons, charged_append]
    exact ⟨fun u => UserRow.Charged.trans (hcall.1 u) (ih.1 u),
      fun k => TokenRow.Charged.trans (hcall.2 k) (ih.2 k)⟩

/-- What a token was said to be, it has been from the start. -/
theorem unlimited_run (h : Exec (serves pricing) p db t p' db') {k : ℤ} {unlimited : Bool}
    (hmem : (⟨.getTokenUnlimited k, .ok (some unlimited)⟩ : BillingCall) ∈ billingCalls t) :
    ∃ r, db.tokens.find? k = some r ∧ r.unlimitedQuota = unlimited := by
  induction h with
  | refl p db => simp [billingCalls] at hmem
  | @call q k' db db₁ db₂ r t p h _ ih =>
    rw [show billingCalls (⟨q, r⟩ :: t) = billingCalls [⟨q, r⟩] ++ billingCalls t from
      billingCalls_append [⟨q, r⟩] t, List.mem_append] at hmem
    rcases hmem with hmem | hmem
    · obtain ⟨a, ha, hcall⟩ := List.mem_filterMap.mp hmem
      rw [List.mem_singleton.mp ha] at hcall
      cases q with
      | billing q =>
        cases hcall
        obtain ⟨now, h⟩ := h
        exact Db.unlimited_answer h
      | _ => cases hcall
    · obtain ⟨r₁, hr₁, hflag⟩ := ih hmem
      have hrel := (accounts_serves h).2 k
      rw [hr₁] at hrel
      cases hr : db.tokens.find? k with
      | none => rw [hr] at hrel; cases hrel
      | some r₀ =>
        rw [hr] at hrel
        cases hrel with
        | some hrel => exact ⟨r₀, rfl, hrel.unlimited.symm.trans hflag⟩

end Executor

/-- The accounts of a request's user and token have been charged an amount. The user pays all of
it, and so does the token unless it is unlimited. -/
structure Db.ChargedTo (ctx : ExecutionContext) (amount : ℤ) (db db' : Db) : Prop where
  user : Option.Rel (UserRow.Charged amount) (db.users.find? ctx.userId)
    (db'.users.find? ctx.userId)
  token : Option.Rel (fun r => TokenRow.Charged (if r.unlimitedQuota then 0 else amount) r)
    (db.tokens.find? ctx.tokenId) (db'.tokens.find? ctx.tokenId)

/-- A user who exists has been charged one amount only. -/
theorem Db.ChargedTo.unique {ctx : ExecutionContext} {db db' : Db} {x y : ℤ}
    (huser : (db.users.find? ctx.userId).isSome)
    (h : Option.Rel (UserRow.Charged x) (db.users.find? ctx.userId) (db'.users.find? ctx.userId))
    (h' : Option.Rel (UserRow.Charged y) (db.users.find? ctx.userId) (db'.users.find? ctx.userId)) :
    x = y := by
  obtain ⟨r, hr⟩ := Option.isSome_iff_exists.mp huser
  rw [hr] at h h'
  obtain ⟨r', hr', hx⟩ := rel_some h
  rw [hr'] at h'
  cases h' with
  | some hy =>
    have := hx.used.symm.trans hy.used
    omega

namespace Executor

variable {executor : Executor} {ctx : ExecutionContext}
  {pricing : ℤ → ℤ → String → Option ChannelModelPricing} {costs : List ℤ} {t : List ExecCall}
  {db db' : Db} {α : Type} {p p' : ExecM α} {s : BillingSession}

theorem Ledger.moved_reserve (h : executor.Ledger ctx pricing s.reserveMoves costs t) :
    s.Moved s.preCharged (billingCalls t) :=
  .reserve (t := []) rfl h.moves

theorem Ledger.moved_refund
    (h : executor.Ledger ctx pricing (s.reserveMoves ++ s.refundMoves) costs t) :
    s.Moved 0 (billingCalls t) :=
  .refund (.reserve (t := []) rfl s.moves_reserveMoves) (by rw [h.moves, s.moves_reserveMoves])

theorem Ledger.moved_adjust {cost : ℤ}
    (h : executor.Ledger ctx pricing (s.reserveMoves ++ s.adjustMoves cost) costs t) :
    s.Moved cost (billingCalls t) :=
  .adjust (.reserve (t := []) rfl s.moves_reserveMoves) (by rw [h.moves, s.moves_reserveMoves])

/-- What has been moved on behalf of the execution's session has been charged to its accounts. -/
theorem chargedTo_of_moved (hrun : Exec (serves pricing) p db t p' db') (hs : Opens ctx s t) {x : ℤ}
    (hm : s.Moved x (billingCalls t)) : Db.ChargedTo ctx x db db' := by
  obtain ⟨husers, htokens⟩ := accounts_run hrun
  obtain ⟨r, hr, hflag⟩ := unlimited_run hrun hs.flag
  refine ⟨?_, ?_⟩
  · have := husers ctx.userId
    rwa [hm.onUser, if_pos hs.user] at this
  · have := htokens ctx.tokenId
    rw [hm.onToken, hr] at this
    obtain ⟨r', hr', hc⟩ := rel_some this
    rw [hr, hr']
    refine .some ?_
    rw [hflag]
    cases hun : s.tokenUnlimited <;> simpa [hun, hs.token] using hc

theorem chargedTo_of_idle (hrun : Exec (serves pricing) p db t p' db')
    (h : executor.Ledger ctx pricing [] costs t) : Db.ChargedTo ctx 0 db db' := by
  have hno : NoCharge (billingCalls t) := noCharge_iff.mpr h.moves
  obtain ⟨husers, htokens⟩ := accounts_run hrun
  refine ⟨?_, ?_⟩
  · simpa [hno.charged_eq] using husers ctx.userId
  · simpa [hno.charged_eq] using htokens ctx.tokenId

end Executor

end Chennix
