import Chennix.Billing.Sessions
import Chennix.Execution.Ledger

/-!
# What an execution leaves charged

An execution that ends with a result should have charged the user the cost it reports, and one
that fails nothing. There are two ways to go wrong. A settlement refuses a negative cost and the
refusal is only logged, so the reservation stays; a pricing expression may well yield one, since its
validation looks at no signs. And a settlement looks at no limit, so that a great cost takes what
the user has used beyond 64 bits. A reservation does not: what can be afforded fits.

## Main definitions

* `Db.HasRoom` — the amounts of a request's accounts are 64-bit integers
* `Executor.ChargedRight` — the accounts after an execution are right

## Main results

* `Executor.amounts_run` — the amounts stay 64-bit integers, but for great costs
* `Executor.execute_chargedRight` — the accounts are right exactly if no response has a negative
  cost, or a greater one than there is room for
-/

namespace Chennix

open Foundations Program

/-- The amounts of a request's accounts are 64-bit integers, and so is what its token has used and
has left together. -/
structure Db.HasRoom (ctx : ExecutionContext) (db : Db) : Prop where
  quota : ∀ row ∈ db.users.find? ctx.userId, IsI64 row.quota
  used : ∀ row ∈ db.users.find? ctx.userId, IsI64 row.usedQuota
  token : ∀ row ∈ db.tokens.find? ctx.tokenId, IsI64 row.usedQuota ∧ IsI64 row.remainQuota ∧
    row.usedQuota + row.remainQuota < 2 ^ 63

namespace Executor

/-- The accounts after an execution: the user has been charged the reported cost, and what has been
used is still a 64-bit integer; or nobody has been charged. -/
def ChargedRight (ctx : ExecutionContext) (db db' : Db) :
    Except ExecutionFailure ExecutionResult → Prop
  | .ok res => Option.Rel (UserRow.Charged res.quotaCost) (db.users.find? ctx.userId)
      (db'.users.find? ctx.userId) ∧ ∀ row ∈ db'.users.find? ctx.userId, IsI64 row.usedQuota
  | .error _ => Db.ChargedTo ctx 0 db db'

/-- What the user has used still fits 64 bits with the cost. -/
def Fits (ctx : ExecutionContext) (db : Db) (cost : ℤ) : Prop :=
  ∀ row ∈ db.users.find? ctx.userId, row.usedQuota + cost < 2 ^ 63

variable {executor : Executor} {ctx : ExecutionContext}
  {pricing : ℤ → ℤ → String → Option ChannelModelPricing} {t : List ExecCall} {db db' : Db}
  {α : Type} {p p' : ExecM α}

theorem chargedTo_of_ends (hrun : Exec (serves pricing) p db t p' db')
    (h : executor.Ends ctx pricing t) : Db.ChargedTo ctx 0 db db' := by
  cases h with
  | idle h => exact chargedTo_of_idle hrun h
  | refunded s hs h => exact chargedTo_of_moved hrun hs h.moved_refund

theorem Ends.responseCosts (h : executor.Ends ctx pricing t) :
    executor.responseCosts ctx pricing t = [] := by
  cases h with
  | idle h => exact h.costs
  | refunded s hs h => exact h.costs

/-! ### Amounts -/

/-- What is afforded after nothing has been charged could have been afforded before. -/
theorem affords_of_same {db₁ : Db} {u k amount : ℤ} {unlimited : Bool}
    (husers : Option.Rel (UserRow.Charged 0) (db.users.find? u) (db₁.users.find? u))
    (htokens : Option.Rel (TokenRow.Charged 0) (db.tokens.find? k) (db₁.tokens.find? k))
    (h : db₁.Affords (.preChargeAtomic u k amount unlimited)) :
    db.Affords (.preChargeAtomic u k amount unlimited) := by
  obtain ⟨⟨r₁, hr₁, huser⟩, htoken⟩ := h
  refine ⟨?_, fun hlimited => ?_⟩
  · rw [hr₁] at husers
    cases hr : db.users.find? u with
    | none => rw [hr] at husers; cases husers
    | some r =>
      rw [hr] at husers
      cases husers with
      | some hsame => exact ⟨r, rfl, by rw [hsame.quota, hsame.used] at huser; omega⟩
  · obtain ⟨r₁, hr₁, htoken⟩ := htoken hlimited
    rw [hr₁] at htokens
    cases hr : db.tokens.find? k with
    | none => rw [hr] at htokens; cases htokens
    | some r =>
      rw [hr] at htokens
      cases htokens with
      | some hsame => exact ⟨r, rfl, by rw [hsame.remain] at htoken; omega⟩

/-- **What is reserved first** could be afforded from the start. -/
theorem affords_run (hrun : Exec (serves pricing) p db t p' db') {u k amount : ℤ}
    {unlimited : Bool} {rest : List BillingCall}
    (hm : moves (billingCalls t) = ⟨.preChargeAtomic u k amount unlimited, .ok ()⟩ :: rest) :
    db.Affords (.preChargeAtomic u k amount unlimited) := by
  induction hrun with
  | refl p db => cases hm
  | @call q k' db db₁ db₂ r t p h _ ih =>
    rw [show billingCalls (⟨q, r⟩ :: t) = billingCalls [⟨q, r⟩] ++ billingCalls t from
      billingCalls_append [⟨q, r⟩] t, moves_append] at hm
    obtain ⟨husers, htokens⟩ := accounts_serves h
    by_cases hnone : moves (billingCalls [⟨q, r⟩]) = []
    · have hno : NoCharge (billingCalls [⟨q, r⟩]) := noCharge_iff.mpr hnone
      rw [hnone, List.nil_append] at hm
      have husers := husers u
      have htokens := htokens k
      rw [hno.charged_eq] at husers htokens
      exact affords_of_same husers htokens (ih hm)
    · cases q with
      | billing q =>
        obtain ⟨now, hans⟩ := h
        -- the call moves quota, so it is the reservation
        have hmoved : (chargeOf ⟨q, r⟩).isSome = true := by
          by_contra hno
          refine hnone (List.filter_eq_nil_iff.mpr fun a ha => ?_)
          rwa [List.mem_singleton.mp ha]
        have hself : moves (billingCalls [⟨.billing q, r⟩]) = [⟨q, r⟩] :=
          List.filter_eq_self.mpr fun a ha => by rwa [List.mem_singleton.mp ha]
        rw [hself, List.singleton_append] at hm
        obtain ⟨rfl, hr⟩ := Sigma.mk.inj (List.cons.inj hm).1
        rcases BillingReq.answer_cases hans with ⟨c, -, -, haffords⟩ | ⟨hno, -⟩
        · exact haffords
        · rw [hno] at hmoved
          cases hmoved
      | _ => exact absurd rfl hnone

/-- A reservation is nothing, or what its accounts can afford. -/
theorem Opens.reserved_le {s : BillingSession} {m : List BillingCall} {costs : List ℤ}
    (hs : Opens ctx s t) (hrun : Exec (serves pricing) p db t p' db')
    (h : executor.Ledger ctx pricing (s.reserveMoves ++ m) costs t) :
    (∀ row ∈ db.users.find? ctx.userId,
      s.preCharged = 0 ∨ s.preCharged ≤ row.quota - row.usedQuota) ∧
    ∀ row ∈ db.tokens.find? ctx.tokenId, row.unlimitedQuota = false →
      s.preCharged = 0 ∨ s.preCharged ≤ row.remainQuota := by
  by_cases hzero : s.preCharged = 0
  · exact ⟨fun _ _ => .inl hzero, fun _ _ _ => .inl hzero⟩
  have hm := h.moves
  rw [BillingSession.reserveMoves, if_neg hzero, List.singleton_append] at hm
  obtain ⟨⟨u, hu, huser⟩, htoken⟩ := affords_run hrun hm
  rw [hs.user] at hu
  rw [hs.token] at htoken
  refine ⟨fun row hrow => ?_, fun row hrow hlimited => ?_⟩
  · rw [Option.mem_def, hu] at hrow
    exact .inr (Option.some.inj hrow ▸ huser)
  · obtain ⟨r, hr, hflag⟩ := unlimited_run hrun hs.flag
    rw [Option.mem_def, hr] at hrow
    obtain rfl := Option.some.inj hrow
    obtain ⟨r', hr', hle⟩ := htoken (hflag.symm.trans hlimited)
    rw [hr] at hr'
    exact .inr (Option.some.inj hr' ▸ hle)

/-- Accounts with room have it for an amount that is afforded. -/
theorem isI64_of_charged {x : ℤ} (hroom : db.HasRoom ctx) (hcharged : Db.ChargedTo ctx x db db')
    (hpos : 0 ≤ x)
    (huser : ∀ row ∈ db.users.find? ctx.userId, x = 0 ∨ x ≤ row.quota - row.usedQuota)
    (htoken : ∀ row ∈ db.tokens.find? ctx.tokenId, row.unlimitedQuota = false →
      x = 0 ∨ x ≤ row.remainQuota) :
    (∀ row ∈ db'.users.find? ctx.userId, IsI64 row.usedQuota) ∧
      ∀ row ∈ db'.tokens.find? ctx.tokenId, IsI64 row.usedQuota ∧ IsI64 row.remainQuota := by
  refine ⟨fun row' hrow' => ?_, fun row' hrow' => ?_⟩
  · have hrel := hcharged.user
    rw [Option.mem_def.mp hrow'] at hrel
    cases hrow : db.users.find? ctx.userId with
    | none => rw [hrow] at hrel; cases hrel
    | some row =>
      rw [hrow] at hrel
      cases hrel with
      | some h =>
        have hquota := hroom.quota row hrow
        have hused := hroom.used row hrow
        have hle := huser row hrow
        rw [IsI64, h.used]
        unfold IsI64 at hquota hused
        omega
  · have hrel := hcharged.token
    rw [Option.mem_def.mp hrow'] at hrel
    cases hrow : db.tokens.find? ctx.tokenId with
    | none => rw [hrow] at hrel; cases hrel
    | some row =>
      rw [hrow] at hrel
      cases hrel with
      | some h =>
        obtain ⟨hused, hremain, htotal⟩ := hroom.token row hrow
        have hle := htoken row hrow
        rw [IsI64, IsI64, h.used, h.remain]
        unfold IsI64 at hused hremain
        cases hun : row.unlimitedQuota with
        | true =>
          rw [if_pos rfl]
          omega
        | false =>
          have hle := hle hun
          rw [if_neg Bool.false_ne_true]
          omega

/-- **Amounts stay 64-bit integers** wherever an execution has got to, up to its settlement, and
what the user has used beyond it where the cost fits. -/
theorem amounts_run (huser : (db.users.find? ctx.userId).isSome) (hroom : db.HasRoom ctx)
    (hrun : Exec (serves pricing) p db t p' db') (h : executor.Stands ctx pricing t) :
    ((∀ cost ∈ executor.responseCosts ctx pricing t, Fits ctx db cost) →
      ∀ row ∈ db'.users.find? ctx.userId, IsI64 row.usedQuota) ∧
    (executor.responseCosts ctx pricing t = [] →
      ∀ row ∈ db'.tokens.find? ctx.tokenId, IsI64 row.usedQuota ∧ IsI64 row.remainQuota) := by
  have hnothing {x : ℤ} (hcharged : Db.ChargedTo ctx x db db') (hx : x = 0) :=
    isI64_of_charged hroom hcharged hx.ge (fun _ _ => .inl hx) fun _ _ _ => .inl hx
  cases h with
  | idle h =>
    have := hnothing (chargedTo_of_idle hrun h) rfl
    exact ⟨fun _ => this.1, fun _ => this.2⟩
  | refunded s hs h =>
    have := hnothing (chargedTo_of_moved hrun hs h.moved_refund) rfl
    exact ⟨fun _ => this.1, fun _ => this.2⟩
  | opened s hs h =>
    obtain ⟨hu, hk⟩ := hs.reserved_le (m := []) hrun (by rwa [List.append_nil])
    have := isI64_of_charged hroom (chargedTo_of_moved hrun hs h.moved_reserve) hs.reserved hu hk
    exact ⟨fun _ => this.1, fun _ => this.2⟩
  | answered s hs cost h =>
    obtain ⟨hu, hk⟩ := hs.reserved_le (m := []) hrun (by rwa [List.append_nil])
    have := isI64_of_charged hroom (chargedTo_of_moved hrun hs h.moved_reserve) hs.reserved hu hk
    exact ⟨fun _ => this.1, fun _ => this.2⟩
  | adjusted s hs cost hcost h =>
    rw [h.costs]
    refine ⟨fun hfits row' hrow' => ?_, fun hnone => by cases hnone⟩
    obtain ⟨row, hrow⟩ := Option.isSome_iff_exists.mp huser
    have hrel := (chargedTo_of_moved hrun hs h.moved_adjust).user
    rw [hrow, Option.mem_def.mp hrow'] at hrel
    cases hrel with
    | some hcharged =>
      have hused := hroom.used row hrow
      have hfit := hfits cost List.mem_cons_self row hrow
      rw [IsI64, hcharged.used]
      unfold IsI64 at hused
      omega

/-! ### What is left charged -/

/-- **An execution leaves the right amount charged** exactly if the response it received, priced as
its binding is, costs nothing negative, and nothing that there is no room for. -/
theorem execute_chargedRight (executor : Executor) (ctx : ExecutionContext)
    (pricing : ℤ → ℤ → String → Option ChannelModelPricing) (entryFormat : EntryFormat)
    (body : Json)
    {db db' : Db} {t : List ExecCall} {r : Except ExecutionFailure ExecutionResult}
    (huser : (db.users.find? ctx.userId).isSome) (hroom : db.HasRoom ctx)
    (hrun : Exec (serves pricing) (executor.execute ctx entryFormat body) db t (.pure r) db') :
    ChargedRight ctx db db' r ↔
      ∀ cost ∈ executor.responseCosts ctx pricing t, 0 ≤ cost ∧ Fits ctx db cost := by
  have hpost : executor.Outcome ctx pricing r t :=
    (execute_stands (t := []) ⟨rfl, rfl, by simp [Faulty, billingCalls]⟩).sound hrun
  cases r with
  | error e =>
    rw [Ends.responseCosts hpost]
    exact iff_of_true (chargedTo_of_ends hrun hpost) (by simp)
  | ok res =>
    have hstands := Outcome.stands hpost
    obtain ⟨s, hs, ⟨hneg, h⟩ | ⟨hpos, h⟩⟩ := hpost
    · rw [h.costs]
      refine iff_of_false (fun hright => ?_) fun hcosts => ?_
      · have := Db.ChargedTo.unique huser (chargedTo_of_moved hrun hs h.moved_reserve).user
          hright.1
        have := hs.reserved
        omega
      · exact absurd (hcosts _ List.mem_cons_self).1 (not_le.mpr hneg)
    · have hcharged := (chargedTo_of_moved hrun hs h.moved_adjust).user
      constructor
      · rintro ⟨-, hheld⟩ cost hcost
        rw [h.costs, List.mem_singleton] at hcost
        subst hcost
        refine ⟨hpos, fun row hrow => ?_⟩
        rw [Option.mem_def.mp hrow] at hcharged
        obtain ⟨row', hrow', hmoved⟩ := rel_some hcharged
        have := (hheld row' hrow').2
        rwa [hmoved.used] at this
      · intro hcosts
        exact ⟨hcharged, (amounts_run huser hroom hrun hstands).1 fun cost hcost =>
          (hcosts cost hcost).2⟩

/-! ### A small installation -/

/-- A response that reports the given completion. -/
def sampleValue (completionTokens : UInt64) : Json :=
  .object [("usage", .object [("completion_tokens", Json.ofU64 completionTokens)])]

/-- The same as text. -/
def sampleBytes (completionTokens : UInt64) : Bytes :=
  ("\x7b\"usage\":\x7b\"completion_tokens\":" ++ completionTokens.toNat.repr ++
    "\x7d\x7d").toUTF8.data.toList

/-- An executor whose JSON library reads two such responses, and whose evaluator knows one
expression. -/
def sample : Executor where
  upstreamTimeout := 60
  streamingTimeout := 300
  codec :=
    { fromSlice := fun bytes =>
        if bytes = sampleBytes 50 then .ok (sampleValue 50)
        else if bytes = sampleBytes 600 then .ok (sampleValue 600)
        else .error "expected value at line 1 column 1"
      fromStr := fun _ => .error "expected value at line 1 column 1"
      toStr := fun _ => .ok "null"
      toVec := fun _ => .ok []
      display := fun _ => "null"
      toVec_ok := fun _ => ⟨[], rfl⟩ }
  evaluator := fun expr ctx =>
    if expr = "(c - 100) / 10000000" then .ok (.float ((ctx.c - 100.0) / 10000000.0))
    else .error "variable identifier not found"
  now := 0

def samplePricing : ChannelModelPricing :=
  ⟨.expression, 0.0, 0.0, 0.0, some "(c - 100) / 10000000"⟩

def sampleKey : RoutedKey :=
  ⟨⟨1, "ch-1", .openaiCompatible, "http://ch-1", "default"⟩,
    ⟨10, 1, "sk-10", none, .paid, 100, none, none, 0, none, .active⟩, "up-a", 100, 1⟩

def sampleContext : ExecutionContext := ⟨1, 7, "default", 7, "model-7"⟩

/-- An environment with one candidate, whose upstream answers with the given bytes. -/
def sampleServer (bytes : Bytes) : (q : ExecReq) → Db → q.Resp × Db
  | .selectKeys _, db => (.ok [⟨[sampleKey], by simp⟩], db)
  | .getChannelModelPricing _ _ _, db => (.ok (some samplePricing), db)
  | .billing q, db => q.answer "" db
  | .isAvailable _ _, db => (true, db)
  | .adaptorExecute _ _, db => (some (.ok (200, bytes)), db)
  | .adaptorExecuteStream _ _, db => (none, db)
  | .markCooldown _ _, db => ((), db)
  | .markDisabled _, db => ((), db)
  | .logUsage _, db => (.ok (), db)
  | .addKeyUsage _ _, db => (.ok (), db)
  | .addUsage _ _, db => ((), db)
  | .getSmallModelQuota _ _, db => (none, db)
  | .updateSmallModelQuota _ _ _ _, db => ((), db)
  | .addSmallModelUsage _ _ _ _, db => (.ok (), db)

theorem sampleServer_serves (bytes : Bytes) (q : ExecReq) (db : Db) :
    serves (fun _ _ _ => some samplePricing) q db (sampleServer bytes q db).1
      (sampleServer bytes q db).2 := by
  cases q with
  | billing q => exact ⟨"", rfl⟩
  | getChannelModelPricing modelId channelId upstream => exact ⟨rfl, rfl, rfl⟩
  | _ => exact ⟨rfl, rfl⟩

/-- The first `n` calls of an execution whose upstream reports the given completion. -/
def sampleRun (completionTokens : UInt64) (n : ℕ) :
    List ExecCall × ExecM (Except ExecutionFailure ExecutionResult) × Db :=
  drive (sampleServer (sampleBytes completionTokens)) n
    (sample.execute sampleContext .openAI (.object [])) .sample

theorem sampleRun_exec (completionTokens : UInt64) (n : ℕ) :
    Exec (serves fun _ _ _ => some samplePricing)
      (sample.execute sampleContext .openAI (.object [])) .sample (sampleRun completionTokens n).1
      (sampleRun completionTokens n).2.1 (sampleRun completionTokens n).2.2 :=
  drive_exec (sampleServer_serves _) n _ _

/-- An expression that passes validation and is positive at the estimate may be negative at the
actual usage. The user then keeps paying the estimate. -/
theorem negative_cost_kept :
    BillingExpr.validate sample.evaluator "(c - 100) / 10000000" = .ok () ∧
    ∃ t res db', Exec (serves fun _ _ _ => some samplePricing)
      (sample.execute sampleContext .openAI (.object [])) .sample t (.pure (.ok res)) db' ∧
      res.quotaCost = -5 ∧ ¬ChargedRight sampleContext .sample db' (.ok res) := by
  refine ⟨by decide +kernel, ?_⟩
  obtain ⟨r, hr⟩ := Option.isSome_iff_exists.mp
    (by decide +kernel : (sampleRun 50 20).2.1.answer?.isSome = true)
  have hcost : ((sampleRun 50 20).2.1.answer?.bind Except.toOption).map
      ExecutionResult.quotaCost = some (-5) := by decide +kernel
  have hused : ((sampleRun 50 20).2.2.users.find? 1).map (fun r => r.usedQuota) = some 50 := by
    decide +kernel
  have hbefore : (Db.sample.users.find? 1).map (fun r => r.usedQuota) = some 10 := by decide
  have hrun := sampleRun_exec 50 20
  rw [answer?_eq_some hr] at hrun
  rw [hr] at hcost
  match r with
  | .error e => cases hcost
  | .ok res =>
    have hcost : res.quotaCost = -5 := Option.some.inj hcost
    refine ⟨_, res, _, hrun, hcost, fun hright => ?_⟩
    obtain ⟨r₀, hr₀, h₀⟩ := Option.map_eq_some_iff.mp hbefore
    obtain ⟨r₁, hr₁, h₁⟩ := Option.map_eq_some_iff.mp hused
    have hright := hright.1
    rw [show sampleContext.userId = 1 from rfl, hr₀, hr₁] at hright
    cases hright with
    | some h =>
      have := h.used
      omega

theorem hasRoom_sample : Db.sample.HasRoom sampleContext := by
  have huser : ∀ row ∈ Db.sample.users.rows, IsI64 row.quota ∧ IsI64 row.usedQuota := by decide
  have htoken : ∀ row ∈ Db.sample.tokens.rows, IsI64 row.usedQuota ∧ IsI64 row.remainQuota ∧
      row.usedQuota + row.remainQuota < 2 ^ 63 := by decide
  exact ⟨fun row hrow => (huser row (Table.mem_of_find? hrow)).1,
    fun row hrow => (huser row (Table.mem_of_find? hrow)).2,
    fun row hrow => htoken row (Table.mem_of_find? hrow)⟩

/-- An execution whose response costs something. -/
theorem execute_chargedRight_sample :
    ∃ t r db', Exec (serves fun _ _ _ => some samplePricing)
      (sample.execute sampleContext .openAI (.object [])) .sample t (.pure r) db' ∧
      ChargedRight sampleContext .sample db' r := by
  obtain ⟨r, hr⟩ := Option.isSome_iff_exists.mp
    (by decide +kernel : (sampleRun 600 20).2.1.answer?.isSome = true)
  have hrun := sampleRun_exec 600 20
  rw [answer?_eq_some hr] at hrun
  refine ⟨_, r, _, hrun,
    (execute_chargedRight sample sampleContext _ _ _ (by decide) hasRoom_sample hrun).mpr ?_⟩
  have hcosts : sample.responseCosts sampleContext (fun _ _ _ => some samplePricing)
      (sampleRun 600 20).1 = [50] := by decide +kernel
  have husers : ∀ row ∈ Db.sample.users.rows, row.usedQuota + 50 < 2 ^ 63 := by decide
  rw [hcosts]
  intro cost hcost
  rw [List.mem_singleton.mp hcost]
  exact ⟨by decide, fun row hrow => husers row (Table.mem_of_find? hrow)⟩

end Executor

end Chennix
