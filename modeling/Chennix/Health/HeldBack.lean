import Chennix.Access.Mediation

/-!
# Keys that are held back

A request looks a key up before each attempt, and then makes the attempt, whatever has been learned
of the key in between. So when a key turns out to be bad while many requests are running, some of
them may still ask it. Each does so once at most: an attempt is made on one look only, and the next
look will tell.

## Main definitions

* `asksWith`, `findsFree` — an attempt with a key, and a look that has found it available
* `Paced` — there are as many attempts as such looks, or one look more

## Main results

* `serveRequest_paced` — the requests
* `Site.asked_at_most_once` — requests of the site, while the key is held back
-/

namespace Chennix

open Foundations Program

/-! ### Attempts and looks -/

section Count

variable (keyId : ℤ) (upstream : String)

/-- The candidate is the key, for the model. -/
def RoutedKey.isOf (rk : RoutedKey) : Bool := rk.key.id == keyId && rk.upstreamModelName == upstream

/-- The call is an attempt with the key, for the model. -/
def asksWith (a : ExecCall) : Bool :=
  match a.1 with
  | .adaptorExecute rk _ => rk.isOf keyId upstream
  | .adaptorExecuteStream rk _ => rk.isOf keyId upstream
  | _ => false

/-- The call has found the key available, for the model. -/
def findsFree : ExecCall → Bool
  | ⟨.isAvailable k u, available⟩ => k == keyId && u == upstream && available
  | _ => false

/-- Attempts with the key. -/
def attemptsWith (t : List ExecCall) : ℕ := t.countP (asksWith keyId upstream)

/-- Looks that have found the key available. -/
def looksAt (t : List ExecCall) : ℕ := t.countP (findsFree keyId upstream)

/-- Every attempt is made on a look of its own, and one look may still be waiting for its
attempt. -/
structure Paced (t : List ExecCall) : Prop where
  lower : attemptsWith keyId upstream t ≤ looksAt keyId upstream t
  upper : looksAt keyId upstream t ≤ attemptsWith keyId upstream t + 1

/-- No look is waiting. -/
def Even (t : List ExecCall) : Prop := looksAt keyId upstream t = attemptsWith keyId upstream t

/-- The call is neither an attempt nor a look. -/
def ExecReq.Neutral : ExecReq → Prop
  | isAvailable _ _ => False
  | adaptorExecute _ _ => False
  | adaptorExecuteStream _ _ => False
  | _ => True

end Count

section Execution

variable {keyId : ℤ} {upstream : String} {ctx : ExecutionContext} {t : List ExecCall}

theorem attemptsWith_snoc (t : List ExecCall) (a : ExecCall) :
    attemptsWith keyId upstream (t ++ [a]) =
      attemptsWith keyId upstream t + if asksWith keyId upstream a then 1 else 0 := by
  rw [attemptsWith, List.countP_append, List.countP_singleton, attemptsWith]

theorem looksAt_snoc (t : List ExecCall) (a : ExecCall) :
    looksAt keyId upstream (t ++ [a]) =
      looksAt keyId upstream t + if findsFree keyId upstream a then 1 else 0 := by
  rw [looksAt, List.countP_append, List.countP_singleton, looksAt]

theorem Even.paced (h : Even keyId upstream t) : Paced keyId upstream t :=
  ⟨ge_of_eq h, h.le.trans (Nat.le_succ _)⟩

theorem Even.snoc (h : Even keyId upstream t) {q : ExecReq} (hq : q.Neutral) (r : q.Resp) :
    Even keyId upstream (t ++ [⟨q, r⟩]) := by
  have hneither : asksWith keyId upstream ⟨q, r⟩ = false ∧
      findsFree keyId upstream ⟨q, r⟩ = false := by
    cases q <;> first | exact hq.elim | exact ⟨rfl, rfl⟩
  rw [Even, looksAt_snoc, attemptsWith_snoc, hneither.1, hneither.2, h]

/-- Programs that make no attempt. -/
theorem Even.only (h : Even keyId upstream t) {α : Type} {p : ExecM α}
    (hp : p.Only ExecReq.Neutral) :
    Always (Paced keyId upstream) p (fun _ => Even keyId upstream) t :=
  Throughout.of_only (fun _ r _ _ _ hq _ h => h.snoc hq r) (fun _ _ h => h.paced) hp h

theorem CoversSuccess.neutral (ctx : ExecutionContext) : CoversSuccess ExecReq.Neutral ctx where
  pricing _ _ := trivial
  billing _ := trivial
  row _ _ _ := trivial
  counters q hq := by cases q <;> first | exact hq.elim | trivial

theorem CoversFailure.neutral (ctx : ExecutionContext) : CoversFailure ExecReq.Neutral ctx where
  billing _ := trivial
  failure _ _ := trivial
  cooldown _ _ := trivial
  disabled _ := trivial

/-- An exchange is one attempt, and nothing of the kind comes after it. -/
structure Exchange.Single {ε α : Type} (exchange : Exchange ε α) : Prop where
  send : ∀ rk reqBody, ∃ (q : ExecReq) (f : q.Resp → Option (ProxyResult ε)),
    (q = .adaptorExecute rk reqBody ∨ q = .adaptorExecuteStream rk reqBody) ∧
    exchange.send rk reqBody = .call q fun r => .pure (f r)
  succeed : ∀ rk provider reply attempted,
    (exchange.succeed rk provider reply attempted).Only ExecReq.Neutral

variable {ε α : Type} {session : BillingSession} {codec : Json.Codec} {entryFormat : EntryFormat}
  {body : Json} {exchange : Exchange ε α}

/-- What comes after the look that has found the key available. -/
theorem attemptAvailable_paced (hx : exchange.Single) (rk : RoutedKey) (p : Progress)
    (h : looksAt keyId upstream t =
      attemptsWith keyId upstream t + if rk.isOf keyId upstream then 1 else 0) :
    Always (Paced keyId upstream)
      (attemptAvailable ctx session rk codec entryFormat body exchange p)
      (fun _ => Even keyId upstream) t := by
  obtain ⟨out, hout⟩ := prepareRequest_ok codec entryFormat body rk.channel rk.upstreamModelName
  obtain ⟨q, f, hq, hsend⟩ := hx.send rk (swapModel out rk.upstreamModelName)
  have hpaced : Paced keyId upstream t := by
    split at h <;> constructor <;> omega
  have hasks : ∀ r, asksWith keyId upstream ⟨q, r⟩ = rk.isOf keyId upstream ∧
      findsFree keyId upstream ⟨q, r⟩ = false := by
    rcases hq with rfl | rfl <;> exact fun _ => ⟨rfl, rfl⟩
  simp only [attemptAvailable, hout, hsend]
  refine ⟨hpaced, fun r _ _ => ?_⟩
  have heven : Even keyId upstream (t ++ [⟨q, r⟩]) := by
    rw [Even, looksAt_snoc, attemptsWith_snoc, (hasks r).1, (hasks r).2, h]
    rfl
  show Always _ ((.pure (f r) : ExecM _) >>= _) _ _
  rw [pure_bind]
  cases f r with
  | none => exact heven.only (attemptTimedOut_only (.neutral ctx) rk _ _)
  | some reply =>
    cases reply with
    | error e => exact heven.only (attemptFailed_only (.neutral ctx) rk e _)
    | ok reply => exact heven.only ((hx.succeed rk _ reply _).bind fun _ => trivial)

/-- **An attempt** is made on a look of its own. -/
theorem attempt_paced (hx : exchange.Single) (rk : RoutedKey) (p : Progress)
    (h : Even keyId upstream t) :
    Always (Paced keyId upstream) (attempt ctx session rk codec entryFormat body exchange p)
      (fun _ => Even keyId upstream) t := by
  refine ⟨h.paced, fun available _ _ => ?_⟩
  have hlook : findsFree keyId upstream
      ⟨.isAvailable rk.key.id rk.upstreamModelName, available⟩ =
        (rk.isOf keyId upstream && available) := rfl
  cases available with
  | false =>
    show Even keyId upstream (t ++ [_])
    rw [Even, looksAt_snoc, attemptsWith_snoc, hlook, Bool.and_false, h]
    rfl
  | true =>
    refine attemptAvailable_paced hx rk p ?_
    rw [looksAt_snoc, attemptsWith_snoc, hlook, Bool.and_true, h]
    rfl

namespace Executor

variable {executor : Executor}

/-- **An execution**, given that its exchanges are single attempts. -/
theorem execution_paced
    {exchange : RoutedKey → Option ChannelModelPricing → BillingSession → Exchange ε α}
    (hx : ∀ first pricing session, (exchange first pricing session).Single)
    (h : Even keyId upstream t) :
    Always (Paced keyId upstream) (executor.execution ctx entryFormat body exchange)
      (fun _ => Even keyId upstream) t := by
  refine throughout_await h.paced fun routed _ _ => ?_
  have hrouted := h.snoc (q := .selectKeys ctx) trivial routed
  match routed with
  | .error e => exact hrouted
  | .ok [] => exact hrouted
  | .ok (binding :: bindings) =>
    refine throughout_await hrouted.paced fun pricing _ _ => ?_
    have hpriced := hrouted.snoc (q := .getChannelModelPricing ctx.modelId binding.first.channel.id
      binding.first.upstreamModelName) trivial pricing
    match pricing with
    | .error e => exact hpriced
    | .ok pricing =>
      refine Throughout.bind ((hpriced.only (billing_only (fun _ => trivial) _)).mono
        fun session t _ h => ?_)
      match session with
      | .error e => exact h
      | .ok session =>
        refine tryAll_attempts (I := fun t _ => Even keyId upstream t) (fun rk p t _ h => ?_)
          (fun failure t _ h => h.only (refundAndFail_only (.neutral ctx) failure)) _ h
        exact (attempt_paced (hx _ _ _) rk p h).mono fun flow _ _ h => by cases flow <;> exact h

theorem execute_paced (h : Even keyId upstream t) :
    Always (Paced keyId upstream) (executor.execute ctx entryFormat body)
      (fun _ => Even keyId upstream) t :=
  execution_paced (fun first pricing session => {
    send := fun rk reqBody => ⟨.adaptorExecute rk reqBody, fun r => r, .inl rfl, rfl⟩
    succeed := settleAndReturn_only (.neutral ctx) executor entryFormat session first pricing }) h

theorem executeStream_paced (h : Even keyId upstream t) :
    Always (Paced keyId upstream) (executor.executeStream ctx entryFormat body)
      (fun _ => Even keyId upstream) t :=
  execution_paced (fun first pricing _ => {
    send := fun rk reqBody => ⟨.adaptorExecuteStream rk reqBody, fun r => r, .inr rfl, rfl⟩
    succeed := fun rk _ _ _ =>
      (actualPricing_only (.neutral ctx) first pricing rk).bind fun _ => trivial }) h

end Executor

end Execution

/-! ### A request -/

section Request

variable {keyId : ℤ} {upstream : String} {executor : Executor} {r : Incoming}
  {t : List ProxyCall}

/-- An execution, inside a request. -/
theorem executing_paced {α : Type} {p : ExecM α}
    (h : Always (Paced keyId upstream) p (fun _ => Even keyId upstream) (execCalls t)) :
    Always (fun t => Paced keyId upstream (execCalls t)) (executing p)
      (fun _ t => Even keyId upstream (execCalls t)) t :=
  Always.embed execCall? (fun _ _ => rfl) h

/-- **Every attempt of a request** is made on a look of its own. -/
theorem serveRequest_paced :
    Always (fun t => Paced keyId upstream (execCalls t)) (serveRequest executor r)
      (fun _ t => Even keyId upstream (execCalls t)) [] := by
  have hother : ∀ (q : ProxyReq) reply t, q.Execs ExecReq.Neutral →
      Even keyId upstream (execCalls t) → Even keyId upstream (execCalls (t ++ [⟨q, reply⟩])) := by
    intro q reply t hq h
    rw [execCalls_append]
    cases q with
    | exec q => exact h.snoc hq reply
    | _ => exact (List.append_nil (execCalls t)).symm ▸ h
  exact serveRequest_always {
    holds := fun _ h => h.paced
    nil := rfl
    other := fun q reply t hq h =>
      hother q reply t (by cases q <;> first | exact hq.elim | trivial) h
    whole := fun _ _ _ _ h => executing_paced (Executor.execute_paced h)
    stream := fun _ _ _ _ h => executing_paced (Executor.executeStream_paced h)
    task := fun modelName model bootstrap _ h =>
      Throughout.of_only (fun q reply _ _ _ hq _ h => hother q reply _ hq h)
        (fun _ _ h => h.paced) (streamTask_only (.neutral _) modelName bootstrap) h }

end Request

/-! ### The site -/

namespace Site

variable {lib : ServerLibraries} {verify : String → String → Bool} {executor : Executor}
  {s₀ s₁ s s' : Site} {ls ms : List Label} {l : Label}

/-- **Invariants of requests**, wherever each of them has got to. -/
theorem always_run {φ J : List ProxyCall → Prop}
    (h : ∀ r, Always φ (serveRequest executor r) (fun _ => J) [])
    (h₀ : s₀.service.requests = []) (hrun : Machine.run (step lib verify executor) s₀ ls = some s) :
    ∀ r ∈ s.service.requests, Always φ r.rest (fun _ => J) r.trace := by
  refine Machine.run_invariant' (I := fun s : Site => ∀ r ∈ s.service.requests,
    Always φ r.rest (fun _ => J) r.trace) (fun s l s' hall hstep => ?_) hrun (by simp [h₀])
  rcases step_cases hstep with ⟨_, _, _, _, _, _, auth, -, -, hservice⟩ |
    ⟨i, chance, reply, -, hservice⟩ | hsame
  · exact Service.always_step h hall hservice
  · exact Service.always_step h hall hservice
  · rwa [hsame]

section Counts

variable (keyId : ℤ) (upstream : String)

/-- The key is held back, for the model. -/
def HoldsBack (s : Site) (_ : Label) : Prop :=
  s.service.app.health.isAvailable s.service.app.now keyId upstream = false

/-- Attempts of a request with the key. There are none before it has come. -/
def attempts (s : Site) (i : ℕ) : ℕ :=
  ((s.service.requests.map fun r => attemptsWith keyId upstream (execCalls r.trace))[i]?).getD 0

def looks (s : Site) (i : ℕ) : ℕ :=
  ((s.service.requests.map fun r => looksAt keyId upstream (execCalls r.trace))[i]?).getD 0

end Counts

variable {keyId : ℤ} {upstream : String}

instance (s : Site) (l : Label) : Decidable (s.HoldsBack keyId upstream l) :=
  inferInstanceAs (Decidable (_ = _))

/-- Looks and attempts of the requests that have come. -/
theorem paced (keyId : ℤ) (upstream : String) (h₀ : s₀.service.requests = [])
    (hrun : Machine.run (step lib verify executor) s₀ ls = some s) (i : ℕ) :
    s.attempts keyId upstream i ≤ s.looks keyId upstream i ∧
      s.looks keyId upstream i ≤ s.attempts keyId upstream i + 1 := by
  have hall : ∀ r ∈ s.service.requests, Always (fun t => Paced keyId upstream (execCalls t)) r.rest
      (fun _ t => Even keyId upstream (execCalls t)) r.trace :=
    always_run (fun _ => serveRequest_paced) h₀ hrun
  rw [attempts, looks, List.getElem?_map, List.getElem?_map]
  cases hr : s.service.requests[i]? with
  | none => exact ⟨le_rfl, Nat.zero_le 1⟩
  | some r =>
    have hpaced : Paced keyId upstream (execCalls r.trace) := by
      have hnow := hall r (List.mem_of_getElem? hr)
      cases hrest : r.rest with
      | pure out =>
        rw [hrest] at hnow
        exact Even.paced hnow
      | call q k =>
        rw [hrest] at hnow
        exact hnow.1
    exact ⟨hpaced.lower, hpaced.upper⟩

/-- While the key is held back, a call is no look that finds it available. -/
theorem looksAt_answer {chance : Chance} {reply : (q : ExecReq) → q.Resp}
    (hheld : s.HoldsBack keyId upstream l) (t : List ProxyCall) (q : ProxyReq) :
    looksAt keyId upstream
        (execCalls (t ++ [⟨q, (s.service.answer lib chance reply q).1⟩])) =
      looksAt keyId upstream (execCalls t) := by
  rw [execCalls_append]
  cases q with
  | exec q =>
    show looksAt keyId upstream (execCalls t ++ [⟨q, _⟩]) = _
    rw [looksAt_snoc]
    cases q with
    | isAvailable k u =>
      have hlook : findsFree keyId upstream ⟨.isAvailable k u,
          (s.service.answer lib chance reply (.exec (.isAvailable k u))).1⟩ = false := by
        show (k == keyId && u == upstream &&
          s.service.app.health.isAvailable s.service.app.now k u) = false
        by_cases hkey : k = keyId ∧ u = upstream
        · rw [hkey.1, hkey.2]
          exact (congrArg _ hheld).trans (Bool.and_false _)
        · rw [← Bool.not_eq_true, Bool.and_eq_true, Bool.and_eq_true, beq_iff_eq, beq_iff_eq]
          exact fun h => hkey h.1
      rw [hlook]
      rfl
    | _ => rfl
  | _ => exact congrArg _ (List.append_nil _)

/-- While the key is held back, no request finds it available. -/
theorem looks_step (hheld : s.HoldsBack keyId upstream l)
    (hstep : step lib verify executor s l = some s') (i : ℕ) :
    s'.looks keyId upstream i = s.looks keyId upstream i := by
  rcases step_cases hstep with ⟨_, _, _, _, _, _, auth, -, -, hservice⟩ |
    ⟨j, chance, reply, -, hservice⟩ | hsame
  · rw [looks, looks, ← Option.some.inj hservice, List.map_append, List.getElem?_append]
    split
    · rfl
    · rename_i hlate
      rw [List.getElem?_eq_none (not_lt.mp hlate), Option.getD_none]
      cases i - (s.service.requests.map fun r =>
        looksAt keyId upstream (execCalls r.trace)).length <;> rfl
  · obtain ⟨r, q, k, hr, hrest, hs'⟩ := Service.call_cases hservice
    rw [looks, looks, hs']
    show ((List.set _ _ _).map _)[i]?.getD 0 = _
    rw [Service.requests_answer, Slots.map_set_same hr]
    exact looksAt_answer hheld r.trace q
  · rw [looks, hsame, looks]

/-- **A key that is held back** is asked at most once more by each request that is open, and not at
all by those that come later: from any point of a run of the site on, and as long as the key is held
back at every step. -/
theorem asked_at_most_once (h₀ : s₀.service.requests = [])
    (hbefore : Machine.run (step lib verify executor) s₀ ls = some s₁)
    (hrun : Machine.run (step lib verify executor) s₁ ms = some s)
    (hheld : Machine.Along (step lib verify executor) (HoldsBack keyId upstream) s₁ ms) (i : ℕ) :
    s.attempts keyId upstream i ≤
      if i < s₁.service.requests.length then s₁.attempts keyId upstream i + 1 else 0 := by
  have hlooks : s.looks keyId upstream i = s₁.looks keyId upstream i :=
    Machine.run_invariant (I := fun s => s.looks keyId upstream i = s₁.looks keyId upstream i)
      (fun _ _ _ hheld h hstep => (looks_step hheld hstep i).trans h) hrun hheld rfl
  have hafter := paced keyId upstream h₀ (Machine.run_append.mpr ⟨s₁, hbefore, hrun⟩) i
  have hthen := paced keyId upstream h₀ hbefore i
  split
  · omega
  · rename_i hlate
    have hnone : s₁.looks keyId upstream i = 0 := by
      rw [looks, List.getElem?_eq_none (by simpa using hlate), Option.getD_none]
    omega

/-! ### A small site -/

/-- The next call of a request. The upstream refuses the key. -/
def refusedCall (i : ℕ) : Label :=
  .call i ⟨fun _ => 0, fun _ => 0⟩ fun q =>
    match q with
    | .adaptorExecute _ _ => some (.error (.upstream 401 "invalid key"))
    | q => (Executor.sampleServer [] q .sample).1

/-- Two requests come. The first has just found the key available when the second has it
disabled. -/
def disabledLabels : List Label :=
  let proxy : Label := .proxy { authorization := some "Bearer sk-1" } .openAI
    (.object [("model", .string "model-7")]) "req-2" 5 none
  sampleLabels.take 9 ++ [proxy] ++ List.replicate 6 (refusedCall 0) ++
    List.replicate 9 (refusedCall 1)

theorem asked_at_most_once_sample :
    ∃ s₁ s, Machine.run (step sampleLibraries samplePasswords Executor.sample) empty
        disabledLabels = some s₁ ∧
      Machine.run (step sampleLibraries samplePasswords Executor.sample) s₁ [refusedCall 0] =
        some s ∧
      0 < s.attempts 1 "up-a" 0 ∧ s.attempts 1 "up-a" 0 ≤
        if 0 < s₁.service.requests.length then s₁.attempts 1 "up-a" 0 + 1 else 0 := by
  have hruns : (Machine.run (step sampleLibraries samplePasswords Executor.sample) empty
      disabledLabels).any (fun s₁ => s₁.HoldsBack 1 "up-a" (refusedCall 0) ∧
        (Machine.run (step sampleLibraries samplePasswords Executor.sample) s₁
          [refusedCall 0]).any (fun s => 0 < s.attempts 1 "up-a" 0) = true) = true := by
    decide +kernel
  rw [Option.any_eq_true] at hruns
  obtain ⟨s₁, hbefore, hthen⟩ := hruns
  obtain ⟨hheld, hrun⟩ := of_decide_eq_true hthen
  rw [Option.any_eq_true] at hrun
  obtain ⟨s, hrun, hasked⟩ := hrun
  exact ⟨s₁, s, hbefore, hrun, of_decide_eq_true hasked,
    asked_at_most_once rfl hbefore hrun ⟨hheld, fun _ _ => trivial⟩ 0⟩

end Site

end Chennix
