import Chennix.Core.Executor
import Chennix.Foundations.Rounding
import Chennix.Streaming.Totals

/-!
# Token counts that do not fit

Token counts are 64-bit numbers that come from outside: the completion that a client allows, and the
usage that an upstream reports. While a request is served they are added up in a few places, and
nowhere is it made sure that they can be. Serving a request is given here as a debug build does it,
where an addition that overflows ends it, and it is said for which requests and answers none does.

## Main definitions

* `Serving` — a request, and what its upstream answers
* `Executor.serve`, `Executor.serveChecked` — what is made of it, by either build
* `Executor.CountsFit` — the counts that are added have sums

## Main results

* `Executor.serveChecked_isSome_iff` — no addition overflows exactly where the counts have sums
* `Executor.counts_overflow` — a completion limit and a usage without one
-/

namespace Chennix

open Foundations Json

/-! ### Prices -/

namespace BillingExpr

variable (evaluator : Evaluator)

/-- What `eval` makes of a value. -/
def readValue : Except String Value → ProxyResult Float
  | .error e => .error (.config ("billing expr eval failed: " ++ e))
  | .ok (.float f) => .ok f
  | .ok (.int i) => .ok (Float64.ofI64 i)
  | .ok (.other debug) => .error (.config ("billing expr must return number, got " ++ debug))

/-- `eval` with its addition checked. -/
def evalChecked (expr : String) (promptTokens completionTokens : UInt64) :
    Option (ProxyResult Float) := do
  let total ← checkedAdd promptTokens completionTokens
  return readValue (evaluator expr
    ⟨promptTokens.toFloat, completionTokens.toFloat, total.toFloat⟩)

theorem eval_eq (expr : String) (promptTokens completionTokens : UInt64) :
    eval evaluator expr promptTokens completionTokens = readValue (evaluator expr
      ⟨promptTokens.toFloat, completionTokens.toFloat,
        (promptTokens + completionTokens).toFloat⟩) := by
  unfold eval readValue
  rfl

theorem checks_eval (expr : String) (promptTokens completionTokens : UInt64) :
    Checks (promptTokens.toNat + completionTokens.toNat < 2 ^ 64)
      (eval evaluator expr promptTokens completionTokens)
      (evalChecked evaluator expr promptTokens completionTokens) := by
  rw [eval_eq]
  exact (checks_add promptTokens completionTokens).map fun total => readValue (evaluator expr
    ⟨promptTokens.toFloat, completionTokens.toFloat, total.toFloat⟩)

end BillingExpr

/-- The pricing is configured, and is an expression. -/
def ByExpression (pricing : Option ChannelModelPricing) : Prop :=
  ∃ p ∈ pricing.filter ChannelModelPricing.isConfigured, p.billingType = .expression

section Prices

variable (evaluator : BillingExpr.Evaluator)

/-- `expressionCost` with its addition checked. -/
def expressionCostChecked (p : ChannelModelPricing) (promptTokens completionTokens : UInt64) :
    Option ℤ := do
  match ← BillingExpr.evalChecked evaluator (p.billingExpr.getD "0") promptTokens
      completionTokens with
  | .ok v => return Float64.roundToI64 (v * Float64.ofI64 quotaPerYuan)
  | .error _ => return 0

/-- `estimateCost` with its addition checked. -/
def estimateCostChecked (pricing : Option ChannelModelPricing) (maxTokens : Option UInt64) :
    Option ℤ :=
  let assumedPrompt : Float := 500.0
  let assumedCompletion := (maxTokens.getD 500).toFloat
  match pricing.filter ChannelModelPricing.isConfigured with
  | none => some 0
  | some p =>
    let scale := Float64.ofI64 quotaPerYuan
    match p.billingType with
    | .token =>
      let cost := (assumedPrompt / 1000.0) * p.inputPrice +
        (assumedCompletion / 1000.0) * p.outputPrice
      some (Float64.roundToI64 (cost * scale))
    | .perCall => some (Float64.roundToI64 (p.callPrice * scale))
    | .expression => expressionCostChecked evaluator p (Float64.toU64 assumedPrompt)
        (Float64.toU64 assumedCompletion)

/-- `actualCost` with its addition checked. -/
def actualCostChecked (usage : Usage) (pricing : Option ChannelModelPricing) : Option ℤ :=
  match pricing.filter ChannelModelPricing.isConfigured with
  | none => some 0
  | some p =>
    let scale := Float64.ofI64 quotaPerYuan
    match p.billingType with
    | .token =>
      let inputCost := (usage.promptTokens.toFloat / 1000.0) * p.inputPrice
      let outputCost := (usage.completionTokens.toFloat / 1000.0) * p.outputPrice
      some (Float64.roundToI64 ((inputCost + outputCost) * scale))
    | .perCall => some (Float64.roundToI64 (p.callPrice * scale))
    | .expression => expressionCostChecked evaluator p usage.promptTokens usage.completionTokens

theorem checks_expressionCost (p : ChannelModelPricing) (promptTokens completionTokens : UInt64) :
    Checks (promptTokens.toNat + completionTokens.toNat < 2 ^ 64)
      (expressionCost evaluator p promptTokens completionTokens)
      (expressionCostChecked evaluator p promptTokens completionTokens) := by
  refine Checks.congr (Checks.bind (Q := True) (BillingExpr.checks_eval evaluator
    (p.billingExpr.getD "0") promptTokens completionTokens) fun _ => ?_) (iff_of_eq (and_true _))
  rw [expressionCost]
  cases BillingExpr.eval evaluator (p.billingExpr.getD "0") promptTokens completionTokens with
  | ok v => exact Checks.pure _
  | error e => exact Checks.pure _

theorem byExpression_iff {pricing : Option ChannelModelPricing} {p : ChannelModelPricing}
    (h : pricing.filter ChannelModelPricing.isConfigured = some p) :
    ByExpression pricing ↔ p.billingType = .expression := by
  simp [ByExpression, h]

theorem checks_actualCost (usage : Usage) (pricing : Option ChannelModelPricing) :
    Checks (ByExpression pricing → usage.Fits) (actualCost evaluator usage pricing)
      (actualCostChecked evaluator usage pricing) := by
  unfold actualCost actualCostChecked
  cases hp : pricing.filter ChannelModelPricing.isConfigured with
  | none => exact (Checks.pure 0).congr (by simp [ByExpression, hp])
  | some p =>
    rw [byExpression_iff hp]
    cases hbilling : p.billingType with
    | token => simpa [hbilling] using Checks.pure _
    | perCall => simpa [hbilling] using Checks.pure _
    | expression =>
      have hcost := checks_expressionCost evaluator p usage.promptTokens usage.completionTokens
      simpa [hbilling, Usage.Fits] using hcost

/-- The estimate adds 500 to what the client allows, rounded to a float and back. -/
theorem checks_estimateCost (pricing : Option ChannelModelPricing) (maxTokens : Option UInt64) :
    Checks (ByExpression pricing → ∀ n ∈ maxTokens, n.toNat < 2 ^ 64 - 1024)
      (estimateCost evaluator pricing maxTokens)
      (estimateCostChecked evaluator pricing maxTokens) := by
  unfold estimateCost estimateCostChecked
  cases hp : pricing.filter ChannelModelPricing.isConfigured with
  | none => exact (Checks.pure 0).congr (by simp [ByExpression, hp])
  | some p =>
    rw [byExpression_iff hp]
    cases hbilling : p.billingType with
    | token => simpa only [hbilling] using (Checks.pure _).congr (by simp)
    | perCall => simpa only [hbilling] using (Checks.pure _).congr (by simp)
    | expression =>
      have hprompt : (Float64.toU64 500.0).toNat = 500 := by decide +kernel
      have hcost := checks_expressionCost evaluator p (Float64.toU64 500.0)
        (Float64.toU64 (maxTokens.getD 500).toFloat)
      have hadd := Float64.toU64_toFloat_add (n := maxTokens.getD 500) (c := 500) (by decide)
        (by decide)
      rw [hprompt, Nat.add_comm, hadd] at hcost
      simp only [hbilling]
      refine hcost.congr ?_
      cases maxTokens with
      | none => simp
      | some n => simp

end Prices

/-! ### Whole responses -/

/-- `extractUsageFromResponse` with its addition checked. -/
def extractUsageFromResponseChecked (body : Json) (adaptorProvider : ChannelProvider) :
    Option Usage :=
  let tokens (k : String) : UInt64 := ((body.get "usage").bind (·.getU64 k)).getD 0
  match adaptorProvider with
  | .openaiCompatible =>
    some ⟨tokens "prompt_tokens", tokens "completion_tokens", tokens "total_tokens"⟩
  | .anthropic => do
    let input := tokens "input_tokens"
    let output := tokens "output_tokens"
    let total ← checkedAdd input output
    return ⟨input, output, total⟩

/-- `claudeToOpenaiResponse`, which adds up the usage before it builds the response. -/
def O2C.claudeToOpenaiResponseChecked (codec : Codec) (created : UInt64) (body : Json) :
    Option (ProxyResult Json) := do
  let usage := body.getD "usage" (.object [])
  let inputTokens := (usage.getU64 "input_tokens").getD 0
  let outputTokens := (usage.getU64 "output_tokens").getD 0
  let _totalTokens ← checkedAdd inputTokens outputTokens
  return O2C.claudeToOpenaiResponse codec created body

/-- `translateResponseBack` with its addition checked. -/
def translateResponseBackChecked (codec : Codec) (now : UInt64) (entryFormat : EntryFormat)
    (adaptorProvider : ChannelProvider) (body : Json) : Option (ProxyResult Json) :=
  match entryFormat, adaptorProvider with
  | .openAI, .openaiCompatible => some (.ok body)
  | .claude, .anthropic => some (.ok body)
  | .openAI, .anthropic => O2C.claudeToOpenaiResponseChecked codec now body
  | .claude, .openaiCompatible => some (C2O.openaiToClaudeResponse codec body)

/-- `finalBody` with its addition checked. -/
def finalBodyChecked (codec : Codec) (now : UInt64) (entryFormat : EntryFormat)
    (adaptorProvider : ChannelProvider) (bytes : Bytes) (value : Json) :
    Option (ProxyResult Bytes) :=
  if adaptorProvider = entryFormat.provider then some (.ok bytes)
  else do
    let translated ← translateResponseBackChecked codec now entryFormat adaptorProvider value
    return translated.bind fun t => (codec.toVec t).mapError .json

theorem checks_extractUsageFromResponse (body : Json) (adaptorProvider : ChannelProvider) :
    Checks (adaptorProvider = .anthropic → (extractUsageFromResponse body adaptorProvider).Fits)
      (extractUsageFromResponse body adaptorProvider)
      (extractUsageFromResponseChecked body adaptorProvider) := by
  cases adaptorProvider with
  | openaiCompatible => exact (Checks.pure _).congr (by simp)
  | anthropic =>
    let tokens (k : String) : UInt64 := ((body.get "usage").bind (·.getU64 k)).getD 0
    have htotal := (checks_add (tokens "input_tokens") (tokens "output_tokens")).map
      fun total => Usage.mk (tokens "input_tokens") (tokens "output_tokens") total
    exact htotal.congr (by simp [extractUsageFromResponse, Usage.Fits, tokens])

/-- The translation adds what the usage of a Claude response adds. -/
theorem checks_finalBody (codec : Codec) (now : UInt64) (entryFormat : EntryFormat)
    (adaptorProvider : ChannelProvider) (bytes : Bytes) (value : Json)
    (h : adaptorProvider = .anthropic → (extractUsageFromResponse value adaptorProvider).Fits) :
    Checks True (finalBody codec now entryFormat adaptorProvider bytes value)
      (finalBodyChecked codec now entryFormat adaptorProvider bytes value) := by
  unfold finalBody finalBodyChecked
  split
  · exact Checks.pure _
  · suffices htranslate : Checks True
        (translateResponseBack codec now entryFormat adaptorProvider value)
        (translateResponseBackChecked codec now entryFormat adaptorProvider value) from
      htranslate.map fun translated => translated.bind fun t => (codec.toVec t).mapError .json
    cases adaptorProvider with
    | openaiCompatible => cases entryFormat <;> exact Checks.pure _
    | anthropic =>
      cases entryFormat with
      | claude => exact Checks.pure _
      | openAI =>
        let usage := value.getD "usage" (.object [])
        let input := (usage.getU64 "input_tokens").getD 0
        let output := (usage.getU64 "output_tokens").getD 0
        have hcounts : (extractUsageFromResponse value .anthropic).promptTokens = input ∧
            (extractUsageFromResponse value .anthropic).completionTokens = output := by
          simp only [extractUsageFromResponse, input, output, usage, getD]
          cases value.get "usage" <;> exact ⟨rfl, rfl⟩
        have hfits : input.toNat + output.toNat < 2 ^ 64 := by
          rw [← hcounts.1, ← hcounts.2]
          exact h rfl
        exact ((checks_add input output).map fun _ =>
          O2C.claudeToOpenaiResponse codec now value).congr (iff_of_true hfits trivial)

/-! ### Serving a request -/

/-- What an upstream answers in the end. -/
inductive UpstreamAnswer
  | whole (bytes : Bytes)
  /-- As far as it is read: up to an error of the connection, or the end of the client. -/
  | stream (chunks : List Bytes)

/-- A request, with the pricings that are looked up for it, and its answer, if there is one. -/
structure Serving where
  entryFormat : EntryFormat
  body : Json
  /-- Of the first candidate. -/
  modelPricing : Option ChannelModelPricing
  /-- Of the candidate that answers. -/
  actualPricing : Option ChannelModelPricing
  adaptorProvider : ChannelProvider
  answer : Option UpstreamAnswer

/-- What is made of an answer. -/
structure ServedAnswer where
  usage : Usage
  cost : ℤ
  sent : List (ProxyResult Bytes)

namespace Executor

variable (self : Executor)

def usageOfChecked (adaptorProvider : ChannelProvider) (bytes : Bytes) : Option Usage :=
  extractUsageFromResponseChecked ((self.codec.fromSlice bytes).toOption.getD .null)
    adaptorProvider

/-- From an answer to what is sent and what it costs. -/
def outcome (entryFormat : EntryFormat) (adaptorProvider : ChannelProvider)
    (pricing : Option ChannelModelPricing) : UpstreamAnswer → ServedAnswer
  | .whole bytes =>
    let usage := self.usageOf adaptorProvider bytes
    ⟨usage, actualCost self.evaluator usage pricing,
      [finalBody self.codec self.now entryFormat adaptorProvider bytes
        ((self.codec.fromSlice bytes).toOption.getD .null)]⟩
  | .stream chunks =>
    let (sent, usage) := streamSseResponse self.codec entryFormat adaptorProvider self.now chunks
    ⟨usage, actualCost self.evaluator usage pricing, sent⟩

/-- The estimated cost of a request, and what is made of the answer to it. -/
def serve (x : Serving) : ℤ × Option ServedAnswer :=
  (estimateCost self.evaluator x.modelPricing (extractMaxTokens x.body x.entryFormat),
    x.answer.map (self.outcome x.entryFormat x.adaptorProvider x.actualPricing))

/-- `outcome` in a debug build. -/
def outcomeChecked (entryFormat : EntryFormat) (adaptorProvider : ChannelProvider)
    (pricing : Option ChannelModelPricing) : UpstreamAnswer → Option ServedAnswer
  | .whole bytes => do
    let usage ← self.usageOfChecked adaptorProvider bytes
    let cost ← actualCostChecked self.evaluator usage pricing
    let body ← finalBodyChecked self.codec self.now entryFormat adaptorProvider bytes
      ((self.codec.fromSlice bytes).toOption.getD .null)
    return ⟨usage, cost, [body]⟩
  | .stream chunks => do
    let (sent, usage) ← streamSseResponseChecked self.codec entryFormat adaptorProvider self.now
      chunks
    let cost ← actualCostChecked self.evaluator usage pricing
    return ⟨usage, cost, sent⟩

/-- `serve` in a debug build. -/
def serveChecked (x : Serving) : Option (ℤ × Option ServedAnswer) := do
  let estimated ← estimateCostChecked self.evaluator x.modelPricing
    (extractMaxTokens x.body x.entryFormat)
  match x.answer with
  | none => return (estimated, none)
  | some answer => do
    let outcome ← self.outcomeChecked x.entryFormat x.adaptorProvider x.actualPricing answer
    return (estimated, some outcome)

/-- The counts in an answer have the sums that are made of them. -/
def AnswerFits (entryFormat : EntryFormat) (adaptorProvider : ChannelProvider)
    (pricing : Option ChannelModelPricing) : UpstreamAnswer → Prop
  | .whole bytes =>
    adaptorProvider = .anthropic ∨ ByExpression pricing → (self.usageOf adaptorProvider bytes).Fits
  | .stream chunks =>
    let t := StreamTranslation.pick entryFormat adaptorProvider self.now
    let usages := usagesRead self.codec adaptorProvider t chunks
    CountsAddUp adaptorProvider .zero usages ∧ t.TotalsFit self.codec chunks ∧
      (ByExpression pricing → (usages.map fun usage => usage.promptTokens.toNat).sum +
        (usages.map fun usage => usage.completionTokens.toNat).sum < 2 ^ 64)

/-- The counts of a request and of its answer have the sums that are made of them: the limit of the
completion leaves room for the 500 tokens that the prompt is taken for. -/
structure CountsFit (executor : Executor) (x : Serving) : Prop where
  limit : ByExpression x.modelPricing → ∀ n ∈ extractMaxTokens x.body x.entryFormat,
    n.toNat < 2 ^ 64 - 1024
  answer : ∀ answer ∈ x.answer,
    executor.AnswerFits x.entryFormat x.adaptorProvider x.actualPricing answer

theorem checks_outcome (entryFormat : EntryFormat) (adaptorProvider : ChannelProvider)
    (pricing : Option ChannelModelPricing) (answer : UpstreamAnswer) :
    Checks (self.AnswerFits entryFormat adaptorProvider pricing answer)
      (self.outcome entryFormat adaptorProvider pricing answer)
      (self.outcomeChecked entryFormat adaptorProvider pricing answer) := by
  cases answer with
  | whole bytes =>
    refine Checks.congr (Checks.bind (checks_extractUsageFromResponse _ adaptorProvider)
      fun husage => Checks.bind (checks_actualCost self.evaluator _ pricing) fun _ =>
        Checks.bind (Q := True) (checks_finalBody _ _ _ _ _ _ husage) fun _ => Checks.pure _) ?_
    rw [and_true, and_true, ← or_imp]
    rfl
  | stream chunks =>
    let t := StreamTranslation.pick entryFormat adaptorProvider self.now
    have hrelay := @checks_relayChunks self.codec adaptorProvider chunks
      .zero t
    refine Checks.congr (Checks.bind hrelay fun _ => Checks.map
      (checks_actualCost self.evaluator _ pricing) fun cost => ServedAnswer.mk _ cost _) ?_
    rw [and_assoc]
    refine and_congr_right fun hcounts => and_congr_right fun _ => imp_congr_right fun _ => ?_
    obtain ⟨hprompt, hcompletion⟩ := relayChunks_toNat chunks hcounts
    rw [Usage.Fits, hprompt, hcompletion]
    simp [Usage.zero, t]

/-- A debug build makes the same of a request, where it makes something of it. -/
theorem checks_serve (x : Serving) :
    Checks (self.CountsFit x) (self.serve x) (self.serveChecked x) := by
  have hestimate := checks_estimateCost self.evaluator x.modelPricing
    (extractMaxTokens x.body x.entryFormat)
  unfold serve serveChecked
  cases hanswer : x.answer with
  | none =>
    refine (hestimate.map fun estimated => (estimated, none)).congr ⟨fun h => ⟨h, ?_⟩, (·.limit)⟩
    rw [hanswer]
    exact nofun
  | some answer =>
    have houtcome := self.checks_outcome x.entryFormat x.adaptorProvider x.actualPricing answer
    refine (hestimate.bind fun _ => houtcome.map fun outcome => (_, some outcome)).congr ?_
    refine ⟨fun h => ⟨h.1, ?_⟩, fun h => ⟨h.limit, h.answer answer hanswer⟩⟩
    rw [hanswer]
    rintro _ ⟨⟩
    exact h.2

/-- **When no addition overflows** while a request is served. -/
theorem serveChecked_isSome_iff (x : Serving) : (self.serveChecked x).isSome ↔ self.CountsFit x :=
  (self.checks_serve x).isSome_iff

/-! ### Counts without a sum -/

/-- An executor that reads the same response everywhere, with a usage that has no total. -/
def atLimit : Executor where
  upstreamTimeout := 60
  streamingTimeout := 60
  codec :=
    { fromSlice := fun _ => .ok (ofMembers [("usage", ofMembers
        [("input_tokens", ofU64 18446744073709551615), ("output_tokens", ofU64 1)])])
      fromStr := fun _ => .error "no text"
      toStr := fun _ => .ok "0"
      toVec := fun _ => .ok [0x30]
      display := fun _ => "0"
      toVec_ok := fun _ => ⟨[0x30], rfl⟩ }
  evaluator := fun _ _ => .ok (.int 0)
  now := 0

/-- The client allows as many tokens as it can, and the model is priced by an expression. -/
def limitless : Serving where
  entryFormat := .openAI
  body := ofMembers [("max_tokens", ofU64 18446744073709551615)]
  modelPricing := some ⟨.expression, 0, 0, 0, some "p + c"⟩
  actualPricing := none
  adaptorProvider := .openaiCompatible
  answer := none

/-- A free model, and a Claude upstream that answers with a usage that has no total. -/
def excessive : Serving where
  entryFormat := .claude
  body := ofMembers []
  modelPricing := none
  actualPricing := none
  adaptorProvider := .anthropic
  answer := some (.whole [])

/-- Neither request is served by a debug build. -/
theorem counts_overflow :
    atLimit.serveChecked limitless = none ∧ atLimit.serveChecked excessive = none := by
  constructor
  · refine (atLimit.checks_serve limitless).eq_none fun h => ?_
    have hexpression : ByExpression limitless.modelPricing :=
      ⟨⟨.expression, 0, 0, 0, some "p + c"⟩, by decide, rfl⟩
    exact absurd (h.limit hexpression 18446744073709551615 (by decide)) (by decide)
  · refine (atLimit.checks_serve excessive).eq_none fun h => ?_
    exact absurd (h.answer _ rfl (.inl rfl)) (by unfold Usage.Fits; decide)

end Executor

end Chennix
