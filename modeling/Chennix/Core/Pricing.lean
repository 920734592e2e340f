import Chennix.Common.Types
import Chennix.Foundations.Float64
import Chennix.Foundations.Json
import Chennix.Foundations.Text

/-!
# What a request costs

Pricing expressions, the cost estimated before a request and the cost computed from the usage its
response reports. Prices are in yuan and costs in millionths of a yuan.

The evaluator of expressions is a library of its own; everything here is stated over any.

## Main definitions

* `BillingExpr.eval`, `BillingExpr.validate` — pricing expressions
* `ChannelModelPricing.isConfigured` — whether a binding costs anything
* `estimateCost`, `actualCost` — the cost before and after
* `extractMaxTokens`, `extractUsageFromResponse` — what they are computed from
-/

namespace Chennix

open Foundations

/-- The wire format the client speaks. -/
inductive EntryFormat
  | openAI
  | claude
  deriving DecidableEq, Repr

def EntryFormat.provider : EntryFormat → ChannelProvider
  | .openAI => .openaiCompatible
  | .claude => .anthropic

/-- Micro-yuan in a yuan. -/
def quotaPerYuan : Int64 := 1000000

namespace BillingExpr

/-- The value of an expression. -/
inductive Value
  | float (x : Float)
  | int (n : Int64)
  /-- Neither kind of number, shown as a text. -/
  | other (debug : String)
  deriving DecidableEq, Repr

/-- The variables of an expression. -/
structure Context where
  p : Float
  c : Float
  total : Float

/-- The evaluator: the value of an expression, or the text of an error. -/
abbrev Evaluator : Type := String → Context → Except String Value

variable (evaluator : Evaluator)

/-- `billing_expr::eval`. -/
def eval (expr : String) (promptTokens completionTokens : UInt64) : ProxyResult Float :=
  let ctx : Context := ⟨promptTokens.toFloat, completionTokens.toFloat,
    (promptTokens + completionTokens).toFloat⟩
  match evaluator expr ctx with
  | .error e => .error (.config ("billing expr eval failed: " ++ e))
  | .ok (.float f) => .ok f
  | .ok (.int i) => .ok (Float64.ofI64 i)
  | .ok (.other debug) => .error (.config ("billing expr must return number, got " ++ debug))

/-- `billing_expr::validate`: the check before an expression is saved, on three samples. -/
def validate (expr : String) : ProxyResult Unit := do
  if Text.isBlank expr then
    throw (.config "billing expr is empty")
  let _ ← eval evaluator expr 100 50
  let _ ← eval evaluator expr 0 0
  let _ ← eval evaluator expr 10000 5000
  return ()

end BillingExpr

namespace ChannelModelPricing

/-- A pricing that is not configured is free of charge. -/
def isConfigured (p : ChannelModelPricing) : Bool :=
  match p.billingType with
  | .token => p.inputPrice > 0 || p.outputPrice > 0
  | .perCall => p.callPrice > 0
  | .expression => (p.billingExpr.map fun s => !Text.isBlank s).getD false

end ChannelModelPricing

variable (evaluator : BillingExpr.Evaluator)

/-- The value of the pricing expression, in micro-yuan. An expression that fails costs nothing. -/
def expressionCost (p : ChannelModelPricing) (promptTokens completionTokens : UInt64) : ℤ :=
  match BillingExpr.eval evaluator (p.billingExpr.getD "0") promptTokens completionTokens with
  | .ok v => Float64.roundToI64 (v * Float64.ofI64 quotaPerYuan)
  | .error _ => 0

/-- The cost before the request: 500 prompt tokens and the completion the client allows. -/
def estimateCost (pricing : Option ChannelModelPricing) (maxTokens : Option UInt64) : ℤ :=
  let assumedPrompt : Float := 500.0
  let assumedCompletion := (maxTokens.getD 500).toFloat
  match pricing.filter ChannelModelPricing.isConfigured with
  | none => 0
  | some p =>
    let scale := Float64.ofI64 quotaPerYuan
    match p.billingType with
    | .token =>
      let cost := (assumedPrompt / 1000.0) * p.inputPrice +
        (assumedCompletion / 1000.0) * p.outputPrice
      Float64.roundToI64 (cost * scale)
    | .perCall => Float64.roundToI64 (p.callPrice * scale)
    | .expression => expressionCost evaluator p (Float64.toU64 assumedPrompt)
        (Float64.toU64 assumedCompletion)

/-- The cost of the usage a response reports. -/
def actualCost (usage : Usage) (pricing : Option ChannelModelPricing) : ℤ :=
  match pricing.filter ChannelModelPricing.isConfigured with
  | none => 0
  | some p =>
    let scale := Float64.ofI64 quotaPerYuan
    match p.billingType with
    | .token =>
      let inputCost := (usage.promptTokens.toFloat / 1000.0) * p.inputPrice
      let outputCost := (usage.completionTokens.toFloat / 1000.0) * p.outputPrice
      Float64.roundToI64 ((inputCost + outputCost) * scale)
    | .perCall => Float64.roundToI64 (p.callPrice * scale)
    | .expression => expressionCost evaluator p usage.promptTokens usage.completionTokens

/-- The completion the client allows, if it says so. -/
def extractMaxTokens (body : Json) (entryFormat : EntryFormat) : Option UInt64 :=
  let val := match entryFormat with
    | .openAI => (body.get "max_completion_tokens").or (body.get "max_tokens")
    | .claude => body.get "max_tokens"
  (val.bind Json.asU64).filter (· > 0)

/-- The usage a response reports, in the words of its provider. -/
def extractUsageFromResponse (body : Json) (adaptorProvider : ChannelProvider) : Usage :=
  let tokens (k : String) : UInt64 := ((body.get "usage").bind (·.getU64 k)).getD 0
  match adaptorProvider with
  | .openaiCompatible =>
    ⟨tokens "prompt_tokens", tokens "completion_tokens", tokens "total_tokens"⟩
  | .anthropic =>
    ⟨tokens "input_tokens", tokens "output_tokens",
      tokens "input_tokens" + tokens "output_tokens"⟩

end Chennix
