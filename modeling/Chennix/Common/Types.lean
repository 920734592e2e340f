import Mathlib.Data.Int.Notation
import Mathlib.Data.Nat.Notation

/-!
# The records every layer shares

The data types and the error type of the common crate. Quota amounts, row identifiers and
priorities are integers; the counters an upstream reports are machine words, whose addition
wraps; prices are binary64 numbers, as in the source.

## Main definitions

* `ProxyError`, `ProxyResult` — the errors of the proxy and the answers of its functions
* `Usage`, `Usage.add` — reported token counts and their accumulation
* `ChannelConfig`, `KeyConfig`, `UserConfig`, `TokenConfig` — configured rows
* `ChannelModelPricing` — what a binding costs
-/

namespace Chennix

/-- A point in time, in seconds. -/
abbrev Timestamp : Type := ℤ

/-- The errors of the proxy. Errors of other libraries are carried as their text. -/
inductive ProxyError
  | clientAuthFailed
  | modelNotFound (model : String)
  | allKeysDisabled (model : String)
  | allKeysCooldown (model : String) (earliestRecovery : Option Timestamp)
  | allKeysQuotaExhausted (model : String)
  | allKeysExhausted (model : String) (attemptedKeys : List String) (lastError : Option String)
  | upstream (status : ℕ) (body : String)
  | invalidRequest (msg : String)
  | translator (msg : String)
  | storage (msg : String)
  | config (msg : String)
  | io (msg : String)
  | json (msg : String)
  | http (msg : String)
  | upstreamTimeout (seconds : ℕ)
  deriving DecidableEq, Repr

/-- The answer of a fallible function. -/
abbrev ProxyResult (α : Type) : Type := Except ProxyError α

namespace ProxyError

/-- Whether another key may be tried. -/
def isRetryable : ProxyError → Bool
  | .upstream status _ => status == 429 || (500 ≤ status && status < 600)
  | .upstreamTimeout _ => true
  | _ => false

/-- Whether the upstream refused the key itself. -/
def isFatal : ProxyError → Bool
  | .upstream status _ => status == 401 || status == 403
  | _ => false

/-- Whether the request, not the key, is at fault. -/
def isInvalidRequest : ProxyError → Bool
  | .upstream status _ => status == 400 || status == 422
  | .invalidRequest _ => true
  | _ => false

end ProxyError

/-- Which protocol a channel's upstream speaks. -/
inductive ChannelProvider
  | openaiCompatible
  | anthropic
  deriving DecidableEq, Repr

/-- Whether the use of a key costs money. -/
inductive CostTier
  | free
  | paid
  deriving DecidableEq, Repr

/-- The status of a key. -/
inductive KeyStatus
  | active
  | cooldown
  | disabled
  | quotaExhausted
  deriving DecidableEq, Repr

/-- Token counts as an upstream reports them. -/
structure Usage where
  promptTokens : UInt64
  completionTokens : UInt64
  totalTokens : UInt64
  deriving DecidableEq, Repr

namespace Usage

/-- `Usage::default()`. -/
def zero : Usage := ⟨0, 0, 0⟩

/-- Componentwise addition, in machine arithmetic. -/
def add (self other : Usage) : Usage :=
  ⟨self.promptTokens + other.promptTokens, self.completionTokens + other.completionTokens,
    self.totalTokens + other.totalTokens⟩

@[simp] theorem zero_add (u : Usage) : zero.add u = u := by
  cases u; simp [zero, add]

@[simp] theorem add_zero (u : Usage) : u.add zero = u := by
  cases u; simp [zero, add]

end Usage

/-- A channel: an upstream service with its address. -/
structure ChannelConfig where
  id : ℤ
  name : String
  provider : ChannelProvider
  baseUrl : String
  /-- Comma-separated user groups that may use the channel. -/
  group : String
  deriving DecidableEq, Repr

/-- A key of a channel. -/
structure KeyConfig where
  id : ℤ
  channelId : ℤ
  apiKey : String
  label : Option String
  costTier : CostTier
  keyPriority : ℤ
  pricePer1kTokens : Option Float
  freeQuota : Option UInt64
  usedQuota : UInt64
  quotaResetPeriod : Option String
  status : KeyStatus
  deriving DecidableEq, Repr

/-- How a binding is billed. -/
inductive BillingType
  | token
  | perCall
  | expression
  deriving DecidableEq, Repr

/-- The pricing of one binding, in yuan. -/
structure ChannelModelPricing where
  billingType : BillingType
  /-- Yuan per thousand prompt tokens. -/
  inputPrice : Float
  /-- Yuan per thousand completion tokens. -/
  outputPrice : Float
  /-- Yuan per call. -/
  callPrice : Float
  /-- The pricing expression, whose value is in yuan. -/
  billingExpr : Option String
  deriving DecidableEq, Repr

/-- A user: `quota - used_quota` is the balance. -/
structure UserConfig where
  id : ℤ
  username : String
  /-- 1 common, 10 admin, 100 root. -/
  role : ℤ
  /-- 1 enabled, 2 disabled. -/
  status : ℤ
  quota : ℤ
  usedQuota : ℤ
  group : String
  deriving DecidableEq, Repr

/-- A client token with its own budget. -/
structure TokenConfig where
  id : ℤ
  userId : ℤ
  key : String
  name : Option String
  remainQuota : ℤ
  usedQuota : ℤ
  unlimitedQuota : Bool
  /-- -1 for never. -/
  expiredTime : ℤ
  modelLimitsEnabled : Bool
  modelLimits : Option (List String)
  /-- 1 enabled, 2 disabled, 3 exhausted. -/
  status : ℤ
  allowIps : Option (List String)
  deriving DecidableEq, Repr

end Chennix
