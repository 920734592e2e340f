import Chennix.Common.Types
import Chennix.Foundations.Map
import Chennix.Foundations.Text

/-!
# The cached configuration

A snapshot of the configuration that requests are served from. It is loaded when a request finds
none and dropped when an administrator changes something.

## Main definitions

* `RoutingStrategy`, `QuotaUnit`, `QuotaWindow`, `QuotaStatus` — settings stored as text
* `QuotaState`, `Binding` — a small model's quota, a model's binding to a channel
* `CacheData` — the snapshot, with its lookups
-/

namespace Chennix

open Foundations

/-- The order in which the bindings of a model are tried. -/
inductive RoutingStrategy
  | priority
  | loadBalance
  deriving DecidableEq, Repr

def RoutingStrategy.fromDbStr (s : String) : RoutingStrategy :=
  match Text.trim s with
  | "load_balance" => .loadBalance
  | _ => .priority

/-- What the quota of a small model counts. -/
inductive QuotaUnit
  | token
  | call
  deriving DecidableEq, Repr

def QuotaUnit.fromDbStr (s : String) : Option QuotaUnit :=
  match Text.trim s with
  | "token" => some .token
  | "call" => some .call
  | _ => none

/-- After what time the quota of a small model starts anew. -/
inductive QuotaWindow
  | day
  | month
  | total
  deriving DecidableEq, Repr

def QuotaWindow.fromDbStr (s : String) : Option QuotaWindow :=
  match Text.trim s with
  | "day" => some .day
  | "month" => some .month
  | "total" => some .total
  | _ => none

inductive QuotaStatus
  | available
  | exhausted
  deriving DecidableEq, Repr

namespace QuotaStatus

def fromDbStr (s : String) : QuotaStatus :=
  match Text.trim s with
  | "exhausted" => .exhausted
  | _ => .available

def asDbStr : QuotaStatus → String
  | .available => "available"
  | .exhausted => "exhausted"

theorem fromDbStr_asDbStr (s : QuotaStatus) : fromDbStr s.asDbStr = s := by
  cases s <;> rfl

end QuotaStatus

/-- The quota of a small model, a pair of a channel and an upstream model. -/
structure QuotaState where
  /-- `none` for unlimited. -/
  limit : Option ℤ
  unit : Option QuotaUnit
  window : Option QuotaWindow
  used : ℤ
  lastResetAt : Option String
  status : QuotaStatus
  deriving DecidableEq, Repr

/-- One binding of a model to an upstream model of a channel. -/
structure Binding where
  channelId : ℤ
  upstreamModelName : String
  /-- Lower is tried first. -/
  priority : ℤ
  weight : ℤ
  deriving DecidableEq, Repr

/-- The snapshot. -/
structure CacheData where
  channels : List ChannelConfig
  /-- The keys of each channel. -/
  keys : Map ℤ (List KeyConfig)
  /-- The bindings of each model. -/
  bindings : Map ℤ (List Binding)
  /-- The pricing of each binding: model, channel, upstream model. -/
  channelModelPricing : Map (ℤ × ℤ × String) ChannelModelPricing
  routingStrategy : Map ℤ RoutingStrategy
  smallModelQuota : Map (ℤ × String) QuotaState

namespace CacheData

def bindingsFor (d : CacheData) (modelId : ℤ) : Option (List Binding) := d.bindings modelId

def channel (d : CacheData) (channelId : ℤ) : Option ChannelConfig :=
  d.channels.find? fun c => c.id == channelId

def keysFor (d : CacheData) (channelId : ℤ) : Option (List KeyConfig) := d.keys channelId

def pricingFor (d : CacheData) (modelId channelId : ℤ) (upstream : String) :
    Option ChannelModelPricing :=
  d.channelModelPricing (modelId, channelId, upstream)

def routingStrategyFor (d : CacheData) (modelId : ℤ) : RoutingStrategy :=
  (d.routingStrategy modelId).getD .priority

def smallModelQuotaFor (d : CacheData) (channelId : ℤ) (upstream : String) : Option QuotaState :=
  d.smallModelQuota (channelId, upstream)

/-- `update_small_model_quota`: the used amount and the status of a small model that is there. -/
def updateSmallModelQuota (channelId : ℤ) (upstream : String) (used : ℤ) (status : QuotaStatus)
    (d : CacheData) : CacheData :=
  { d with smallModelQuota := d.smallModelQuota.modify (channelId, upstream) fun state =>
      { state with used := used, status := status } }

end CacheData

/-- What the router is given of a binding: channel, keys, upstream model, priority, weight. -/
abbrev BoundChannel : Type := ChannelConfig × List KeyConfig × String × ℤ × ℤ

/-- `get_for_model`, on a snapshot: the bound channels that exist and have keys. -/
def CacheData.getForModel (d : CacheData) (modelId : ℤ) : List BoundChannel :=
  ((d.bindingsFor modelId).getD []).filterMap fun b =>
    (d.channel b.channelId).bind fun channel =>
      let keys := (d.keysFor b.channelId).getD []
      if keys = [] then none
      else some (channel, keys, b.upstreamModelName, b.priority, b.weight)

end Chennix
