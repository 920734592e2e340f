import Chennix.Common.Types
import Chennix.Foundations.Table

/-!
# The database

The tables of the schema with the columns the program reads. A row carries its primary key, so
that two rows of one table never share it. Columns no function reads (creation times, the password
hash, the balance URL of a key) are left out; the update time of an account is kept, because a
rolled-back charge must restore it.

## Main definitions

* `UserRow`, `TokenRow` — the accounts
* `ModelRow`, `ModelChannelRow`, `DiscoveredModel` — models, their bindings, the small models
* `UsageLogRow` — the references a usage log holds
* `Db` — the tables together
-/

namespace Chennix

open Foundations

/-- A row of `users`. -/
structure UserRow extends UserConfig where
  updatedAt : String
  deriving DecidableEq, Repr

/-- A row of `tokens`. -/
structure TokenRow extends TokenConfig where
  updatedAt : String
  deriving DecidableEq, Repr

/-- A row of `models`. -/
structure ModelRow where
  id : ℤ
  canonicalName : String
  /-- `priority` or `load_balance`. -/
  routingStrategy : String
  deriving DecidableEq, Repr

/-- A row of `model_channels`: a binding of a model to an upstream model of a channel. -/
structure ModelChannelRow where
  modelId : ℤ
  channelId : ℤ
  upstreamModelName : String
  weight : ℤ
  billingType : ℤ
  inputPrice : Float
  outputPrice : Float
  callPrice : Float
  billingExpr : Option String
  priority : ℤ
  deriving DecidableEq, Repr

/-- A row of `discovered_models`: a small model, with its quota. -/
structure DiscoveredModel where
  id : ℤ
  channelId : ℤ
  rawModelName : String
  mergedToModelId : Option ℤ
  isFree : Bool
  source : Option String
  metadata : Option String
  /-- `none` for no limit. -/
  quotaLimit : Option ℤ
  /-- `token` or `call`. -/
  quotaUnit : Option String
  /-- `day`, `month` or `total`. -/
  quotaWindow : Option String
  usedQuota : ℤ
  lastResetAt : Option String
  /-- `available` or `exhausted`. -/
  quotaStatus : String
  deriving DecidableEq, Repr

/-- The foreign keys of a row of `usage_logs`. -/
structure UsageLogRow where
  id : ℤ
  channelId : ℤ
  keyId : ℤ
  modelId : ℤ
  userId : Option ℤ
  tokenId : Option ℤ
  deriving DecidableEq, Repr

instance : Keyed UserRow ℤ := ⟨fun r => r.id⟩
instance : Keyed TokenRow ℤ := ⟨fun r => r.id⟩
instance : Keyed ChannelConfig ℤ := ⟨fun r => r.id⟩
instance : Keyed KeyConfig ℤ := ⟨fun r => r.id⟩
instance : Keyed ModelRow ℤ := ⟨fun r => r.id⟩
instance : Keyed DiscoveredModel ℤ := ⟨fun r => r.id⟩
instance : Keyed UsageLogRow ℤ := ⟨fun r => r.id⟩
instance : Keyed ModelChannelRow (ℤ × ℤ × String) :=
  ⟨fun r => (r.modelId, r.channelId, r.upstreamModelName)⟩

/-- The database. -/
structure Db where
  users : Table UserRow := .empty
  tokens : Table TokenRow := .empty
  channels : Table ChannelConfig := .empty
  channelKeys : Table KeyConfig := .empty
  models : Table ModelRow := .empty
  modelChannels : Table ModelChannelRow := .empty
  discoveredModels : Table DiscoveredModel := .empty
  usageLogs : Table UsageLogRow := .empty
  deriving DecidableEq

end Chennix
