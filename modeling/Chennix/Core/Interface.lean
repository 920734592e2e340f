import Chennix.Core.Billing
import Chennix.Core.Router
import Chennix.Foundations.Json

/-!
# What the executor calls

Everything an execution awaits, as one interface: routing and pricing from the cache, the billing
repository, the health of keys, the upstreams and the usage writer. An execution is a program over
it, so its suspension points are its calls.

## Main definitions

* `ExecReq` — the calls, with their replies
* `ExecM` — programs over them
* `billing` — the billing manager's operations inside an execution
-/

namespace Chennix

open Foundations

/-- What the authentication passes on. -/
structure ExecutionContext where
  userId : ℤ
  tokenId : ℤ
  userGroup : String
  modelId : ℤ
  canonicalName : String
  deriving DecidableEq, Repr

/-- One row for the usage log. -/
structure UsageEntry where
  userId : ℤ
  tokenId : ℤ
  channelId : ℤ
  keyId : ℤ
  modelId : ℤ
  usage : Usage
  quotaCost : ℤ
  requestType : String
  status : String
  error : Option String
  deriving DecidableEq, Repr

/-- A response that has begun: its status, and the chunks that are to come. -/
structure StreamResponse where
  status : ℕ
  chunks : List (Except String Bytes)

/-- The calls of an execution. -/
inductive ExecReq
  | selectKeys (ctx : ExecutionContext)
  | getChannelModelPricing (modelId channelId : ℤ) (upstream : String)
  | billing (q : BillingReq)
  | isAvailable (keyId : ℤ) (upstream : String)
  /-- Post the body to the candidate's channel, with its key, and await the response. -/
  | adaptorExecute (rk : RoutedKey) (body : Json)
  /-- The same, awaiting the beginning of the response only. -/
  | adaptorExecuteStream (rk : RoutedKey) (body : Json)
  | markCooldown (keyId : ℤ) (upstream : String)
  | markDisabled (keyId : ℤ)
  | logUsage (entry : UsageEntry)
  | addKeyUsage (keyId : ℤ) (tokens : UInt64)
  /-- The runtime counter of a key. -/
  | addUsage (keyId : ℤ) (tokens : UInt64)
  | getSmallModelQuota (channelId : ℤ) (upstream : String)
  | updateSmallModelQuota (channelId : ℤ) (upstream : String) (used : ℤ) (status : QuotaStatus)
  | addSmallModelUsage (channelId : ℤ) (upstream : String) (delta : ℤ) (quotaStatus : String)

namespace ExecReq

/-- What each call replies. An upstream that has not answered in time replies nothing. -/
@[reducible] def Resp : ExecReq → Type
  | selectKeys _ => ProxyResult (List Bucket)
  | getChannelModelPricing _ _ _ => ProxyResult (Option ChannelModelPricing)
  | billing q => q.Resp
  | isAvailable _ _ => Bool
  | adaptorExecute _ _ => Option (ProxyResult (ℕ × Bytes))
  | adaptorExecuteStream _ _ => Option (ProxyResult StreamResponse)
  | markCooldown _ _ => Unit
  | markDisabled _ => Unit
  | logUsage _ => ProxyResult Unit
  | addKeyUsage _ _ => ProxyResult Unit
  | addUsage _ _ => Unit
  | getSmallModelQuota _ _ => Option QuotaState
  | updateSmallModelQuota _ _ _ _ => Unit
  | addSmallModelUsage _ _ _ _ => ProxyResult Unit

/-- The call neither moves quota nor brings a response. -/
def Quiet : ExecReq → Prop
  | billing _ => False
  | adaptorExecute _ _ => False
  | _ => True

end ExecReq

/-- Programs of an execution. -/
abbrev ExecM (α : Type) : Type := Program ExecReq ExecReq.Resp α

/-- A call of an execution with its reply. -/
abbrev ExecCall : Type := Answered ExecReq ExecReq.Resp

/-- Await one call. -/
def await (q : ExecReq) : ExecM q.Resp := .perform q

@[simp] theorem await_bind {α : Type} (q : ExecReq) (f : q.Resp → ExecM α) :
    await q >>= f = .call q f := rfl

/-- One call, and whatever follows its reply. -/
theorem throughout_await {α σ : Type} {H : Handler ExecReq ExecReq.Resp σ}
    {φ : List ExecCall → σ → Prop} {q : ExecReq} {f : q.Resp → ExecM α}
    {post : α → List ExecCall → σ → Prop} {t : List ExecCall} {s : σ} (h : φ t s)
    (hf : ∀ r s', H q s r s' → Program.Throughout H φ (f r) post (t ++ [⟨q, r⟩]) s') :
    Program.Throughout H φ (await q >>= f) post t s :=
  ⟨h, hf⟩

/-- An operation of the billing manager, inside an execution. -/
def billing {α : Type} (p : BillingM α) : ExecM α := p.embed .billing fun _ r => r

/-- The billing call among the calls of an execution. -/
def billingCall? : ExecCall → Option BillingCall
  | ⟨.billing q, r⟩ => some ⟨q, r⟩
  | _ => none

/-- The billing calls of a trace. -/
def billingCalls (t : List ExecCall) : List BillingCall := t.filterMap billingCall?

theorem billingCalls_append (t t' : List ExecCall) :
    billingCalls (t ++ t') = billingCalls t ++ billingCalls t' :=
  List.filterMap_append

theorem billingCalls_snoc_none {a : ExecCall} (ha : billingCall? a = none) (t : List ExecCall) :
    billingCalls (t ++ [a]) = billingCalls t := by
  rw [billingCalls_append, billingCalls, billingCalls, List.filterMap_cons, ha]
  exact List.append_nil _

theorem billingCalls_quiet {q : ExecReq} (hq : q.Quiet) (r : q.Resp) (t : List ExecCall) :
    billingCalls (t ++ [⟨q, r⟩]) = billingCalls t := by
  refine billingCalls_snoc_none ?_ t
  cases q with
  | billing q => exact hq.elim
  | _ => rfl

end Chennix
