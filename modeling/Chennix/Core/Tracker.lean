import Chennix.Core.Interface

/-!
# Usage tracking

What is written down about an attempt: a row of the usage log, the counters of the key and, for a
small model with a quota, the used amount. None of it is money, and its failures are only logged.

## Main definitions

* `Tracker.trackSuccess`, `Tracker.trackFailure` — after an attempt
* `accumulateSmallModelQuota` — the quota of a small model
-/

namespace Chennix

open Foundations Program

/-- Addition in 64 bits that stops at the bounds. -/
def saturatingAdd (a b : ℤ) : ℤ := max (-2 ^ 63) (min (a + b) (2 ^ 63 - 1))

/-- What a request adds to the quota: its tokens, or one. A request without tokens adds nothing. -/
def quotaDelta (unit : Option QuotaUnit) (usage : Usage) : Option ℤ :=
  match unit with
  | some .token =>
    let tokens := usage.totalTokens.toInt64.toInt
    if tokens = 0 then none else some tokens
  | some .call => some 1
  | none => none

/-- The used amount of a quota after a request, and its status. -/
def accumulated (used delta limit : ℤ) : ℤ × QuotaStatus :=
  let newUsed := saturatingAdd used delta
  (newUsed, if newUsed ≥ limit then .exhausted else .available)

/-- Add a request to the quota of its small model, in the cache and in the database. -/
def accumulateSmallModelQuota (channelId : ℤ) (upstreamModelName : String) (usage : Usage) :
    ExecM Unit := do
  match ← await (.getSmallModelQuota channelId upstreamModelName) with
  | none => return ()
  | some state =>
    match state.limit, quotaDelta state.unit usage with
    | some limit, some delta =>
      let (newUsed, status) := accumulated state.used delta limit
      let () ← await (.updateSmallModelQuota channelId upstreamModelName newUsed status)
      let _ ← await (.addSmallModelUsage channelId upstreamModelName delta status.asDbStr)
      return ()
    | _, _ => return ()

namespace Tracker

variable (ctx : ExecutionContext) (rk : RoutedKey)

/-- Record a success: the log, the durable and the runtime counter of the key, the small model. -/
def trackSuccess (usage : Usage) (quotaCost : ℤ) (requestType : String) :
    ExecM (ProxyResult Unit) := do
  let _ ← await (.logUsage ⟨ctx.userId, ctx.tokenId, rk.channel.id, rk.key.id, ctx.modelId,
    usage, quotaCost, requestType, "success", none⟩)
  let _ ← await (.addKeyUsage rk.key.id usage.totalTokens)
  let () ← await (.addUsage rk.key.id usage.totalTokens)
  accumulateSmallModelQuota rk.channel.id rk.upstreamModelName usage
  return .ok ()

/-- Record a failure: a row of the log without usage. -/
def trackFailure (requestType error : String) : ExecM (ProxyResult Unit) :=
  await (.logUsage ⟨ctx.userId, ctx.tokenId, rk.channel.id, rk.key.id, ctx.modelId,
    .zero, 0, requestType, "failed", some error⟩)

end Tracker

/-- The calls about the quota of a small model. -/
def ExecReq.OfSmallModel : ExecReq → Prop
  | getSmallModelQuota _ _ => True
  | updateSmallModelQuota _ _ _ _ => True
  | addSmallModelUsage _ _ _ _ => True
  | _ => False

theorem accumulateSmallModelQuota_calls (channelId : ℤ) (upstreamModelName : String)
    (usage : Usage) :
    Only ExecReq.OfSmallModel (accumulateSmallModelQuota channelId upstreamModelName usage) := by
  refine ⟨trivial, fun state => ?_⟩
  cases state with
  | none => trivial
  | some state =>
    show Only _ (match state.limit, quotaDelta state.unit usage with
      | some limit, some delta => _
      | _, _ => _)
    split
    · exact ⟨trivial, fun _ => ⟨trivial, fun _ => trivial⟩⟩
    · trivial

theorem ExecReq.OfSmallModel.quiet {q : ExecReq} (h : q.OfSmallModel) : q.Quiet := by
  cases q <;> first | exact h.elim | trivial

theorem Tracker.trackSuccess_quiet (ctx : ExecutionContext) (rk : RoutedKey) (usage : Usage)
    (quotaCost : ℤ) (requestType : String) :
    Only ExecReq.Quiet (trackSuccess ctx rk usage quotaCost requestType) :=
  ⟨trivial, fun _ => ⟨trivial, fun _ => ⟨trivial, fun _ =>
    ((accumulateSmallModelQuota_calls _ _ usage).mono fun _ hq => hq.quiet).bind fun _ => trivial⟩⟩⟩

end Chennix
