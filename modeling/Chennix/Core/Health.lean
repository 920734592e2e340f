import Chennix.Core.Cache
import Chennix.Foundations.Calendar
import Mathlib.Algebra.Group.Nat.Defs

/-!
# The health of keys and small models

What the server remembers while it runs: which keys are disabled, which are cooling down on which
upstream model, and how far the quota of each small model is used. Of the two persistent things,
disabled keys and used quotas, it takes what the database says when the server starts.

## Main definitions

* `KeyRuntimeState`, `SmallModelState`, `HealthManager` — what is remembered
* `HealthManager.isAvailable`, `HealthManager.isSmallModelAvailable` — what the router asks
* `HealthManager.markCooldown`, `HealthManager.markDisabled` — after a failed attempt
* `HealthManager.checkRecoveries` — what the background loop does

## Main results

* `HealthManager.isAvailable_of_disabled`, `HealthManager.isAvailable_of_free` — when a key is a
  candidate
-/

namespace Chennix

open Foundations Calendar

/-- The cooldown of a key on one upstream model. -/
structure CooldownEntry where
  cooldownUntil : Option Instant
  consecutiveFailures : ℕ
  deriving DecidableEq, Repr

/-- What is remembered of a key. -/
structure KeyRuntimeState where
  status : KeyStatus
  /-- By upstream model. -/
  cooldowns : Map String CooldownEntry
  usedQuotaThisPeriod : UInt64

namespace KeyRuntimeState

/-- A key that has not been seen before. -/
def new : KeyRuntimeState := ⟨.active, Map.empty, 0⟩

/-- The key may be used at all. The cooldown status is one that old databases hold. -/
def usable (s : KeyRuntimeState) : Bool := s.status == .active || s.status == .cooldown

/-- The key is cooling down on an upstream model. -/
def cooling (now : Instant) (upstream : String) (s : KeyRuntimeState) : Bool :=
  (s.cooldowns upstream).any fun entry => entry.cooldownUntil.any fun t => now < t

end KeyRuntimeState

/-- What is remembered of a small model. -/
structure SmallModelState where
  window : Option QuotaWindow
  /-- `none` for no limit. -/
  limit : Option ℤ
  used : ℤ
  lastResetAt : Option Instant
  status : QuotaStatus
  deriving DecidableEq, Repr

/-- The window of a quota has ended since its last reset. A quota that was never reset is due. -/
def periodRolled (window : QuotaWindow) (lastResetAt : Option Instant) (now : Instant) : Bool :=
  let date (t : Instant) := dateOf (Instant.seconds t)
  match window with
  | .total => false
  | .day => match lastResetAt with
    | none => true
    | some t => decide (date t ≠ date now)
  | .month => match lastResetAt with
    | none => true
    | some t => decide ((date t).year ≠ (date now).year ∨ (date t).month ≠ (date now).month)

namespace SmallModelState

/-- The quota has a window, and the window has ended. -/
def due (now : Instant) (s : SmallModelState) : Bool :=
  s.window.any fun window => periodRolled window s.lastResetAt now

/-- The state after a reset. -/
def reset (now : Instant) (s : SmallModelState) : SmallModelState :=
  { s with used := 0, status := .available, lastResetAt := some now }

/-- The small model may not be used: it has a limit, and the limit is reached. -/
def blocked (s : SmallModelState) : Bool := s.limit.isSome && s.status == .exhausted

end SmallModelState

/-- The longest cooldown, in seconds. -/
def maxCooldownSecs : ℤ := 1800

structure HealthManager where
  states : Map ℤ KeyRuntimeState
  smallModelStates : Map (ℤ × String) SmallModelState

namespace HealthManager

def new : HealthManager := ⟨Map.empty, Map.empty⟩

/-- What is remembered of a key, seen or not. -/
def stateOf (h : HealthManager) (keyId : ℤ) : KeyRuntimeState := (h.states keyId).getD .new

/-- Change what is remembered of a key. -/
def updateKey (keyId : ℤ) (f : KeyRuntimeState → KeyRuntimeState) (h : HealthManager) :
    HealthManager :=
  { h with states := h.states.insert keyId (f (h.stateOf keyId)) }

@[simp] theorem stateOf_updateKey (keyId : ℤ) (f : KeyRuntimeState → KeyRuntimeState)
    (h : HealthManager) : (h.updateKey keyId f).stateOf keyId = f (h.stateOf keyId) := by
  show ((h.states.insert keyId (f (h.stateOf keyId))) keyId).getD .new = _
  rw [Map.insert_self, Option.getD_some]

theorem stateOf_updateKey_of_ne {keyId keyId' : ℤ} (hne : keyId' ≠ keyId)
    (f : KeyRuntimeState → KeyRuntimeState) (h : HealthManager) :
    (h.updateKey keyId f).stateOf keyId' = h.stateOf keyId' := by
  show ((h.states.insert keyId (f (h.stateOf keyId))) keyId').getD .new = _
  rw [Map.insert_of_ne hne, stateOf]

@[simp] theorem smallModelStates_updateKey (keyId : ℤ) (f : KeyRuntimeState → KeyRuntimeState)
    (h : HealthManager) : (h.updateKey keyId f).smallModelStates = h.smallModelStates := rfl

/-- `load_disabled_from_db`, given the disabled keys. -/
def loadDisabled (ids : List ℤ) (h : HealthManager) : HealthManager :=
  ids.foldl (fun h id => h.updateKey id fun s => { s with status := .disabled }) h

/-- `is_available`, and `try_is_available` where the lock is free. -/
def isAvailable (now : Instant) (keyId : ℤ) (upstream : String) (h : HealthManager) : Bool :=
  match h.states keyId with
  | none => true
  | some s => s.usable && !s.cooling now upstream

theorem isAvailable_eq (now : Instant) (keyId : ℤ) (upstream : String) (h : HealthManager) :
    h.isAvailable now keyId upstream =
      ((h.stateOf keyId).usable && !(h.stateOf keyId).cooling now upstream) := by
  rw [isAvailable, stateOf]
  cases h.states keyId <;> rfl

theorem isAvailable_of_disabled {h : HealthManager} {keyId : ℤ}
    (hs : (h.stateOf keyId).usable = false) (now : Instant) (upstream : String) :
    h.isAvailable now keyId upstream = false := by
  rw [isAvailable_eq, hs, Bool.false_and]

theorem isAvailable_of_free {h : HealthManager} {keyId : ℤ} {now : Instant} {upstream : String}
    (hs : (h.stateOf keyId).usable = true) (hc : (h.stateOf keyId).cooling now upstream = false) :
    h.isAvailable now keyId upstream = true := by
  rw [isAvailable_eq, hs, hc]
  rfl

/-- How long the next cooldown lasts after so many failures in a row, in seconds. -/
def cooldownSecs (failures : ℕ) : ℤ := min (2 ^ min failures 31 : ℕ) maxCooldownSecs

/-- One more failure in 32 bits. -/
def nextFailures (failures : ℕ) : ℕ := min (failures + 1) (2 ^ 32 - 1)

def markCooldown (now : Instant) (keyId : ℤ) (upstream : String) (h : HealthManager) :
    HealthManager :=
  h.updateKey keyId fun s =>
    let failures := nextFailures ((s.cooldowns upstream).elim 0 CooldownEntry.consecutiveFailures)
    { s with
      cooldowns := s.cooldowns.insert upstream
        ⟨some (now + cooldownSecs failures * 1000000000), failures⟩ }

/-- `mark_disabled`, in memory. -/
def markDisabled (keyId : ℤ) (h : HealthManager) : HealthManager :=
  h.updateKey keyId fun s => { s with status := .disabled, cooldowns := Map.empty }

def addUsage (keyId : ℤ) (tokens : UInt64) (h : HealthManager) : HealthManager :=
  h.updateKey keyId fun s =>
    { s with usedQuotaThisPeriod :=
        .ofNat (min (s.usedQuotaThisPeriod.toNat + tokens.toNat) (2 ^ 64 - 1)) }

/-- `is_small_model_available`, where the lock is free. -/
def isSmallModelAvailable (channelId : ℤ) (upstream : String) (h : HealthManager) : Bool :=
  match h.smallModelStates (channelId, upstream) with
  | none => true
  | some s => s.limit.isNone || s.status == .available

/-- The router passes over a small model exactly when it is blocked. -/
theorem isSmallModelAvailable_eq (channelId : ℤ) (upstream : String) (h : HealthManager) :
    h.isSmallModelAvailable channelId upstream =
      !(h.smallModelStates (channelId, upstream)).any SmallModelState.blocked := by
  rw [isSmallModelAvailable]
  cases h.smallModelStates (channelId, upstream) with
  | none => rfl
  | some s =>
    show (s.limit.isNone || s.status == .available) = !(s.limit.isSome && s.status == .exhausted)
    cases s.limit <;> cases s.status <;> rfl

/-- Forget the cooldowns that are over. -/
def dropCooldowns (now : Instant) (h : HealthManager) : HealthManager :=
  { h with states := fun keyId => (h.states keyId).map fun s =>
      { s with cooldowns := fun upstream =>
          (s.cooldowns upstream).filter fun entry => entry.cooldownUntil.any fun t => now < t } }

/-- `check_small_model_quota_resets`, in memory. -/
def resetQuotas (now : Instant) (h : HealthManager) : HealthManager :=
  { h with smallModelStates := fun pair => (h.smallModelStates pair).map fun s =>
      if s.due now then s.reset now else s }

/-- The small models that a reset in memory concerns. -/
def resetDue (now : Instant) (pair : ℤ × String) (h : HealthManager) : Bool :=
  (h.smallModelStates pair).any (SmallModelState.due now)

/-- `check_recoveries`, in memory. -/
def checkRecoveries (now : Instant) (h : HealthManager) : HealthManager :=
  (h.dropCooldowns now).resetQuotas now

end HealthManager

end Chennix
