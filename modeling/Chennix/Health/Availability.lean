import Chennix.Health.History

/-!
# Availability

Whether a key is available for an upstream model is decided by what has been done to it: the status
it was given last, and the last cooldown that was not ended by disabling or restoring the key. That
entries are created late and swept early makes no difference.

## Main results

* `Past.availability` — a key is available when its past says so, and who is left alone by what
-/

namespace Chennix

open Foundations Calendar

namespace Past

variable {past : Past} {now t : Instant} {keyId : ℤ} {upstream : String}

/-- The last status a key was given lets it be used. -/
def Usable (keyId : ℤ) (past : Past) : Prop :=
  past.lastStatus keyId ≠ .disabled ∧ past.lastStatus keyId ≠ .quotaExhausted

/-- The past ends before a time. -/
def Before (past : Past) (t : Instant) : Prop := ∀ e ∈ past, e.1 ≤ t

instance : Decidable (past.Usable keyId) := inferInstanceAs (Decidable (_ ∧ _))

instance : Decidable (past.Before t) := inferInstanceAs (Decidable (∀ e ∈ past, e.1 ≤ t))

theorem Before.tail {e : Instant × HealthOp} (h : Before (e :: past) t) : past.Before t :=
  fun e' he' => h e' (List.mem_cons_of_mem e he')

theorem Before.head {op : HealthOp} (h : Before ((now, op) :: past) t) : now ≤ t :=
  h _ List.mem_cons_self

/-- A row of cooldowns that has ended is over. -/
theorem windowEnd_le (hbefore : past.Before t) (hzero : (past.cooling keyId upstream).streak = 0) :
    ∀ w ∈ (past.cooling keyId upstream).windowEnd, w ≤ t := by
  induction past with
  | nil =>
    intro w hw
    cases hw
  | cons e past ih =>
    obtain ⟨now, op⟩ := e
    rw [cooling] at hzero ⊢
    rcases Cooling.after_cases now keyId upstream op (cooling keyId upstream past) with
      ⟨_, h⟩ | ⟨_, _, h⟩ | ⟨_, _, _, hover, h⟩ | ⟨_, _, h⟩
    · rw [h]
      intro w hw
      cases hw
    · rw [h] at hzero
      exact absurd hzero (Nat.succ_ne_zero _)
    · rw [h]
      intro w hw
      exact (hover w hw).trans hbefore.head
    · rw [h] at hzero ⊢
      exact ih hbefore.tail hzero

theorem usable_health : (past.health.stateOf keyId).usable = true ↔ past.Usable keyId := by
  rw [KeyRuntimeState.usable, status_health, Usable]
  cases past.lastStatus keyId <;> decide

/-- The entry of a pair that was put in cooldown is in force until the window ends. -/
theorem cooling_health (hbefore : past.Before t) :
    (past.health.stateOf keyId).cooling t upstream = false ↔
      ∀ w ∈ (past.cooling keyId upstream).windowEnd, w ≤ t := by
  rw [KeyRuntimeState.cooling, cooldowns_health, Cooling.entry]
  by_cases hzero : (past.cooling keyId upstream).streak = 0
  · rw [if_pos hzero]
    exact iff_of_true rfl (windowEnd_le hbefore hzero)
  · rw [if_neg hzero, Option.any_some]
    cases (past.cooling keyId upstream).windowEnd with
    | none => exact iff_of_true rfl fun _ hw => by cases hw
    | some w => simp

/-- **Availability is history**: a key is available when its past says so. -/
theorem isAvailable_iff (hbefore : past.Before t) :
    past.health.isAvailable t keyId upstream = true ↔
      past.Usable keyId ∧ ∀ w ∈ (past.cooling keyId upstream).windowEnd, w ≤ t := by
  rw [HealthManager.isAvailable_eq, Bool.and_eq_true, Bool.not_eq_true', usable_health,
    cooling_health hbefore]

end Past

namespace HealthOp

variable {h : HealthManager} {now t : Instant} {keyId keyId' : ℤ} {upstream upstream' : String}

/-- A cooldown concerns one pair. -/
theorem isAvailable_markCooldown (hne : (keyId', upstream') ≠ (keyId, upstream)) :
    ((markCooldown keyId upstream).apply now h).isAvailable t keyId' upstream' =
      h.isAvailable t keyId' upstream' := by
  rw [HealthManager.isAvailable_eq, HealthManager.isAvailable_eq, stateOf_apply, effect]
  by_cases hk : keyId = keyId'
  · subst hk
    have hu : upstream' ≠ upstream := fun heq => hne (by rw [heq])
    rw [if_pos rfl, KeyRuntimeState.cooling, KeyRuntimeState.cooling]
    simp only [Map.insert_of_ne hu]
    rfl
  · rw [if_neg hk]

theorem isAvailable_addUsage (tokens : UInt64) :
    ((addUsage keyId tokens).apply now h).isAvailable t keyId' upstream' =
      h.isAvailable t keyId' upstream' := by
  rw [HealthManager.isAvailable_eq, HealthManager.isAvailable_eq, stateOf_apply, effect]
  split <;> rfl

/-- A sweep removes what is over. -/
theorem isAvailable_checkRecoveries (hle : now ≤ t) :
    (checkRecoveries.apply now h).isAvailable t keyId upstream =
      h.isAvailable t keyId upstream := by
  have hcooling : ((checkRecoveries.effect now keyId (h.stateOf keyId)).cooling t upstream) =
      (h.stateOf keyId).cooling t upstream := by
    show ((((h.stateOf keyId).cooldowns upstream).filter _).any _) =
      (((h.stateOf keyId).cooldowns upstream).any _)
    cases (h.stateOf keyId).cooldowns upstream with
    | none => rfl
    | some entry =>
      rw [Option.filter_some]
      cases hswept : entry.cooldownUntil.any fun w => now < w
      · -- What is over at the sweep is over later.
        rw [if_neg Bool.false_ne_true, Option.any_none, Option.any_some]
        cases hend : entry.cooldownUntil with
        | none => rfl
        | some w =>
          rw [hend, Option.any_some, decide_eq_false_iff_not, not_lt] at hswept
          exact (decide_eq_false (hswept.trans hle).not_gt).symm
      · rw [if_pos rfl]
  rw [HealthManager.isAvailable_eq, HealthManager.isAvailable_eq, stateOf_apply, hcooling]
  rfl

end HealthOp

namespace Past

variable {past : Past} {now : Instant}

/-- **Availability follows the history.** A key is available for an upstream model exactly if the
status it was given last lets it be used, and the window of the last cooldown of the pair, if no
disabling or restoring has ended it, does not reach past the time. A cooldown leaves the other pairs
alone; counting usage and sweeping leave all pairs alone. -/
theorem availability (hbefore : past.Before now) :
    (∀ keyId upstream, past.health.isAvailable now keyId upstream = true ↔
      past.Usable keyId ∧ ∀ w ∈ (past.cooling keyId upstream).windowEnd, w ≤ now) ∧
    (∀ keyId upstream keyId' upstream', (keyId', upstream') ≠ (keyId, upstream) → ∀ t, now ≤ t →
      (Past.health ((now, .markCooldown keyId upstream) :: past)).isAvailable t keyId' upstream' =
        past.health.isAvailable t keyId' upstream') ∧
    (∀ keyId tokens keyId' upstream' t, now ≤ t →
      (Past.health ((now, .addUsage keyId tokens) :: past)).isAvailable t keyId' upstream' =
        past.health.isAvailable t keyId' upstream') ∧
    ∀ keyId' upstream' t, now ≤ t →
      (Past.health ((now, .checkRecoveries) :: past)).isAvailable t keyId' upstream' =
        past.health.isAvailable t keyId' upstream' :=
  ⟨fun _ _ => isAvailable_iff hbefore,
    fun _ _ _ _ hne _ _ => HealthOp.isAvailable_markCooldown hne,
    fun _ tokens _ _ _ _ => HealthOp.isAvailable_addUsage tokens,
    fun _ _ _ hle => HealthOp.isAvailable_checkRecoveries hle⟩

/-- A key is disabled and restored, fails once and is swept before its cooldown is over. -/
def samplePast : Past :=
  [(2000000000, .checkRecoveries), (1000000000, .markCooldown 1 "small"),
    (0, .restoreDisabled [1]), (0, .markDisabled 1)]

/-- The cooldown of two seconds is not over after one, and concerns one upstream model. -/
theorem availability_sample : samplePast.health.isAvailable 2000000000 1 "small" = false ∧
    samplePast.health.isAvailable 2000000000 1 "large" = true := by
  have hbefore : samplePast.Before 2000000000 := by decide
  constructor
  · rw [← Bool.not_eq_true, (availability hbefore).1]
    exact fun h => absurd (h.2 3000000000 (by decide)) (by decide)
  · refine ((availability hbefore).1 1 "large").mpr ⟨by decide, fun w hw => ?_⟩
    exact absurd hw (Option.not_mem_none w)

end Past

end Chennix
