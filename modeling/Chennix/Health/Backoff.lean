import Chennix.Health.Availability

/-!
# Backoff

Every failure of a key on an upstream model opens a window in which the key is not used for it. The
windows of a row of failures get longer, up to half an hour. A sweep ends the row if its last window
is over.

## Main definitions

* `Past.entry` — the cooldown of a pair that is remembered
* `Past.marksSince` — how often the pair was put in cooldown since the entry was created

## Main results

* `Past.backoff` — how long a window is, that none is cut short, and when an entry goes
-/

namespace Chennix

open Foundations Calendar

namespace Past

variable {past : Past} {now : Instant} {op : HealthOp} {keyId : ℤ} {upstream : String}

/-- The cooldown of a pair that is remembered. -/
def entry (keyId : ℤ) (upstream : String) (past : Past) : Option CooldownEntry :=
  (past.health.stateOf keyId).cooldowns upstream

/-- How often the pair was put in cooldown since its entry was created. -/
def marksSince (keyId : ℤ) (upstream : String) : Past → ℕ
  | [] => 0
  | e :: past =>
    if (entry keyId upstream (e :: past)).isNone then 0
    else if e.2.marks keyId upstream then marksSince keyId upstream past + 1
    else marksSince keyId upstream past

theorem entry_eq (past : Past) (keyId : ℤ) (upstream : String) :
    past.entry keyId upstream = (past.cooling keyId upstream).entry :=
  cooldowns_health past keyId upstream

theorem isNone_entry (c : Cooling) : c.entry.isNone = true ↔ c.streak = 0 := by
  rw [Cooling.entry]
  split
  · rename_i hzero
    exact iff_of_true rfl hzero
  · rename_i hne
    exact iff_of_false Bool.false_ne_true hne

/-- The marks since the entry was created are a row. -/
theorem marksSince_eq (past : Past) (keyId : ℤ) (upstream : String) :
    past.marksSince keyId upstream = (past.cooling keyId upstream).streak := by
  induction past with
  | nil => rfl
  | cons e past ih =>
    rw [marksSince, entry_eq]
    by_cases hzero : (cooling keyId upstream (e :: past)).streak = 0
    · rw [if_pos ((isNone_entry _).mpr hzero), hzero]
    · rw [if_neg fun h => hzero ((isNone_entry _).mp h), ih]
      obtain ⟨now, op⟩ := e
      rw [cooling] at hzero ⊢
      rcases Cooling.after_cases now keyId upstream op (cooling keyId upstream past) with
        ⟨_, h⟩ | ⟨_, hm, h⟩ | ⟨_, _, _, _, h⟩ | ⟨_, hm, h⟩
      · rw [h] at hzero
        exact absurd rfl hzero
      · rw [h, if_pos hm]
      · rw [h] at hzero
        exact absurd rfl hzero
      · rw [h, if_neg (ne_true_of_eq_false hm)]

/-- A row that goes on has opened its window when it was marked last. -/
theorem exists_windowEnd (hbefore : past.Before now)
    (hrow : (past.cooling keyId upstream).streak ≠ 0) :
    ∃ t ≤ now, (past.cooling keyId upstream).windowEnd =
      some (t + Cooling.seconds (past.cooling keyId upstream).streak * 1000000000) := by
  induction past with
  | nil => exact absurd rfl hrow
  | cons e past ih =>
    obtain ⟨t, op⟩ := e
    rw [cooling] at hrow ⊢
    rcases Cooling.after_cases t keyId upstream op (cooling keyId upstream past) with
      ⟨_, h⟩ | ⟨_, _, h⟩ | ⟨_, _, _, _, h⟩ | ⟨_, _, h⟩
    · rw [h] at hrow
      exact absurd rfl hrow
    · rw [h]
      exact ⟨t, hbefore.head, rfl⟩
    · rw [h] at hrow
      exact absurd rfl hrow
    · rw [h] at hrow ⊢
      exact ih hbefore.tail hrow

/-- An entry that is remembered is that of a row. -/
theorem entry_eq_some {e : CooldownEntry} (h : past.entry keyId upstream = some e) :
    (past.cooling keyId upstream).streak ≠ 0 ∧
      e = ⟨(past.cooling keyId upstream).windowEnd,
        min (past.cooling keyId upstream).streak (2 ^ 32 - 1)⟩ := by
  rw [entry_eq, Cooling.entry] at h
  split at h
  · cases h
  · rename_i hrow
    exact ⟨hrow, (Option.some.inj h).symm⟩

theorem entry_of_row (hrow : (past.cooling keyId upstream).streak ≠ 0) :
    past.entry keyId upstream = some ⟨(past.cooling keyId upstream).windowEnd,
      min (past.cooling keyId upstream).streak (2 ^ 32 - 1)⟩ := by
  rw [entry_eq, Cooling.entry, if_neg hrow]

/-- **A mark** opens a window whose length goes by the marks since the entry was created. -/
theorem entry_of_marks (past : Past) (now : Instant) (hm : op.marks keyId upstream = true) :
    ∃ failures, entry keyId upstream ((now, op) :: past) =
        some ⟨some (now + Cooling.seconds (marksSince keyId upstream ((now, op) :: past)) *
          1000000000), failures⟩ ∧
      marksSince keyId upstream ((now, op) :: past) ≠ 0 ∧ failures < 2 ^ 32 := by
  have hafter : cooling keyId upstream ((now, op) :: past) =
      ⟨(past.cooling keyId upstream).streak + 1,
        some (now + Cooling.seconds ((past.cooling keyId upstream).streak + 1) * 1000000000)⟩ :=
    Cooling.after_of_marks hm _
  have hrow : (cooling keyId upstream ((now, op) :: past)).streak ≠ 0 := by
    rw [hafter]
    exact Nat.succ_ne_zero _
  refine ⟨min (cooling keyId upstream ((now, op) :: past)).streak (2 ^ 32 - 1), ?_, ?_, ?_⟩
  · rw [marksSince_eq, entry_of_row hrow, hafter]
  · rwa [marksSince_eq]
  · exact (min_le_right _ _).trans_lt (by decide)

/-- **No window is cut short** but by disabling or restoring the key. -/
theorem windowEnd_mono (hbefore : past.Before now) (hc : op.clears keyId = false)
    {e : CooldownEntry} (he : past.entry keyId upstream = some e) {w : Instant}
    (hw : e.cooldownUntil = some w) (hforce : now < w) :
    ∃ e', entry keyId upstream ((now, op) :: past) = some e' ∧
      ∃ w', e'.cooldownUntil = some w' ∧ w ≤ w' := by
  obtain ⟨hrow, rfl⟩ := entry_eq_some he
  obtain ⟨t, ht, hend⟩ := exists_windowEnd hbefore hrow
  by_cases hm : op.marks keyId upstream = true
  · obtain ⟨failures, hentry, _⟩ := entry_of_marks past now hm
    refine ⟨_, hentry, _, rfl, ?_⟩
    have hmarks : marksSince keyId upstream ((now, op) :: past) =
        (past.cooling keyId upstream).streak + 1 := by
      rw [marksSince_eq, cooling, Cooling.after_of_marks hm]
    have hlonger := Cooling.seconds_mono (Nat.le_succ (past.cooling keyId upstream).streak)
    cases hend.symm.trans hw
    rw [hmarks]
    exact Int.add_le_add ht (Int.mul_le_mul_of_nonneg_right (Int.ofNat_le.mpr hlonger) (by decide))
  · have hsame : cooling keyId upstream ((now, op) :: past) = past.cooling keyId upstream := by
      rw [cooling]
      rcases Cooling.after_cases now keyId upstream op (cooling keyId upstream past) with
        ⟨h, _⟩ | ⟨_, h, _⟩ | ⟨_, _, _, hover, _⟩ | ⟨_, _, h⟩
      · exact absurd h (ne_true_of_eq_false hc)
      · exact absurd h hm
      · exact absurd (hover w hw) hforce.not_ge
      · exact h
    exact ⟨_, entry_of_row (hsame ▸ hrow), w, hsame ▸ hw, le_rfl⟩

/-- **An entry goes** when the key is disabled or restored, or when it is over at a sweep. -/
theorem entry_removed {e : CooldownEntry} (he : past.entry keyId upstream = some e)
    (hgone : entry keyId upstream ((now, op) :: past) = none) (hc : op.clears keyId = false) :
    op = .checkRecoveries ∧ ∀ w ∈ e.cooldownUntil, w ≤ now := by
  obtain ⟨hrow, rfl⟩ := entry_eq_some he
  have hzero : (cooling keyId upstream ((now, op) :: past)).streak = 0 := by
    rw [← isNone_entry, ← entry_eq, hgone]
    rfl
  rw [cooling] at hzero
  rcases Cooling.after_cases now keyId upstream op (cooling keyId upstream past) with
    ⟨h, _⟩ | ⟨_, _, h⟩ | ⟨_, _, hop, hover, _⟩ | ⟨_, _, h⟩
  · exact absurd h (ne_true_of_eq_false hc)
  · rw [h] at hzero
    exact absurd hzero (Nat.succ_ne_zero _)
  · exact ⟨hop, hover⟩
  · rw [h] at hzero
    exact absurd hzero hrow

/-- **Backoff** is bounded and monotone, whatever has been done before. A mark opens a window of two
seconds to half an hour, which doubles with each mark since the entry was created; the counter of
failures stays below 2³², and the shift by it below 2⁶³. A window that is in force is not cut short,
and its entry stays, unless the key is disabled, restored or enabled again. -/
theorem backoff (hordered : Ordered ((now, op) :: past)) (keyId : ℤ) (upstream : String) :
    (op.marks keyId upstream = true →
      ∃ failures, entry keyId upstream ((now, op) :: past) = some ⟨some (now +
          (min (2 ^ marksSince keyId upstream ((now, op) :: past)) 1800 : ℕ) * 1000000000),
          failures⟩ ∧
        2 ≤ min (2 ^ marksSince keyId upstream ((now, op) :: past)) 1800 ∧
        min (2 ^ marksSince keyId upstream ((now, op) :: past)) 1800 ≤ 1800 ∧
        failures < 2 ^ 32 ∧ 2 ^ min failures 31 < 2 ^ 63) ∧
    (∀ e, past.entry keyId upstream = some e → op.clears keyId = false →
      (∀ w, e.cooldownUntil = some w → now < w →
        ∃ e', entry keyId upstream ((now, op) :: past) = some e' ∧
          ∃ w', e'.cooldownUntil = some w' ∧ w ≤ w') ∧
      (entry keyId upstream ((now, op) :: past) = none →
        op = .checkRecoveries ∧ ∀ w ∈ e.cooldownUntil, w ≤ now)) := by
  have hbefore : past.Before now := (List.pairwise_cons.mp hordered).1
  constructor
  · intro hm
    obtain ⟨failures, hentry, hmarks, hcounter⟩ := entry_of_marks past now hm
    obtain ⟨j, hj⟩ := Nat.exists_eq_succ_of_ne_zero hmarks
    refine ⟨failures, hentry, ?_, min_le_right _ _, hcounter, ?_⟩
    · rw [hj]
      exact Cooling.seconds_pos j
    · exact Nat.pow_lt_pow_right (by decide) ((min_le_right _ _).trans_lt (by decide))
  · intro e he hc
    exact ⟨fun w hw hforce => windowEnd_mono hbefore hc he hw hforce,
      fun hgone => entry_removed he hgone hc⟩

/-- The second failure in a row opens a window of four seconds. -/
theorem backoff_sample :
    ∃ failures, entry 1 "small" [(1000000000, .markCooldown 1 "small"),
      (0, .markCooldown 1 "small")] = some ⟨some 5000000000, failures⟩ ∧ failures < 2 ^ 32 := by
  have hordered : Ordered [(1000000000, HealthOp.markCooldown 1 "small"),
      (0, .markCooldown 1 "small")] := by
    exact List.pairwise_pair.mpr (by decide)
  obtain ⟨failures, hentry, _, _, hcounter, _⟩ := (backoff hordered 1 "small").1 (by decide)
  exact ⟨failures, hentry, hcounter⟩

end Past

end Chennix
