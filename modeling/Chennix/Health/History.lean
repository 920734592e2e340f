import Chennix.Server.State

/-!
# What has been done to keys

The operations of the health manager, and what a past of such operations says of a key and an
upstream model: which status the key was given last, how often the pair was put in cooldown in a
row, and when the last cooldown ends. Entries of the health manager are created when they are needed
and swept when they are over; the past says what they hold.

## Main definitions

* `HealthOp`, `HealthOp.apply` — the operations
* `HealthManager.Past`, `Past.health` — what has been done, latest first, and what is remembered
* `Past.lastStatus`, `Past.cooling` — what the past says of a key, and of a key on an upstream model

## Main results

* `HealthOp.stateOf_apply` — what an operation does to what is remembered of a key
* `Past.status_health`, `Past.cooldowns_health` — what is remembered is what the past says
* `Past.windowEnd_eq_some` — the window is that of the last cooldown, if nothing has ended it
-/

namespace Chennix

open Foundations Calendar

namespace HealthManager

/-- `restore_disabled`, in memory. -/
def restoreDisabled (keyIds : List ℤ) (h : HealthManager) : HealthManager :=
  keyIds.foldl (fun h keyId => h.updateKey keyId fun s =>
    { s with status := .active, cooldowns := Map.empty }) h

/-- `sync_key_from_db`: a key that is enabled again starts without cooldowns. -/
def syncKeyFromDb (keyId : ℤ) (newStatus : KeyStatus) (h : HealthManager) : HealthManager :=
  h.updateKey keyId fun s =>
    { s with
      status := newStatus
      cooldowns := if newStatus = .active then Map.empty else s.cooldowns }

/-- Changing keys one after another, where changing one twice is changing it once. -/
theorem stateOf_foldl_updateKey {f : KeyRuntimeState → KeyRuntimeState} (hf : ∀ s, f (f s) = f s)
    (keyIds : List ℤ) (keyId : ℤ) (h : HealthManager) :
    (keyIds.foldl (fun h k => h.updateKey k f) h).stateOf keyId =
      if keyId ∈ keyIds then f (h.stateOf keyId) else h.stateOf keyId := by
  induction keyIds generalizing h with
  | nil => rfl
  | cons k keyIds ih =>
    rw [List.foldl_cons, ih]
    by_cases heq : keyId = k
    · subst heq
      rw [stateOf_updateKey, hf, ite_self, if_pos List.mem_cons_self]
    · rw [stateOf_updateKey_of_ne heq]
      exact if_congr (by rw [List.mem_cons, or_iff_right heq]) rfl rfl

end HealthManager

/-- The operations of the health manager. -/
inductive HealthOp
  | markCooldown (keyId : ℤ) (upstream : String)
  | markDisabled (keyId : ℤ)
  | addUsage (keyId : ℤ) (tokens : UInt64)
  | checkRecoveries
  | restoreDisabled (keyIds : List ℤ)
  | syncKeyFromDb (keyId : ℤ) (newStatus : KeyStatus)
  | loadDisabled (keyIds : List ℤ)
  | loadSmallModelQuota (parseDbDatetime : String → Option Instant) (db : Db)

namespace HealthOp

/-- What an operation does at a time. -/
def apply (now : Instant) : HealthOp → HealthManager → HealthManager
  | markCooldown keyId upstream, h => h.markCooldown now keyId upstream
  | markDisabled keyId, h => h.markDisabled keyId
  | addUsage keyId tokens, h => h.addUsage keyId tokens
  | checkRecoveries, h => h.checkRecoveries now
  | restoreDisabled keyIds, h => h.restoreDisabled keyIds
  | syncKeyFromDb keyId newStatus, h => h.syncKeyFromDb keyId newStatus
  | loadDisabled keyIds, h => h.loadDisabled keyIds
  | loadSmallModelQuota parseDbDatetime db, h => h.loadSmallModelQuota parseDbDatetime db

/-- The status an operation gives a key. -/
def statusSet (keyId : ℤ) : HealthOp → Option KeyStatus
  | markDisabled k => if k = keyId then some .disabled else none
  | restoreDisabled ks => if keyId ∈ ks then some .active else none
  | syncKeyFromDb k newStatus => if k = keyId then some newStatus else none
  | loadDisabled ks => if keyId ∈ ks then some .disabled else none
  | _ => none

/-- The operation ends all cooldowns of a key: it disables or restores the key, or enables it
again. -/
def clears (keyId : ℤ) : HealthOp → Bool
  | markDisabled k => k = keyId
  | restoreDisabled ks => keyId ∈ ks
  | syncKeyFromDb k newStatus => k = keyId && newStatus = .active
  | _ => false

/-- The operation puts a key in cooldown for an upstream model. -/
def marks (keyId : ℤ) (upstream : String) : HealthOp → Bool
  | markCooldown k u => k = keyId && u = upstream
  | _ => false

end HealthOp

/-- What a past says of a key on an upstream model. -/
structure Cooling where
  /-- How often in a row the pair was put in cooldown. -/
  streak : ℕ
  /-- When the last cooldown ends. -/
  windowEnd : Option Instant

namespace Cooling

/-- How long the cooldown lasts that is the so many'th in a row, in seconds. -/
def seconds (streak : ℕ) : ℕ := min (2 ^ streak) 1800

/-- One operation more. A sweep ends a row of cooldowns if the last one is over. -/
def after (now : Instant) (keyId : ℤ) (upstream : String) (op : HealthOp) (c : Cooling) : Cooling :=
  if op.clears keyId then ⟨0, none⟩
  else if op.marks keyId upstream then
    ⟨c.streak + 1, some (now + seconds (c.streak + 1) * 1000000000)⟩
  else match op with
    | .checkRecoveries => if c.windowEnd.all (· ≤ now) then ⟨0, c.windowEnd⟩ else c
    | _ => c

/-- The entry of a pair that was put in cooldown. The counter has 32 bits. -/
def entry (c : Cooling) : Option CooldownEntry :=
  if c.streak = 0 then none else some ⟨c.windowEnd, min c.streak (2 ^ 32 - 1)⟩

end Cooling

/-- What has been done to the health manager, and when, latest first. -/
abbrev Past : Type := List (Instant × HealthOp)

namespace Past

/-- What is remembered. -/
def health : Past → HealthManager
  | [] => .new
  | (now, op) :: past => op.apply now (health past)

/-- Time does not go backwards. -/
def Ordered (past : Past) : Prop := past.Pairwise fun later earlier => earlier.1 ≤ later.1

/-- The status the key was given last. -/
def lastStatus (keyId : ℤ) (past : Past) : KeyStatus :=
  (past.findSome? fun e => e.2.statusSet keyId).getD .active

def cooling (keyId : ℤ) (upstream : String) : Past → Cooling
  | [] => ⟨0, none⟩
  | (now, op) :: past => (cooling keyId upstream past).after now keyId upstream op

end Past

/-! ### What an operation does to a key -/

namespace HealthOp

/-- What an operation does to what is remembered of a key. -/
def effect (now : Instant) (keyId : ℤ) : HealthOp → KeyRuntimeState → KeyRuntimeState
  | markCooldown k upstream, s =>
    let failures := HealthManager.nextFailures
      ((s.cooldowns upstream).elim 0 CooldownEntry.consecutiveFailures)
    if k = keyId then
      { s with
        cooldowns := s.cooldowns.insert upstream
          ⟨some (now + HealthManager.cooldownSecs failures * 1000000000), failures⟩ }
    else s
  | markDisabled k, s =>
    if k = keyId then { s with status := .disabled, cooldowns := Map.empty } else s
  | addUsage k tokens, s =>
    if k = keyId then
      { s with usedQuotaThisPeriod :=
          .ofNat (min (s.usedQuotaThisPeriod.toNat + tokens.toNat) (2 ^ 64 - 1)) }
    else s
  | checkRecoveries, s =>
    { s with cooldowns := fun upstream =>
        (s.cooldowns upstream).filter fun entry => entry.cooldownUntil.any fun t => now < t }
  | restoreDisabled ks, s =>
    if keyId ∈ ks then { s with status := .active, cooldowns := Map.empty } else s
  | syncKeyFromDb k newStatus, s =>
    if k = keyId then
      { s with
        status := newStatus
        cooldowns := if newStatus = .active then Map.empty else s.cooldowns }
    else s
  | loadDisabled ks, s => if keyId ∈ ks then { s with status := .disabled } else s
  | loadSmallModelQuota _ _, s => s

/-- **One operation**: what is remembered of a key depends on what was remembered of it. -/
theorem stateOf_apply (op : HealthOp) (now : Instant) (keyId : ℤ) (h : HealthManager) :
    (op.apply now h).stateOf keyId = op.effect now keyId (h.stateOf keyId) := by
  have hupdate (k : ℤ) (f : KeyRuntimeState → KeyRuntimeState) :
      (h.updateKey k f).stateOf keyId =
        if k = keyId then f (h.stateOf keyId) else h.stateOf keyId := by
    by_cases heq : k = keyId
    · rw [heq, HealthManager.stateOf_updateKey, if_pos rfl]
    · rw [HealthManager.stateOf_updateKey_of_ne fun h => heq h.symm, if_neg heq]
  cases op with
  | markCooldown k upstream => rw [apply, HealthManager.markCooldown, hupdate]; rfl
  | markDisabled k => rw [apply, HealthManager.markDisabled, hupdate]; rfl
  | addUsage k tokens => rw [apply, HealthManager.addUsage, hupdate]; rfl
  | syncKeyFromDb k newStatus => rw [apply, HealthManager.syncKeyFromDb, hupdate]; rfl
  | restoreDisabled ks =>
    rw [apply, HealthManager.restoreDisabled, HealthManager.stateOf_foldl_updateKey]
    · rfl
    · exact fun _ => rfl
  | loadDisabled ks =>
    rw [apply, HealthManager.loadDisabled, HealthManager.stateOf_foldl_updateKey]
    · rfl
    · exact fun _ => rfl
  | loadSmallModelQuota parseDbDatetime db => rfl
  | checkRecoveries =>
    show ((h.states keyId).map _).getD KeyRuntimeState.new = _
    rw [HealthManager.stateOf]
    cases h.states keyId <;> rfl

/-- An operation sets the status of a key or leaves it. -/
theorem status_effect (op : HealthOp) (now : Instant) (keyId : ℤ) (s : KeyRuntimeState) :
    (op.effect now keyId s).status = (op.statusSet keyId).getD s.status := by
  cases op <;> simp only [effect, statusSet] <;> first | rfl | (split <;> rfl)

end HealthOp

/-! ### What is remembered -/

namespace Cooling

theorem seconds_pos (streak : ℕ) : 2 ≤ seconds (streak + 1) := by
  refine le_min ?_ (by decide)
  exact Nat.le_self_pow (Nat.succ_ne_zero _) 2

/-- Cooldowns in a row get longer. -/
theorem seconds_mono {streak streak' : ℕ} (h : streak ≤ streak') :
    seconds streak ≤ seconds streak' :=
  inf_le_inf_right _ (Nat.pow_le_pow_right Nat.two_pos h)

/-- The shift is by 31 at most, and the counter of failures has 32 bits: neither matters. -/
theorem cooldownSecs_eq (streak : ℕ) :
    HealthManager.cooldownSecs (min streak (2 ^ 32 - 1)) = seconds streak := by
  rw [HealthManager.cooldownSecs, maxCooldownSecs, seconds]
  rcases le_or_gt streak 31 with hle | hgt
  · rw [min_eq_left (hle.trans (by decide)), min_eq_left hle]
    omega
  · have hlong : 1800 ≤ 2 ^ streak :=
      (show 1800 ≤ 2 ^ 31 by decide).trans (Nat.pow_le_pow_right Nat.two_pos hgt.le)
    rw [min_eq_right (le_min hgt.le (by decide)), min_eq_right hlong]
    rfl

/-- The counter of failures goes up by one. -/
theorem nextFailures_entry (c : Cooling) :
    HealthManager.nextFailures (c.entry.elim 0 CooldownEntry.consecutiveFailures) =
      min (c.streak + 1) (2 ^ 32 - 1) := by
  rw [HealthManager.nextFailures, entry]
  split
  · rename_i hzero
    rw [hzero]
    rfl
  · show min (min c.streak (2 ^ 32 - 1) + 1) (2 ^ 32 - 1) = _
    omega

end Cooling

namespace Cooling

variable {now : Instant} {keyId : ℤ} {upstream : String}

theorem after_of_clears {op : HealthOp} (h : op.clears keyId = true) (c : Cooling) :
    c.after now keyId upstream op = ⟨0, none⟩ := if_pos h

theorem after_of_marks {op : HealthOp} (h : op.marks keyId upstream = true) (c : Cooling) :
    c.after now keyId upstream op =
      ⟨c.streak + 1, some (now + seconds (c.streak + 1) * 1000000000)⟩ := by
  cases op with
  | markCooldown k u => exact if_pos h
  | _ => cases h

theorem after_checkRecoveries (c : Cooling) :
    c.after now keyId upstream .checkRecoveries =
      if c.windowEnd.all (· ≤ now) then ⟨0, c.windowEnd⟩ else c := rfl

theorem after_of_neither {op : HealthOp} (hc : op.clears keyId = false)
    (hm : op.marks keyId upstream = false) (hop : op ≠ .checkRecoveries) (c : Cooling) :
    c.after now keyId upstream op = c := by
  rw [← Bool.not_eq_true] at hc hm
  cases op with
  | checkRecoveries => exact absurd rfl hop
  | _ => exact (if_neg hc).trans (if_neg hm)

/-- What one operation does to a row of cooldowns: it clears it, goes on with it, or ends it by a
sweep, or leaves it alone. -/
theorem after_cases (now : Instant) (keyId : ℤ) (upstream : String) (op : HealthOp) (c : Cooling) :
    (op.clears keyId = true ∧ c.after now keyId upstream op = ⟨0, none⟩) ∨
    (op.clears keyId = false ∧ op.marks keyId upstream = true ∧ c.after now keyId upstream op =
      ⟨c.streak + 1, some (now + seconds (c.streak + 1) * 1000000000)⟩) ∨
    (op.clears keyId = false ∧ op.marks keyId upstream = false ∧ op = .checkRecoveries ∧
      (∀ w ∈ c.windowEnd, w ≤ now) ∧ c.after now keyId upstream op = ⟨0, c.windowEnd⟩) ∨
    op.clears keyId = false ∧ op.marks keyId upstream = false ∧
      c.after now keyId upstream op = c := by
  by_cases hc : op.clears keyId = true
  · exact .inl ⟨hc, after_of_clears hc c⟩
  rw [Bool.not_eq_true] at hc
  by_cases hm : op.marks keyId upstream = true
  · exact .inr (.inl ⟨hc, hm, after_of_marks hm c⟩)
  rw [Bool.not_eq_true] at hm
  refine .inr (.inr ?_)
  cases op with
  | checkRecoveries =>
    rw [after_checkRecoveries]
    by_cases hover : c.windowEnd.all (· ≤ now) = true
    · refine .inl ⟨hc, hm, rfl, fun w hw => ?_, if_pos hover⟩
      rw [Option.all_eq_true] at hover
      exact of_decide_eq_true (hover w hw)
    · exact .inr ⟨hc, hm, if_neg hover⟩
  | _ => exact .inr ⟨hc, hm, after_of_neither hc hm HealthOp.noConfusion c⟩

/-- A sweep may end a row of cooldowns, but the window stays what it was. -/
theorem windowEnd_after_of_neither {op : HealthOp} (hc : op.clears keyId = false)
    (hm : op.marks keyId upstream = false) (c : Cooling) :
    (c.after now keyId upstream op).windowEnd = c.windowEnd := by
  rcases after_cases now keyId upstream op c with ⟨h, _⟩ | ⟨_, h, _⟩ | ⟨_, _, _, _, h⟩ | ⟨_, _, h⟩
  · exact absurd h (ne_true_of_eq_false hc)
  · exact absurd h (ne_true_of_eq_false hm)
  · rw [h]
  · rw [h]

/-- The sweep removes the entries that are over, and no others. -/
theorem filter_entry (c : Cooling) :
    (c.entry.filter fun entry => entry.cooldownUntil.any fun t => now < t) =
      (if c.windowEnd.all (· ≤ now) then (⟨0, c.windowEnd⟩ : Cooling) else c).entry := by
  have hany : (c.windowEnd.any fun t => now < t) = !c.windowEnd.all (· ≤ now) := by
    cases c.windowEnd with
    | none => rfl
    | some t =>
      rw [Option.any_some, Option.all_some, ← decide_not]
      exact decide_eq_decide.mpr not_le.symm
  by_cases hzero : c.streak = 0
  · have hnone : c.entry = none := if_pos hzero
    rw [hnone]
    split
    · rfl
    · exact hnone.symm
  · have hsome : c.entry = some ⟨c.windowEnd, min c.streak (2 ^ 32 - 1)⟩ := if_neg hzero
    rw [hsome, Option.filter_some, hany]
    cases hall : c.windowEnd.all (· ≤ now)
    · rw [if_neg Bool.false_ne_true, hsome]
      rfl
    · rfl

end Cooling

namespace HealthOp

variable {now : Instant} {keyId : ℤ} {upstream : String} {s : KeyRuntimeState} {c : Cooling}

theorem clears_of_marks {op : HealthOp} (h : op.marks keyId upstream = true) (keyId' : ℤ) :
    op.clears keyId' = false := by
  cases op with
  | markCooldown k u => rfl
  | _ => cases h

/-- **The entry** of a pair after an operation is what the past says then. -/
theorem cooldowns_effect (op : HealthOp) (hs : s.cooldowns upstream = c.entry) :
    (op.effect now keyId s).cooldowns upstream = (c.after now keyId upstream op).entry := by
  cases op with
  | markCooldown k u =>
    rw [effect]
    by_cases hk : k = keyId
    · rw [if_pos hk]
      by_cases hu : u = upstream
      · subst hu
        rw [Cooling.after_of_marks (by rw [marks, decide_eq_true hk, decide_eq_true rfl]; rfl)]
        show Map.insert u _ _ u = _
        rw [Map.insert_self, hs, Cooling.nextFailures_entry, Cooling.cooldownSecs_eq]
        rfl
      · rw [Cooling.after_of_neither rfl (by rw [marks, decide_eq_false hu, Bool.and_false])
          HealthOp.noConfusion, ← hs]
        exact Map.insert_of_ne (fun h => hu h.symm) ..
    · rw [Cooling.after_of_neither rfl (by rw [marks, decide_eq_false hk, Bool.false_and])
        HealthOp.noConfusion, if_neg hk, hs]
  | markDisabled k =>
    rw [effect]
    by_cases hk : k = keyId
    · have hclears : (markDisabled k).clears keyId = true := decide_eq_true hk
      rw [Cooling.after_of_clears hclears, if_pos hk]
      rfl
    · have hclears : (markDisabled k).clears keyId = false := decide_eq_false hk
      rw [Cooling.after_of_neither hclears rfl HealthOp.noConfusion, if_neg hk]
      exact hs
  | addUsage k tokens =>
    rw [Cooling.after_of_neither rfl rfl HealthOp.noConfusion, effect]
    split <;> exact hs
  | checkRecoveries =>
    rw [Cooling.after_checkRecoveries, ← Cooling.filter_entry, ← hs]
    rfl
  | restoreDisabled ks =>
    rw [effect]
    by_cases hk : keyId ∈ ks
    · have hclears : (restoreDisabled ks).clears keyId = true := decide_eq_true hk
      rw [Cooling.after_of_clears hclears, if_pos hk]
      rfl
    · have hclears : (restoreDisabled ks).clears keyId = false := decide_eq_false hk
      rw [Cooling.after_of_neither hclears rfl HealthOp.noConfusion, if_neg hk]
      exact hs
  | syncKeyFromDb k newStatus =>
    rw [effect]
    by_cases hk : k = keyId
    · rw [if_pos hk]
      by_cases hactive : newStatus = .active
      · rw [Cooling.after_of_clears
          (by rw [clears, decide_eq_true hk, decide_eq_true hactive]; rfl), if_pos hactive]
        rfl
      · rw [Cooling.after_of_neither (by rw [clears, decide_eq_false hactive, Bool.and_false]) rfl
          HealthOp.noConfusion, if_neg hactive]
        exact hs
    · rw [Cooling.after_of_neither (by rw [clears, decide_eq_false hk, Bool.false_and]) rfl
        HealthOp.noConfusion, if_neg hk]
      exact hs
  | loadDisabled ks =>
    rw [Cooling.after_of_neither rfl rfl HealthOp.noConfusion, effect]
    split <;> exact hs
  | loadSmallModelQuota parseDbDatetime db =>
    rw [Cooling.after_of_neither rfl rfl HealthOp.noConfusion]
    exact hs

end HealthOp

namespace Past

variable {past : Past} {keyId : ℤ} {upstream : String}

/-- **The status** of a key is the one it was given last. -/
theorem status_health (past : Past) (keyId : ℤ) :
    (past.health.stateOf keyId).status = past.lastStatus keyId := by
  induction past with
  | nil => rfl
  | cons e past ih =>
    rw [health, HealthOp.stateOf_apply, HealthOp.status_effect, lastStatus, List.findSome?_cons]
    cases e.2.statusSet keyId with
    | none => exact ih
    | some status => rfl

/-- **The cooldown** of a pair is the one the past says. -/
theorem cooldowns_health (past : Past) (keyId : ℤ) (upstream : String) :
    (past.health.stateOf keyId).cooldowns upstream = (past.cooling keyId upstream).entry := by
  induction past with
  | nil => rfl
  | cons e past ih =>
    rw [health, HealthOp.stateOf_apply]
    exact HealthOp.cooldowns_effect e.2 ih

/-- **The window** of a pair is the one its last cooldown has opened, unless the key has been
disabled, restored or enabled again since. -/
theorem windowEnd_eq_some {w : Instant} :
    (past.cooling keyId upstream).windowEnd = some w ↔
      ∃ later now op earlier, past = later ++ (now, op) :: earlier ∧
        op.marks keyId upstream = true ∧
        (∀ e ∈ later, e.2.clears keyId = false ∧ e.2.marks keyId upstream = false) ∧
        w = now + Cooling.seconds ((cooling keyId upstream earlier).streak + 1) * 1000000000 := by
  induction past with
  | nil =>
    refine iff_of_false (fun h => by cases h) ?_
    rintro ⟨later, now, op, earlier, heq, _⟩
    exact List.cons_ne_nil _ _ (List.append_eq_nil_iff.mp heq.symm).2
  | cons e past ih =>
    obtain ⟨now, op⟩ := e
    rw [cooling]
    by_cases hc : op.clears keyId = true
    · rw [Cooling.after_of_clears hc]
      refine iff_of_false (fun h => by cases h) ?_
      rintro ⟨later, now', op', earlier, heq, hm, hlater, _⟩
      cases later with
      | nil =>
        cases heq
        exact Bool.false_ne_true ((HealthOp.clears_of_marks hm keyId).symm.trans hc)
      | cons e later =>
        cases heq
        exact Bool.false_ne_true ((hlater _ List.mem_cons_self).1.symm.trans hc)
    · by_cases hm : op.marks keyId upstream = true
      · rw [Cooling.after_of_marks hm, Option.some_inj]
        constructor
        · rintro rfl
          exact ⟨[], now, op, past, rfl, hm, List.forall_mem_nil _, rfl⟩
        · rintro ⟨later, now', op', earlier, heq, _, hlater, rfl⟩
          cases later with
          | nil =>
            cases heq
            rfl
          | cons e later =>
            cases heq
            exact absurd hm (ne_true_of_eq_false (hlater _ List.mem_cons_self).2)
      · rw [Bool.not_eq_true] at hc hm
        rw [Cooling.windowEnd_after_of_neither hc hm, ih]
        constructor
        · rintro ⟨later, now', op', earlier, rfl, hm', hlater, rfl⟩
          exact ⟨(now, op) :: later, now', op', earlier, rfl, hm',
            List.forall_mem_cons.mpr ⟨⟨hc, hm⟩, hlater⟩, rfl⟩
        · rintro ⟨later, now', op', earlier, heq, hm', hlater, rfl⟩
          cases later with
          | nil =>
            cases heq
            exact absurd hm' (ne_true_of_eq_false hm)
          | cons e later =>
            cases heq
            exact ⟨later, now', op', earlier, rfl, hm', (List.forall_mem_cons.mp hlater).2, rfl⟩

end Past

end Chennix
