import Mathlib.Data.Int.Order.Basic
import Mathlib.Data.List.Nodup
import Mathlib.Tactic.Common

/-!
# Tables with a primary key

The relational table as an embedded SQL engine keeps it: rows in the order of their insertion,
no two with the same primary key. Updates and deletions select rows by a condition and report how
many they touched; an update cannot change the primary key, which is part of what an update is.

## Main definitions

* `Keyed` — the primary key of a row type
* `Table` — rows with pairwise different keys
* `Table.update`, `Table.delete`, `Table.insert?`, `Table.count` — the statements
* `Table.insertNew` — an insertion that lets the engine choose the row id

## Main results

* `Table.find?_update`, `Table.find?_delete`, `Table.find?_insertNew`, `Table.find?_insert?` — what
  a point query reads after each statement
* `Table.count_eq_zero_iff` — a statement that names the key touches one row or none
* `Table.find?_rows_update` — what a search by another column finds after an update
* `Table.nodup_map_update` — when an update keeps a column free of duplicates
* `Table.update_eq_self`, `Table.delete_eq_self` — statements that change nothing
-/

namespace Foundations

/-- Rows that carry their primary key. -/
class Keyed (ρ : Type) (κ : outParam Type) where
  /-- The primary key of a row. -/
  key : ρ → κ

export Keyed (key)

/-- A table: rows in insertion order, with pairwise different primary keys. -/
structure Table (ρ : Type) {κ : Type} [Keyed ρ κ] where
  rows : List ρ
  nodup : (rows.map key).Nodup

namespace Table

variable {ρ κ : Type} [Keyed ρ κ]

@[ext] theorem ext {T T' : Table ρ} (h : T.rows = T'.rows) : T = T' := by
  cases T; cases T'; cases h; rfl

instance [DecidableEq ρ] : DecidableEq (Table ρ) := fun T T' =>
  decidable_of_iff (T.rows = T'.rows) ⟨ext, congrArg rows⟩

/-- The table without rows. -/
def empty : Table ρ := ⟨[], List.nodup_nil⟩

/-- `SELECT COUNT(*) … WHERE p`. -/
def count (T : Table ρ) (p : ρ → Bool) : ℕ := T.rows.countP p

/-- `UPDATE … SET f WHERE p`. -/
def update (T : Table ρ) (p : ρ → Bool) (f : ρ → ρ) (hf : ∀ r, key (f r) = key r) : Table ρ where
  rows := T.rows.map fun r => if p r then f r else r
  nodup := by
    rw [List.map_map]
    have : (key ∘ fun r => if p r then f r else r) = (key : ρ → κ) := by
      funext r
      simp only [Function.comp_apply]
      split <;> simp [hf]
    rw [this]
    exact T.nodup

/-- `DELETE … WHERE p`. -/
def delete (T : Table ρ) (p : ρ → Bool) : Table ρ where
  rows := T.rows.filter fun r => !p r
  nodup := T.nodup.sublist (List.filter_sublist.map key)

/-- An update that writes what the rows hold already changes nothing. -/
theorem update_eq_self {T : Table ρ} {p : ρ → Bool} {f : ρ → ρ} {hf : ∀ r, key (f r) = key r}
    (h : ∀ r ∈ T.rows, p r = true → f r = r) : T.update p f hf = T := by
  apply ext
  rw [update]
  nth_rewrite 2 [← List.map_id T.rows]
  refine List.map_congr_left fun r hr => ?_
  by_cases hp : p r = true
  · rw [if_pos hp, h r hr hp, id]
  · rw [if_neg hp, id]

/-- What an update leaves alone in every row it leaves alone. -/
theorem map_rows_update {α : Type} (T : Table ρ) (p : ρ → Bool) {f : ρ → ρ}
    (hf : ∀ r, key (f r) = key r) {g : ρ → α} (hg : ∀ r, g (f r) = g r) :
    (T.update p f hf).rows.map g = T.rows.map g := by
  rw [update, List.map_map]
  refine List.map_congr_left fun r _ => ?_
  rw [Function.comp_apply]
  split
  · exact hg r
  · rfl

/-- An update acts on the row that a search finds, where the condition selects what is searched
for. -/
theorem find?_rows_update {κ' : Type} [DecidableEq κ'] (T : Table ρ) {p : ρ → Bool} {f : ρ → ρ}
    (hf : ∀ r, key (f r) = key r) {g : ρ → κ'} {P : κ' → Prop} [DecidablePred P]
    (hp : ∀ r, p r = decide (P (g r)))
    (hg : ∀ r, g (f r) = g r) (k : κ') :
    ((T.update p f hf).rows.find? fun r => g r = k) =
      (T.rows.find? fun r => g r = k).map fun r => if P k then f r else r := by
  rw [update, List.find?_map]
  have hsame : ((fun r => decide (g r = k)) ∘ fun r => if p r then f r else r) =
      fun r => decide (g r = k) := by
    funext r
    rw [Function.comp_apply]
    split
    · rw [hg]
    · rfl
  rw [hsame]
  cases h : T.rows.find? fun r => g r = k with
  | none => rfl
  | some r =>
    have hk : g r = k := by simpa using List.find?_some h
    rw [Option.map_some, Option.map_some, hp, hk]
    simp only [decide_eq_true_eq]

/-- A deletion that selects no row changes nothing. -/
theorem delete_eq_self {T : Table ρ} {p : ρ → Bool} (h : ∀ r ∈ T.rows, p r = false) :
    T.delete p = T := by
  apply ext
  rw [delete]
  exact List.filter_eq_self.mpr fun r hr => by rw [h r hr, Bool.not_false]

@[simp] theorem delete_false (T : Table ρ) : T.delete (fun _ => false) = T :=
  delete_eq_self fun _ _ => rfl

variable [DecidableEq κ]

/-- The row with a given key, if there is one. -/
def find? (T : Table ρ) (k : κ) : Option ρ := T.rows.find? fun r => key r == k

/-- `INSERT` of a row, refused when its key is taken. -/
def insert? (T : Table ρ) (r : ρ) : Option (Table ρ) :=
  if h : key r ∈ T.rows.map key then none
  else some ⟨T.rows ++ [r], by
    rw [List.map_append, List.map_singleton]
    exact T.nodup.append (List.nodup_singleton _) (by simpa using h)⟩

theorem key_of_find? {T : Table ρ} {k : κ} {r : ρ} (h : T.find? k = some r) : key r = k := by
  simpa using List.find?_some h

theorem mem_of_find? {T : Table ρ} {k : κ} {r : ρ} (h : T.find? k = some r) : r ∈ T.rows :=
  List.mem_of_find?_eq_some h

theorem find?_eq_none_iff {T : Table ρ} {k : κ} : T.find? k = none ↔ ∀ r ∈ T.rows, key r ≠ k := by
  simp [find?]

theorem find?_key {T : Table ρ} {r : ρ} (h : r ∈ T.rows) : T.find? (key r) = some r := by
  cases hf : T.find? (key r) with
  | none => exact absurd rfl (find?_eq_none_iff.mp hf r h)
  | some r' =>
    rw [List.inj_on_of_nodup_map T.nodup (mem_of_find? hf) h (key_of_find? hf)]

theorem find?_eq_some_iff {T : Table ρ} {k : κ} {r : ρ} :
    T.find? k = some r ↔ r ∈ T.rows ∧ key r = k := by
  refine ⟨fun h => ⟨mem_of_find? h, key_of_find? h⟩, ?_⟩
  rintro ⟨h, rfl⟩
  exact find?_key h

/-- An update acts on the row a point query reads, where the condition selects it. -/
theorem find?_update (T : Table ρ) (p : ρ → Bool) (f : ρ → ρ) (hf : ∀ r, key (f r) = key r)
    (k : κ) : (T.update p f hf).find? k = (T.find? k).map fun r => if p r then f r else r := by
  rw [find?, update, List.find?_map, find?]
  congr 2
  funext r
  simp only [Function.comp_apply]
  split <;> simp [hf]

/-- An update that names the primary key acts on the row with this key. -/
theorem find?_update_key (T : Table ρ) {p : ρ → Bool} {k : κ} (hp : ∀ r, p r = decide (key r = k))
    (f : ρ → ρ) (hf : ∀ r, key (f r) = key r) (k' : κ) :
    (T.update p f hf).find? k' = if k' = k then (T.find? k).map f else T.find? k' := by
  rw [find?_update]
  cases hfind : T.find? k' with
  | none =>
    by_cases hk : k' = k
    · rw [if_pos hk, ← hk, hfind]
      rfl
    · rw [if_neg hk]
      rfl
  | some r =>
    rw [Option.map_some, hp, key_of_find? hfind]
    by_cases hk : k' = k
    · rw [if_pos hk, ← hk, hfind, if_pos (decide_eq_true rfl)]
      rfl
    · rw [if_neg hk, if_neg fun h => hk (of_decide_eq_true h)]

theorem find?_delete (T : Table ρ) (p : ρ → Bool) (k : κ) :
    (T.delete p).find? k = (T.find? k).filter fun r => !p r := by
  apply Option.ext
  intro r
  rw [find?_eq_some_iff, Option.filter_eq_some_iff, find?_eq_some_iff, delete]
  simp only [List.mem_filter]
  tauto

theorem insert?_rows {T T' : Table ρ} {r : ρ} (h : T.insert? r = some T') :
    T'.rows = T.rows ++ [r] := by
  unfold insert? at h
  split at h
  · cases h
  · cases h; rfl

/-- An insertion is refused where a point query finds a row. -/
theorem insert?_eq_none_iff {T : Table ρ} {r : ρ} :
    T.insert? r = none ↔ ∃ r', T.find? (key r) = some r' := by
  rw [insert?]
  split
  · next hmem =>
    obtain ⟨r', hr', hkey⟩ := List.mem_map.mp hmem
    exact ⟨fun _ => ⟨r', find?_eq_some_iff.mpr ⟨hr', hkey⟩⟩, fun _ => rfl⟩
  · next hmem =>
    constructor
    · intro h
      cases h
    · rintro ⟨r', hr'⟩
      exact absurd (List.mem_map.mpr ⟨r', find?_eq_some_iff.mp hr'⟩) hmem

theorem find?_insert? {T T' : Table ρ} {r : ρ} (h : T.insert? r = some T') (k : κ) :
    T'.find? k = if k = key r then some r else T.find? k := by
  have hrows := insert?_rows h
  by_cases hk : k = key r
  · rw [if_pos hk, find?_eq_some_iff, hrows]
    exact ⟨List.mem_append_right _ (List.mem_singleton.mpr rfl), hk.symm⟩
  · rw [if_neg hk, find?, hrows, List.find?_append, List.find?_singleton,
      beq_false_of_ne (Ne.symm hk)]
    exact Option.or_none

/-- What is distinct in all rows stays distinct under an update of one row if and only if the row
gets what no other row has. -/
theorem nodup_map_update {α : Type} {T : Table ρ} {g : ρ → α} (h : (T.rows.map g).Nodup) (k : κ)
    {f : ρ → ρ} (hf : ∀ r, key (f r) = key r) :
    ((T.update (fun r => key r == k) f hf).rows.map g).Nodup ↔
      ∀ r, T.find? k = some r → ∀ r' ∈ T.rows, key r' ≠ k → g r' ≠ g (f r) := by
  have hrows : T.rows.Nodup := h.of_map g
  have hupdated : ((T.update (fun r => key r == k) f hf).rows).Nodup :=
    (T.update (fun r => key r == k) f hf).nodup.of_map key
  rw [List.nodup_map_iff_inj_on hupdated]
  simp only [update, List.forall_mem_map, beq_iff_eq]
  constructor
  · intro hinj r hr r' hr' hk hsame
    obtain ⟨hmem, hkey⟩ := find?_eq_some_iff.mp hr
    have heq := hinj r' hr' r hmem (by rw [if_neg hk, if_pos hkey, hsame])
    rw [if_neg hk, if_pos hkey] at heq
    exact hk (by rw [heq, hf, hkey])
  · intro hfresh r hr r' hr' hsame
    by_cases hk : key r = k
    · by_cases hk' : key r' = k
      · rw [if_pos hk, if_pos hk', List.inj_on_of_nodup_map T.nodup hr hr' (hk.trans hk'.symm)]
      · rw [if_pos hk, if_neg hk'] at hsame
        exact absurd hsame.symm (hfresh r (find?_eq_some_iff.mpr ⟨hr, hk⟩) r' hr' hk')
    · by_cases hk' : key r' = k
      · rw [if_neg hk, if_pos hk'] at hsame
        exact absurd hsame (hfresh r' (find?_eq_some_iff.mpr ⟨hr', hk'⟩) r hr hk)
      · rw [if_neg hk, if_neg hk'] at hsame ⊢
        exact List.inj_on_of_nodup_map h hr hr' hsame

/-- Where a statement that names the primary key touches a row, the rest of its condition may be
dropped. -/
theorem update_of_count {T : Table ρ} {k : κ} {g : ρ → Bool} {f : ρ → ρ}
    {hf : ∀ r, key (f r) = key r} (h : T.count (fun r => key r == k && g r) ≠ 0) :
    T.update (fun r => key r == k && g r) f hf = T.update (fun r => key r == k && true) f hf := by
  rw [count, ← Nat.pos_iff_ne_zero, List.countP_pos_iff] at h
  obtain ⟨r₀, hmem, h₀⟩ := h
  simp only [Bool.and_eq_true, beq_iff_eq] at h₀
  apply ext
  simp only [update]
  refine List.map_congr_left fun r hr => ?_
  by_cases hk : key r = k
  · have : r = r₀ := List.inj_on_of_nodup_map T.nodup hr hmem (hk.trans h₀.1.symm)
    subst this
    simp [h₀.2]
  · simp [hk]

/-- A statement that names the primary key touches a row exactly when the row a point query reads
meets the rest of its condition. -/
theorem count_eq_zero_iff (T : Table ρ) (k : κ) (g : ρ → Bool) :
    T.count (fun r => key r == k && g r) = 0 ↔ ∀ r, T.find? k = some r → g r = false := by
  rw [count, List.countP_eq_zero]
  constructor
  · intro h r hr
    have := h r (mem_of_find? hr)
    simpa [key_of_find? hr] using this
  · intro h r hr hc
    simp only [Bool.and_eq_true, beq_iff_eq] at hc
    have := h r (find?_eq_some_iff.mpr ⟨hr, hc.1⟩)
    simp [hc.2] at this

end Table

namespace Table

variable {ρ : Type} [Keyed ρ ℤ]

/-- The row id the engine chooses: one more than the greatest, or 1. -/
def nextId (T : Table ρ) : ℤ := (T.rows.map key).max?.getD 0 + 1

theorem key_lt_nextId {T : Table ρ} {r : ρ} (h : r ∈ T.rows) : key r < T.nextId := by
  have hmem : key r ∈ T.rows.map key := List.mem_map_of_mem h
  rw [nextId]
  cases hmax : (T.rows.map key).max? with
  | none =>
    rw [List.max?_eq_none_iff] at hmax
    rw [hmax] at hmem
    cases hmem
  | some m =>
    have hle : key r ≤ m := (List.max?_eq_some_iff.mp hmax).2 _ hmem
    rw [Option.getD_some]
    omega

/-- `INSERT` of a row whose id the engine chooses. -/
def insertNew (T : Table ρ) (row : ℤ → ρ) (hrow : ∀ i, key (row i) = i) : Table ρ where
  rows := T.rows ++ [row T.nextId]
  nodup := by
    rw [List.map_append, List.map_singleton, hrow]
    refine T.nodup.append (List.nodup_singleton _) ?_
    rw [List.disjoint_singleton]
    intro hmem
    obtain ⟨r, hr, hkey⟩ := List.mem_map.mp hmem
    have := key_lt_nextId hr
    omega

theorem find?_insertNew (T : Table ρ) (row : ℤ → ρ) (hrow : ∀ i, key (row i) = i) (k : ℤ) :
    (T.insertNew row hrow).find? k = if k = T.nextId then some (row T.nextId) else T.find? k := by
  rw [find?, insertNew, List.find?_append, find?]
  by_cases hk : k = T.nextId
  · have hnone : T.rows.find? (fun r => key r == k) = none := by
      refine List.find?_eq_none.mpr fun r hr => ?_
      have := key_lt_nextId hr
      simp only [beq_iff_eq]
      omega
    rw [hnone, if_pos hk, Option.none_or, List.find?_singleton, hrow, hk, beq_self_eq_true]
    rfl
  · rw [if_neg hk, List.find?_singleton, hrow, beq_false_of_ne (Ne.symm hk)]
    exact Option.or_none

/-- A row that is there stays when one is added. -/
theorem find?_insertNew_of_some {ρ : Type} [Keyed ρ ℤ] {T : Table ρ} {k : ℤ} {r : ρ}
    (h : T.find? k = some r) (row : ℤ → ρ) (hrow : ∀ i, key (row i) = i) :
    (T.insertNew row hrow).find? k = some r := by
  have hlt := key_lt_nextId (mem_of_find? h)
  rw [key_of_find? h] at hlt
  rw [find?_insertNew, if_neg (ne_of_lt hlt), h]

end Table

end Foundations
