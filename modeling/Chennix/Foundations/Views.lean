import Chennix.Foundations.StableSort
import Chennix.Foundations.Table

/-!
# What queries show of a table

Two tables may hold different rows and still answer a query alike: it selects other rows, or shows
other columns. The order the rows were inserted in is shown by no query that sorts by the key.

## Main definitions

* `Table.select` — the rows that meet a condition, in the order of their keys
* `Table.shown` — what a view shows of the rows, some of which it may hide
* `Table.Alike` — what point queries show through a view of the rows is the same in both tables

## Main results

* `Table.select_congr` — a selection shows the rows that meet its condition, and no others
* `Table.shown_update`, `Table.shown_insertNew`, `Table.shown_delete` — statements on what is hidden
  are not seen
* `Table.Alike.update`, `Table.Alike.delete`, `Table.Alike.insertNew` — the statements that keep
  two tables alike
-/

namespace Foundations

variable {α β κ : Type}

/-- Lists with the same entries are sorted alike by a key that tells the entries apart. -/
theorem insertionSort_congr [LinearOrder κ] {l l' : List α} (key : α → κ) (h : l.Perm l')
    (hkey : ∀ a ∈ l, ∀ b ∈ l, key a = key b → a = b) :
    (l.insertionSort fun a b => key a ≤ key b) = l'.insertionSort fun a b => key a ≤ key b := by
  have hsort := sortsBy_insertionSort key l
  have hsort' := sortsBy_insertionSort key l'
  refine List.Perm.eq_of_pairwise ?_ hsort.sorted hsort'.sorted
    (hsort.perm.trans (h.trans hsort'.perm.symm))
  intro a b ha hb hab hba
  exact hkey a (hsort.perm.mem_iff.mp ha) b (h.mem_iff.mpr (hsort'.perm.mem_iff.mp hb))
    (le_antisymm hab hba)

namespace Table

variable {ρ : Type} [Keyed ρ κ]

theorem nodup_rows (T : Table ρ) : T.rows.Nodup := T.nodup.of_map key

/-- The rows of two tables that meet a condition are the same, but for their order. -/
theorem filter_perm {T T' : Table ρ} {p : ρ → Bool}
    (h : ∀ r, p r = true → (r ∈ T.rows ↔ r ∈ T'.rows)) :
    (T.rows.filter p).Perm (T'.rows.filter p) := by
  refine (List.perm_ext_iff_of_nodup (T.nodup_rows.filter p) (T'.nodup_rows.filter p)).mpr ?_
  intro r
  rw [List.mem_filter, List.mem_filter]
  constructor
  · rintro ⟨hr, hp⟩
    exact ⟨(h r hp).mp hr, hp⟩
  · rintro ⟨hr, hp⟩
    exact ⟨(h r hp).mpr hr, hp⟩

/-- `SELECT … WHERE p`: the rows in the order of their keys. -/
def select [LinearOrder κ] (T : Table ρ) (p : ρ → Bool) : List ρ :=
  (T.rows.filter p).insertionSort fun r r' => key r ≤ key r'

/-- A selection shows the rows that meet its condition, and no others. -/
theorem select_congr [LinearOrder κ] {T T' : Table ρ} {p : ρ → Bool}
    (h : ∀ r, p r = true → (r ∈ T.rows ↔ r ∈ T'.rows)) : T.select p = T'.select p := by
  refine insertionSort_congr key (filter_perm h) fun r hr r' hr' hk => ?_
  exact List.inj_on_of_nodup_map T.nodup (List.mem_filter.mp hr).1 (List.mem_filter.mp hr').1 hk

/-- What a view shows of the rows. It may hide some of them. -/
def shown (view : ρ → Option α) (T : Table ρ) : List α := T.rows.filterMap view

section Shown

variable {T : Table ρ} {view : ρ → Option α} {p : ρ → Bool}

/-- An update of what is hidden. -/
theorem shown_update {f : ρ → ρ} (hf : ∀ r, key (f r) = key r)
    (h : ∀ r ∈ T.rows, p r = true → view (f r) = view r) :
    (T.update p f hf).shown view = T.shown view := by
  rw [shown, update, List.filterMap_map]
  refine List.filterMap_congr fun r hr => ?_
  rw [Function.comp_apply]
  split
  · exact h r hr ‹_›
  · rfl

/-- A deletion of what is hidden. -/
theorem shown_delete (h : ∀ r ∈ T.rows, p r = true → view r = none) :
    (T.delete p).shown view = T.shown view := by
  rw [shown, delete, List.filterMap_filter]
  refine List.filterMap_congr fun r hr => ?_
  cases hp : p r with
  | false => rfl
  | true => exact (h r hr hp).symm

end Shown

variable [DecidableEq κ]

/-- What point queries show through a view of the rows is the same in both tables. -/
def Alike (view : ρ → α) (T T' : Table ρ) : Prop :=
  ∀ k, (T.find? k).map view = (T'.find? k).map view

namespace Alike

variable {view : ρ → α} {T T' : Table ρ}

theorem symm (h : Alike view T T') : Alike view T' T := fun k => (h k).symm

/-- Either query finds nothing, or both find rows that look the same. -/
theorem cases (h : Alike view T T') (k : κ) :
    T.find? k = none ∧ T'.find? k = none ∨
      ∃ r r', T.find? k = some r ∧ T'.find? k = some r' ∧ view r = view r' := by
  have hk := h k
  cases hr : T.find? k with
  | none =>
    rw [hr, Option.map_none, eq_comm, Option.map_eq_none_iff] at hk
    exact .inl ⟨rfl, hk⟩
  | some r =>
    rw [hr, Option.map_some, eq_comm, Option.map_eq_some_iff] at hk
    obtain ⟨r', hr', hview⟩ := hk
    exact .inr ⟨r, r', rfl, hr', hview.symm⟩

theorem exists_mem (h : Alike view T T') {r : ρ} (hr : r ∈ T.rows) :
    ∃ r' ∈ T'.rows, key r' = key r ∧ view r' = view r := by
  rcases h.cases (key r) with ⟨hnone, _⟩ | ⟨r₁, r', hr₁, hr', hview⟩
  · exact absurd rfl (find?_eq_none_iff.mp hnone r hr)
  · cases (find?_key hr).symm.trans hr₁
    exact ⟨r', mem_of_find? hr', key_of_find? hr', hview.symm⟩

/-- A condition on keys and on what is seen of the rows. -/
theorem any (h : Alike view T T') {p : ρ → Bool}
    (hp : ∀ r r', key r = key r' → view r = view r' → p r = p r') :
    T.rows.any p = T'.rows.any p := by
  rw [Bool.eq_iff_iff, List.any_eq_true, List.any_eq_true]
  constructor
  · rintro ⟨r, hr, hpr⟩
    obtain ⟨r', hr', hkey, hview⟩ := h.exists_mem hr
    exact ⟨r', hr', (hp r' r hkey hview).trans hpr⟩
  · rintro ⟨r, hr, hpr⟩
    obtain ⟨r', hr', hkey, hview⟩ := h.symm.exists_mem hr
    exact ⟨r', hr', (hp r' r hkey hview).trans hpr⟩

/-- An update of the row with a given key, which looks the same afterwards in both tables. -/
theorem update (h : Alike view T T') {k : κ} {p : ρ → Bool} {f : ρ → ρ}
    {hf : ∀ r, key (f r) = key r} (hp : ∀ r, p r = decide (key r = k))
    (hview : ∀ r r', T.find? k = some r → T'.find? k = some r' → view (f r) = view (f r')) :
    Alike view (T.update p f hf) (T'.update p f hf) := by
  intro k'
  rw [find?_update_key T hp, find?_update_key T' hp]
  by_cases hk : k' = k
  · rw [if_pos hk, if_pos hk]
    rcases h.cases k with ⟨hnone, hnone'⟩ | ⟨r, r', hr, hr', -⟩
    · rw [hnone, hnone']
    · rw [hr, hr', Option.map_some, Option.map_some, Option.map_some, Option.map_some,
        hview r r' hr hr']
  · rw [if_neg hk, if_neg hk]
    exact h k'

/-- A deletion by key. -/
theorem delete (h : Alike view T T') {p : ρ → Bool} (hp : ∀ r r', key r = key r' → p r = p r') :
    Alike view (T.delete p) (T'.delete p) := by
  intro k
  rw [find?_delete, find?_delete]
  rcases h.cases k with ⟨hnone, hnone'⟩ | ⟨r, r', hr, hr', hsame⟩
  · rw [hnone, hnone']
  · have hpp : p r = p r' := hp r r' ((key_of_find? hr).trans (key_of_find? hr').symm)
    rw [hr, hr', Option.filter_some, Option.filter_some, hpp]
    cases p r'
    · rw [Bool.not_false, if_pos rfl, if_pos rfl, Option.map_some, Option.map_some, hsame]
    · rfl

end Alike

end Table

/-- A new row that is hidden. -/
theorem Table.shown_insertNew {ρ : Type} [Keyed ρ ℤ] {T : Table ρ} {view : ρ → Option α}
    {row : ℤ → ρ} {hrow : ∀ i, key (row i) = i} (h : ∀ i, view (row i) = none) :
    (T.insertNew row hrow).shown view = T.shown view := by
  rw [shown, insertNew, List.filterMap_append, List.filterMap_cons_none (h _), List.filterMap_nil,
    List.append_nil]
  rfl

namespace Table.Alike

variable {ρ : Type} [Keyed ρ ℤ] {view : ρ → α} {T T' : Table ρ}

/-- The engine chooses the next row id by the ids in use. -/
theorem nextId (h : Alike view T T') : T.nextId = T'.nextId := by
  have hperm : (T.rows.map key).Perm (T'.rows.map key) := by
    refine (List.perm_ext_iff_of_nodup T.nodup T'.nodup).mpr fun k => ?_
    rw [List.mem_map, List.mem_map]
    constructor
    · rintro ⟨r, hr, rfl⟩
      obtain ⟨r', hr', hkey, _⟩ := h.exists_mem hr
      exact ⟨r', hr', hkey⟩
    · rintro ⟨r, hr, rfl⟩
      obtain ⟨r', hr', hkey, _⟩ := h.symm.exists_mem hr
      exact ⟨r', hr', hkey⟩
  have hmax : ∀ l l' : List ℤ, l.Perm l' → l.max? = l'.max? := by
    intro l l' hl
    apply Option.ext
    intro m
    rw [List.max?_eq_some_iff, List.max?_eq_some_iff, hl.mem_iff]
    simp only [hl.mem_iff]
  rw [Table.nextId, Table.nextId, hmax _ _ hperm]

/-- The same new row in both tables. -/
theorem insertNew (h : Alike view T T') {row : ℤ → ρ} {hrow : ∀ i, key (row i) = i} :
    Alike view (T.insertNew row hrow) (T'.insertNew row hrow) := by
  intro k
  rw [find?_insertNew, find?_insertNew, h.nextId]
  split
  · rfl
  · exact h k

end Table.Alike

end Foundations
