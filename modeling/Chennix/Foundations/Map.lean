import Mathlib.Data.List.Nodup
import Mathlib.Logic.Function.Basic
import Mathlib.Tactic.Common

/-!
# Maps

A hash map as what it holds at each key. Two maps are equal when they hold the same.

## Main definitions

* `Map`, `Map.empty`, `Map.insert`, `Map.modify`, `Map.erase` — maps and their updates
* `Map.ofList` — a map from its entries

## Main results

* `Map.ofList_of_mem` — what the map of a list holds at a key whose entries agree
* `Map.mem_of_ofList`, `Map.exists_of_mem` — it holds entries of the list, at each of their keys
* `Map.ofList_index` — the map of an index holds what a search of the rows finds
-/

namespace Foundations

/-- What is held at each key. -/
abbrev Map (κ υ : Type) : Type := κ → Option υ

namespace Map

variable {κ υ : Type} [DecidableEq κ]

def empty : Map κ υ := fun _ => none

def insert (k : κ) (v : υ) (m : Map κ υ) : Map κ υ := Function.update m k (some v)

/-- Change what is held at a key, if anything is. -/
def modify (k : κ) (f : υ → υ) (m : Map κ υ) : Map κ υ := Function.update m k ((m k).map f)

/-- Hold nothing at a key any more. -/
def erase (k : κ) (m : Map κ υ) : Map κ υ := Function.update m k none

/-- The map with the given entries. Where a key occurs twice the later entry counts. -/
def ofList (entries : List (κ × υ)) : Map κ υ :=
  entries.foldl (fun m kv => insert kv.1 kv.2 m) empty

@[simp] theorem insert_self (k : κ) (v : υ) (m : Map κ υ) : m.insert k v k = some v := by
  rw [insert, Function.update_self]

theorem insert_of_ne {k k' : κ} (h : k' ≠ k) (v : υ) (m : Map κ υ) : m.insert k v k' = m k' := by
  rw [insert, Function.update_of_ne h]

@[simp] theorem modify_self (k : κ) (f : υ → υ) (m : Map κ υ) : m.modify k f k = (m k).map f := by
  rw [modify, Function.update_self]

theorem modify_of_ne {k k' : κ} (h : k' ≠ k) (f : υ → υ) (m : Map κ υ) :
    m.modify k f k' = m k' := by
  rw [modify, Function.update_of_ne h]

@[simp] theorem erase_self (k : κ) (m : Map κ υ) : m.erase k k = none := by
  rw [erase, Function.update_self]

theorem erase_of_ne {k k' : κ} (h : k' ≠ k) (m : Map κ υ) : m.erase k k' = m k' := by
  rw [erase, Function.update_of_ne h]

/-- What is held after an erasure was held before. -/
theorem of_erase {k k' : κ} {v : υ} {m : Map κ υ} (h : m.erase k k' = some v) : m k' = some v := by
  by_cases hk : k' = k
  · rw [hk, erase_self] at h
    cases h
  · rwa [erase_of_ne hk] at h

/-- Where all entries of a list at a key agree, the map holds what they say. -/
theorem ofList_of_mem {entries : List (κ × υ)} {k : κ} {v : υ} (h : (k, v) ∈ entries)
    (hagree : ∀ kv ∈ entries, kv.1 = k → kv.2 = v) : ofList entries k = some v := by
  -- The entries are inserted in turn: once the key is there, what it holds stays.
  have hkeep : ∀ (l : List (κ × υ)) (m : Map κ υ), (∀ kv ∈ l, kv.1 = k → kv.2 = v) →
      (m k = some v ∨ (k, v) ∈ l) → l.foldl (fun m kv => insert kv.1 kv.2 m) m k = some v := by
    intro l
    induction l with
    | nil =>
      intro m _ h
      rcases h with h | h
      · exact h
      · cases h
    | cons kv l ih =>
      intro m hl h
      rw [List.foldl_cons]
      refine ih _ (fun kv' h' => hl kv' (List.mem_cons_of_mem _ h')) ?_
      by_cases hk : kv.1 = k
      · left
        rw [hk, insert_self, hl kv List.mem_cons_self hk]
      · rcases h with h | h
        · left
          rw [insert_of_ne (Ne.symm hk)]
          exact h
        · rcases List.mem_cons.mp h with h | h
          · subst h
            exact absurd rfl hk
          · right
            exact h
  exact hkeep entries empty hagree (.inr h)

/-- Where no entry of a list is at a key, the map holds nothing. -/
theorem ofList_of_not_mem {entries : List (κ × υ)} {k : κ} (h : ∀ kv ∈ entries, kv.1 ≠ k) :
    ofList entries k = none := by
  suffices ∀ (l : List (κ × υ)) (m : Map κ υ), (∀ kv ∈ l, kv.1 ≠ k) →
      l.foldl (fun m kv => insert kv.1 kv.2 m) m k = m k from this entries empty h
  intro l
  induction l with
  | nil => exact fun _ _ => rfl
  | cons kv l ih =>
    intro m hl
    rw [List.foldl_cons, ih _ fun kv' h' => hl kv' (List.mem_cons_of_mem _ h')]
    exact insert_of_ne (hl kv List.mem_cons_self).symm _ _

/-- What the map of a list holds is an entry of the list. -/
theorem mem_of_ofList {entries : List (κ × υ)} {k : κ} {v : υ} (h : ofList entries k = some v) :
    (k, v) ∈ entries := by
  suffices ∀ (l : List (κ × υ)) (m : Map κ υ), l.foldl (fun m kv => insert kv.1 kv.2 m) m k =
      some v → m k = some v ∨ (k, v) ∈ l by
    exact (this entries empty h).resolve_left nofun
  intro l
  induction l with
  | nil => exact fun m hm => .inl hm
  | cons kv l ih =>
    intro m hm
    rcases ih (insert kv.1 kv.2 m) hm with hm | hm
    · by_cases hk : k = kv.1
      · subst hk
        rw [insert_self, Option.some.injEq] at hm
        exact .inr (hm ▸ List.mem_cons_self)
      · exact .inl ((insert_of_ne hk _ _).symm.trans hm)
    · exact .inr (List.mem_cons_of_mem _ hm)

/-- Where a list has an entry, its map holds something. -/
theorem exists_of_mem {entries : List (κ × υ)} {k : κ} {v : υ} (h : (k, v) ∈ entries) :
    ∃ v', ofList entries k = some v' := by
  suffices ∀ (l : List (κ × υ)) (m : Map κ υ), ((m k).isSome ∨ ∃ v, (k, v) ∈ l) →
      (l.foldl (fun m kv => insert kv.1 kv.2 m) m k).isSome from
    Option.isSome_iff_exists.mp (this entries empty (.inr ⟨v, h⟩))
  intro l
  induction l with
  | nil => exact fun m hm => hm.resolve_right nofun
  | cons kv l ih =>
    intro m hm
    refine ih (insert kv.1 kv.2 m) ?_
    by_cases hk : k = kv.1
    · subst hk
      exact .inl (by rw [insert_self]; rfl)
    · rw [insert_of_ne hk]
      refine hm.imp_right ?_
      rintro ⟨v, hv⟩
      exact ⟨v, (List.mem_cons.mp hv).resolve_left fun h => hk (congrArg Prod.fst h)⟩

/-- **Indexes.** Where rows have pairwise different keys, the map of what each of them holds, in
whatever order they come, holds what a search of the rows finds. -/
theorem ofList_index {ρ : Type} {rows listed : List ρ} {f : ρ → κ} {g : ρ → υ}
    (hf : (rows.map f).Nodup) (hmem : ∀ r, r ∈ listed ↔ r ∈ rows) (k : κ) :
    ofList (listed.map fun r => (f r, g r)) k = (rows.find? fun r => f r = k).map g := by
  cases hfind : rows.find? fun r => f r = k with
  | none =>
    refine ofList_of_not_mem fun kv hkv => ?_
    obtain ⟨r, hr, rfl⟩ := List.mem_map.mp hkv
    simpa using List.find?_eq_none.mp hfind r ((hmem r).mp hr)
  | some r =>
    have hr : r ∈ rows := List.mem_of_find?_eq_some hfind
    have hk : f r = k := by simpa using List.find?_some hfind
    refine ofList_of_mem (List.mem_map.mpr ⟨r, (hmem r).mpr hr, by rw [hk]⟩) fun kv hkv hkv' => ?_
    obtain ⟨r', hr', rfl⟩ := List.mem_map.mp hkv
    rw [List.inj_on_of_nodup_map hf ((hmem r').mp hr') hr (hkv'.trans hk.symm)]

end Map

end Foundations
