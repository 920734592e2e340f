import Chennix.Foundations.Table
import Mathlib.Algebra.Group.Nat.Defs
import Mathlib.Data.List.Sort

/-!
# Orders that are stored as priorities

An order of rows is stored by writing a priority into each of them, and read by sorting. What is
read is what was ordered as long as the priorities increase along the order. A row that is added
comes last if its priority is at least that of the others.

## Main definitions

* `Table.updateEach` — the rows of some names are rewritten, each by its position

## Main results

* `Table.rows_updateEach` — what is in the rows then
* `map_insertionSort_eq` — the order that is read is the one that was written
* `map_insertionSort_ne` — it is not where the priorities fall
* `insertionSort_concat` — a row that comes last
-/

namespace Foundations

variable {ρ κ ι : Type}

namespace Table

variable [Keyed ρ κ] [BEq ι] [LawfulBEq ι]

/-- The rows of each name are rewritten, with the position of the name. -/
def updateEach (name : ρ → ι) (write : ℕ → ρ → ρ) (hwrite : ∀ i r, key (write i r) = key r) :
    ℕ → List ι → Table ρ → Table ρ
  | _, [], T => T
  | i, n :: names, T =>
    updateEach name write hwrite (i + 1) names
      (T.update (fun r => name r == n) (write i) (hwrite i))

/-- Names that occur once: each row is rewritten with the position of its name, if it has one. -/
theorem rows_updateEach {name : ρ → ι} {write : ℕ → ρ → ρ}
    {hwrite : ∀ i r, key (write i r) = key r} (hname : ∀ i r, name (write i r) = name r)
    {names : List ι} (hnodup : names.Nodup) (i : ℕ) (T : Table ρ) :
    (updateEach name write hwrite i names T).rows =
      T.rows.map fun r => if name r ∈ names then write (i + names.idxOf (name r)) r else r := by
  induction names generalizing i T with
  | nil => simp [updateEach]
  | cons n names ih =>
    obtain ⟨hn, hrest⟩ := List.nodup_cons.mp hnodup
    rw [updateEach, ih hrest, update, List.map_map]
    refine List.map_congr_left fun r _ => ?_
    by_cases hr : name r = n
    · simp [hr, hname, hn]
    · have hpos : i + (names.idxOf (name r) + 1) = i + 1 + names.idxOf (name r) := by omega
      simp [hr, List.idxOf_cons_ne names (Ne.symm hr), hpos]

end Table

section Order

variable {le : ρ → ρ → Prop} [DecidableRel le] [Std.Total le] [IsTrans ρ le]

/-- Rows whose priorities are those of their positions are read in their order, where the
priorities increase. -/
theorem map_insertionSort_eq [BEq ι] [LawfulBEq ι] (pos : ℕ → ℤ) {prio : ρ → ℤ}
    (hle : ∀ r r', le r r' → prio r ≤ prio r') {name : ρ → ι} {rows : List ρ} {names : List ι}
    (hnodup : names.Nodup) (hperm : (rows.map name).Perm names)
    (hprio : ∀ r ∈ rows, prio r = pos (names.idxOf (name r)))
    (hpos : ∀ i j, i < j → j < names.length → pos i < pos j) :
    (rows.insertionSort le).map name = names := by
  have hsort := List.perm_insertionSort le rows
  have hsorted : ((rows.insertionSort le).map name).Pairwise fun n n' =>
      names.idxOf n ≤ names.idxOf n' := by
    refine List.pairwise_map.mpr ((List.pairwise_insertionSort le rows).imp_of_mem ?_)
    intro r r' hr hr' hrr'
    rw [hsort.mem_iff] at hr hr'
    by_contra hlt
    have hmem : name r ∈ names := hperm.mem_iff.mp (List.mem_map_of_mem hr)
    have hfall := hpos _ _ (Nat.lt_of_not_le hlt) (List.idxOf_lt_length_of_mem hmem)
    have := hle r r' hrr'
    rw [hprio r hr, hprio r' hr'] at this
    omega
  have hordered : names.Pairwise fun n n' => names.idxOf n ≤ names.idxOf n' := by
    refine List.pairwise_iff_getElem.mpr fun i j hi hj hij => ?_
    rw [hnodup.idxOf_getElem, hnodup.idxOf_getElem]
    exact hij.le
  have hall := (hsort.map name).trans hperm
  refine hall.eq_of_pairwise (fun n n' hn hn' h h' => ?_) hsorted hordered
  exact (List.idxOf_inj (hall.mem_iff.mp hn)).mp (Nat.le_antisymm h h')

/-- Where the priorities of two positions fall, the order is not read. -/
theorem map_insertionSort_ne [BEq ι] [LawfulBEq ι] {prio : ρ → ℤ}
    (hle : ∀ r r', le r r' → prio r ≤ prio r') {name : ρ → ι} {rows : List ρ} {names : List ι}
    (hnodup : names.Nodup) {pos : ℕ → ℤ}
    (hprio : ∀ r ∈ rows, prio r = pos (names.idxOf (name r))) {i j : ℕ} (hij : i < j)
    (hj : j < names.length) (hpos : pos j < pos i) :
    (rows.insertionSort le).map name ≠ names := by
  intro h
  have hsort := List.perm_insertionSort le rows
  have hsorted := List.pairwise_insertionSort le rows
  have hlen : (rows.insertionSort le).length = names.length := by rw [← h, List.length_map]
  have hle' := hle _ _ (List.pairwise_iff_getElem.mp hsorted i j (by omega) (by omega) hij)
  have hat (k : ℕ) (hk : k < (rows.insertionSort le).length) :
      prio (rows.insertionSort le)[k] = pos k := by
    have hname : name (rows.insertionSort le)[k] = names[k] := by
      simp only [← h, List.getElem_map]
    rw [hprio _ (hsort.mem_iff.mp (List.getElem_mem _)), hname, hnodup.idxOf_getElem]
  rw [hat, hat] at hle'
  omega

end Order

theorem orderedInsert_concat {le : ρ → ρ → Prop} [DecidableRel le] {x r : ρ} (h : le x r)
    (rows : List ρ) : (rows ++ [r]).orderedInsert le x = rows.orderedInsert le x ++ [r] := by
  induction rows with
  | nil => simp [h]
  | cons r' rows ih =>
    by_cases hx : le x r'
    · simp [hx]
    · simp [hx, ih]

/-- A row that no other has to stand behind is read last. -/
theorem insertionSort_concat {le : ρ → ρ → Prop} [DecidableRel le] {rows : List ρ} {r : ρ}
    (h : ∀ r' ∈ rows, le r' r) :
    (rows ++ [r]).insertionSort le = rows.insertionSort le ++ [r] := by
  induction rows with
  | nil => rfl
  | cons r' rows ih =>
    rw [List.cons_append, List.insertionSort_cons, ih fun x hx => h x (List.mem_cons_of_mem r' hx),
      orderedInsert_concat (h r' List.mem_cons_self), List.insertionSort_cons]

end Foundations
