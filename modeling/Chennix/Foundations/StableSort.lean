import Mathlib.Data.List.Sort

/-!
# Stable sorting

A list is sorted stably by a key when it is sorted, has the same entries, and those of the same key
stand in the order they had.

## Main definitions

* `SortsBy` — a list is another one, sorted stably by a key

## Main results

* `sortsBy_insertionSort` — insertion sort does it
* `SortsBy.map` — the entries may be looked at through a map
-/

namespace Foundations

variable {α β κ : Type} [LinearOrder κ]

/-- The second list is the first, sorted stably by a key. -/
structure SortsBy (key : α → κ) (l out : List α) : Prop where
  perm : out.Perm l
  sorted : out.Pairwise fun a b => key a ≤ key b
  ties : ∀ k, (out.filter fun a => key a = k) = l.filter fun a => key a = k

/-- **Insertion sort** is stable. -/
theorem sortsBy_insertionSort (key : α → κ) (l : List α) :
    SortsBy key l (l.insertionSort fun a b => key a ≤ key b) := by
  have : Std.Total fun a b : α => key a ≤ key b := ⟨fun a b => le_total (key a) (key b)⟩
  have : IsTrans α fun a b => key a ≤ key b := ⟨fun a b c => le_trans⟩
  have hperm := List.perm_insertionSort (fun a b => key a ≤ key b) l
  refine ⟨hperm, List.pairwise_insertionSort _ l, fun k => ?_⟩
  -- Entries of one key are sorted among themselves, so they come through in their order.
  have hsame : (l.filter fun a => key a = k).Pairwise fun a b => key a ≤ key b := by
    refine List.pairwise_of_forall_mem_list fun a ha b hb => ?_
    have hka : key a = k := by simpa using (List.mem_filter.mp ha).2
    have hkb : key b = k := by simpa using (List.mem_filter.mp hb).2
    exact le_of_eq (hka.trans hkb.symm)
  have hsub := (List.sublist_insertionSort hsame List.filter_sublist).filter fun a => key a = k
  rw [List.filter_filter] at hsub
  simp only [Bool.and_self] at hsub
  exact (hsub.eq_of_length ((hperm.filter _).length_eq.symm)).symm

namespace SortsBy

variable {key : α → κ} {l out : List α}

/-- Sorting the entries under a map that keeps their keys. -/
theorem map {f : α → β} {key' : β → κ} (h : SortsBy key l out)
    (hkey : ∀ a ∈ l, key' (f a) = key a) :
    SortsBy key' (l.map f) (out.map f) where
  perm := h.perm.map f
  sorted := by
    refine List.pairwise_map.mpr (h.sorted.imp_of_mem ?_)
    intro a b ha hb hab
    rwa [hkey a (h.perm.mem_iff.mp ha), hkey b (h.perm.mem_iff.mp hb)]
  ties k := by
    have hfilter : ∀ m : List α, (∀ a ∈ m, a ∈ l) →
        ((m.map f).filter fun b => key' b = k) = (m.filter fun a => key a = k).map f := by
      intro m hm
      rw [List.filter_map]
      congr 1
      refine List.filter_congr fun a ha => ?_
      rw [Function.comp_apply, hkey a (hm a ha)]
    rw [hfilter out fun a ha => h.perm.mem_iff.mp ha, hfilter l fun a ha => ha, h.ties]

end SortsBy

end Foundations
