import Mathlib.Data.List.SplitBy
import Mathlib.Tactic.Common

/-!
# Merging neighbours

A list of labelled contents, in which neighbours with the same label are merged into one. The list
falls into segments of items with one label each, and every segment becomes one item.

## Main definitions

* `Merging.absorb`, `Merging.merge` — one item more, and all of them
* `Merging.IsSegments` — the segments a list of items falls into

## Main results

* `Merging.exists_segments` — every list falls into segments
* `Merging.merge_segments` — every segment becomes one item
* `Merging.IsSegments.splitBy` — the segments are the longest runs of items with the same label
* `Merging.isChain_merge`, `Merging.flatMap_merge` — neighbours have different labels, and the
  contents are what they were
-/

namespace Foundations.Merging

variable {κ α β : Type*} [DecidableEq κ]

/-- Append an item, or its contents to those of the last item when the label is the same. -/
def absorb (merged : List (κ × List β)) (item : κ × List β) : List (κ × List β) :=
  match merged.getLast? with
  | some last =>
    if last.1 = item.1 then merged.dropLast ++ [(last.1, last.2 ++ item.2)] else merged ++ [item]
  | none => merged ++ [item]

def merge (items : List (κ × List β)) : List (κ × List β) := items.foldl absorb []

/-- Segments with one label each. Neighbours have different labels. -/
structure IsSegments (label : α → κ) (segments : List (κ × List α)) : Prop where
  nonempty : ∀ s ∈ segments, s.2 ≠ []
  labelled : ∀ s ∈ segments, ∀ a ∈ s.2, label a = s.1
  chain : segments.IsChain fun s s' => s.1 ≠ s'.1

variable {label : α → κ} {contents : α → List β} {segments : List (κ × List α)}

theorem absorb_concat (merged : List (κ × List β)) (last item : κ × List β) :
    absorb (merged ++ [last]) item =
      if last.1 = item.1 then merged ++ [(last.1, last.2 ++ item.2)]
      else merged ++ [last] ++ [item] := by
  rw [absorb, List.getLast?_concat]
  simp only [List.dropLast_concat]

/-- A new label is a new item. -/
theorem absorb_of_ne {merged : List (κ × List β)} {item : κ × List β}
    (h : ∀ last ∈ merged.getLast?, last.1 ≠ item.1) : absorb merged item = merged ++ [item] := by
  rcases List.eq_nil_or_concat merged with rfl | ⟨merged, last, rfl⟩
  · rfl
  · rw [List.concat_eq_append] at h ⊢
    rw [absorb_concat, if_neg (h last (List.getLast?_concat ..))]

/-- Items with the label of the last one add to its contents. -/
theorem foldl_absorb_same (merged : List (κ × List β)) (k : κ) (bs : List β) (items : List α)
    (hlabel : ∀ a ∈ items, label a = k) :
    (items.map fun a => (label a, contents a)).foldl absorb (merged ++ [(k, bs)]) =
      merged ++ [(k, bs ++ items.flatMap contents)] := by
  induction items generalizing bs with
  | nil => rw [List.flatMap_nil, List.append_nil]; rfl
  | cons a items ih =>
    rw [List.map_cons, List.foldl_cons, absorb_concat, if_pos (hlabel a List.mem_cons_self).symm,
      ih _ fun a' ha' => hlabel a' (List.mem_cons_of_mem a ha'), List.flatMap_cons,
      List.append_assoc]

theorem foldl_absorb_segments (h : IsSegments label segments) (merged : List (κ × List β))
    (hlast : ∀ last ∈ merged.getLast?, ∀ s ∈ segments.head?, last.1 ≠ s.1) :
    ((segments.flatMap Prod.snd).map fun a => (label a, contents a)).foldl absorb merged =
      merged ++ segments.map fun s => (s.1, s.2.flatMap contents) := by
  induction segments generalizing merged with
  | nil => rw [List.map_nil, List.append_nil]; rfl
  | cons s segments ih =>
    obtain ⟨k, items⟩ := s
    obtain ⟨a, items, rfl⟩ := List.exists_cons_of_ne_nil (h.nonempty _ List.mem_cons_self)
    have hlabel := h.labelled _ List.mem_cons_self
    have hrest : IsSegments label segments :=
      ⟨fun s hs => h.nonempty s (List.mem_cons_of_mem _ hs),
        fun s hs => h.labelled s (List.mem_cons_of_mem _ hs), h.chain.tail⟩
    have hnew : ∀ last ∈ merged.getLast?, last.1 ≠ (label a, contents a).1 := by
      intro last hmem
      rw [hlabel a List.mem_cons_self]
      exact hlast last hmem _ rfl
    rw [List.flatMap_cons, List.map_append, List.foldl_append, List.map_cons, List.foldl_cons,
      absorb_of_ne hnew, hlabel a List.mem_cons_self,
      foldl_absorb_same _ _ _ _ fun a' ha' => hlabel a' (List.mem_cons_of_mem a ha'),
      ih hrest _ ?_, List.append_assoc]
    · rfl
    · intro last hmem s hs
      rw [List.getLast?_concat] at hmem
      cases hmem
      exact (List.isChain_cons.mp h.chain).1 s hs

/-- **Every segment** becomes one item. -/
theorem merge_segments (h : IsSegments label segments) :
    merge ((segments.flatMap Prod.snd).map fun a => (label a, contents a)) =
      segments.map fun s => (s.1, s.2.flatMap contents) :=
  foldl_absorb_segments h [] fun _ hmem => by cases hmem

/-- **Every list** falls into segments. -/
theorem exists_segments (label : α → κ) (items : List α) :
    ∃ segments, IsSegments label segments ∧ segments.flatMap Prod.snd = items := by
  induction items with
  | nil => exact ⟨[], ⟨List.forall_mem_nil _, List.forall_mem_nil _, List.isChain_nil⟩, rfl⟩
  | cons a items ih =>
    obtain ⟨segments, h, rfl⟩ := ih
    by_cases hsame : ∃ s ∈ segments.head?, s.1 = label a
    · obtain ⟨s, hs, hlabel⟩ := hsame
      obtain ⟨segments, rfl⟩ := List.head?_eq_some_iff.mp hs
      refine ⟨(s.1, a :: s.2) :: segments, ⟨?_, ?_, ?_⟩, rfl⟩
      · exact List.forall_mem_cons.mpr
          ⟨List.cons_ne_nil _ _, (List.forall_mem_cons.mp h.nonempty).2⟩
      · refine List.forall_mem_cons.mpr ⟨?_, (List.forall_mem_cons.mp h.labelled).2⟩
        exact List.forall_mem_cons.mpr ⟨hlabel.symm, (List.forall_mem_cons.mp h.labelled).1⟩
      · exact List.isChain_cons.mpr (List.isChain_cons.mp h.chain)
    · refine ⟨(label a, [a]) :: segments, ⟨?_, ?_, ?_⟩, rfl⟩
      · exact List.forall_mem_cons.mpr ⟨List.cons_ne_nil _ _, h.nonempty⟩
      · refine List.forall_mem_cons.mpr ⟨fun a' ha' => ?_, h.labelled⟩
        rw [List.mem_singleton.mp ha']
      · exact List.isChain_cons.mpr ⟨fun s hs heq => hsame ⟨s, hs, heq.symm⟩, h.chain⟩

/-- **The segments** are the longest runs of items with the same label. -/
theorem IsSegments.splitBy (h : IsSegments label segments) :
    (segments.flatMap Prod.snd).splitBy (fun a a' => label a = label a') =
      segments.map Prod.snd := by
  have hne : ∀ m ∈ segments.map Prod.snd, m ≠ [] := by
    intro m hm
    obtain ⟨s, hs, rfl⟩ := List.mem_map.mp hm
    exact h.nonempty s hs
  refine List.splitBy_eq_iff.mpr ⟨List.flatMap_def, fun hnil => hne _ hnil rfl, fun m hm => ?_, ?_⟩
  · obtain ⟨s, hs, rfl⟩ := List.mem_map.mp hm
    refine List.Pairwise.isChain (List.pairwise_of_forall_mem_list fun a ha a' ha' => ?_)
    exact decide_eq_true ((h.labelled s hs a ha).trans (h.labelled s hs a' ha').symm)
  · refine (List.isChain_map _).mpr (h.chain.imp_of_mem_imp fun s s' hs hs' hlabel => ?_)
    refine ⟨h.nonempty s hs, h.nonempty s' hs', decide_eq_false fun heq => hlabel ?_⟩
    rw [← h.labelled s hs _ (List.getLast_mem (h.nonempty s hs)), heq,
      h.labelled s' hs' _ (List.head_mem (h.nonempty s' hs'))]

/-! ### What merging keeps -/

section Merge

variable (label : α → κ) (contents : α → List β) (items : List α)

/-- Neighbours have different labels. -/
theorem isChain_merge :
    (merge (items.map fun a => (label a, contents a))).IsChain fun x y => x.1 ≠ y.1 := by
  obtain ⟨segments, h, rfl⟩ := exists_segments label items
  rw [merge_segments h]
  exact (List.isChain_map _).mpr h.chain

/-- The contents are what they were, each under its label. -/
theorem flatMap_merge :
    ((merge (items.map fun a => (label a, contents a))).flatMap
        fun x => x.2.map fun b => (x.1, b)) =
      items.flatMap fun a => (contents a).map fun b => (label a, b) := by
  obtain ⟨segments, h, rfl⟩ := exists_segments label items
  rw [merge_segments h, List.flatMap_map, List.flatMap_assoc]
  refine List.flatMap_congr fun s hs => ?_
  rw [List.map_flatMap]
  refine List.flatMap_congr fun a ha => ?_
  rw [h.labelled s hs a ha]

/-- The first label stays the first. -/
theorem head?_merge :
    (merge (items.map fun a => (label a, contents a))).head?.map Prod.fst =
      items.head?.map label := by
  obtain ⟨segments, h, rfl⟩ := exists_segments label items
  rw [merge_segments h]
  cases segments with
  | nil => rfl
  | cons s segments =>
    obtain ⟨a, rest, heq⟩ := List.exists_cons_of_ne_nil (h.nonempty s List.mem_cons_self)
    rw [List.flatMap_cons, heq]
    have hlabel := h.labelled s List.mem_cons_self a (heq ▸ List.mem_cons_self)
    exact congrArg some hlabel.symm

/-- A label comes from an item. -/
theorem exists_of_mem_merge {x : κ × List β}
    (hx : x ∈ merge (items.map fun a => (label a, contents a))) : ∃ a ∈ items, label a = x.1 := by
  obtain ⟨segments, h, rfl⟩ := exists_segments label items
  rw [merge_segments h] at hx
  obtain ⟨s, hs, rfl⟩ := List.mem_map.mp hx
  obtain ⟨a, rest, heq⟩ := List.exists_cons_of_ne_nil (h.nonempty s hs)
  have ha : a ∈ s.2 := heq ▸ List.mem_cons_self
  exact ⟨a, List.mem_flatMap.mpr ⟨s, hs, ha⟩, h.labelled s hs a ha⟩

theorem forall_label_merge {p : κ → Prop} :
    (∀ x ∈ merge (items.map fun a => (label a, contents a)), p x.1) ↔
      ∀ a ∈ items, p (label a) := by
  obtain ⟨segments, h, rfl⟩ := exists_segments label items
  rw [merge_segments h, List.forall_mem_map]
  constructor
  · intro hall a ha
    obtain ⟨s, hs, ha⟩ := List.mem_flatMap.mp ha
    rw [h.labelled s hs a ha]
    exact hall s hs
  · intro hall s hs
    obtain ⟨a, rest, heq⟩ := List.exists_cons_of_ne_nil (h.nonempty s hs)
    have ha : a ∈ s.2 := heq ▸ List.mem_cons_self
    rw [← h.labelled s hs a ha]
    exact hall a (List.mem_flatMap.mpr ⟨s, hs, ha⟩)

theorem forall_contents_merge {p : β → Prop} :
    (∀ x ∈ merge (items.map fun a => (label a, contents a)), ∀ b ∈ x.2, p b) ↔
      ∀ a ∈ items, ∀ b ∈ contents a, p b := by
  obtain ⟨segments, h, rfl⟩ := exists_segments label items
  rw [merge_segments h, List.forall_mem_map]
  constructor
  · intro hall a ha b hb
    obtain ⟨s, hs, ha⟩ := List.mem_flatMap.mp ha
    exact hall s hs b (List.mem_flatMap.mpr ⟨a, ha, hb⟩)
  · intro hall s hs b hb
    obtain ⟨a, ha, hb⟩ := List.mem_flatMap.mp hb
    exact hall a (List.mem_flatMap.mpr ⟨s, hs, ha⟩) b hb

/-- An item is empty where all items of a run are. -/
theorem forall_ne_nil_merge :
    (∀ x ∈ merge (items.map fun a => (label a, contents a)), x.2 ≠ []) ↔
      ∀ run ∈ items.splitBy (fun a a' => label a = label a'), ∃ a ∈ run, contents a ≠ [] := by
  obtain ⟨segments, h, rfl⟩ := exists_segments label items
  rw [merge_segments h, h.splitBy, List.forall_mem_map, List.forall_mem_map]
  refine forall₂_congr fun s _ => ?_
  rw [Ne, List.flatMap_eq_nil_iff]
  simp only [not_forall, exists_prop, ne_eq]

end Merge

end Foundations.Merging
