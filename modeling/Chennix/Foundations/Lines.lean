import Chennix.Foundations.Text
import Mathlib.Data.List.TakeWhile

/-!
# Lines

The lines of a text, and what becomes of them when the text is cut in two.

## Main definitions

* `Text.lines`, `Text.stripPrefix` — the lines of a text, what follows a prefix
* `Text.BetweenLines` — a cut that goes through no line

## Main results

* `Text.splitOn_append` — the line that a cut goes through, and the others
* `Text.filterMap_lines_append` — what is read off the trimmed lines, part by part
-/

namespace Foundations.Text

/-- What follows the prefix, if the text begins with it. -/
def stripPrefix (pre s : String) : Option String := (pre.toList.isPrefixOf? s.toList).map .ofList

/-- The characters without a carriage return at their end. -/
def dropCr (line : List Char) : List Char :=
  if line.getLast? = some '\r' then line.dropLast else line

/-- The lines: each ends at a line feed, which a carriage return may precede. What follows the last
line feed is a line too, unless there is nothing. -/
def lines (s : String) : List String :=
  let pieces := s.toList.splitOn '\n'
  ((pieces.dropLast.map dropCr) ++ (pieces.getLast?.filter (· ≠ [])).toList).map .ofList

/-! ### Characters of lines -/

theorem mem_of_mem_splitOn {sep c : Char} {l piece : List Char} (hpiece : piece ∈ l.splitOn sep)
    (hc : c ∈ piece) : c ∈ l := by
  induction l generalizing piece with
  | nil =>
    rw [List.splitOn_nil, List.mem_singleton] at hpiece
    rw [hpiece] at hc
    exact hc
  | cons d l ih =>
    rw [List.splitOn_cons_eq_if_modifyHead] at hpiece
    split at hpiece
    · rcases List.mem_cons.mp hpiece with rfl | hpiece
      · cases hc
      · exact List.mem_cons_of_mem d (ih hpiece hc)
    · obtain ⟨first, rest, hl⟩ := List.exists_cons_of_ne_nil (List.splitOn_ne_nil sep l)
      rw [hl, List.modifyHead_cons] at hpiece
      rw [hl] at ih
      rcases List.mem_cons.mp hpiece with rfl | hpiece
      · rcases List.mem_cons.mp hc with rfl | hc
        · exact List.mem_cons_self
        · exact List.mem_cons_of_mem d (ih List.mem_cons_self hc)
      · exact List.mem_cons_of_mem d (ih (List.mem_cons_of_mem _ hpiece) hc)

/-- A line stands between two line feeds, but for the carriage return at its end. -/
theorem exists_of_mem_lines {s line : String} (hline : line ∈ lines s) :
    ∃ piece ∈ s.toList.splitOn '\n', line.toList <+: piece := by
  rw [lines] at hline
  obtain ⟨piece, hpiece, rfl⟩ := List.mem_map.mp hline
  rw [String.toList_ofList]
  rcases List.mem_append.mp hpiece with hpiece | hpiece
  · obtain ⟨whole, hwhole, rfl⟩ := List.mem_map.mp hpiece
    refine ⟨whole, List.mem_of_mem_dropLast hwhole, ?_⟩
    rw [dropCr]
    split
    · exact List.dropLast_prefix whole
    · exact List.prefix_rfl
  · have hlast := Option.mem_toList.mp hpiece
    exact ⟨piece, List.mem_of_getLast? (Option.filter_eq_some_iff.mp hlast).1, List.prefix_rfl⟩

/-- A line has no other characters than the text. -/
theorem mem_of_mem_lines {s line : String} (hline : line ∈ lines s) {c : Char}
    (hc : c ∈ line.toList) : c ∈ s.toList := by
  obtain ⟨piece, hpiece, hpre⟩ := exists_of_mem_lines hline
  exact mem_of_mem_splitOn hpiece (hpre.subset hc)

/-! ### Lines one after another -/

/-- The first line, and the others. -/
theorem lines_append_cons {a : List Char} (ha : '\n' ∉ a) (b : List Char) :
    lines (.ofList (a ++ '\n' :: b)) = .ofList (dropCr a) :: lines (.ofList b) := by
  obtain ⟨first, rest, hb⟩ := List.exists_cons_of_ne_nil (List.splitOn_ne_nil '\n' b)
  have hsplit : (a ++ '\n' :: b).splitOn '\n' = a :: first :: rest := by
    rw [List.splitOn_append_cons_self, List.splitOn_eq_singleton ha, hb]
    rfl
  rw [lines, lines, String.toList_ofList, String.toList_ofList, hsplit, hb]
  simp only [List.dropLast_cons_cons, List.map_cons, List.getLast?_cons_cons, List.cons_append]

theorem lines_singleton {b : List Char} (hb : '\n' ∉ b) (hne : b ≠ []) :
    lines (.ofList b) = [.ofList b] := by
  rw [lines, String.toList_ofList, List.splitOn_eq_singleton hb]
  simp [hne]

theorem dropCr_of_notMem {a : List Char} (ha : '\r' ∉ a) : dropCr a = a :=
  if_neg fun h => ha (List.mem_of_getLast? h)

theorem stripPrefix_append (pre s : String) : stripPrefix pre (pre ++ s) = some s := by
  have h : pre.toList.isPrefixOf? (pre ++ s).toList = some s.toList := by
    rw [List.isPrefixOf?_eq_some_iff_append_eq, String.toList_append]
  rw [stripPrefix, h, Option.map_some, String.ofList_toList]

theorem eq_append_of_stripPrefix {pre s r : String} (h : stripPrefix pre s = some r) :
    s = pre ++ r := by
  obtain ⟨m, hm, rfl⟩ := Option.map_eq_some_iff.mp h
  apply String.toList_injective
  rw [String.toList_append, String.toList_ofList]
  exact (List.append_eq_of_isPrefixOf?_eq_some hm).symm

/-! ### Trimming -/

variable {w l : List Char}

theorem trim_ofList_append_left (hw : w.all isWhitespace) :
    trim (.ofList (w ++ l)) = trim (.ofList l) := by
  have hdrop : (w ++ l).dropWhile isWhitespace = l.dropWhile isWhitespace :=
    List.dropWhile_append_of_pos (List.all_eq_true.mp hw)
  rw [trim, trim, trimStart, trimStart, String.toList_ofList, String.toList_ofList, hdrop]

theorem trim_space (s : String) : trim (" " ++ s) = trim s := by
  have hspace : String.ofList ([' '] ++ s.toList) = " " ++ s := by
    apply String.toList_injective
    simp
  calc trim (" " ++ s) = trim (.ofList ([' '] ++ s.toList)) := congrArg trim hspace.symm
    _ = trim (.ofList s.toList) := trim_ofList_append_left (by decide)
    _ = trim s := congrArg trim String.ofList_toList

theorem trim_ofList_append_right (hw : w.all isWhitespace) :
    trim (.ofList (l ++ w)) = trim (.ofList l) := by
  have hend : ∀ m : List Char, (m ++ w).reverse.dropWhile isWhitespace =
      m.reverse.dropWhile isWhitespace := by
    intro m
    rw [List.reverse_append]
    exact List.dropWhile_append_of_pos fun c hc =>
      List.all_eq_true.mp hw c (List.mem_reverse.mp hc)
  rw [trim, trim, trimStart, trimStart, String.toList_ofList, String.toList_ofList,
    List.dropWhile_append, trimEnd, trimEnd, String.toList_ofList, String.toList_ofList]
  split
  · -- Nothing but white space: what is left of `w` is nothing.
    next hempty =>
    have hwnil : w.dropWhile isWhitespace = [] :=
      List.dropWhile_eq_nil_iff.mpr (List.all_eq_true.mp hw)
    rw [List.isEmpty_iff.mp hempty, hwnil]
  · rw [hend]

/-- What a trimmed text begins with stands in the text behind white space. -/
theorem exists_of_stripPrefix_trim {pre r : String}
    (h : stripPrefix pre (trim (.ofList l)) = some r) :
    ∃ w m, w.all isWhitespace ∧ l = w ++ pre.toList ++ m := by
  have htrim : (trim (.ofList l)).toList =
      ((l.dropWhile isWhitespace).reverse.dropWhile isWhitespace).reverse := by
    simp [trim, trimEnd, trimStart]
  have hpre : pre.toList ++ r.toList =
      ((l.dropWhile isWhitespace).reverse.dropWhile isWhitespace).reverse := by
    rw [← htrim, eq_append_of_stripPrefix h, String.toList_append]
  obtain ⟨e, he⟩ : ∃ e, l.dropWhile isWhitespace = pre.toList ++ r.toList ++ e := by
    refine ⟨((l.dropWhile isWhitespace).reverse.takeWhile isWhitespace).reverse, ?_⟩
    rw [hpre, ← List.reverse_append, List.takeWhile_append_dropWhile, List.reverse_reverse]
  refine ⟨l.takeWhile isWhitespace, r.toList ++ e, List.all_takeWhile, ?_⟩
  conv_lhs => rw [← List.takeWhile_append_dropWhile (p := isWhitespace) (l := l), he]
  simp

theorem trim_ofList_dropCr : trim (.ofList (dropCr l)) = trim (.ofList l) := by
  rw [dropCr]
  split
  · next hlast =>
    have hl : l = l.dropLast ++ ['\r'] := by
      obtain ⟨m, rfl⟩ := List.getLast?_eq_some_iff.mp hlast
      rw [List.dropLast_concat]
    conv_rhs => rw [hl]
    exact (trim_ofList_append_right (by decide)).symm
  · rfl

/-! ### Cuts -/

/-- The pieces of a text cut in two: one piece is cut, the others are whole. -/
theorem splitOn_append (c : Char) (as bs : List Char) :
    ∃ init last first rest, as.splitOn c = init ++ [last] ∧ bs.splitOn c = first :: rest ∧
      (as ++ bs).splitOn c = init ++ (last ++ first) :: rest := by
  obtain ⟨first, rest, hbs⟩ := List.exists_cons_of_ne_nil (List.splitOn_ne_nil c bs)
  induction as with
  | nil => exact ⟨[], [], first, rest, rfl, hbs, hbs⟩
  | cons a as ih =>
    obtain ⟨init, last, first', rest', has, hbs', happ⟩ := ih
    rw [List.cons_append, List.splitOn_cons_eq_if_modifyHead, List.splitOn_cons_eq_if_modifyHead,
      has, happ]
    split
    · exact ⟨[] :: init, last, first', rest', rfl, hbs', rfl⟩
    · cases init with
      | nil => exact ⟨[], a :: last, first', rest', rfl, hbs', rfl⟩
      | cons m init => exact ⟨(a :: m) :: init, last, first', rest', rfl, hbs', rfl⟩

/-- A cut through a piece: what stands before it has the pieces before, and the front of that
piece. -/
theorem exists_cut_splitOn {c : Char} {l a b : List Char} {init rest : List (List Char)}
    (h : l.splitOn c = init ++ (a ++ b) :: rest) :
    ∃ s t, l = s ++ t ∧ s.splitOn c = init ++ [a] := by
  induction l generalizing init a with
  | nil =>
    have hnil : a = [] ∧ init = [] := by
      cases init with
      | nil => exact ⟨(List.append_eq_nil_iff.mp (List.cons.inj h).1.symm).1, rfl⟩
      | cons p init => simp at h
    exact ⟨[], [], rfl, by rw [hnil.1, hnil.2]; rfl⟩
  | cons d l ih =>
    rw [List.splitOn_cons_eq_if_modifyHead] at h
    split at h
    · next hd =>
      cases init with
      | nil =>
        obtain rfl := (List.append_eq_nil_iff.mp (List.cons.inj h).1.symm).1
        exact ⟨[], d :: l, rfl, rfl⟩
      | cons p init =>
        obtain ⟨rfl, hl⟩ := List.cons.inj h
        obtain ⟨s, t, rfl, hs⟩ := ih hl
        refine ⟨d :: s, t, rfl, ?_⟩
        rw [List.splitOn_cons_eq_if_modifyHead, if_pos hd, hs, List.cons_append]
    · next hd =>
      obtain ⟨first, others, hl⟩ := List.exists_cons_of_ne_nil (List.splitOn_ne_nil c l)
      rw [hl, List.modifyHead_cons] at h
      cases init with
      | nil =>
        obtain ⟨hfirst, rfl⟩ := List.cons.inj h
        cases a with
        | nil => exact ⟨[], d :: l, rfl, rfl⟩
        | cons x a =>
          obtain ⟨rfl, rfl⟩ := List.cons.inj hfirst
          have hl : l.splitOn c = [] ++ (a ++ b) :: others := hl
          obtain ⟨s, t, rfl, hs⟩ := ih hl
          refine ⟨d :: s, t, rfl, ?_⟩
          rw [List.splitOn_cons_eq_if_modifyHead, if_neg hd, hs, List.nil_append, List.nil_append,
            List.modifyHead_cons]
      | cons p init =>
        obtain ⟨rfl, rfl⟩ := List.cons.inj h
        have hl : l.splitOn c = (first :: init) ++ (a ++ b) :: rest := hl
        obtain ⟨s, t, rfl, hs⟩ := ih hl
        refine ⟨d :: s, t, rfl, ?_⟩
        rw [List.splitOn_cons_eq_if_modifyHead, if_neg hd, hs, List.cons_append,
          List.modifyHead_cons, List.cons_append]

/-- The cut between the two texts goes through no line: what stands on its line is blank before
it, or blank behind it. -/
def BetweenLines (s t : String) : Prop :=
  (∀ last, (s.toList.splitOn '\n').getLast? = some last → last.all isWhitespace) ∨
    ∀ first, (t.toList.splitOn '\n').head? = some first → first.all isWhitespace

variable {α : Type} {f : String → Option α}

/-- What is read off the lines does not depend on how they end. -/
theorem filterMap_lines (htrim : ∀ l m : List Char, trim (.ofList l) = trim (.ofList m) →
      f (.ofList l) = f (.ofList m)) (hempty : f "" = none) (s : String) :
    (lines s).filterMap f = (s.toList.splitOn '\n').filterMap fun l => f (.ofList l) := by
  obtain ⟨init, last, h⟩ : ∃ init last, s.toList.splitOn '\n' = init ++ [last] :=
    ⟨_, _, (List.dropLast_concat_getLast (List.splitOn_ne_nil '\n' s.toList)).symm⟩
  have hcr : ∀ l : List Char, f (.ofList (dropCr l)) = f (.ofList l) :=
    fun l => htrim _ _ trim_ofList_dropCr
  have hlast : ((some last).filter (· ≠ [])).toList.filterMap (fun l => f (.ofList l)) =
      [last].filterMap fun l => f (.ofList l) := by
    cases last with
    | nil =>
      exact (List.filterMap_cons_none (f := fun l => f (.ofList l)) hempty).symm
    | cons c cs => rfl
  rw [lines, h, List.dropLast_concat, List.getLast?_concat, List.filterMap_map,
    List.filterMap_append, List.filterMap_append, List.filterMap_map]
  congr 1
  exact List.filterMap_congr fun l _ => hcr l

/-- **What is read off the trimmed lines of a text is read off its two parts**, where the cut goes
through no line. -/
theorem filterMap_lines_append (htrim : ∀ l m : List Char, trim (.ofList l) = trim (.ofList m) →
      f (.ofList l) = f (.ofList m)) (hempty : f "" = none) {s t : String}
    (h : BetweenLines s t) :
    (lines (s ++ t)).filterMap f = (lines s).filterMap f ++ (lines t).filterMap f := by
  obtain ⟨init, last, first, rest, hs, ht, hst⟩ := splitOn_append '\n' s.toList t.toList
  have hblank : ∀ w : List Char, w.all isWhitespace → f (.ofList w) = none := by
    intro w hw
    have := trim_ofList_append_left (l := []) hw
    rw [List.append_nil] at this
    rw [htrim w [] this]
    exact hempty
  rw [filterMap_lines htrim hempty, filterMap_lines htrim hempty, filterMap_lines htrim hempty,
    String.toList_append, hst, hs, ht, List.filterMap_append, List.filterMap_append,
    List.append_assoc]
  congr 1
  rcases h with hlast | hfirst
  · have hw : last.all isWhitespace := hlast last (by rw [hs, List.getLast?_concat])
    rw [List.filterMap_cons_none (f := fun l => f (.ofList l)) (a := last) (hblank last hw),
      List.filterMap_nil, List.nil_append, List.filterMap_cons, List.filterMap_cons,
      htrim _ _ (trim_ofList_append_left hw)]
  · have hw : first.all isWhitespace := hfirst first (by rw [ht]; rfl)
    rw [List.filterMap_cons_none (f := fun l => f (.ofList l)) (a := first) (hblank first hw),
      List.filterMap_cons, htrim _ _ (trim_ofList_append_right hw), List.filterMap_cons,
      List.filterMap_nil]
    cases f (.ofList last) with
    | none => rfl
    | some a => rfl

end Foundations.Text
