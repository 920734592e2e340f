import Chennix.Foundations.Lines
import Chennix.Foundations.Utf8

/-!
# Bytes that may be no text

Any bytes can be shown as text. They fall into units: a character, or the longest beginning of one
that is not completed, or a byte that begins none. Units that are no character are replaced.

## Main definitions

* `Utf8.units` — the characters, and what is replaced as one
* `Utf8.lossy` — the bytes as text

## Main results

* `Utf8.units_append_ascii` — a byte of ASCII is a unit wherever it stands
* `Utf8.splitOn_lossy` — the lines of the text are the lines of the bytes
-/

namespace Foundations.Utf8

/-- The second byte goes on with a character of three bytes or four. -/
def isSecond (b c : UInt8) : Bool :=
  (b == 0xE0 && 0xA0 ≤ c && c ≤ 0xBF) || (0xE1 ≤ b && b ≤ 0xEC && isContinuation c) ||
    (b == 0xED && 0x80 ≤ c && c ≤ 0x9F) || (0xEE ≤ b && b ≤ 0xEF && isContinuation c) ||
    (b == 0xF0 && 0x90 ≤ c && c ≤ 0xBF) || (0xF1 ≤ b && b ≤ 0xF3 && isContinuation c) ||
    (b == 0xF4 && 0x80 ≤ c && c ≤ 0x8F)

/-- The last byte goes on with the character that the others begin. -/
def goesOn : Bytes → Bool
  | [b, c] => (0xC2 ≤ b && b ≤ 0xDF && isContinuation c) || isSecond b c
  | [b, c, d] => isSecond b c && isContinuation d
  | [b, c, d, e] => 0xF0 ≤ b && isSecond b c && isContinuation d && isContinuation e
  | _ => false

/-- A unit ends where the next byte does not go on with the character. -/
def unitsFrom (unit : Bytes) : Bytes → List Bytes
  | [] => [unit]
  | b :: rest =>
    if goesOn (unit ++ [b]) then unitsFrom (unit ++ [b]) rest else unit :: unitsFrom [b] rest

def units : Bytes → List Bytes
  | [] => []
  | b :: rest => unitsFrom [b] rest

/-- A character, or the replacement for what is none. -/
def unitText (unit : Bytes) : String := (decode unit).getD "\uFFFD"

/-- `from_utf8_lossy`. -/
def lossy (bytes : Bytes) : String := .ofList ((units bytes).flatMap fun u => (unitText u).toList)

/-- A character, a character cut short, a byte that begins none, and an encoded surrogate. -/
example : lossy [0x41, 0xC3, 0xA9, 0xE2, 0x82, 0x42, 0xFF, 0xED, 0xA0, 0x80] =
    "Aé\uFFFDB\uFFFD\uFFFD\uFFFD\uFFFD" := by decide +kernel

/-! ### ASCII -/

theorem isContinuation_ascii {x : UInt8} (hx : x < 0x80) : isContinuation x = false := by
  rw [isContinuation, Bool.and_eq_false_iff]
  exact .inl (decide_eq_false (UInt8.not_le.mpr hx))

theorem isSecond_ascii {b x : UInt8} (hx : b < 0x80 ∨ x < 0x80) : isSecond b x = false := by
  simp only [isSecond, isContinuation]
  grind

/-- A byte of ASCII goes on with nothing. -/
theorem goesOn_concat {x : UInt8} (hx : x < 0x80) (unit : Bytes) :
    goesOn (unit ++ [x]) = false := by
  have hcont := isContinuation_ascii hx
  rcases unit with _ | ⟨a, _ | ⟨b, _ | ⟨c, _ | ⟨d, unit⟩⟩⟩⟩
  · rfl
  · simp [goesOn, hcont, isSecond_ascii (.inr hx)]
  · simp [goesOn, hcont]
  · simp [goesOn, hcont]
  · simp [goesOn]

/-- Nothing goes on with a byte of ASCII. -/
theorem goesOn_cons {x b : UInt8} (hx : x < 0x80) : goesOn [x, b] = false := by
  have hlead : decide (0xC2 ≤ x) = false := decide_eq_false (by grind)
  rw [goesOn, hlead, isSecond_ascii (.inl hx)]
  rfl

theorem unitsFrom_append_ascii {x : UInt8} (hx : x < 0x80) (unit l r : Bytes) :
    unitsFrom unit (l ++ x :: r) = unitsFrom unit l ++ units (x :: r) := by
  induction l generalizing unit with
  | nil =>
    rw [List.nil_append, unitsFrom, unitsFrom, goesOn_concat hx]
    rfl
  | cons b l ih =>
    rw [List.cons_append, unitsFrom, unitsFrom]
    split
    · exact ih _
    · rw [ih, List.cons_append]

theorem units_cons_ascii {x : UInt8} (hx : x < 0x80) (r : Bytes) :
    units (x :: r) = [x] :: units r := by
  cases r with
  | nil => rfl
  | cons b r =>
    show unitsFrom [x] (b :: r) = _
    rw [unitsFrom]
    exact if_neg (by rw [List.singleton_append, goesOn_cons hx]; exact Bool.false_ne_true)

/-- **A byte of ASCII** is a unit wherever it stands. -/
theorem units_append_ascii {x : UInt8} (hx : x < 0x80) (l r : Bytes) :
    units (l ++ x :: r) = units l ++ [x] :: units r := by
  rw [← units_cons_ascii hx]
  cases l with
  | nil => rfl
  | cons b l => exact unitsFrom_append_ascii hx [b] l r

theorem encode_singleton (c : Char) : encode (.singleton c) = String.utf8EncodeChar c := by
  simp [encode, List.utf8Encode_singleton]

/-- The bytes of a character beyond ASCII are beyond ASCII. -/
theorem le_of_mem_utf8EncodeChar {c : Char} (hc : ¬ c.val.toNat ≤ 0x7F) {x : UInt8}
    (h : x ∈ String.utf8EncodeChar c) : 0x80 ≤ x.toNat := by
  unfold String.utf8EncodeChar at h
  dsimp only at h
  rw [if_neg hc] at h
  split at h
  · simp only [List.mem_cons, List.not_mem_nil, or_false] at h
    rcases h with rfl | rfl <;> rw [UInt8.toNat_ofNat'] <;> omega
  split at h
  · simp only [List.mem_cons, List.not_mem_nil, or_false] at h
    rcases h with rfl | rfl | rfl <;> rw [UInt8.toNat_ofNat'] <;> omega
  · simp only [List.mem_cons, List.not_mem_nil, or_false] at h
    rcases h with rfl | rfl | rfl | rfl <;> rw [UInt8.toNat_ofNat'] <;> omega

/-- A character with a byte of ASCII is that byte. -/
theorem encode_singleton_of_mem {c : Char} {x : UInt8} (hx : x < 0x80)
    (h : x ∈ encode (.singleton c)) : encode (.singleton c) = [x] := by
  rw [encode_singleton] at h ⊢
  by_cases hc : c.val.toNat ≤ 0x7F
  · unfold String.utf8EncodeChar at h ⊢
    dsimp only at h ⊢
    rw [if_pos hc] at h ⊢
    rw [List.mem_singleton.mp h]
  · rw [UInt8.lt_iff_toNat_lt] at hx
    exact absurd hx (Nat.not_lt.mpr (le_of_mem_utf8EncodeChar hc h))

/-! ### Bytes and units -/

theorem flatten_unitsFrom (unit l : Bytes) : (unitsFrom unit l).flatten = unit ++ l := by
  induction l generalizing unit with
  | nil => rw [unitsFrom, List.flatten_singleton, List.append_nil]
  | cons b l ih =>
    rw [unitsFrom]
    split
    · rw [ih, List.append_assoc, List.singleton_append]
    · rw [List.flatten_cons, ih, List.singleton_append]

theorem flatten_units (l : Bytes) : (units l).flatten = l := by
  cases l with
  | nil => rfl
  | cons b l => exact flatten_unitsFrom [b] l

theorem toList_lossy (bytes : Bytes) :
    (lossy bytes).toList = (units bytes).flatMap fun u => (unitText u).toList :=
  String.toList_ofList

/-- A character of the text of a unit that is no replacement stands in its bytes. -/
theorem exists_of_unitText {unit : Bytes} {p q : List Char} {c : Char} (hc : c ≠ '\uFFFD')
    (h : (unitText unit).toList = p ++ c :: q) :
    ∃ s t, unit = encode s ++ encode (.singleton c) ++ encode t ∧ t.toList = q := by
  rw [unitText] at h
  cases hdecode : decode unit with
  | none =>
    rw [hdecode] at h
    have hmem : c ∈ ['\uFFFD'] := by
      have hlist : ['\uFFFD'] = p ++ c :: q := h
      rw [hlist]
      exact List.mem_append_right _ List.mem_cons_self
    exact absurd (List.mem_singleton.mp hmem) hc
  | some text =>
    rw [hdecode, Option.getD_some] at h
    have htext : text = .ofList p ++ .singleton c ++ .ofList q := by
      apply String.toList_injective
      simp [h]
    refine ⟨.ofList p, .ofList q, ?_, String.toList_ofList⟩
    rw [← encode_append, ← encode_append, ← htext, decode_eq_some.mp hdecode]

/-- A character of ASCII stands in the bytes as one byte. -/
theorem mem_of_mem_lossy {bytes : Bytes} {c : Char} (hc : c ≠ '\uFFFD') {x : UInt8}
    (hx : encode (.singleton c) = [x]) (h : c ∈ (lossy bytes).toList) : x ∈ bytes := by
  rw [toList_lossy] at h
  obtain ⟨unit, hunit, hmem⟩ := List.mem_flatMap.mp h
  obtain ⟨p, q, hsplit⟩ := List.append_of_mem hmem
  obtain ⟨s, t, rfl, _⟩ := exists_of_unitText hc hsplit
  rw [← flatten_units bytes]
  refine List.mem_flatten.mpr ⟨_, hunit, ?_⟩
  rw [hx]
  simp

/-- A character of ASCII at the end of the text is a byte at the end. -/
theorem exists_of_lossy_concat {bytes : Bytes} {l : List Char} {c : Char} (hc : c ≠ '\uFFFD')
    {x : UInt8} (hx : encode (.singleton c) = [x]) (h : (lossy bytes).toList = l ++ [c]) :
    ∃ front, bytes = front ++ [x] := by
  have hflat : bytes = (units bytes).flatten := (flatten_units bytes).symm
  rw [toList_lossy] at h
  generalize units bytes = us at h hflat
  induction us using List.reverseRecOn generalizing bytes l with
  | nil => simp at h
  | append_singleton us unit ih =>
    rw [List.flatMap_append, List.flatMap_singleton] at h
    rw [List.flatten_concat] at hflat
    rcases List.eq_nil_or_concat (unitText unit).toList with hnil | ⟨p, d, hp⟩
    · rw [hnil, List.append_nil] at h
      have hdecode : unit = [] := by
        rw [unitText] at hnil
        cases hdecode : decode unit with
        | none =>
          rw [hdecode] at hnil
          exact absurd hnil (by decide)
        | some text =>
          rw [hdecode, Option.getD_some] at hnil
          have htext : text = "" := String.toList_injective hnil
          rw [← decode_eq_some.mp hdecode, htext, encode_empty]
      rw [hdecode, List.append_nil] at hflat
      obtain ⟨front, hfront⟩ := ih h hflat
      exact ⟨front, hfront⟩
    · rw [List.concat_eq_append] at hp
      rw [hp, ← List.append_assoc] at h
      obtain ⟨_, rfl⟩ := List.append_singleton_inj.mp h
      obtain ⟨s, t, hunit, ht⟩ := exists_of_unitText hc hp
      have hempty : t = "" := String.toList_injective ht
      rw [hunit, hempty, encode_empty, List.append_nil, hx, ← List.append_assoc] at hflat
      exact ⟨_, hflat⟩

theorem lossy_append_ascii {x : UInt8} (hx : x < 0x80) (l r : Bytes) :
    (lossy (l ++ x :: r)).toList =
      (lossy l).toList ++ ((unitText [x]).toList ++ (lossy r).toList) := by
  rw [toList_lossy, units_append_ascii hx, List.flatMap_append, List.flatMap_cons, toList_lossy,
    toList_lossy]

/-! ### Lines -/

/-- **The lines** of the text are the lines of the bytes. -/
theorem splitOn_lossy (bytes : Bytes) :
    (lossy bytes).toList.splitOn '\n' = (bytes.splitOn 10).map fun line => (lossy line).toList := by
  by_cases h : (10 : UInt8) ∈ bytes
  · obtain ⟨front, back, hbytes, _⟩ := List.eq_append_cons_of_mem h
    have hfeed : (unitText [10]).toList = ['\n'] := by decide
    rw [hbytes, lossy_append_ascii (by decide), hfeed, List.singleton_append,
      List.splitOn_append_cons_self, List.splitOn_append_cons_self, List.map_append,
      splitOn_lossy front, splitOn_lossy back]
  · have hnone : '\n' ∉ (lossy bytes).toList :=
      fun hmem => h (mem_of_mem_lossy (by decide) (by decide) hmem)
    rw [List.splitOn_eq_singleton hnone, List.splitOn_eq_singleton h]
    rfl
termination_by bytes.length
decreasing_by
  all_goals
    rw [hbytes, List.length_append, List.length_cons]
    omega

/-- A place in the bytes where a line begins. -/
def LineStart (front : Bytes) : Prop := front = [] ∨ ∃ before, front = before ++ [10]

theorem exists_of_mem_splitOn {bytes line : Bytes} (h : line ∈ bytes.splitOn 10) :
    10 ∉ line ∧ ∃ front back, bytes = front ++ line ++ back ∧ LineStart front := by
  by_cases hmem : (10 : UInt8) ∈ bytes
  · obtain ⟨first, rest, hbytes, hfirst⟩ := List.eq_append_cons_of_mem hmem
    rw [hbytes, List.splitOn_append_cons_self, List.splitOn_eq_singleton hfirst,
      List.singleton_append, List.mem_cons] at h
    rcases h with rfl | h
    · exact ⟨hfirst, [], 10 :: rest, hbytes, .inl rfl⟩
    · obtain ⟨hline, front, back, hrest, hstart⟩ := exists_of_mem_splitOn h
      refine ⟨hline, first ++ [10] ++ front, back, ?_, ?_⟩
      · rw [hbytes, hrest]
        simp
      · rcases hstart with rfl | ⟨before, rfl⟩
        · exact .inr ⟨first, List.append_nil _⟩
        · exact .inr ⟨first ++ [10] ++ before, (List.append_assoc _ _ _).symm⟩
  · rw [List.splitOn_eq_singleton hmem, List.mem_singleton] at h
    rw [h]
    exact ⟨hmem, [], [], by simp, .inl rfl⟩
termination_by bytes.length
decreasing_by
  rw [hbytes, List.length_append, List.length_cons]
  omega

/-- A line of the text stands in the bytes, at a place where a line begins. -/
theorem exists_of_mem_lines {bytes : Bytes} {line : String} (h : line ∈ Text.lines (lossy bytes)) :
    ∃ front bytes' back, bytes = front ++ bytes' ++ back ∧ LineStart front ∧ 10 ∉ bytes' ∧
      lossy bytes' = line := by
  have hpieces : ∀ piece ∈ (lossy bytes).toList.splitOn '\n',
      ∃ front bytes' back, bytes = front ++ bytes' ++ back ∧ LineStart front ∧ 10 ∉ bytes' ∧
        (lossy bytes').toList = piece := by
    intro piece hpiece
    rw [splitOn_lossy] at hpiece
    obtain ⟨bytes', hmem, rfl⟩ := List.mem_map.mp hpiece
    obtain ⟨hfeed, front, back, hsplit, hstart⟩ := exists_of_mem_splitOn hmem
    exact ⟨front, bytes', back, hsplit, hstart, hfeed, rfl⟩
  rw [Text.lines] at h
  obtain ⟨piece, hpiece, rfl⟩ := List.mem_map.mp h
  rcases List.mem_append.mp hpiece with hpiece | hpiece
  · obtain ⟨whole, hwhole, rfl⟩ := List.mem_map.mp hpiece
    obtain ⟨front, bytes', back, hsplit, hstart, hfeed, hlossy⟩ :=
      hpieces whole (List.mem_of_mem_dropLast hwhole)
    rw [Text.dropCr]
    split
    · -- The carriage return is cut off with what follows the line.
      rename_i hlast
      obtain ⟨chars, hchars⟩ := List.getLast?_eq_some_iff.mp hlast
      rw [hchars, List.dropLast_concat]
      obtain ⟨line, rfl⟩ := exists_of_lossy_concat (x := 13) (by decide) (by decide)
        (hlossy.trans hchars)
      have hline : (lossy line).toList = chars := by
        rw [hchars, lossy_append_ascii (by decide), ← List.append_assoc] at hlossy
        have hreturn : (unitText [13]).toList ++ (lossy []).toList = ['\r'] := by decide
        rw [List.append_assoc, hreturn] at hlossy
        exact (List.append_singleton_inj.mp hlossy).1
      refine ⟨front, line, [13] ++ back, by rw [hsplit]; simp, hstart, ?_, ?_⟩
      · exact fun hmem => hfeed (List.mem_append_left _ hmem)
      · exact String.toList_injective (hline.trans String.toList_ofList.symm)
    · exact ⟨front, bytes', back, hsplit, hstart, hfeed,
        String.toList_injective (hlossy.trans String.toList_ofList.symm)⟩
  · have hlast := Option.mem_toList.mp hpiece
    obtain ⟨front, bytes', back, hsplit, hstart, hfeed, hlossy⟩ :=
      hpieces piece (List.mem_of_getLast? (Option.filter_eq_some_iff.mp hlast).1)
    exact ⟨front, bytes', back, hsplit, hstart, hfeed,
      String.toList_injective (hlossy.trans String.toList_ofList.symm)⟩

/-- What stands behind the last line feed is the last line. -/
theorem exists_lines_append {front line : Bytes} (hstart : LineStart front) (hline : 10 ∉ line)
    (hne : lossy line ≠ "") :
    ∃ before, Text.lines (lossy (front ++ line)) = before ++ [lossy line] := by
  have hpieces : ∃ init, (lossy (front ++ line)).toList.splitOn '\n' =
      init ++ [(lossy line).toList] := by
    rw [splitOn_lossy]
    rcases hstart with rfl | ⟨before, rfl⟩
    · exact ⟨[], by rw [List.nil_append, List.splitOn_eq_singleton hline]; rfl⟩
    · refine ⟨(before.splitOn 10).map fun line => (lossy line).toList, ?_⟩
      rw [List.append_assoc, List.singleton_append, List.splitOn_append_cons_self,
        List.splitOn_eq_singleton hline, List.map_append]
      rfl
  obtain ⟨init, hinit⟩ := hpieces
  have hchars : (lossy line).toList ≠ [] := fun h => hne (String.toList_injective h)
  refine ⟨(init.map Text.dropCr).map .ofList, ?_⟩
  rw [Text.lines, hinit, List.dropLast_concat, List.getLast?_concat, List.map_append]
  simp [Option.filter_some, hchars]

end Foundations.Utf8
