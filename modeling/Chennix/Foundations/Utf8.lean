import Chennix.Foundations.Json

/-!
# UTF-8

Bytes as text and back, and what is said of bytes that are no text.

## Main definitions

* `Utf8.decode`, `Utf8.encode` — the text of some bytes, the bytes of a text
* `Utf8.errorText` — the message of a failed decoding

## Main results

* `Utf8.decode_encode`, `Utf8.decode_eq_some` — one is the inverse of the other
* `Utf8.decode_append` — texts may be decoded in parts
* `Utf8.isValid_left_iff_right` — a cut of a text's bytes leaves two texts or none
* `Utf8.exists_cut` — a cut that leaves none
-/

namespace Foundations.Utf8

/-- The text of the bytes, if they are one. -/
def decode (bytes : Bytes) : Option String := String.fromUTF8? bytes.toByteArray

def encode (text : String) : Bytes := text.toByteArray.data.toList

/-- `from_utf8(..).is_ok()`. -/
def isValid (bytes : Bytes) : Bool := (decode bytes).isSome

/-! ### Error messages -/

/-- How many bytes are text before the first that is not. -/
def validUpTo (bytes : Bytes) : ℕ :=
  (((List.range (bytes.length + 1)).filter fun k => isValid (bytes.take k)).getLast?).getD 0

def isContinuation (b : UInt8) : Bool := 0x80 ≤ b && b ≤ 0xBF

/-- The beginning of a character of more bytes. -/
def isPartial : Bytes → Bool
  | [b] => 0xC2 ≤ b && b ≤ 0xF4
  | [b, c] =>
    (b == 0xE0 && 0xA0 ≤ c && c ≤ 0xBF) || (0xE1 ≤ b && b ≤ 0xEC && isContinuation c) ||
      (b == 0xED && 0x80 ≤ c && c ≤ 0x9F) || (0xEE ≤ b && b ≤ 0xEF && isContinuation c) ||
      (b == 0xF0 && 0x90 ≤ c && c ≤ 0xBF) || (0xF1 ≤ b && b ≤ 0xF3 && isContinuation c) ||
      (b == 0xF4 && 0x80 ≤ c && c ≤ 0x8F)
  | [b, c, d] => isPartial [b, c] && 0xF0 ≤ b && isContinuation d
  | _ => false

/-- How many bytes are no text from there on; nothing if more bytes could make them one. -/
def errorLen (rest : Bytes) : Option ℕ :=
  if isPartial rest then none
  else some ((((List.range 4).filter fun k => isPartial (rest.take k)).getLast?).getD 1)

/-- The message about bytes that are no text. -/
def errorText (bytes : Bytes) : String :=
  let upTo := validUpTo bytes
  match errorLen (bytes.drop upTo) with
  | some n => "invalid utf-8 sequence of " ++ toString n ++ " bytes from index " ++ toString upTo
  | none => "incomplete utf-8 byte sequence from index " ++ toString upTo

/-! ### Decoding and encoding -/

theorem toByteArray_encode (text : String) : (encode text).toByteArray = text.toByteArray := by
  rw [encode]
  exact ByteArray.ext (by simp)

theorem decode_eq_some {bytes : Bytes} {text : String} :
    decode bytes = some text ↔ encode text = bytes := by
  constructor
  · intro h
    rw [decode, String.fromUTF8?] at h
    split at h
    · obtain rfl := Option.some.inj h
      simp [encode, String.fromUTF8]
    · cases h
  · rintro rfl
    rw [decode, toByteArray_encode, String.fromUTF8?, dif_pos text.isValidUTF8]
    rfl

@[simp] theorem decode_encode (text : String) : decode (encode text) = some text :=
  decode_eq_some.mpr rfl

@[simp] theorem encode_append (s t : String) : encode (s ++ t) = encode s ++ encode t := by
  simp [encode]

@[simp] theorem encode_empty : encode "" = [] := rfl

theorem encode_join (parts : List String) :
    encode (String.join parts) = (parts.map encode).flatten := by
  induction parts with
  | nil => rfl
  | cons part parts ih => rw [String.join_cons, encode_append, ih, List.map_cons, List.flatten_cons]

theorem encode_injective : Function.Injective encode := by
  intro s t h
  have hs := decode_encode s
  rw [h, decode_encode] at hs
  exact (Option.some.inj hs).symm

/-- Parts that are texts make a text. -/
theorem decode_append {bytes bytes' : Bytes} {s t : String} (hs : decode bytes = some s)
    (ht : decode bytes' = some t) : decode (bytes ++ bytes') = some (s ++ t) := by
  obtain rfl := decode_eq_some.mp hs
  obtain rfl := decode_eq_some.mp ht
  rw [← encode_append, decode_encode]

theorem isValid_iff {bytes : Bytes} : isValid bytes ↔ bytes.toByteArray.IsValidUTF8 := by
  rw [isValid, decode, String.fromUTF8?]
  split
  · next h => exact iff_of_true rfl h
  · next h => exact iff_of_false (fun hn => by cases hn) h

theorem length_encode (text : String) : (encode text).length = text.utf8ByteSize := by
  rw [encode, Array.length_toList]
  rfl

/-! ### Cuts -/

/-- The position of a cut of a text's bytes. -/
def cutPos (a : Bytes) : String.Pos.Raw := ⟨a.length⟩

section

variable {text : String} {a b : Bytes} (h : encode text = a ++ b)
include h

theorem cutPos_le : cutPos a ≤ text.rawEndPos := by
  rw [String.Pos.Raw.le_iff, String.byteIdx_rawEndPos, ← length_encode, h, List.length_append]
  exact Nat.le_add_right _ _

theorem isValid_left_iff : isValid a ↔ (cutPos a).IsValid text := by
  rw [String.Pos.Raw.isValid_iff_isValidUTF8_extract_zero, and_iff_right (cutPos_le h), isValid_iff]
  have hextract : text.toByteArray.extract 0 (cutPos a).byteIdx = a.toByteArray := by
    rw [← toByteArray_encode, h]
    exact ByteArray.ext (by simp [cutPos])
  rw [hextract]

theorem isValid_right_iff : isValid b ↔ (cutPos a).IsValid text := by
  rw [String.Pos.Raw.isValid_iff_isValidUTF8_extract_utf8ByteSize, and_iff_right (cutPos_le h),
    isValid_iff]
  have hextract : text.toByteArray.extract (cutPos a).byteIdx text.utf8ByteSize =
      b.toByteArray := by
    rw [← length_encode, ← toByteArray_encode, h]
    exact ByteArray.ext (by simp [cutPos])
  rw [hextract]

/-- Where one part of a text's bytes is a text, so is the other. -/
theorem isValid_left_iff_right : isValid a ↔ isValid b :=
  (isValid_left_iff h).trans (isValid_right_iff h).symm

end

/-- A text with a character of more than one byte has a cut that goes through it. -/
theorem exists_cut {text : String} (h : ∃ c ∈ text.toList, c.utf8Size ≠ 1) :
    ∃ a b, encode text = a ++ b ∧ isValid a = false := by
  obtain ⟨c, hc, hsize⟩ := h
  obtain ⟨u, v, huv⟩ := List.append_of_mem hc
  have htext : text = .ofList u ++ (.singleton c ++ .ofList v) := by
    apply String.toList_injective
    simp [huv]
  have hpos := Char.utf8Size_pos c
  obtain ⟨a, b, hab, ha⟩ : ∃ a b, encode text = a ++ b ∧
      a.length = (String.ofList u).utf8ByteSize + 1 := by
    refine ⟨_, _, (List.take_append_drop ((String.ofList u).utf8ByteSize + 1) _).symm, ?_⟩
    rw [List.length_take, length_encode, htext]
    simp only [String.utf8ByteSize_append, String.utf8ByteSize_singleton]
    omega
  refine ⟨a, b, hab, ?_⟩
  have hbehind : (cutPos a - String.ofList u).byteIdx = 1 := by
    rw [String.Pos.Raw.byteIdx_sub_string, cutPos, ha, Nat.add_sub_cancel_left]
  rw [← Bool.not_eq_true, isValid_left_iff hab, htext, String.Pos.Raw.isValid_append,
    String.Pos.Raw.isValid_append, String.Pos.Raw.isValid_singleton]
  rintro (hu | ⟨-, (hzero | hone) | ⟨hle, -⟩⟩)
  · have hle : a.length ≤ _ := String.Pos.Raw.le_iff.mp hu.le_rawEndPos
    rw [String.byteIdx_rawEndPos, ha] at hle
    omega
  · rw [hzero] at hbehind
    cases hbehind
  · exact hsize (hone.symm.trans hbehind)
  · have hle := String.Pos.Raw.le_iff.mp hle
    rw [hbehind, String.byteIdx_rawEndPos, String.utf8ByteSize_singleton] at hle
    omega

/-- In a text of characters of one byte each there is no cut through one. -/
theorem isValid_of_cut {text : String} (htext : ∀ c ∈ text.toList, c.utf8Size = 1) {a b : Bytes}
    (h : encode text = a ++ b) : isValid a := by
  have hsize : ∀ l : List Char, (∀ c ∈ l, c.utf8Size = 1) →
      (String.ofList l).utf8ByteSize = l.length := by
    intro l hl
    induction l with
    | nil => rfl
    | cons c l ih =>
      rw [← List.singleton_append, String.ofList_append, String.utf8ByteSize_append,
        ih fun d hd => hl d (List.mem_cons_of_mem c hd), ← String.singleton_eq_ofList,
        String.utf8ByteSize_singleton, hl c List.mem_cons_self, List.length_append]
      rfl
  have hle : a.length ≤ text.toList.length := by
    have := congrArg List.length h
    rw [length_encode, List.length_append, ← String.ofList_toList (s := text),
      hsize _ htext] at this
    omega
  rw [isValid_left_iff h, String.Pos.Raw.isValid_iff_exists_take_toList]
  refine ⟨a.length, ?_⟩
  rw [hsize _ fun c hc => htext c (List.mem_of_mem_take hc), List.length_take]
  exact (Nat.min_eq_left hle).symm

/-- Parts of a text's bytes are texts, if every cut is between two characters. -/
theorem isValid_of_parts {text : String} (hcut : ∀ a b, encode text = a ++ b → isValid a)
    {chunks : List Bytes} (h : chunks.flatten = encode text) : ∀ c ∈ chunks, isValid c := by
  intro c hc
  obtain ⟨before, after, rfl⟩ := List.append_of_mem hc
  rw [List.flatten_append, List.flatten_cons, ← List.append_assoc] at h
  have hfront := hcut _ _ h.symm
  rw [isValid, Option.isSome_iff_exists] at hfront
  obtain ⟨front, hfront⟩ := hfront
  have hbefore : isValid before.flatten :=
    hcut _ _ (by rw [List.append_assoc] at h; exact h.symm)
  exact (isValid_left_iff_right (decode_eq_some.mp hfront)).mp hbefore

end Foundations.Utf8
