import Chennix.Server.SseFrameParser
import Chennix.Translator.OpenaiToClaudeStream

/-!
# Streams in chunks

The network cuts a stream into chunks anywhere. The frames of a Claude stream are buffered, but a
chunk that is no UTF-8 is dropped, so a cut must not go through a character. The lines of an OpenAI
stream are not buffered at all: a cut must not go through a line.

## Main definitions

* `OpenaiToClaudeStreamState.CutBetweenLines` — no cut goes through a line
* `OpenaiToClaudeStreamState.Converts` — chunks are converted as the whole text is

## Main results

* `SseFrameParser.independent_iff` — streams whose frames do not depend on the cuts
* `SseFrameParser.cut_character` — a frame that is lost
* `OpenaiToClaudeStreamState.converts_between_lines` — lines that are whole, and lines that are not
* `OpenaiToClaudeStreamState.cut_object` — a conversion that fails
-/

namespace Chennix

open Foundations

namespace SseFrameParser

/-! ### Frames of a Claude stream -/

theorem feed_encode (text : String) (p : SseFrameParser) :
    feed (Utf8.encode text) p = ((framing.frames (p.buffer ++ text).toList).1.filterMap readFrame,
      ⟨.ofList (framing.frames (p.buffer ++ text).toList).2⟩) := by
  rw [feed, Utf8.decode_encode]

/-- What is no UTF-8 is dropped. -/
theorem feed_invalid {chunk : Bytes} (h : Utf8.isValid chunk = false) (p : SseFrameParser) :
    feed chunk p = ([], p) := by
  rw [Utf8.isValid, Option.isSome_eq_false_iff, Option.isNone_iff_eq_none] at h
  rw [feed, h]

/-- Two texts one after another. -/
theorem feed_append (s t : String) :
    feed (Utf8.encode (s ++ t)) = (feed (Utf8.encode s)).andThen (feed (Utf8.encode t)) := by
  funext p
  simp only [Emitter.andThen, feed_encode, String.toList_append, String.toList_ofList]
  rw [← List.append_assoc, Framing.frames_append, List.filterMap_append]

/-- No complete frame is left in the buffer. -/
def Settled (p : SseFrameParser) : Prop := framing.cut p.buffer.toList = none

theorem settled_new : Settled new := rfl

theorem settled_feed (text : String) (p : SseFrameParser) :
    Settled (feed (Utf8.encode text) p).2 := by
  rw [feed_encode, Settled, String.toList_ofList]
  exact Framing.cut_rest _

/-- Chunks that are texts are the text of all of them. -/
theorem forEach_feed {p : SseFrameParser} (hp : Settled p) {chunks : List Bytes}
    (hvalid : ∀ c ∈ chunks, Utf8.isValid c) {text : String}
    (h : chunks.flatten = Utf8.encode text) :
    Emitter.forEach feed chunks p = feed (Utf8.encode text) p := by
  induction chunks generalizing p text with
  | nil =>
    obtain rfl := Utf8.encode_injective (h.symm.trans Utf8.encode_empty.symm)
    rw [feed_encode, String.append_empty, Framing.frames_of_none hp]
    simp [Emitter.skip]
  | cons c chunks ih =>
    rw [List.flatten_cons] at h
    obtain ⟨s, hs⟩ := Option.isSome_iff_exists.mp (hvalid c List.mem_cons_self)
    obtain ⟨t, ht⟩ := Option.isSome_iff_exists.mp
      ((Utf8.isValid_left_iff_right h.symm).mp (hvalid c List.mem_cons_self))
    have htext : text = s ++ t := by
      have := Utf8.decode_append hs ht
      rw [h, Utf8.decode_encode] at this
      exact Option.some.inj this
    obtain rfl := Utf8.decode_eq_some.mp hs
    rw [htext, feed_append, Emitter.forEach_cons]
    simp only [Emitter.andThen]
    rw [ih (settled_feed s p) (fun c' hc' => hvalid c' (List.mem_cons_of_mem _ hc'))
      (Utf8.decode_eq_some.mp ht).symm]

/-- A stream with a cut through a character has cuts that change its frames, or what is left of
it: either all of it can be dropped, or all but its last line feed. -/
theorem exists_dependent {text : String} {a b : Bytes} (h : Utf8.encode text = a ++ b)
    (ha : Utf8.isValid a = false) : ∃ chunks, chunks.flatten = Utf8.encode text ∧
      Emitter.forEach feed chunks new ≠ feed (Utf8.encode text) new := by
  have hb : Utf8.isValid b = false := by
    rw [← Bool.not_eq_true, ← Utf8.isValid_left_iff_right h, ha]
    exact Bool.false_ne_true
  by_cases hall : feed (Utf8.encode text) new = ([], new)
  · -- Nothing is left of the stream, so it ends in a line feed.
    have hrest : (framing.frames text.toList).2 = [] := by
      have := congrArg (fun r => r.2.buffer.toList) hall
      simpa [feed_encode, new] using this
    have hne : text.toList ≠ [] := by
      intro hnil
      have hempty : Utf8.encode text = [] := by
        rw [← String.ofList_toList (s := text), hnil, String.ofList_nil, Utf8.encode_empty]
      rw [hempty] at h
      rw [(List.append_eq_nil_iff.mp h.symm).1] at ha
      exact absurd ha (by decide)
    obtain ⟨m, hm⟩ := (Framing.rest_eq_nil hrest).resolve_left hne
    have htext : text = .ofList m ++ "\n" := by
      rw [← String.ofList_toList (s := text), hm, String.ofList_append]
    have hbytes : a ++ b = Utf8.encode (.ofList m) ++ [10] := by
      rw [← h, htext, Utf8.encode_append]
      rfl
    rcases List.eq_nil_or_concat b with rfl | ⟨b', x, rfl⟩
    · exact absurd hb (by decide)
    · rw [List.concat_eq_append, ← List.append_assoc] at hbytes
      obtain ⟨hcut, hx⟩ := List.append_inj' hbytes rfl
      obtain rfl := List.singleton_inj.mp hx
      have hb' : Utf8.isValid b' = false := by
        rw [← Bool.not_eq_true, ← Utf8.isValid_left_iff_right hcut.symm, ha]
        exact Bool.false_ne_true
      refine ⟨[a, b', Utf8.encode "\n"], ?_, ?_⟩
      · have hfeed : Utf8.encode "\n" = [10] := by decide
        rw [h, List.concat_eq_append, hfeed]
        simp
      · rw [hall, Emitter.forEach_cons, Emitter.forEach_cons, Emitter.forEach_singleton]
        simp only [Emitter.andThen, feed_invalid ha, feed_invalid hb']
        decide
  · refine ⟨[a, b], ?_, fun hn => hall (hn.symm.trans ?_)⟩
    · rw [h]
      simp
    · rw [Emitter.forEach_cons, Emitter.forEach_singleton]
      simp only [Emitter.andThen, feed_invalid ha, feed_invalid hb, List.append_nil]

/-- **The frames of a stream do not depend on its cuts** as long as no cut goes through a character;
and there are streams whose frames depend on no cut, just those whose characters all are one
byte. -/
theorem independent_iff (text : String) :
    (∀ chunks, chunks.flatten = Utf8.encode text → (∀ c ∈ chunks, Utf8.isValid c) →
      Emitter.forEach feed chunks new = feed (Utf8.encode text) new) ∧
    ((∀ chunks, chunks.flatten = Utf8.encode text →
      Emitter.forEach feed chunks new = feed (Utf8.encode text) new) ↔
        ∀ c ∈ text.toList, c.utf8Size = 1) := by
  refine ⟨fun chunks h hvalid => forEach_feed settled_new hvalid h, fun hall => ?_, ?_⟩
  · by_contra hwide
    rw [not_forall] at hwide
    obtain ⟨c, hc⟩ := hwide
    rw [Classical.not_imp] at hc
    obtain ⟨a, b, hab, ha⟩ := Utf8.exists_cut ⟨c, hc⟩
    obtain ⟨chunks, hchunks, hne⟩ := exists_dependent hab ha
    exact hne (hall chunks hchunks)
  · intro hnarrow chunks h
    exact forEach_feed settled_new
      (Utf8.isValid_of_parts (fun a b => Utf8.isValid_of_cut hnarrow) h) h

/-- A text is cut in the middle of a character: the frame is lost. -/
theorem cut_character : ¬∀ (text : String) (chunks : List Bytes),
    chunks.flatten = Utf8.encode text →
      Emitter.forEach feed chunks new = feed (Utf8.encode text) new := by
  intro h
  have := h "data: é\n\n" [[100, 97, 116, 97, 58, 32, 0xC3], [0xA9, 10, 10]] (by decide)
  exact absurd this (by decide)

end SseFrameParser

namespace OpenaiToClaudeStreamState

/-! ### Lines of an OpenAI stream -/

/-- The data of a text, line by line. -/
def payloads (text : String) : List String := (Text.lines text).filterMap payload

/-- No cut goes through a line. -/
def CutBetweenLines : List String → Prop
  | [] => True
  | part :: parts => Text.BetweenLines part (String.join parts) ∧ CutBetweenLines parts

theorem payload_congr (l m : List Char) (h : Text.trim (.ofList l) = Text.trim (.ofList m)) :
    payload (.ofList l) = payload (.ofList m) := by
  rw [payload, payload, h]

theorem payloads_join {parts : List String} (h : CutBetweenLines parts) :
    payloads (String.join parts) = parts.flatMap payloads := by
  induction parts with
  | nil => rfl
  | cons part parts ih =>
    rw [String.join_cons, payloads, Text.filterMap_lines_append payload_congr rfl h.1,
      List.flatMap_cons, ← ih h.2]
    rfl

variable {codec : Json.Codec}

theorem readChunk_encode (text : String) :
    readChunk codec (Utf8.encode text) = (payloads text).mapM (DataLine.read codec) := by
  rw [readChunk, Utf8.decode_encode]
  rfl

/-- Where the data of all parts parse, so do those of each. -/
theorem readChunks_parts {parts : List String} {lines : List DataLine}
    (h : (parts.flatMap payloads).mapM (DataLine.read codec) = .ok lines) :
    readChunks codec (parts.map Utf8.encode) = .ok lines := by
  induction parts generalizing lines with
  | nil =>
    cases h
    rfl
  | cons part parts ih =>
    rw [List.flatMap_cons, List.mapM_append] at h
    cases hpart : (payloads part).mapM (DataLine.read codec) with
    | error e =>
      rw [hpart] at h
      cases h
    | ok lines₁ =>
      rw [hpart] at h
      cases hparts : (parts.flatMap payloads).mapM (DataLine.read codec) with
      | error e =>
        rw [hparts] at h
        cases h
      | ok lines₂ =>
        rw [hparts] at h
        cases h
        have hrest := ih hparts
        rw [readChunks] at hrest ⊢
        rw [List.map_cons, List.mapM_cons, readChunk_encode, hpart]
        cases hm : (parts.map Utf8.encode).mapM (readChunk codec) with
        | error e =>
          rw [hm] at hrest
          cases hrest
        | ok ls =>
          rw [hm] at hrest
          cases hrest
          rfl

/-- The chunks are converted as the text in one chunk is, without an error. -/
structure Converts (codec : Json.Codec) (chunks : List Bytes) (text : String) : Prop where
  same : processChunks codec chunks new = processChunks codec [Utf8.encode text] new
  succeeds : ∃ events, (processChunks codec chunks new).1 = .ok events

theorem converts_of_cut {text : String} {lines : List DataLine}
    (h : readChunk codec (Utf8.encode text) = .ok lines) {parts : List String}
    (hjoin : String.join parts = text) (hcut : CutBetweenLines parts) :
    Converts codec (parts.map Utf8.encode) text := by
  have hwhole : readChunks codec [Utf8.encode text] = .ok lines := by
    rw [readChunks, List.mapM_cons, h]
    simp [pure, Except.pure, bind, Except.bind, Except.map]
  have hparts : readChunks codec (parts.map Utf8.encode) = .ok lines := by
    apply readChunks_parts
    rw [← payloads_join hcut, hjoin, ← readChunk_encode, h]
  exact ⟨(processChunks_ok hparts new).trans (processChunks_ok hwhole new).symm, _,
    congrArg Prod.fst (processChunks_ok hparts new)⟩

/-- A stream with data can be cut right after the `data:` of its first data line. -/
theorem exists_cut_data {text : String} (h : payloads text ≠ []) :
    ∃ s t, text = s ++ t ∧ payloads s = [""] := by
  obtain ⟨x, xs, hx⟩ := List.exists_cons_of_ne_nil h
  rw [payloads, Text.filterMap_lines payload_congr rfl, List.filterMap_eq_cons_iff] at hx
  obtain ⟨init, piece, rest, hpieces, hinit, hpiece, -⟩ := hx
  obtain ⟨r, hr, -⟩ := Option.map_eq_some_iff.mp hpiece
  obtain ⟨w, m, hw, rfl⟩ := Text.exists_of_stripPrefix_trim hr
  obtain ⟨s, t, htext, hs⟩ := Text.exists_cut_splitOn hpieces
  have hdata : payload (.ofList (w ++ "data:".toList)) = some "" := by
    rw [payload, Text.trim_ofList_append_left hw]
    decide
  refine ⟨.ofList s, .ofList t, ?_, ?_⟩
  · rw [← String.ofList_append, ← htext, String.ofList_toList]
  · rw [payloads, Text.filterMap_lines payload_congr rfl, String.toList_ofList, hs,
      List.filterMap_append, List.filterMap_eq_nil_iff.mpr hinit, List.nil_append]
    simp only [List.filterMap_cons, hdata, List.filterMap_nil]

/-- There the conversion fails. -/
theorem exists_failing {e : String} (hempty : codec.fromStr "" = .error e) {text : String}
    (h : payloads text ≠ []) : ∃ parts, String.join parts = text ∧
      (processChunks codec (parts.map Utf8.encode) new).1 =
        .error (.translator ("invalid JSON in SSE data: " ++ e)) := by
  obtain ⟨s, t, rfl, hs⟩ := exists_cut_data h
  refine ⟨[s, t], by simp, ?_⟩
  have hread : DataLine.read codec "" =
      .error (.translator ("invalid JSON in SSE data: " ++ e)) := by
    rw [DataLine.read, if_neg (by decide), hempty]
  have hfirst : (processChunk codec (Utf8.encode s) new) =
      (.error (.translator ("invalid JSON in SSE data: " ++ e)), new) := by
    rw [processChunk, Utf8.decode_encode]
    show processPayloads codec (payloads s) new = _
    rw [hs, processPayloads, hread]
  rw [List.map_cons, processChunks, hfirst]

/-- **A stream is converted as if it came in one chunk, and without an error, as long as no cut
goes through a line**; and every stream has cuts with which its conversion fails. -/
theorem converts_between_lines {e : String} (hempty : codec.fromStr "" = .error e) {text : String}
    {lines : List DataLine} (h : readChunk codec (Utf8.encode text) = .ok (lines ++ [.done])) :
    (∀ parts, String.join parts = text → CutBetweenLines parts →
      Converts codec (parts.map Utf8.encode) text) ∧
    ∃ chunks, chunks.flatten = Utf8.encode text ∧ ¬Converts codec chunks text := by
  refine ⟨fun parts hjoin hcut => converts_of_cut h hjoin hcut, ?_⟩
  have hdata : payloads text ≠ [] := by
    intro hnil
    rw [readChunk_encode, hnil] at h
    have := congrArg List.length (Except.ok.inj h)
    simp at this
  obtain ⟨parts, hjoin, hfails⟩ := exists_failing hempty hdata
  refine ⟨parts.map Utf8.encode, ?_, fun hconverts => ?_⟩
  · rw [← hjoin, Utf8.encode_join]
  · obtain ⟨events, hevents⟩ := hconverts.succeeds
    rw [hfails] at hevents
    cases hevents

/-- A codec that reads an empty object. -/
def bracesCodec : Json.Codec where
  fromSlice := fun _ => .error "EOF while parsing a value at line 1 column 0"
  fromStr := fun s =>
    if s = "\x7b\x7d" then .ok (.object [])
    else if s = "\x7b" then .error "EOF while parsing an object at line 1 column 1"
    else .error "EOF while parsing a value at line 1 column 0"
  toStr := fun _ => .ok "null"
  toVec := fun _ => .ok (Utf8.encode "null")
  display := fun _ => "null"
  toVec_ok := fun _ => ⟨Utf8.encode "null", rfl⟩

theorem converts_between_lines_braces : ∃ chunks : List Bytes,
    chunks.flatten = Utf8.encode "data: \x7b\x7d\n\ndata: [DONE]\n\n" ∧
      ¬Converts bracesCodec chunks "data: \x7b\x7d\n\ndata: [DONE]\n\n" :=
  (@converts_between_lines bracesCodec _ rfl _ [.json (.object [])] rfl).2

/-- A chunk ends in the middle of an object. -/
theorem cut_object : ¬∀ (codec : Json.Codec) (text : String) (lines : List DataLine)
    (chunks : List Bytes), readChunk codec (Utf8.encode text) = .ok (lines ++ [.done]) →
      chunks.flatten = Utf8.encode text → Converts codec chunks text := by
  intro h
  obtain ⟨events, hevents⟩ := (h bracesCodec "data: \x7b\x7d\n\ndata: [DONE]\n\n"
    [.json (.object [])] [Utf8.encode "data: \x7b", Utf8.encode "\x7d\n\ndata: [DONE]\n\n"] rfl
    (by decide)).succeeds
  cases hevents

end OpenaiToClaudeStreamState

end Chennix
