import Chennix.Core.Executor
import Chennix.Streaming.Agreement
import Chennix.Streaming.Clients

/-!
# What reaches a client of the other format

The machines that translate a stream are picked the wrong way round: an OpenAI client of a Claude
channel gets the machine for OpenAI's streams, a Claude client of an OpenAI channel that for
Claude's. Neither machine finds anything in the other provider's stream, and nothing is written. The
translation of the whole message always gives a reason to finish.

## Main definitions

* `IsChunk` — a chunk of whole lines of the provider's own stream
* `DeliveredAlike` — a client makes the same of the stream and of the whole message

## Main results

* `silent_of_cross` — nothing is written to the client of another format
* `not_deliveredAlike` — no stream agrees with any message
* `lost_hello` — a greeting of Claude's that is lost
-/

namespace Chennix

open Foundations Json

variable {codec : Codec}

/-- No line names an event. -/
def Unnamed (text : List Char) : Prop := ∀ line ∈ text.splitOn '\n', ¬ "event:".toList <+: line

/-- The last line is whole. -/
def EndsLine (text : List Char) : Prop := text = [] ∨ ∃ front, text = front ++ ['\n']

/-- The provider's own lines: there are no `choices` in Claude's data, and OpenAI's events have no
names. -/
def IsOwn (codec : Codec) (provider : ChannelProvider) (text : String) : Prop :=
  match provider with
  | .anthropic => ∀ line ∈ Text.lines text, ∀ data v,
      OpenaiToClaudeStreamState.payload line = some data → codec.fromStr data = .ok v →
      v.get "choices" = none
  | .openaiCompatible => Unnamed text.toList

/-- A chunk of whole lines of the provider's own stream. -/
def IsChunk (codec : Codec) (provider : ChannelProvider) (chunk : Bytes) : Prop :=
  ∃ text, Utf8.decode chunk = some text ∧ EndsLine text.toList ∧ IsOwn codec provider text

/-- A client makes the same of the stream as of the message that is translated as a whole. -/
def DeliveredAlike (codec : Codec) (entryFormat : EntryFormat) (provider : ChannelProvider)
    (created now : UInt64) (chunks : List Bytes) (body : Json) : Prop :=
  ∃ response, translateResponseBack codec now entryFormat provider body = .ok response ∧
    streamedAnswer codec entryFormat
        (streamSseResponse codec entryFormat provider created chunks).1 =
      wholeAnswer codec entryFormat response

/-- Nothing is written but errors. -/
def Silent (sent : List (ProxyResult Bytes)) : Prop := ∀ bytes, .ok bytes ∉ sent

theorem Silent.nil : Silent [] := fun _ h => nomatch h

theorem Silent.error (e : ProxyError) : Silent [.error e] := by
  intro bytes h
  cases List.mem_singleton.mp h

theorem Silent.append {sent sent' : List (ProxyResult Bytes)} (h : Silent sent)
    (h' : Silent sent') : Silent (sent ++ sent') := fun bytes hmem =>
  (List.mem_append.mp hmem).elim (h bytes) (h' bytes)

theorem Silent.delivered {sent : List (ProxyResult Bytes)} (h : Silent sent) :
    delivered sent = [] := by
  cases sent with
  | nil => rfl
  | cons first rest =>
    cases first with
    | error e => rfl
    | ok bytes => exact absurd List.mem_cons_self (h bytes)

/-! ### Claude's stream in the machine for OpenAI's -/

namespace OpenaiToClaudeStreamState

variable {s : OpenaiToClaudeStreamState}

/-- Before the message has finished, the step says nothing and does not finish it. -/
def Passive (f : Step) : Prop :=
  ∀ s : OpenaiToClaudeStreamState, s.finished = false →
    (f s).1 = [] ∧ (f s).2.finished = false

theorem Passive.andThen {f g : Step} (hf : Passive f) (hg : Passive g) : Passive (f.andThen g) := by
  intro s hs
  obtain ⟨hnil, hs'⟩ := hf s hs
  obtain ⟨hnil', hs''⟩ := hg _ hs'
  refine ⟨?_, hs''⟩
  rw [Emitter.andThen, hnil, hnil']
  rfl

theorem passive_noteHeader (id model : Option String) : Passive (noteHeader id model) := by
  intro s hs
  rw [noteHeader]
  split
  · exact ⟨rfl, hs⟩
  · exact ⟨rfl, hs⟩

theorem passive_noteUsage (usage : Option Usage) :
    Passive (Emitter.forEach noteUsage usage.toList) := by
  intro s hs
  cases usage with
  | none => exact ⟨rfl, hs⟩
  | some usage => exact ⟨rfl, hs⟩

theorem passive_flush : Passive flush := by
  intro s hs
  rw [flush, hs]
  exact ⟨rfl, hs⟩

/-- A value without choices is passed over. -/
theorem passive_processJson {v : Json} (hv : v.get "choices" = none) : Passive (processJson v) := by
  have hchoices : v.getArray "choices" = none := by
    rw [getArray, hv]
    rfl
  rw [processJson, hchoices]
  exact (passive_noteHeader _ _).andThen ((passive_noteUsage _).andThen passive_flush)

/-- Nothing comes of lines without choices. -/
theorem processPayloads_passive {payloads : List String}
    (h : ∀ data ∈ payloads, ∀ v, codec.fromStr data = .ok v → v.get "choices" = none)
    (hs : s.finished = false) {events : List ClaudeEvent} {s' : OpenaiToClaudeStreamState}
    (hrun : processPayloads codec payloads s = (.ok events, s')) :
    events = [] ∧ s'.finished = false := by
  induction payloads generalizing s events s' with
  | nil =>
    cases hrun
    exact ⟨rfl, hs⟩
  | cons data payloads ih =>
    have hrest := fun data' hdata' => h data' (List.mem_cons_of_mem data hdata')
    have hline : ∀ line, DataLine.read codec data = .ok line → Passive (processLine line) := by
      intro line hline
      rw [DataLine.read] at hline
      split at hline
      · cases hline
        exact passive_flush
      · split at hline
        · rename_i v hv
          cases hline
          exact passive_processJson (h data List.mem_cons_self v hv)
        · cases hline
    rw [processPayloads] at hrun
    split at hrun
    · cases hrun
    · rename_i line hread
      obtain ⟨hnil, hs₁⟩ := hline line hread s hs
      dsimp only at hrun
      cases hresult : processPayloads codec payloads (processLine line s).2 with
      | mk result s₂ =>
        rw [hresult] at hrun
        obtain ⟨hmap, rfl⟩ := Prod.mk.inj hrun
        cases result with
        | error e => cases hmap
        | ok out =>
          obtain ⟨rfl, hs₂⟩ := ih hrest hs₁ hresult
          cases hmap
          rw [hnil]
          exact ⟨rfl, hs₂⟩

end OpenaiToClaudeStreamState

theorem silent_o2c {chunks : List Bytes} (h : ∀ chunk ∈ chunks, IsChunk codec .anthropic chunk)
    (provider : ChannelProvider) (usageAcc : Usage) {s : OpenaiToClaudeStreamState}
    (hs : s.finished = false) :
    Silent (relayChunks codec provider chunks usageAcc (.o2c s)).1 := by
  induction chunks generalizing usageAcc s with
  | nil => exact .nil
  | cons chunk chunks ih =>
    have hrest := fun chunk' hchunk' => h chunk' (List.mem_cons_of_mem chunk hchunk')
    obtain ⟨text, htext, _, hown⟩ := h chunk List.mem_cons_self
    rw [relayChunks, StreamTranslation.relay]
    cases hprocess : OpenaiToClaudeStreamState.processChunk codec chunk s with
    | mk result s' =>
      cases result with
      | error e => exact .error e
      | ok events =>
        rw [OpenaiToClaudeStreamState.processChunk, htext] at hprocess
        obtain ⟨rfl, hs'⟩ := OpenaiToClaudeStreamState.processPayloads_passive
          (fun data hdata v hv => by
            obtain ⟨line, hline, hpayload⟩ := List.mem_filterMap.mp hdata
            exact hown line hline data v hpayload hv) hs hprocess
        exact ih hrest _ hs'

/-! ### OpenAI's stream in the machine for Claude's -/

theorem Unnamed.append_cons {l r : List Char} :
    Unnamed (l ++ '\n' :: r) ↔ Unnamed l ∧ Unnamed r := by
  rw [Unnamed, List.splitOn_append_cons_self]
  exact List.forall_mem_append

/-- Whole lines are followed by others. -/
theorem Unnamed.append {l r : List Char} (hl : Unnamed l) (hend : EndsLine l) (hr : Unnamed r) :
    Unnamed (l ++ r) := by
  rcases hend with rfl | ⟨front, rfl⟩
  · exact hr
  · rw [List.append_assoc, List.singleton_append]
    exact Unnamed.append_cons.mpr ⟨(Unnamed.append_cons.mp hl).1, hr⟩

theorem EndsLine.append {l r : List Char} (hl : EndsLine l) (hr : EndsLine r) :
    EndsLine (l ++ r) := by
  rcases hr with rfl | ⟨front, rfl⟩
  · rwa [List.append_nil]
  · exact .inr ⟨l ++ front, (List.append_assoc _ _ _).symm⟩

theorem EndsLine.of_append_cons {l r : List Char} (h : EndsLine (l ++ '\n' :: r)) : EndsLine r := by
  rcases List.eq_nil_or_concat r with rfl | ⟨front, c, rfl⟩
  · exact .inl rfl
  · rcases h with h | ⟨whole, h⟩
    · simp at h
    · rw [List.concat_eq_append, ← List.cons_append, ← List.append_assoc] at h
      obtain ⟨_, rfl⟩ := List.append_singleton_inj.mp h
      exact .inr ⟨front, List.concat_eq_append⟩

namespace SseFrameParser

theorem unnamed_new : Unnamed new.buffer.toList := by
  intro line hline
  rw [List.mem_singleton.mp hline]
  decide

/-- A frame whose lines name no event is a message. -/
theorem readFrame_unnamed {l : List Char} (h : Unnamed l) {frame : String × Bytes}
    (hread : readFrame l = some frame) : frame.1 = "message" := by
  have hnone : (Text.lines (.ofList l)).filterMap (Text.stripPrefix "event:") = [] := by
    rw [List.filterMap_eq_nil_iff]
    intro line hline
    by_contra hstrip
    obtain ⟨s, hs⟩ := Option.ne_none_iff_exists'.mp hstrip
    have hbegins : "event:".toList <+: line.toList := by
      rw [Text.eq_append_of_stripPrefix hs, String.toList_append]
      exact List.prefix_append _ _
    obtain ⟨piece, hpiece, hpre⟩ := Text.exists_of_mem_lines hline
    rw [String.toList_ofList] at hpiece
    exact h piece hpiece (hbegins.trans hpre)
  rw [readFrame, hnone] at hread
  split at hread
  · cases hread
  · cases hread
    rfl

/-- What is cut off a buffer of unnamed lines are messages, and what is left is such a buffer. -/
theorem frames_unnamed {l : List Char} (h : Unnamed l) (hend : EndsLine l) :
    (∀ f ∈ (framing.frames l).1, Unnamed f) ∧ Unnamed (framing.frames l).2 ∧
      EndsLine (framing.frames l).2 := by
  induction l using Framing.frames_induction (F := framing) with
  | hnone l hcut =>
    rw [Framing.frames_of_none hcut]
    exact ⟨List.forall_mem_nil _, h, hend⟩
  | hsome l f r hcut ih =>
    have hsplit : l = f ++ '\n' :: '\n' :: r := Framing.cutAtDouble_eq hcut
    rw [hsplit] at h hend
    obtain ⟨hf, hrest⟩ := Unnamed.append_cons.mp h
    have hr : Unnamed r := (Unnamed.append_cons (l := []).mp hrest).2
    obtain ⟨hframes, hleft⟩ := ih hr (EndsLine.of_append_cons (l := []) hend.of_append_cons)
    rw [Framing.frames_eq hcut]
    exact ⟨List.forall_mem_cons.mpr ⟨hf, hframes⟩, hleft⟩

end SseFrameParser

/-- A message says nothing to the machine. -/
theorem processEvent_message {frame : String × Bytes} (h : frame.1 = "message")
    {s s' : ClaudeToOpenaiStreamState} {events : List OpenaiEvent}
    (hrun : ClaudeToOpenaiStreamState.processEvent codec frame s = (.ok events, s')) :
    events = [] := by
  rw [ClaudeToOpenaiStreamState.processEvent] at hrun
  split at hrun
  · cases hrun
  · rename_i e hread
    have hname : e.name = "message" := by
      rw [ClaudeToOpenaiStreamState.ServerEvent.read] at hread
      split at hread
      · cases hread
      · split at hread
        · cases hread
          exact h
        · cases hread
    have hskip : e.process = Emitter.skip := by
      rw [ClaudeToOpenaiStreamState.ServerEvent.process, hname]
      rfl
    rw [hskip] at hrun
    cases hrun
    rfl

theorem silent_relayFrames {frames : List (String × Bytes)}
    (h : ∀ frame ∈ frames, frame.1 = "message") (s : ClaudeToOpenaiStreamState) :
    Silent (StreamTranslation.relayFrames codec frames s).1 := by
  induction frames generalizing s with
  | nil => exact .nil
  | cons frame frames ih =>
    rw [StreamTranslation.relayFrames]
    split
    · exact .error _
    · rename_i events s' hrun
      obtain rfl := processEvent_message (h frame List.mem_cons_self) hrun
      exact ih (fun frame' hframe' => h frame' (List.mem_cons_of_mem frame hframe')) s'

theorem silent_c2o {chunks : List Bytes}
    (h : ∀ chunk ∈ chunks, IsChunk codec .openaiCompatible chunk) (provider : ChannelProvider)
    (usageAcc : Usage) {parser : SseFrameParser} (hbuffer : Unnamed parser.buffer.toList)
    (hend : EndsLine parser.buffer.toList) (s : ClaudeToOpenaiStreamState) :
    Silent (relayChunks codec provider chunks usageAcc (.c2o parser s)).1 := by
  induction chunks generalizing usageAcc parser s with
  | nil => exact .nil
  | cons chunk chunks ih =>
    obtain ⟨text, htext, hwhole, hown⟩ := h chunk List.mem_cons_self
    obtain ⟨hframes, hleft, hend'⟩ := SseFrameParser.frames_unnamed (hbuffer.append hend hown)
      (hend.append hwhole)
    rw [relayChunks, StreamTranslation.relay, SseFrameParser.feed, htext]
    dsimp only
    rw [String.toList_append]
    refine (silent_relayFrames ?_ s).append ?_
    · intro frame hframe
      obtain ⟨l, hl, hread⟩ := List.mem_filterMap.mp hframe
      exact SseFrameParser.readFrame_unnamed (hframes l hl) hread
    · refine ih (fun chunk' hchunk' => h chunk' (List.mem_cons_of_mem chunk hchunk')) _ ?_ ?_ _
      · rwa [String.toList_ofList]
      · rwa [String.toList_ofList]

/-! ### Streams and messages -/

/-- **Nothing is written** to the client of another format. -/
theorem silent_of_cross {provider : ChannelProvider} {chunks : List Bytes}
    (h : ∀ chunk ∈ chunks, IsChunk codec provider chunk) {entryFormat : EntryFormat}
    (hcross : entryFormat.provider ≠ provider) (created : UInt64) :
    Silent (streamSseResponse codec entryFormat provider created chunks).1 := by
  cases provider with
  | anthropic =>
    cases entryFormat with
    | openAI => exact silent_o2c h _ _ rfl
    | claude => exact absurd rfl hcross
  | openaiCompatible =>
    cases entryFormat with
    | openAI => exact absurd rfl hcross
    | claude => exact silent_c2o h _ _ SseFrameParser.unnamed_new (.inl rfl) _

/-- A message that is translated always has a reason to finish. -/
theorem finishReason_wholeAnswer {entryFormat : EntryFormat} {provider : ChannelProvider}
    (hcross : entryFormat.provider ≠ provider) {now : UInt64} {body response : Json}
    (h : translateResponseBack codec now entryFormat provider body = .ok response) :
    (wholeAnswer codec entryFormat response).finishReason ≠ none := by
  cases provider with
  | anthropic =>
    cases entryFormat with
    | openAI =>
      cases h
      simp [wholeAnswer, OpenaiClient.answer, OpenaiMessage.read, choiceOf, getArray, getStr,
        get_ofMembers, asArray, asStr]
    | claude => exact absurd rfl hcross
  | openaiCompatible =>
    cases entryFormat with
    | openAI => exact absurd rfl hcross
    | claude =>
      cases h
      simp [wholeAnswer, ClaudeClient.responseAnswer, getStr, get_ofMembers, asStr]

/-- A client that receives nothing never learns why the message ends. -/
theorem finishReason_streamedAnswer {sent : List (ProxyResult Bytes)} (h : Silent sent)
    (entryFormat : EntryFormat) : (streamedAnswer codec entryFormat sent).finishReason = none := by
  have hnone : streamValues codec [] = [] := rfl
  cases entryFormat with
  | openAI =>
    rw [streamedAnswer, h.delivered, OpenaiClient.read, hnone]
    rfl
  | claude =>
    rw [streamedAnswer, h.delivered, ClaudeClient.read, hnone]
    rfl

/-- **No stream agrees with a message** where the client's format is not the channel's. -/
theorem not_deliveredAlike {provider : ChannelProvider} {chunks : List Bytes}
    (h : ∀ chunk ∈ chunks, IsChunk codec provider chunk) {entryFormat : EntryFormat}
    (hcross : entryFormat.provider ≠ provider) (created now : UInt64) (body : Json) :
    ¬ DeliveredAlike codec entryFormat provider created now chunks body := by
  rintro ⟨response, hresponse, hsame⟩
  refine finishReason_wholeAnswer hcross hresponse ?_
  rw [← hsame]
  exact finishReason_streamedAnswer (silent_of_cross h hcross created) entryFormat

/-! #### A greeting -/

/-- The events of a greeting, each with its name, its JSON text and its JSON. -/
def helloTable : List (String × String × Json) := [
  ("message_start", "\x7b\"message\":\x7b\"usage\":\x7b\"input_tokens\":3\x7d\x7d\x7d",
    ofMembers [("message", ofMembers [("usage", ofMembers [("input_tokens", ofU64 3)])])]),
  ("content_block_start", "\x7b\"content_block\":\x7b\"type\":\"text\"\x7d\x7d",
    ofMembers [("content_block", ofMembers [("type", .string "text")])]),
  ("content_block_delta", "\x7b\"delta\":\x7b\"type\":\"text_delta\",\"text\":\"Hi\"\x7d\x7d",
    ofMembers [("delta", ofMembers [("type", .string "text_delta"), ("text", .string "Hi")])]),
  ("content_block_stop", "\x7b\"index\":0\x7d", ofMembers [("index", ofU64 0)]),
  ("message_delta",
    "\x7b\"delta\":\x7b\"stop_reason\":\"end_turn\"\x7d,\"usage\":\x7b\"output_tokens\":1\x7d\x7d",
    ofMembers [("delta", ofMembers [("stop_reason", .string "end_turn")]),
      ("usage", ofMembers [("output_tokens", ofU64 1)])]),
  ("message_stop", "\x7b\x7d", .object [])]

/-- A codec that reads these events. -/
def helloCodec : Codec where
  fromSlice _ := .error "no event"
  fromStr s := ((helloTable.find? fun e => e.2.1 == s).map fun e => .ok e.2.2).getD
    (.error "no event")
  toStr _ := .ok "\x7b \x7d"
  toVec _ := .ok [0x7b, 0x20, 0x7d]
  display _ := "\x7b \x7d"
  toVec_ok _ := ⟨[0x7b, 0x20, 0x7d], rfl⟩

/-- Each event in a chunk of its own. -/
def helloChunks : List Bytes :=
  helloTable.map fun e => Utf8.encode ("event: " ++ e.1 ++ "\ndata: " ++ e.2.1 ++ "\n\n")

def hello : ClaudeStream helloCodec where
  blocks := [.text "Hi"]
  stopReason := some "end_turn"
  inputTokens := 3
  outputTokens := 1
  body := ofMembers [("content", .array [ofMembers [("type", .string "text"),
      ("text", .string "Hi")]]), ("stop_reason", .string "end_turn"),
    ("usage", ofMembers [("input_tokens", ofU64 3), ("output_tokens", ofU64 1)])]
  events := helloTable.map fun e => ⟨e.1, e.2.2⟩
  whole := by
    refine ⟨⟨_, rfl, .cons ⟨rfl, rfl⟩ .nil⟩, rfl, _, rfl, rfl, rfl⟩
  streamed := by
    have hblock : Delivers (.text "Hi") ((helloTable.map fun e => ⟨e.1, e.2.2⟩).drop 1 |>.take 3) :=
      @Delivers.text _ _ _ [_] ["Hi"] ⟨rfl, rfl⟩ rfl (.cons ⟨_, ⟨rfl, rfl⟩, rfl, rfl⟩ .nil) rfl
    exact ⟨_, [_], _, _, rfl, ⟨rfl, _, _, rfl, rfl, rfl⟩, .cons hblock .nil,
      ⟨rfl, ⟨_, rfl, rfl⟩, _, rfl, rfl⟩, rfl⟩

theorem isChunk_hello : ∀ chunk ∈ helloChunks, IsChunk helloCodec .anthropic chunk := by
  refine List.forall_mem_map.mpr fun e _ => ⟨_, Utf8.decode_encode _, .inr ⟨?_, ?_⟩, ?_⟩
  · exact ("event: " ++ e.1 ++ "\ndata: " ++ e.2.1 ++ "\n").toList
  · simp
  · intro line _ data v _ hv
    have hchoices : ∀ e ∈ helloTable, (e.2.2.get "choices").isNone := by decide +kernel
    have hv : ((helloTable.find? fun e => e.2.1 == data).map fun e => Except.ok e.2.2).getD
        (.error "no event") = .ok v := hv
    cases hfind : helloTable.find? fun e => e.2.1 == data with
    | none =>
      rw [hfind] at hv
      cases hv
    | some e =>
      rw [hfind] at hv
      cases hv
      exact Option.isNone_iff_eq_none.mp (hchoices e (List.mem_of_find?_eq_some hfind))

/-- Events are read from the frames that their texts are written in. -/
theorem mapM_read_encode {codec : Codec} {table : List (String × String × Json)}
    (h : ∀ e ∈ table, codec.fromStr e.2.1 = .ok e.2.2) :
    (table.map fun e => (e.1, Utf8.encode e.2.1)).mapM
      (ClaudeToOpenaiStreamState.ServerEvent.read codec) =
        .ok (table.map fun e => ⟨e.1, e.2.2⟩) := by
  induction table with
  | nil => rfl
  | cons e table ih =>
    have hread : ClaudeToOpenaiStreamState.ServerEvent.read codec (e.1, Utf8.encode e.2.1) =
        .ok ⟨e.1, e.2.2⟩ := by
      simp only [ClaudeToOpenaiStreamState.ServerEvent.read, Utf8.decode_encode,
        h e List.mem_cons_self]
    rw [List.map_cons, List.mapM_cons, hread, ih fun e he => h e (List.mem_cons_of_mem _ he)]
    rfl

/-- The chunks are the events of the greeting. -/
theorem read_hello : (SseFrameParser.feed helloChunks.flatten .new).1.mapM
    (ClaudeToOpenaiStreamState.ServerEvent.read helloCodec) = .ok hello.events := by
  have hwords : ∀ e ∈ helloTable, '\n' ∉ e.1.toList ∧ '\r' ∉ e.1.toList ∧
      Text.trim e.1 = e.1 ∧ e.1 ≠ "" ∧ '\n' ∉ e.2.1.toList ∧ Text.trim e.2.1 = e.2.1 := by
    decide +kernel
  have hfeed : SseFrameParser.feed helloChunks.flatten .new =
      (helloTable.map fun e => (e.1, Utf8.encode e.2.1), .new) := by
    refine SseFrameParser.feed_flatMap fun e he => ?_
    obtain ⟨hname, hcr, htrim, hne, hdata, htrim'⟩ := hwords e he
    exact SseFrameParser.feed_event hname hcr htrim hne hdata htrim'
  rw [hfeed]
  refine mapM_read_encode fun e he => ?_
  simp only [helloTable, List.mem_cons, List.not_mem_nil, or_false] at he
  rcases he with rfl | rfl | rfl | rfl | rfl | rfl <;> rfl

theorem not_deliveredAlike_hello :
    ¬ DeliveredAlike helloCodec .openAI .anthropic 0 0 helloChunks hello.body :=
  not_deliveredAlike isChunk_hello (by decide) 0 0 hello.body

/-- The client receives nothing, and the whole message has a text and a reason to finish. -/
theorem lost_hello : ¬ ∀ (stream : ClaudeStream helloCodec) (chunks : List Bytes),
    (∀ chunk ∈ chunks, IsChunk helloCodec .anthropic chunk) →
    (SseFrameParser.feed chunks.flatten .new).1.mapM
      (ClaudeToOpenaiStreamState.ServerEvent.read helloCodec) = .ok stream.events →
    ∀ created now, DeliveredAlike helloCodec .openAI .anthropic created now chunks stream.body := by
  intro h
  obtain ⟨response, hresponse, hsame⟩ := h hello helloChunks isChunk_hello read_hello 0 0
  have hreason := finishReason_wholeAnswer (by decide) hresponse
  rw [← hsame] at hreason
  exact hreason (finishReason_streamedAnswer
    (silent_o2c isChunk_hello _ _ rfl) .openAI)

end Chennix
