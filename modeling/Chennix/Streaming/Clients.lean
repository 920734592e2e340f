import Chennix.Server.StreamResponse
import Chennix.Streaming.Answers
import Chennix.Streaming.Chunking

/-!
# What clients read off the bytes of a stream

A client cuts the bytes it receives into frames, reads the JSON in each, and puts a message together
in its own format. What the message says can be compared with a response that arrives whole.

## Main definitions

* `Answer` — what a message says, whatever its format
* `OpenaiClient.read`, `ClaudeClient.read` — the message in the bytes of a stream
* `wholeAnswer`, `streamedAnswer` — the answer in a response, the answer in a stream

## Main results

* `ClaudeEvent.read_data` — an event is read back from its JSON
* `OpenaiClient.read_bytes`, `ClaudeClient.read_bytes` — what a machine writes is read as it is
-/

namespace Chennix

open Foundations Json

/-- What a message says: its text, its reasoning, its tool calls with their arguments as JSON, and
why it ends. -/
structure Answer where
  text : String
  reasoning : String
  toolCalls : List (String × String × Option Json)
  finishReason : Option String

/-! ### Claude's events in JSON -/

def ContentBlock.read (block : Json) : Option ContentBlock :=
  match block.getStr "type" with
  | some "text" => some .text
  | some "thinking" => some .thinking
  | some "tool_use" => (block.getStr "id").bind fun id => (block.getStr "name").map (.toolUse id)
  | _ => none

def BlockDelta.read (delta : Json) : Option BlockDelta :=
  match delta.getStr "type" with
  | some "text_delta" => (delta.getStr "text").map .text
  | some "thinking_delta" => (delta.getStr "thinking").map .thinking
  | some "input_json_delta" => (delta.getStr "partial_json").map .inputJson
  | _ => none

/-- The index of a block. -/
def blockIndex (v : Json) : Int32 := (((v.get "index").bind asI64).getD 0).toInt32

/-- The event with this JSON, if it is one. -/
def ClaudeEvent.read (v : Json) : Option ClaudeEvent :=
  match v.getStr "type" with
  | some "message_start" => (v.get "message").bind fun message =>
      (message.getStr "id").bind fun id => (message.getStr "model").map (.messageStart id)
  | some "content_block_start" =>
    ((v.get "content_block").bind ContentBlock.read).map (.contentBlockStart (blockIndex v))
  | some "content_block_delta" =>
    ((v.get "delta").bind BlockDelta.read).map (.contentBlockDelta (blockIndex v))
  | some "content_block_stop" => some (.contentBlockStop (blockIndex v))
  | some "message_delta" => ((v.get "delta").bind (·.getStr "stop_reason")).map fun reason =>
      .messageDelta reason (((v.get "usage").bind (·.getU64 "output_tokens")).getD 0)
  | some "message_stop" => some .messageStop
  | _ => none

theorem asI64_ofI32 (n : Int32) : asI64 (ofI32 n) = some n.toInt64 := by
  rw [ofI32]
  by_cases h : 0 ≤ n
  · have hn : n.toInt64.toUInt64.toNat < 2 ^ 63 := by
      have hnat := toNat_toUInt64 h
      have hbound := n.toInt_lt
      omega
    rw [if_pos h, asI64, if_pos hn, Int64.toInt64_toUInt64]
  · rw [if_neg h, asI64]

theorem ContentBlock.read_data (block : ContentBlock) :
    ContentBlock.read block.data = some block := by
  cases block <;> simp [read, data, getStr, get_ofMembers, asStr]

theorem BlockDelta.read_data (delta : BlockDelta) : BlockDelta.read delta.data = some delta := by
  cases delta <;> simp [read, data, getStr, get_ofMembers, asStr]

/-- **An event** is read back from its JSON. -/
theorem ClaudeEvent.read_data (e : ClaudeEvent) : ClaudeEvent.read e.data = some e := by
  cases e <;> simp [read, data, members, name, blockIndex, getStr, getU64, get_ofMembers, asStr,
    asU64, ofU64, asI64_ofI32, ContentBlock.read_data, BlockDelta.read_data]

/-! ### Clients -/

variable (codec : Codec)

/-- The JSON values in the frames of the bytes. What is no JSON is passed over, as the end of an
OpenAI stream. -/
def streamValues (bytes : Bytes) : List Json :=
  (SseFrameParser.feed bytes .new).1.filterMap fun frame =>
    (Utf8.decode frame.2).bind fun data => (codec.fromStr data).toOption

namespace OpenaiClient

def read (bytes : Bytes) : OpenaiMessage := .fold ((streamValues codec bytes).flatMap received)

def answer (m : OpenaiMessage) : Answer where
  text := m.content
  reasoning := m.reasoning
  toolCalls := m.toolCalls.map fun call =>
    (call.id, call.name, (codec.fromStr call.arguments).toOption)
  finishReason := m.finishReason

end OpenaiClient

namespace ClaudeClient

def read (bytes : Bytes) : ClaudeMessage :=
  .fold ((streamValues codec bytes).filterMap ClaudeEvent.read)

/-- The input of a tool that came without any piece is the empty object. -/
def answer (m : ClaudeMessage) : Answer where
  text := m.text
  reasoning := m.thinking
  toolCalls := m.tools.map fun tool => (tool.id, tool.name,
    if tool.inputJson = "" then some (.object []) else (codec.fromStr tool.inputJson).toOption)
  finishReason := m.stopReason

/-- The answer in a response that arrives whole. -/
def responseAnswer (v : Json) : Answer :=
  let content := (v.getArray "content").getD []
  { text := String.join (O2C.blockStrings "text" "text" content)
    reasoning := String.join (O2C.blockStrings "thinking" "thinking" content)
    toolCalls := (content.filter fun block => block.getStr "type" = some "tool_use").map
      fun block => ((block.getStr "id").getD "", (block.getStr "name").getD "", block.get "input")
    finishReason := v.getStr "stop_reason" }

end ClaudeClient

/-- The bytes that reach the client: an error breaks the body off. -/
def delivered : List (ProxyResult Bytes) → Bytes
  | .ok bytes :: sent => bytes ++ delivered sent
  | _ => []

/-- The answer in what is sent for a stream. -/
def streamedAnswer (entryFormat : EntryFormat) (sent : List (ProxyResult Bytes)) : Answer :=
  match entryFormat with
  | .openAI => OpenaiClient.answer codec (OpenaiClient.read codec (delivered sent))
  | .claude => ClaudeClient.answer codec (ClaudeClient.read codec (delivered sent))

/-- The answer in a response that arrives whole. -/
def wholeAnswer (entryFormat : EntryFormat) (response : Json) : Answer :=
  match entryFormat with
  | .openAI => OpenaiClient.answer codec (OpenaiMessage.read response)
  | .claude => ClaudeClient.responseAnswer response

/-! ### Frames that are sent -/

namespace SseFrameParser

theorem readFrame_event {name data : String} (hname : '\n' ∉ name.toList)
    (hcr : '\r' ∉ name.toList) (htrim : Text.trim name = name) (hne : name ≠ "")
    (hdata : '\n' ∉ data.toList) (htrim' : Text.trim data = data) :
    readFrame (("event: " ++ name).toList ++ '\n' :: ("data: " ++ data).toList) =
      some (name, Utf8.encode data) := by
  have hline : '\n' ∉ ("event: " ++ name).toList := by simp [hname]
  have hline' : '\n' ∉ ("data: " ++ data).toList := by simp [hdata]
  have hcr' : '\r' ∉ ("event: " ++ name).toList := by simp [hcr]
  have hlines :
      Text.lines (.ofList (("event: " ++ name).toList ++ '\n' :: ("data: " ++ data).toList)) =
        ["event:" ++ (" " ++ name), "data:" ++ (" " ++ data)] := by
    rw [Text.lines_append_cons hline, Text.lines_singleton hline' (by simp),
      Text.dropCr_of_notMem hcr', String.ofList_toList, String.ofList_toList,
      ← String.append_assoc, ← String.append_assoc]
    rfl
  have hevent : Text.stripPrefix "event:" ("data:" ++ (" " ++ data)) = none := by
    simp [Text.stripPrefix, List.isPrefixOf?]
  have hdata' : Text.stripPrefix "data:" ("event:" ++ (" " ++ name)) = none := by
    simp [Text.stripPrefix, List.isPrefixOf?]
  rw [readFrame, hlines]
  simp [hevent, hdata', Text.stripPrefix_append, Text.trim_space, htrim, htrim', hne]

/-- A frame without a name. -/
theorem readFrame_data {data : String} (hdata : '\n' ∉ data.toList)
    (htrim : Text.trim data = data) :
    readFrame ("data: " ++ data).toList = some ("message", Utf8.encode data) := by
  have hline : '\n' ∉ ("data: " ++ data).toList := by simp [hdata]
  have hlines : Text.lines (.ofList ("data: " ++ data).toList) = ["data:" ++ (" " ++ data)] := by
    rw [Text.lines_singleton hline (by simp), String.ofList_toList, ← String.append_assoc]
    rfl
  have hevent : Text.stripPrefix "event:" ("data:" ++ (" " ++ data)) = none := by
    simp [Text.stripPrefix, List.isPrefixOf?]
  rw [readFrame, hlines]
  simp [hevent, Text.stripPrefix_append, Text.trim_space, htrim]

/-- A text that is one frame and its end. -/
theorem feed_frame {text : String} {l : List Char} {frame : String × Bytes}
    (hcut : framing.cut text.toList = some (l, [])) (hread : readFrame l = some frame) :
    feed (Utf8.encode text) new = ([frame], new) := by
  have hframes : framing.frames (new.buffer ++ text).toList = ([l], []) := by
    have htext : new.buffer ++ text = text := String.empty_append
    rw [htext, Framing.frames_eq hcut, Framing.frames_of_none rfl]
  rw [feed_encode, hframes, List.filterMap_cons_some hread]
  rfl

theorem feed_event {name data : String} (hname : '\n' ∉ name.toList)
    (hcr : '\r' ∉ name.toList) (htrim : Text.trim name = name) (hne : name ≠ "")
    (hdata : '\n' ∉ data.toList) (htrim' : Text.trim data = data) :
    feed (Utf8.encode ("event: " ++ name ++ "\ndata: " ++ data ++ "\n\n")) new =
      ([(name, Utf8.encode data)], new) := by
  have hline : '\n' ∉ ("event: " ++ name).toList := by simp [hname]
  have hline' : '\n' ∉ ("data: " ++ data).toList := by simp [hdata]
  refine feed_frame ?_ (readFrame_event hname hcr htrim hne hdata htrim')
  have htext : ("event: " ++ name ++ "\ndata: " ++ data ++ "\n\n").toList =
      ("event: " ++ name).toList ++ ('\n' :: ("data: " ++ data).toList ++ ['\n', '\n']) := by
    simp
  show Framing.cutAtDouble '\n' _ = _
  rw [htext, Framing.cutAtDouble_append_left hline (by simp),
    Framing.cutAtDouble_cons hline' (by simp), Framing.cutAtDouble_append_left hline' (by simp)]
  simp [Framing.cutAtDouble]

theorem feed_data {data : String} (hdata : '\n' ∉ data.toList) (htrim : Text.trim data = data) :
    feed (Utf8.encode ("data: " ++ data ++ "\n\n")) new =
      ([("message", Utf8.encode data)], new) := by
  have hline : '\n' ∉ ("data: " ++ data).toList := by simp [hdata]
  refine feed_frame ?_ (readFrame_data hdata htrim)
  show Framing.cutAtDouble '\n' _ = _
  rw [String.toList_append, Framing.cutAtDouble_append_left hline (by simp)]
  simp [Framing.cutAtDouble]

/-- Frames one after another. -/
theorem feed_flatMap {ι : Type} {text : ι → String} {frame : ι → String × Bytes} {is : List ι}
    (h : ∀ i ∈ is, feed (Utf8.encode (text i)) new = ([frame i], new)) :
    feed (is.flatMap fun i => Utf8.encode (text i)) new = (is.map frame, new) := by
  have hjoin (is : List ι) :
      is.flatMap (fun i => Utf8.encode (text i)) = Utf8.encode (String.join (is.map text)) := by
    rw [Utf8.encode_join, List.flatMap_def, List.map_map]
    rfl
  induction is with
  | nil => rfl
  | cons i is ih =>
    have hrest := ih fun j hj => h j (List.mem_cons_of_mem i hj)
    rw [hjoin] at hrest ⊢
    rw [List.map_cons, String.join_cons, feed_append, Emitter.andThen, h i List.mem_cons_self,
      hrest]
    rfl

end SseFrameParser

/-- The text of the value stands on a line of its own and reads as the value. -/
structure Legible (codec : Codec) (v : Json) : Prop where
  line : '\n' ∉ (codec.display v).toList
  trim : Text.trim (codec.display v) = codec.display v
  read : codec.fromStr (codec.display v) = .ok v

variable {codec}

/-- The names of the events are words. -/
theorem ClaudeEvent.name_word (e : ClaudeEvent) : '\n' ∉ e.name.toList ∧ '\r' ∉ e.name.toList ∧
    Text.trim e.name = e.name ∧ e.name ≠ "" := by
  have hnames : ∀ name ∈ ["message_start", "content_block_start", "content_block_delta",
      "content_block_stop", "message_delta", "message_stop"],
      '\n' ∉ name.toList ∧ '\r' ∉ name.toList ∧ Text.trim name = name ∧ name ≠ "" := by decide
  refine hnames e.name ?_
  cases e <;> simp [name]

/-- The values that clients read are those in the frames that were written. -/
theorem streamValues_flatMap {ι : Type} {text : ι → String} {frame : ι → String × Bytes}
    {is : List ι}
    (h : ∀ i ∈ is, SseFrameParser.feed (Utf8.encode (text i)) .new = ([frame i], .new)) :
    streamValues codec (is.flatMap fun i => Utf8.encode (text i)) = is.filterMap fun i =>
      (Utf8.decode (frame i).2).bind fun data => (codec.fromStr data).toOption := by
  rw [streamValues, SseFrameParser.feed_flatMap h, List.filterMap_map]
  rfl

/-- **A Claude client** makes of the bytes what it makes of the events. -/
theorem ClaudeClient.read_bytes {events : List ClaudeEvent}
    (h : ∀ e ∈ events, Legible codec e.data) :
    ClaudeClient.read codec (events.flatMap (ClaudeEvent.bytes codec)) =
      ClaudeMessage.fold events := by
  have hfeed : ∀ e ∈ events, SseFrameParser.feed (e.bytes codec) .new =
      ([(e.name, Utf8.encode (codec.display e.data))], .new) := by
    intro e he
    obtain ⟨hname, hcr, htrim, hne⟩ := e.name_word
    exact SseFrameParser.feed_event hname hcr htrim hne (h e he).line (h e he).trim
  have hvalues : streamValues codec (events.flatMap (ClaudeEvent.bytes codec)) =
      events.map ClaudeEvent.data := by
    refine (streamValues_flatMap hfeed).trans ?_
    rw [← List.filterMap_eq_map]
    refine List.filterMap_congr fun e he => ?_
    rw [Utf8.decode_encode, Option.bind_some, (h e he).read]
    rfl
  have hread : ClaudeEvent.read ∘ ClaudeEvent.data = some := funext ClaudeEvent.read_data
  rw [ClaudeClient.read, hvalues, List.filterMap_map, hread, List.filterMap_some]

/-- What stands on the data line of a chunk. -/
def OpenaiEvent.text (codec : Codec) : OpenaiEvent → String
  | .chunk c => codec.display c.data
  | .done => "[DONE]"

/-- **An OpenAI client** makes of the bytes what it makes of the chunks. -/
theorem OpenaiClient.read_bytes {events : List OpenaiEvent}
    (h : ∀ c, .chunk c ∈ events → Legible codec c.data) {error : String}
    (hdone : codec.fromStr "[DONE]" = .error error) :
    OpenaiClient.read codec (events.flatMap (OpenaiEvent.bytes codec)) =
      OpenaiMessage.fold (events.flatMap OpenaiEvent.deltas) := by
  have hfeed : ∀ e ∈ events, SseFrameParser.feed (e.bytes codec) .new =
      ([("message", Utf8.encode (e.text codec))], .new) := by
    intro e he
    cases e with
    | chunk c => exact SseFrameParser.feed_data (h c he).line (h c he).trim
    | done =>
      have hline : '\n' ∉ "[DONE]".toList := by decide
      exact SseFrameParser.feed_data hline (by decide)
  have hbytes : ∀ e : OpenaiEvent,
      e.bytes codec = Utf8.encode ("data: " ++ e.text codec ++ "\n\n") := by
    intro e
    cases e <;> rfl
  have hvalues : streamValues codec (events.flatMap (OpenaiEvent.bytes codec)) =
      events.flatMap fun e => (codec.fromStr (e.text codec)).toOption.toList := by
    simp only [hbytes] at hfeed
    rw [funext hbytes, ← List.filterMap_eq_flatMap_toList]
    refine (streamValues_flatMap hfeed).trans ?_
    simp only [Utf8.decode_encode, Option.bind_some]
  rw [OpenaiClient.read, hvalues, List.flatMap_assoc]
  congr 1
  refine List.flatMap_congr fun e he => ?_
  cases e with
  | chunk c =>
    rw [OpenaiEvent.text, (h c he).read]
    exact List.append_nil _
  | done =>
    rw [OpenaiEvent.text, hdone]
    rfl

end Chennix
