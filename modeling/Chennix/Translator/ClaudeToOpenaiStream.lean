import Chennix.Translator.O2C
import Chennix.Translator.OpenaiToClaudeStream

/-!
# Claude streams for OpenAI clients

The state machine that turns the events of a Claude message into the chunks of an OpenAI chat
completion. A chunk is a value here; `OpenaiEvent.bytes` is what is sent for it.

## Main definitions

* `OpenaiEvent` — the chunks and the end of a stream, with their JSON and their bytes
* `ClaudeToOpenaiStreamState` — what the machine remembers
* `ClaudeToOpenaiStreamState.processJson`, `processEvent` — an event with its JSON, an event with
  its bytes

## Main results

* `ClaudeToOpenaiStreamState.processEvents_ok` — events whose data parse go through `processJson`
-/

namespace Chennix

open Foundations Json

/-! ### OpenAI's chunks -/

/-- What a chunk brings. -/
inductive ChunkBody
  | role
  | content (text : String)
  | reasoning (text : String)
  | toolCallStart (index : Int32) (id name : String)
  | toolCallArgs (index : Int32) (arguments : String)
  | finish (finishReason : String)
  | usage (promptTokens completionTokens : UInt64)
  deriving DecidableEq, Repr

structure OpenaiChunk where
  id : String
  model : String
  created : UInt64
  body : ChunkBody
  deriving DecidableEq, Repr

inductive OpenaiEvent
  | chunk (c : OpenaiChunk)
  | done
  deriving DecidableEq, Repr

/-- The only choice of a chunk. -/
def chunkChoice (delta : List (String × Json)) (finishReason : Json) : Json :=
  ofMembers [("index", ofU64 0), ("delta", ofMembers delta), ("finish_reason", finishReason)]

/-- The members of a chunk that depend on what it brings. -/
def ChunkBody.members : ChunkBody → List (String × Json)
  | .role => [("choices", .array [chunkChoice [("role", .string "assistant")] .null])]
  | .content text => [("choices", .array [chunkChoice [("content", .string text)] .null])]
  | .reasoning text =>
    [("choices", .array [chunkChoice [("reasoning_content", .string text)] .null])]
  | .toolCallStart index id name => [("choices", .array [chunkChoice [("tool_calls",
      .array [ofMembers [("index", ofI32 index), ("id", .string id), ("type", .string "function"),
        ("function", ofMembers [("name", .string name), ("arguments", .string "")])]])] .null])]
  | .toolCallArgs index arguments => [("choices", .array [chunkChoice [("tool_calls",
      .array [ofMembers [("index", ofI32 index),
        ("function", ofMembers [("arguments", .string arguments)])]])] .null])]
  | .finish finishReason => [("choices", .array [chunkChoice [] (.string finishReason)])]
  | .usage promptTokens completionTokens => [("choices", .array []),
      ("usage", ofMembers [("prompt_tokens", ofU64 promptTokens),
        ("completion_tokens", ofU64 completionTokens),
        ("total_tokens", ofU64 (promptTokens + completionTokens))])]

def OpenaiChunk.data (c : OpenaiChunk) : Json :=
  ofMembers ([("id", .string c.id), ("object", .string "chat.completion.chunk"),
    ("created", ofU64 c.created), ("model", .string c.model)] ++ c.body.members)

/-- `make_chunk`, and the end of the stream. -/
def OpenaiEvent.bytes (codec : Codec) : OpenaiEvent → Bytes
  | .chunk c => Utf8.encode ("data: " ++ codec.display c.data ++ "\n\n")
  | .done => Utf8.encode "data: [DONE]\n\n"

/-! ### The machine -/

/-- `ClaudeToOpenaiStreamState`. -/
structure ClaudeToOpenaiStreamState where
  started : Bool
  currentBlockType : Option BlockType
  currentBlockIndex : Int32
  toolCallIndex : Int32
  deferredUsage : Option Usage
  inputTokens : UInt64
  deferredStopReason : Option String
  deferredOutputTokens : UInt64
  currentOaiToolIndex : Option Int32
  messageId : String
  model : String
  created : UInt64
  deriving DecidableEq, Repr

namespace ClaudeToOpenaiStreamState

/-- A machine that is made at a time in seconds since the epoch. -/
def new (created : UInt64) : ClaudeToOpenaiStreamState where
  started := false
  currentBlockType := none
  currentBlockIndex := 0
  toolCallIndex := 0
  deferredUsage := none
  inputTokens := 0
  deferredStopReason := none
  deferredOutputTokens := 0
  currentOaiToolIndex := none
  messageId := ""
  model := ""
  created := created

/-- A step of the machine. -/
abbrev Step : Type := Emitter ClaudeToOpenaiStreamState OpenaiEvent

def makeChunk (s : ClaudeToOpenaiStreamState) (body : ChunkBody) : OpenaiEvent :=
  .chunk ⟨s.messageId, s.model, s.created, body⟩

def emit (body : ChunkBody) : Step := fun s => ([s.makeChunk body], s)

/-- The role comes once, before the first content. -/
def announce : Step := fun s =>
  if s.started then ([], s) else ([s.makeChunk .role], { s with started := true })

/-- The id and the model of a message, and its input tokens if it has a usage. -/
def noteMessage (msg : Json) : Step := fun s =>
  ([], { s with
    messageId := (msg.getStr "id").getD s.messageId
    model := (msg.getStr "model").getD s.model
    inputTokens :=
      ((msg.get "usage").map fun usage => (usage.getU64 "input_tokens").getD 0).getD
        s.inputTokens })

def noteIndex (v : Json) : Step := fun s =>
  ([], { s with currentBlockIndex := (((v.get "index").bind asI64).getD 0).toInt32 })

def enterText : Step := fun s => ([], { s with currentBlockType := some .text })

/-- A tool call gets the next index. -/
def startTool (id name : String) : Step := fun s =>
  ([s.makeChunk (.toolCallStart s.toolCallIndex id name)], { s with
    currentOaiToolIndex := some s.toolCallIndex
    toolCallIndex := s.toolCallIndex + 1
    currentBlockType := some .toolUse })

/-- The start of a block. Nothing is written for thinking. -/
def startBlock (block : Json) : Step :=
  let type := (block.getStr "type").getD ""
  if type = "text" then announce.andThen enterText
  else if type = "tool_use" then
    announce.andThen (startTool ((block.getStr "id").getD "") ((block.getStr "name").getD ""))
  else .skip

/-- Arguments go to the tool call that started last. -/
def addToolArguments (arguments : String) : Step := fun s =>
  match s.currentOaiToolIndex with
  | some index => ([s.makeChunk (.toolCallArgs index arguments)], s)
  | none => ([], s)

/-- A piece of a block. Signatures are not passed on. -/
def addDelta (delta : Json) : Step :=
  let type := (delta.getStr "type").getD ""
  if type = "text_delta" then announce.andThen (emit (.content ((delta.getStr "text").getD "")))
  else if type = "thinking_delta" then
    announce.andThen (Emitter.forEach (fun thinking =>
      if thinking = "" then .skip else emit (.reasoning thinking)) (delta.getStr "thinking").toList)
  else if type = "signature_delta" then .skip
  else if type = "input_json_delta" then addToolArguments ((delta.getStr "partial_json").getD "")
  else .skip

def noteStopReason (delta : Json) : Step := fun s =>
  ([], { s with deferredStopReason := (delta.getStr "stop_reason").or s.deferredStopReason })

def noteOutput (usage : Json) : Step := fun s =>
  let outputTokens := (usage.getU64 "output_tokens").getD 0
  ([], { s with
    deferredOutputTokens := outputTokens
    deferredUsage := some ⟨s.inputTokens, outputTokens, s.inputTokens + outputTokens⟩ })

/-- The finish reason of a stop reason, which is `end_turn` if there is none. -/
def finishReason (stopReason : Option String) : String :=
  match stopReason.getD "end_turn" with
  | "end_turn" => "stop"
  | "tool_use" => "tool_calls"
  | "max_tokens" => "length"
  | "stop_sequence" => "stop"
  | _ => "stop"

/-- The end of the message: its finish reason, its usage if it has any, and the end of the
stream. -/
def stopMessage : Step := fun s =>
  ([s.makeChunk (.finish (finishReason s.deferredStopReason))] ++
    (if 0 < s.inputTokens ∨ 0 < s.deferredOutputTokens then
      [s.makeChunk (.usage s.inputTokens s.deferredOutputTokens)] else []) ++ [.done], s)

/-- What the machine does for an event, once its data have parsed. -/
def processJson (event : String) (v : Json) : Step :=
  if event = "message_start" then Emitter.forEach noteMessage (v.get "message").toList
  else if event = "content_block_start" then
    (noteIndex v).andThen (startBlock (v.getD "content_block" .null))
  else if event = "content_block_delta" then addDelta (v.getD "delta" .null)
  else if event = "message_delta" then
    (Emitter.forEach noteStopReason (v.get "delta").toList).andThen
      (Emitter.forEach noteOutput (v.get "usage").toList)
  else if event = "message_stop" then stopMessage
  else .skip

/-! ### Events as they arrive -/

/-- An event with its JSON. -/
structure ServerEvent where
  name : String
  data : Json

def ServerEvent.process (e : ServerEvent) : Step := processJson e.name e.data

variable (codec : Codec)

/-- The name of an event and its bytes. -/
def ServerEvent.read (frame : String × Bytes) : ProxyResult ServerEvent :=
  match Utf8.decode frame.2 with
  | none => .error (.translator ("invalid utf8 in SSE data: " ++ Utf8.errorText frame.2))
  | some data =>
    match codec.fromStr data with
    | .ok v => .ok ⟨frame.1, v⟩
    | .error e => .error (.translator ("invalid JSON in SSE data: " ++ e))

/-- `process_event`. -/
def processEvent (frame : String × Bytes) (s : ClaudeToOpenaiStreamState) :
    ProxyResult (List OpenaiEvent) × ClaudeToOpenaiStreamState :=
  match ServerEvent.read codec frame with
  | .error e => (.error e, s)
  | .ok e =>
    let (out, s') := e.process s
    (.ok out, s')

/-- Events one after another, up to one that fails. -/
def processEvents (frames : List (String × Bytes)) (s : ClaudeToOpenaiStreamState) :
    ProxyResult (List OpenaiEvent) × ClaudeToOpenaiStreamState :=
  Emitter.tryEach (processEvent codec) frames s

variable {codec}

theorem processEvents_ok {frames : List (String × Bytes)} {events : List ServerEvent}
    (h : frames.mapM (ServerEvent.read codec) = .ok events) (s : ClaudeToOpenaiStreamState) :
    processEvents codec frames s = (.ok (Emitter.forEach ServerEvent.process events s).1,
      (Emitter.forEach ServerEvent.process events s).2) := by
  refine Emitter.tryEach_ok (fun frame e he s => ?_) h s
  rw [processEvent, he]

end ClaudeToOpenaiStreamState

end Chennix
