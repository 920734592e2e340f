import Chennix.Common.Types
import Chennix.Foundations.Emitter
import Chennix.Foundations.Lines
import Chennix.Foundations.Utf8

/-!
# OpenAI streams for Claude clients

The state machine that turns the chunks of an OpenAI chat completion into the events of a Claude
message. An event is a value here; `ClaudeEvent.bytes` is what is sent for it.

## Main definitions

* `ClaudeEvent` — the events, with their JSON and their bytes
* `OpenaiToClaudeStreamState` — what the machine remembers
* `OpenaiToClaudeStreamState.processJson`, `processChunk` — a chunk of the completion, a chunk of
  the network

## Main results

* `OpenaiToClaudeStreamState.processJson_eq` — a chunk is a list of actions, read off its JSON
* `OpenaiToClaudeStreamState.processChunk_ok` — so is a network chunk whose lines all parse
-/

namespace Chennix

open Foundations Json

/-! ### Claude's events -/

/-- The type of a content block. -/
inductive BlockType
  | text
  | thinking
  | toolUse
  deriving DecidableEq, Repr

/-- A content block as it starts: without its content. -/
inductive ContentBlock
  | text
  | thinking
  | toolUse (id name : String)
  deriving DecidableEq, Repr

def ContentBlock.type : ContentBlock → BlockType
  | .text => .text
  | .thinking => .thinking
  | .toolUse _ _ => .toolUse

/-- A piece of the content of a block. -/
inductive BlockDelta
  | text (text : String)
  | thinking (thinking : String)
  | inputJson (partialJson : String)
  deriving DecidableEq, Repr

/-- The type of the blocks the delta goes to. -/
def BlockDelta.type : BlockDelta → BlockType
  | .text _ => .text
  | .thinking _ => .thinking
  | .inputJson _ => .toolUse

inductive ClaudeEvent
  | messageStart (id model : String)
  | contentBlockStart (index : Int32) (block : ContentBlock)
  | contentBlockDelta (index : Int32) (delta : BlockDelta)
  | contentBlockStop (index : Int32)
  | messageDelta (stopReason : String) (outputTokens : UInt64)
  | messageStop
  deriving DecidableEq, Repr

/-- A signed integer as a value. -/
def ofI32 (n : Int32) : Json :=
  .number (if 0 ≤ n then .posInt n.toInt64.toUInt64 else .negInt n.toInt64)

def ContentBlock.data : ContentBlock → Json
  | .text => ofMembers [("type", .string "text"), ("text", .string "")]
  | .thinking => ofMembers [("type", .string "thinking"), ("thinking", .string "")]
  | .toolUse id name => ofMembers [("type", .string "tool_use"), ("id", .string id),
      ("name", .string name), ("input", .object [])]

def BlockDelta.data : BlockDelta → Json
  | .text s => ofMembers [("type", .string "text_delta"), ("text", .string s)]
  | .thinking s => ofMembers [("type", .string "thinking_delta"), ("thinking", .string s)]
  | .inputJson s => ofMembers [("type", .string "input_json_delta"), ("partial_json", .string s)]

namespace ClaudeEvent

def name : ClaudeEvent → String
  | .messageStart _ _ => "message_start"
  | .contentBlockStart _ _ => "content_block_start"
  | .contentBlockDelta _ _ => "content_block_delta"
  | .contentBlockStop _ => "content_block_stop"
  | .messageDelta _ _ => "message_delta"
  | .messageStop => "message_stop"

/-- What an event carries besides its type. -/
def members : ClaudeEvent → List (String × Json)
  | .messageStart id model => [("message", ofMembers [("id", .string id),
      ("type", .string "message"), ("role", .string "assistant"), ("content", .array []),
      ("model", .string model),
      ("usage", ofMembers [("input_tokens", ofU64 0), ("output_tokens", ofU64 0)])])]
  | .contentBlockStart index block => [("index", ofI32 index), ("content_block", block.data)]
  | .contentBlockDelta index delta => [("index", ofI32 index), ("delta", delta.data)]
  | .contentBlockStop index => [("index", ofI32 index)]
  | .messageDelta stopReason outputTokens =>
    [("delta", ofMembers [("stop_reason", .string stopReason), ("stop_sequence", .null)]),
      ("usage", ofMembers [("output_tokens", ofU64 outputTokens)])]
  | .messageStop => []

def data (e : ClaudeEvent) : Json := ofMembers (("type", .string e.name) :: e.members)

/-- `make_event`. -/
def bytes (codec : Codec) (e : ClaudeEvent) : Bytes :=
  Utf8.encode ("event: " ++ e.name ++ "\ndata: " ++ codec.display e.data ++ "\n\n")

end ClaudeEvent

/-! ### What a chunk says -/

/-- A piece of a tool call. -/
structure ToolFragment where
  index : Int32
  id : String
  name : String
  arguments : String
  deriving DecidableEq, Repr

/-- The index is cut down to 32 bits. -/
def ToolFragment.read (tc : Json) : ToolFragment where
  index := (((tc.get "index").bind asI64).getD 0).toInt32
  id := (tc.getStr "id").getD ""
  name := ((tc.get "function").bind (·.getStr "name")).getD ""
  arguments := ((tc.get "function").bind (·.getStr "arguments")).getD ""

/-- The usage a chunk reports. -/
def reportedUsage (v : Json) : Option Usage :=
  ((v.get "usage").filter fun usage => !usage.isNull).map fun usage =>
    let promptTokens := (usage.getU64 "prompt_tokens").getD 0
    let completionTokens := (usage.getU64 "completion_tokens").getD 0
    ⟨promptTokens, completionTokens, promptTokens + completionTokens⟩

/-- The reasoning in a delta, under either of its names. -/
def reasoningOf (delta : Json) : Option String :=
  (delta.getStr "reasoning_content").or (delta.getStr "reasoning")

def toolFragments (delta : Json) : List ToolFragment :=
  ((delta.getArray "tool_calls").getD []).map ToolFragment.read

/-! ### The machine -/

/-- `OpenaiToClaudeStreamState`. -/
structure OpenaiToClaudeStreamState where
  contentBlockIndex : Int32
  toolCallIndex : Int32
  started : Bool
  deferredUsage : Option Usage
  currentToolId : Option String
  currentBlockType : Option BlockType
  currentOaiToolIndex : Int32
  messageId : String
  model : String
  finished : Bool
  deferredStopReason : Option String
  messageStopped : Bool
  deriving DecidableEq, Repr

namespace OpenaiToClaudeStreamState

def new : OpenaiToClaudeStreamState where
  contentBlockIndex := 0
  toolCallIndex := 0
  started := false
  deferredUsage := none
  currentToolId := none
  currentBlockType := none
  currentOaiToolIndex := -1
  messageId := ""
  model := ""
  finished := false
  deferredStopReason := none
  messageStopped := false

/-- A step of the machine. -/
abbrev Step : Type := Emitter OpenaiToClaudeStreamState ClaudeEvent

/-- `make_message_delta`. -/
def messageDelta (s : OpenaiToClaudeStreamState) : ClaudeEvent :=
  .messageDelta (s.deferredStopReason.getD "end_turn")
    ((s.deferredUsage.map Usage.completionTokens).getD 0)

/-- Before the message has started its id and its model are noted. -/
def noteHeader (id model : Option String) : Step := fun s =>
  if s.started then ([], s)
  else ([], { s with messageId := id.getD s.messageId, model := model.getD s.model })

def noteUsage (usage : Usage) : Step := fun s => ([], { s with deferredUsage := some usage })

/-- The end of a message that has finished and was not ended yet. -/
def flush : Step := fun s =>
  if s.finished && !s.messageStopped then
    ([s.messageDelta, .messageStop], { s with messageStopped := true })
  else ([], s)

def startMessage : Step := fun s =>
  if s.started then ([], s)
  else ([.messageStart s.messageId s.model], { s with started := true, contentBlockIndex := 0 })

def closeCurrentBlock : Step := fun s =>
  if s.currentBlockType.isSome then
    ([.contentBlockStop s.contentBlockIndex],
      { s with contentBlockIndex := s.contentBlockIndex + 1, currentBlockType := none })
  else ([], s)

/-- Start a block, when there is none open. -/
def openBlock (block : ContentBlock) : Step := fun s =>
  ([.contentBlockStart s.contentBlockIndex block], { s with currentBlockType := some block.type })

def emitDelta (delta : BlockDelta) : Step := fun s =>
  ([.contentBlockDelta s.contentBlockIndex delta], s)

/-- The block that is open is of the type, or one is started after closing it. -/
def ensureBlock (block : ContentBlock) : Step := fun s =>
  if s.currentBlockType = some block.type then ([], s)
  else closeCurrentBlock.andThen (openBlock block) s

def addReasoning (reasoning : String) : Step :=
  if reasoning = "" then .skip
  else (ensureBlock .thinking).andThen (emitDelta (.thinking reasoning))

def addText (content : String) : Step :=
  if content = "" then .skip
  else (ensureBlock .text).andThen (emitDelta (.text content))

/-- A tool call that is another than the last one. -/
def noteTool (tc : ToolFragment) : Step := fun s =>
  ([], { s with
    currentOaiToolIndex := tc.index
    currentToolId := some tc.id
    toolCallIndex := s.toolCallIndex + 1 })

/-- The tool call a fragment belongs to. Whether its block is still open is not looked at. -/
def ensureTool (tc : ToolFragment) : Step := fun s =>
  if tc.index = s.currentOaiToolIndex then ([], s)
  else (closeCurrentBlock.andThen ((openBlock (.toolUse tc.id tc.name)).andThen (noteTool tc))) s

def addToolCall (tc : ToolFragment) : Step :=
  (ensureTool tc).andThen (if tc.arguments = "" then .skip else emitDelta (.inputJson tc.arguments))

def stopReason (finishReason : String) : String :=
  match finishReason with
  | "stop" => "end_turn"
  | "tool_calls" => "tool_use"
  | "length" => "max_tokens"
  | "content_filter" => "end_turn"
  | _ => "end_turn"

def noteFinish (finishReason : String) : Step := fun s =>
  ([], { s with finished := true, deferredStopReason := some (stopReason finishReason) })

/-- The message is ended at once if the usage is known. Whether it has ended before is not looked
at. -/
def stopIfUsage : Step := fun s =>
  if s.deferredUsage.isSome then
    ([s.messageDelta, .messageStop], { s with messageStopped := true })
  else ([], s)

def finish (finishReason : String) : Step :=
  closeCurrentBlock.andThen ((noteFinish finishReason).andThen stopIfUsage)

/-- The first choice of a chunk. -/
def processChoice (choice : Json) : Step :=
  let delta := choice.getD "delta" .null
  startMessage.andThen
    ((Emitter.forEach addReasoning (reasoningOf delta).toList).andThen
      ((Emitter.forEach addToolCall (toolFragments delta)).andThen
        ((Emitter.forEach addText (delta.getStr "content").toList).andThen
          (Emitter.forEach finish (choice.getStr "finish_reason").toList))))

/-- `process_json`. -/
def processJson (v : Json) : Step :=
  (noteHeader (v.getStr "id") (v.getStr "model")).andThen
    ((Emitter.forEach noteUsage (reportedUsage v).toList).andThen
      (match v.getArray "choices" with
        | some (choice :: _) => processChoice choice
        | _ => flush))

/-! ### Data lines -/

/-- What follows `data:` on a line, if it begins so. -/
def payload (line : String) : Option String :=
  (Text.stripPrefix "data:" (Text.trim line)).map Text.trim

/-- What a data line carries. -/
inductive DataLine
  | done
  | json (v : Json)

variable (codec : Codec)

def DataLine.read (data : String) : ProxyResult DataLine :=
  if data = "[DONE]" then .ok .done
  else
    match codec.fromStr data with
    | .ok v => .ok (.json v)
    | .error e => .error (.translator ("invalid JSON in SSE data: " ++ e))

def processLine : DataLine → Step
  | .done => flush
  | .json v => processJson v

/-- The lines one after another, up to one that is no JSON. The outputs before it are lost. -/
def processPayloads : List String → OpenaiToClaudeStreamState →
    ProxyResult (List ClaudeEvent) × OpenaiToClaudeStreamState
  | [], s => (.ok [], s)
  | data :: rest, s =>
    match DataLine.read codec data with
    | .error e => (.error e, s)
    | .ok line =>
      let (out, s') := processLine line s
      let (result, s'') := processPayloads rest s'
      (result.map (out ++ ·), s'')

/-- `process_chunk`. -/
def processChunk (chunk : Bytes) (s : OpenaiToClaudeStreamState) :
    ProxyResult (List ClaudeEvent) × OpenaiToClaudeStreamState :=
  match Utf8.decode chunk with
  | none => (.error (.translator ("invalid utf8 in SSE chunk: " ++ Utf8.errorText chunk)), s)
  | some text => processPayloads codec ((Text.lines text).filterMap payload) s

/-- Network chunks one after another, up to one that fails. -/
def processChunks : List Bytes → OpenaiToClaudeStreamState →
    ProxyResult (List ClaudeEvent) × OpenaiToClaudeStreamState
  | [], s => (.ok [], s)
  | chunk :: rest, s =>
    match processChunk codec chunk s with
    | (.error e, s') => (.error e, s')
    | (.ok out, s') =>
      let (result, s'') := processChunks rest s'
      (result.map (out ++ ·), s'')

/-! ### Actions -/

/-- What the machine does for a chunk, one thing at a time. -/
inductive Action
  | header (id model : Option String)
  | usage (usage : Usage)
  | flush
  | start
  | reasoning (text : String)
  | toolCall (tc : ToolFragment)
  | text (text : String)
  | finish (reason : String)
  deriving DecidableEq, Repr

def act : Action → Step
  | .header id model => noteHeader id model
  | .usage usage => noteUsage usage
  | .flush => OpenaiToClaudeStreamState.flush
  | .start => startMessage
  | .reasoning text => addReasoning text
  | .toolCall tc => addToolCall tc
  | .text text => addText text
  | .finish reason => OpenaiToClaudeStreamState.finish reason

/-- The actions of a choice, in the order they are taken in. -/
def choiceActions (choice : Json) : List Action :=
  let delta := choice.getD "delta" .null
  [.start] ++ (reasoningOf delta).toList.map .reasoning ++
    (toolFragments delta).map .toolCall ++ (delta.getStr "content").toList.map .text ++
    (choice.getStr "finish_reason").toList.map .finish

/-- The actions of a chunk. -/
def chunkActions (v : Json) : List Action :=
  [.header (v.getStr "id") (v.getStr "model")] ++ (reportedUsage v).toList.map .usage ++
    match v.getArray "choices" with
    | some (choice :: _) => choiceActions choice
    | _ => [.flush]

def DataLine.actions : DataLine → List Action
  | .done => [.flush]
  | .json v => chunkActions v

variable {codec}

theorem processChoice_eq (choice : Json) :
    processChoice choice = Emitter.forEach act (choiceActions choice) := by
  rw [choiceActions, List.append_assoc, List.append_assoc, List.append_assoc,
    Emitter.forEach_append, Emitter.forEach_append, Emitter.forEach_append, Emitter.forEach_append,
    Emitter.forEach_map, Emitter.forEach_map, Emitter.forEach_map, Emitter.forEach_map,
    Emitter.forEach_singleton]
  rfl

/-- **A chunk is the actions that are read off it.** -/
theorem processJson_eq (v : Json) : processJson v = Emitter.forEach act (chunkActions v) := by
  rw [chunkActions, List.append_assoc, Emitter.forEach_append, Emitter.forEach_append,
    Emitter.forEach_map, Emitter.forEach_singleton, processJson]
  split
  · rw [processChoice_eq]
    rfl
  · rw [Emitter.forEach_singleton]
    rfl

theorem processLine_eq (line : DataLine) :
    processLine line = Emitter.forEach act line.actions := by
  cases line with
  | done => exact (Emitter.forEach_singleton act .flush).symm
  | json v => exact processJson_eq v

/-- Lines are their actions, one after another. -/
theorem forEach_processLine (lines : List DataLine) :
    Emitter.forEach processLine lines = Emitter.forEach act (lines.flatMap DataLine.actions) :=
  Emitter.forEach_flatMap processLine_eq lines

/-! ### Chunks whose lines all parse -/

/-- The data lines of a network chunk. -/
def readChunk (codec : Codec) (chunk : Bytes) : ProxyResult (List DataLine) :=
  match Utf8.decode chunk with
  | none => .error (.translator ("invalid utf8 in SSE chunk: " ++ Utf8.errorText chunk))
  | some text => ((Text.lines text).filterMap payload).mapM (DataLine.read codec)

/-- The data lines of network chunks. -/
def readChunks (codec : Codec) (chunks : List Bytes) : ProxyResult (List DataLine) :=
  (chunks.mapM (readChunk codec)).map List.flatten

theorem processPayloads_ok {payloads : List String} {lines : List DataLine}
    (h : payloads.mapM (DataLine.read codec) = .ok lines) (s : OpenaiToClaudeStreamState) :
    processPayloads codec payloads s =
      (.ok (Emitter.forEach processLine lines s).1, (Emitter.forEach processLine lines s).2) := by
  induction payloads generalizing lines s with
  | nil =>
    cases h
    rfl
  | cons data rest ih =>
    rw [List.mapM_cons] at h
    cases hline : DataLine.read codec data with
    | error e =>
      rw [hline] at h
      cases h
    | ok line =>
      rw [hline] at h
      cases hrest : rest.mapM (DataLine.read codec) with
      | error e =>
        rw [hrest] at h
        cases h
      | ok lines' =>
        rw [hrest] at h
        cases h
        rw [processPayloads, hline]
        simp only [ih hrest, Except.map]
        rfl

/-- A network chunk whose lines all parse is its lines, one after another. -/
theorem processChunk_ok {chunk : Bytes} {lines : List DataLine}
    (h : readChunk codec chunk = .ok lines) (s : OpenaiToClaudeStreamState) :
    processChunk codec chunk s =
      (.ok (Emitter.forEach processLine lines s).1, (Emitter.forEach processLine lines s).2) := by
  rw [readChunk] at h
  rw [processChunk]
  split at h
  · cases h
  · exact processPayloads_ok h s

/-- So are network chunks, however the lines are spread over them. -/
theorem processChunks_ok {chunks : List Bytes} {lines : List DataLine}
    (h : readChunks codec chunks = .ok lines) (s : OpenaiToClaudeStreamState) :
    processChunks codec chunks s =
      (.ok (Emitter.forEach processLine lines s).1, (Emitter.forEach processLine lines s).2) := by
  induction chunks generalizing lines s with
  | nil =>
    cases h
    rfl
  | cons chunk rest ih =>
    rw [readChunks, List.mapM_cons] at h
    cases hchunk : readChunk codec chunk with
    | error e =>
      rw [hchunk] at h
      cases h
    | ok lines₁ =>
      rw [hchunk] at h
      cases hrest : rest.mapM (readChunk codec) with
      | error e =>
        rw [hrest] at h
        cases h
      | ok lines₂ =>
        rw [hrest] at h
        cases h
        have hrest' : readChunks codec rest = .ok lines₂.flatten := by rw [readChunks, hrest]; rfl
        rw [processChunks, processChunk_ok hchunk]
        simp only [ih hrest', Except.map, List.flatten_cons, Emitter.forEach_append]
        rfl

end OpenaiToClaudeStreamState

end Chennix
