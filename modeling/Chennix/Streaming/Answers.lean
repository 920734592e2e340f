import Chennix.Streaming.Content
import Chennix.Translator.ClaudeToOpenaiStream

/-!
# Claude's answers for OpenAI clients

An answer of Claude's is a list of blocks with a stop reason and a usage. An OpenAI client reads it
in the response that the whole message is translated to; when it streams, the client puts it
together from the pieces in the chunks.

## Main definitions

* `received` — the pieces in a chunk
* `ClaudeAnswer` — an answer, `ClaudeAnswer.IsBody` — its JSON
* `OpenaiMessage.read` — the answer that a client reads in a response

## Main results

* `received_data` — a chunk of the stream brings the pieces it is made for
* `read_response` — the translated response holds the answer
-/

namespace Chennix

open Foundations Json ClaudeToOpenaiStreamState

/-! ### What an OpenAI client receives -/

/-- The pieces in a chunk. -/
def received (v : Json) : List OpenaiDelta :=
  ((deltaOf v).getStr "role").toList.map .role ++ spoken v ++
    ((choiceOf v).getStr "finish_reason").toList.map .finish ++
    (reportedUsage v).toList.map .usage

/-- The pieces that a chunk is made for. An empty text is none. -/
def ChunkBody.deltas : ChunkBody → List OpenaiDelta
  | .role => [.role "assistant"]
  | .content text => ((some text).filter (· ≠ "")).toList.map .content
  | .reasoning text => ((some text).filter (· ≠ "")).toList.map .reasoning
  | .toolCallStart index id name => [.toolCall index.toInt (some id) (some name) ""]
  | .toolCallArgs index arguments => [.toolCall index.toInt none none arguments]
  | .finish finishReason => [.finish finishReason]
  | .usage promptTokens completionTokens =>
    [.usage ⟨promptTokens, completionTokens, promptTokens + completionTokens⟩]

theorem toNat_toUInt64 {n : Int32} (h : 0 ≤ n) : (n.toInt64.toUInt64.toNat : ℤ) = n.toInt := by
  have h0 : 0 ≤ n.toInt := Int32.le_iff_toInt_le.mp h
  have h64 : n.toInt64.toBitVec.toInt = n.toInt := Int32.toInt_toInt64 n
  show (n.toInt64.toBitVec.toNat : ℤ) = _
  have := BitVec.toInt_eq_toNat_cond n.toInt64.toBitVec
  omega

theorem integerOf_ofI32 (n : Int32) : integerOf (ofI32 n) = some n.toInt := by
  rw [ofI32]
  by_cases h : 0 ≤ n
  · rw [if_pos h, integerOf, toNat_toUInt64 h]
  · rw [if_neg h, integerOf, Int32.toInt_toInt64]

/-- The client receives what the chunk is made for. -/
theorem received_data (c : OpenaiChunk) : received c.data = c.body.deltas := by
  obtain ⟨id, model, created, body⟩ := c
  cases body <;>
    simp [received, spoken, deltaOf, choiceOf, toolCallsOf, reasoningOf, reportedUsage, toolDelta,
      toolIndex, integerOf_ofI32, OpenaiChunk.data, ChunkBody.members, chunkChoice,
      ChunkBody.deltas, get_ofMembers, getArray, getStr, getD, getU64, asArray, asStr, asU64, ofU64]

/-! ### An answer of Claude's -/

/-- A block of an answer; the input of a tool is JSON text. -/
inductive ClaudeBlock
  | text (text : String)
  | thinking (thinking : String)
  | toolUse (id name inputJson : String)
  deriving DecidableEq, Repr

structure ClaudeAnswer where
  blocks : List ClaudeBlock
  stopReason : Option String
  inputTokens : UInt64
  outputTokens : UInt64

@[simp] def ClaudeBlock.textOf : ClaudeBlock → Option String
  | .text t => some t
  | _ => none

@[simp] def ClaudeBlock.thinkingOf : ClaudeBlock → Option String
  | .thinking t => some t
  | _ => none

@[simp] def ClaudeBlock.toolOf : ClaudeBlock → Option ToolUse
  | .toolUse id name inputJson => some ⟨id, name, inputJson⟩
  | _ => none

/-- The tool calls for the tools used, numbered from `k`. -/
def callsFrom (k : ℕ) (tools : List ToolUse) : List ToolCall :=
  (tools.zipIdx k).map fun t => ⟨t.2, t.1.id, t.1.name, t.1.inputJson⟩

namespace ClaudeAnswer

variable (a : ClaudeAnswer)

def tools : List ToolUse := a.blocks.filterMap ClaudeBlock.toolOf

/-- The usage, if there is any. -/
def usage : Option Usage :=
  if 0 < a.inputTokens ∨ 0 < a.outputTokens then
    some ⟨a.inputTokens, a.outputTokens, a.inputTokens + a.outputTokens⟩
  else none

end ClaudeAnswer

/-! #### The answer as a whole -/

/-- The value of a block. -/
def ClaudeBlock.IsValue (codec : Codec) (v : Json) : ClaudeBlock → Prop
  | .text t => v.getStr "type" = some "text" ∧ v.getStr "text" = some t
  | .thinking t => v.getStr "type" = some "thinking" ∧ v.getStr "thinking" = some t
  | .toolUse id name inputJson => v.getStr "type" = some "tool_use" ∧ v.getStr "id" = some id ∧
      v.getStr "name" = some name ∧
      ∃ input, v.get "input" = some input ∧ codec.toStr input = .ok inputJson

/-- The body of a response with the answer. -/
structure ClaudeAnswer.IsBody (codec : Codec) (a : ClaudeAnswer) (body : Json) : Prop where
  content : ∃ values, body.getArray "content" = some values ∧
    List.Forall₂ (fun v b => ClaudeBlock.IsValue codec v b) values a.blocks
  stopReason : body.getStr "stop_reason" = a.stopReason
  usage : ∃ usage, body.get "usage" = some usage ∧
    usage.getU64 "input_tokens" = some a.inputTokens ∧
    usage.getU64 "output_tokens" = some a.outputTokens

/-! ### What a client makes of it -/

def OpenaiEvent.deltas : OpenaiEvent → List OpenaiDelta
  | .chunk c => received c.data
  | .done => []

/-- The answer that an OpenAI client reads in a response. -/
def OpenaiMessage.read (v : Json) : OpenaiMessage :=
  let message := (choiceOf v).getD "message" .null
  { content := (message.getStr "content").getD ""
    reasoning := (message.getStr "reasoning_content").getD ""
    toolCalls := ((message.getArray "tool_calls").getD []).zipIdx.map fun call =>
      let function := call.1.getD "function" .null
      ⟨call.2, (call.1.getStr "id").getD "", (function.getStr "name").getD "",
        (function.getStr "arguments").getD ""⟩
    finishReason := (choiceOf v).getStr "finish_reason"
    usage := reportedUsage v }

/-- The same answer; a usage of nothing need not be reported. -/
structure SameAnswer (m r : OpenaiMessage) : Prop where
  content : m.content = r.content
  reasoning : m.reasoning = r.reasoning
  toolCalls : m.toolCalls = r.toolCalls
  finishReason : m.finishReason = r.finishReason
  usage : ∀ usage ∈ r.usage, 0 < usage.promptTokens ∨ 0 < usage.completionTokens →
    m.usage = some usage

/-! ### The response as a whole -/

/-- What a client makes of the answer, but for the tool calls and the usage. -/
def ClaudeAnswer.message (a : ClaudeAnswer) (calls : List ToolCall) (usage : Option Usage) :
    OpenaiMessage where
  content := String.join (a.blocks.filterMap ClaudeBlock.textOf)
  reasoning := String.join (a.blocks.filterMap ClaudeBlock.thinkingOf)
  toolCalls := calls
  finishReason := some (finishReason a.stopReason)
  usage := usage

/-- What is read off the values is what is read off the blocks. -/
theorem filterMap_values {codec : Codec} {values : List Json} {blocks : List ClaudeBlock}
    (h : List.Forall₂ (fun v b => ClaudeBlock.IsValue codec v b) values blocks) {γ : Type}
    {f : Json → Option γ} {g : ClaudeBlock → Option γ}
    (hfg : ∀ v b, ClaudeBlock.IsValue codec v b → f v = g b) :
    values.filterMap f = blocks.filterMap g := by
  induction h with
  | nil => rfl
  | cons hv _ ih => rw [List.filterMap_cons, List.filterMap_cons, ih, hfg _ _ hv]

theorem blockStrings_text {codec : Codec} {values : List Json} {blocks : List ClaudeBlock}
    (h : List.Forall₂ (fun v b => ClaudeBlock.IsValue codec v b) values blocks) :
    O2C.blockStrings "text" "text" values = blocks.filterMap ClaudeBlock.textOf := by
  refine filterMap_values h fun v b hv => ?_
  cases b with
  | text t => simp [hv.1, hv.2]
  | thinking t => simp [hv.1]
  | toolUse id name inputJson => simp [hv.1]

theorem blockStrings_thinking {codec : Codec} {values : List Json} {blocks : List ClaudeBlock}
    (h : List.Forall₂ (fun v b => ClaudeBlock.IsValue codec v b) values blocks) :
    O2C.blockStrings "thinking" "thinking" values = blocks.filterMap ClaudeBlock.thinkingOf := by
  refine filterMap_values h fun v b hv => ?_
  cases b with
  | text t => simp [hv.1]
  | thinking t => simp [hv.1, hv.2]
  | toolUse id name inputJson => simp [hv.1]

/-- The tool call of a tool's block, as JSON. -/
def toolCallJson (t : ToolUse) : Json :=
  ofMembers [("id", .string t.id), ("type", .string "function"),
    ("function", ofMembers [("name", .string t.name), ("arguments", .string t.inputJson)])]

theorem getStr_eq_some {v : Json} {k t : String} (h : v.getStr k = some t) :
    v.get k = some (.string t) := by
  obtain ⟨w, hw, ht⟩ := Option.bind_eq_some_iff.mp h
  cases w with
  | string s => rw [hw, ← Option.some.inj ht]
  | _ => cases ht

theorem toolCall_value {codec : Codec} {v : Json} {t : ToolUse}
    (h : ClaudeBlock.IsValue codec v (.toolUse t.id t.name t.inputJson)) :
    O2C.toolCall codec v = toolCallJson t := by
  obtain ⟨-, hid, hname, input, hinput, hjson⟩ := h
  simp [O2C.toolCall, toolCallJson, getD, getStr_eq_some hid, getStr_eq_some hname, hinput, hjson,
    Except.toOption]

theorem toolCalls_values {codec : Codec} {values : List Json} {blocks : List ClaudeBlock}
    (h : List.Forall₂ (fun v b => ClaudeBlock.IsValue codec v b) values blocks) :
    (values.filter fun v => v.getStr "type" = some "tool_use").map (O2C.toolCall codec) =
      (blocks.filterMap ClaudeBlock.toolOf).map toolCallJson := by
  induction h with
  | nil => rfl
  | @cons v b values blocks hv _ ih =>
    cases b with
    | text t => simp [hv.1, ih, List.filterMap_cons]
    | thinking t => simp [hv.1, ih, List.filterMap_cons]
    | toolUse id name inputJson => simp [hv.1, ih, toolCall_value (t := ⟨id, name, inputJson⟩) hv]

/-- A message as it stands in a response: reasoning and tool calls only if there are any. -/
def messageJson (content reasoning : String) (calls : List Json) : Json :=
  ofMembers ([("role", .string "assistant"), ("content", .string content)] ++
    (if reasoning = "" then [] else [("reasoning_content", .string reasoning)]) ++
    (if calls.isEmpty then [] else [("tool_calls", .array calls)]))

theorem content_messageJson (content reasoning : String) (calls : List Json) :
    (messageJson content reasoning calls).getStr "content" = some content := by
  rw [messageJson, getStr, get_ofMembers]
  by_cases hr : reasoning = "" <;> cases calls <;> simp [hr, asStr]

theorem reasoning_messageJson (content reasoning : String) (calls : List Json) :
    ((messageJson content reasoning calls).getStr "reasoning_content").getD "" = reasoning := by
  rw [messageJson, getStr, get_ofMembers]
  by_cases hr : reasoning = "" <;> cases calls <;> simp [hr, asStr]

theorem toolCalls_messageJson (content reasoning : String) (calls : List Json) :
    ((messageJson content reasoning calls).getArray "tool_calls").getD [] = calls := by
  rw [messageJson, getArray, get_ofMembers]
  by_cases hr : reasoning = "" <;> cases calls <;> simp [hr, asArray]

/-- Tool calls are read back with their numbers. -/
theorem read_toolCallJson (t : ToolUse) (k : ℕ) :
    (⟨k, ((toolCallJson t).getStr "id").getD "",
      (((toolCallJson t).getD "function" .null).getStr "name").getD "",
      (((toolCallJson t).getD "function" .null).getStr "arguments").getD ""⟩ : ToolCall) =
      ⟨k, t.id, t.name, t.inputJson⟩ := by
  simp [toolCallJson, getStr, getD, get_ofMembers, asStr]

/-- A response with one choice. -/
def responseJson (id created model message : Json) (finishReason : String)
    (promptTokens completionTokens : UInt64) : Json :=
  ofMembers [("id", id), ("object", .string "chat.completion"), ("created", created),
    ("model", model), ("choices", .array [ofMembers [("index", ofU64 0), ("message", message),
      ("finish_reason", .string finishReason)]]),
    ("usage", ofMembers [("prompt_tokens", ofU64 promptTokens),
      ("completion_tokens", ofU64 completionTokens),
      ("total_tokens", ofU64 (promptTokens + completionTokens))])]

section

variable (id created model message : Json) (finishReason : String)
  (promptTokens completionTokens : UInt64)

theorem choiceOf_responseJson :
    choiceOf (responseJson id created model message finishReason promptTokens completionTokens) =
      ofMembers [("index", ofU64 0), ("message", message),
        ("finish_reason", .string finishReason)] := by
  simp [responseJson, choiceOf, getArray, get_ofMembers, asArray]

theorem reportedUsage_responseJson :
    reportedUsage (responseJson id created model message finishReason promptTokens
      completionTokens) =
      some ⟨promptTokens, completionTokens, promptTokens + completionTokens⟩ := by
  simp [responseJson, reportedUsage, getU64, get_ofMembers, ofU64, asU64]

end

theorem finishReason_getD (stopReason : Option String) :
    O2C.finishReason (stopReason.getD "") = finishReason stopReason := by
  cases stopReason <;> rfl

/-- What the client reads in a response is the answer. -/
theorem read_response {codec : Codec} {a : ClaudeAnswer} {body : Json} (h : a.IsBody codec body)
    (created : UInt64) : ∃ response, O2C.claudeToOpenaiResponse codec created body = .ok response ∧
      OpenaiMessage.read response = a.message (callsFrom 0 a.tools)
        (some ⟨a.inputTokens, a.outputTokens, a.inputTokens + a.outputTokens⟩) := by
  obtain ⟨values, hvalues, hblocks⟩ := h.content
  obtain ⟨usage, husage, hinput, houtput⟩ := h.usage
  have hcalls : (a.tools.map toolCallJson).zipIdx.map (fun call =>
      (⟨call.2, (call.1.getStr "id").getD "",
        ((call.1.getD "function" .null).getStr "name").getD "",
        ((call.1.getD "function" .null).getStr "arguments").getD ""⟩ : ToolCall)) =
      callsFrom 0 a.tools := by
    rw [List.zipIdx_map, List.map_map]
    exact List.map_congr_left fun t _ => read_toolCallJson t.1 t.2
  have hresponse : O2C.claudeToOpenaiResponse codec created body = .ok (responseJson
      (body.getD "id" (.string "")) (ofU64 created) (body.getD "model" (.string ""))
      (messageJson (String.join (a.blocks.filterMap ClaudeBlock.textOf))
        (String.join (a.blocks.filterMap ClaudeBlock.thinkingOf)) (a.tools.map toolCallJson))
      (finishReason a.stopReason) a.inputTokens a.outputTokens) := by
    rw [O2C.claudeToOpenaiResponse, hvalues, Option.getD_some, blockStrings_text hblocks,
      blockStrings_thinking hblocks, toolCalls_values hblocks, h.stopReason, finishReason_getD]
    simp only [getD, husage, Option.getD_some, hinput, houtput]
    rfl
  have hmessage : ∀ message reason : Json,
      (ofMembers [("index", ofU64 0), ("message", message), ("finish_reason", reason)]).getD
        "message" .null = message := by simp [getD, get_ofMembers]
  have hreason : ∀ (message : Json) (reason : String),
      (ofMembers [("index", ofU64 0), ("message", message),
        ("finish_reason", .string reason)]).getStr "finish_reason" = some reason := by
    simp [getStr, get_ofMembers, asStr]
  refine ⟨_, hresponse, ?_⟩
  simp only [OpenaiMessage.read, choiceOf_responseJson, reportedUsage_responseJson, hmessage,
    hreason, content_messageJson, reasoning_messageJson, toolCalls_messageJson, hcalls,
    Option.getD_some]
  rfl

end Chennix
