import Chennix.Common.Types
import Chennix.Foundations.Json

/-!
# OpenAI clients of Claude channels

Requests in the OpenAI format become Claude requests, and the Claude responses to them become
OpenAI responses.

## Main definitions

* `openaiToClaudeRequest` — the outgoing request
* `claudeToOpenaiResponse` — the response on its way back
-/

namespace Chennix.O2C

open Foundations Json

/-- A text block. -/
def textBlock (text : Json) : Json := ofMembers [("type", .string "text"), ("text", text)]

/-- The texts of a system message: one string, or the text parts of an array. -/
def systemTexts (msg : Json) : List String :=
  match msg.get "content" with
  | some (.string s) => if s = "" then [] else [s]
  | some (.array parts) => parts.filterMap fun part =>
      if part.getStr "type" = some "text" then part.getStr "text" else none
  | _ => []

/-- The result of a tool, as a block of a user message. -/
def toolResult (msg : Json) : Json :=
  let content := match msg.get "content" with
    | some .null | none => .string ""
    | some v => v
  ofMembers [("type", .string "tool_result"),
    ("tool_use_id", msg.getD "tool_call_id" (.string "")), ("content", content)]

/-- A part of a message's content. Parts other than text pass unchanged. -/
def contentPart (part : Json) : Json :=
  if part.getStr "type" = some "text" then textBlock (part.getD "text" (.string "")) else part

/-- The blocks of a message's content. -/
def contentBlocks (msg : Json) : List Json :=
  match msg.get "content" with
  | some (.string s) => if s = "" then [] else [textBlock (.string s)]
  | some (.array parts) => parts.map contentPart
  | _ => []

variable (codec : Codec)

/-- A tool call as a block. Arguments that are no JSON count as none. -/
def toolUse (call : Json) : Json :=
  let function := call.getD "function" (.object [])
  let arguments := (function.getStr "arguments").getD "{}"
  ofMembers [("type", .string "tool_use"), ("id", call.getD "id" (.string "")),
    ("name", function.getD "name" (.string "")),
    ("input", (codec.fromStr arguments).toOption.getD (.object []))]

/-- A message: texts for the system prompt, or a role with blocks. -/
def readMessage (msg : Json) : List String ⊕ (String × List Json) :=
  let role := (msg.getStr "role").getD "user"
  if role = "system" then .inl (systemTexts msg)
  else if role = "tool" then .inr ("user", [toolResult msg])
  else
    .inr (role, contentBlocks msg ++ ((msg.getArray "tool_calls").getD []).map (toolUse codec))

/-- Append a message, or its blocks to the last message when the role is the same. -/
def mergeMessage (merged : List (String × List Json)) (msg : String × List Json) :
    List (String × List Json) :=
  match merged.getLast? with
  | some last =>
    if last.1 = msg.1 then merged.dropLast ++ [(last.1, last.2 ++ msg.2)] else merged ++ [msg]
  | none => merged ++ [msg]

/-- A conversation has to begin with the user. -/
def startWithUser (merged : List (String × List Json)) : List (String × List Json) :=
  if merged.head?.map Prod.fst = some "user" then merged
  else ("user", [textBlock (.string ".")]) :: merged

/-- What the requested response format adds to the system prompt. -/
def responseFormatTexts (body : Json) : List String :=
  match body.get "response_format" with
  | none => []
  | some rf =>
    match (rf.getStr "type").getD "" with
    | "json_object" => ["Please respond with a valid JSON object."]
    | "json_schema" =>
      match (rf.get "json_schema").bind (·.get "schema") with
      | some schema =>
        ["Please respond with a JSON object matching this schema: " ++ codec.display schema]
      | none => ["Please respond with a valid JSON object."]
    | _ => []

/-- A tool, unless it is no function. -/
def convertTool (tool : Json) : Option Json :=
  (tool.get "function").map fun function =>
    ofMembers ([("name", function.getD "name" (.string ""))] ++
      member? "description" (function.get "description") ++
      [("input_schema", function.getD "parameters" (.object []))])

/-- The thinking budget of a reasoning effort. -/
def thinkingBudget (effort : String) : UInt64 :=
  match effort with
  | "low" => 1280
  | "medium" => 2048
  | "high" => 4096
  | _ => 2048

/-- `openai_to_claude_request`. -/
def openaiToClaudeRequest (body : Json) : ProxyResult Json :=
  let read := ((body.getArray "messages").getD []).map (readMessage codec)
  let merged := startWithUser ((read.filterMap Sum.getRight?).foldl mergeMessage [])
  let system := (read.filterMap Sum.getLeft?).flatten ++ responseFormatTexts codec body
  let tools := ((body.getArray "tools").getD []).filterMap convertTool
  .ok (ofMembers (
    member? "model" (body.get "model") ++
    [("messages", .array (merged.map fun msg =>
      ofMembers [("role", .string msg.1), ("content", .array msg.2)]))] ++
    (if system = [] then [] else
      [("system", .array (system.map fun text => textBlock (.string text)))]) ++
    [("max_tokens", ofU64 ((body.getU64 "max_tokens").getD 4096))] ++
    member? "temperature" (body.get "temperature") ++
    member? "top_p" (body.get "top_p") ++
    (if tools.isEmpty then [] else [("tools", .array tools)]) ++
    member? "disable_parallel_tool_use"
      (((body.get "parallel_tool_calls").bind asBool).map fun b => .bool !b) ++
    member? "thinking" ((body.getStr "reasoning_effort").map fun effort =>
      ofMembers [("type", .string "enabled"), ("budget_tokens", ofU64 (thinkingBudget effort))])))

/-- The string in a member of the blocks of one type. -/
def blockStrings (type member : String) (content : List Json) : List String :=
  content.filterMap fun block =>
    if block.getStr "type" = some type then block.getStr member else none

/-- A `tool_use` block as a tool call. -/
def toolCall (block : Json) : Json :=
  let arguments := ((codec.toStr (block.getD "input" (.object []))).toOption).getD "{}"
  ofMembers [("id", block.getD "id" (.string "")), ("type", .string "function"),
    ("function", ofMembers [("name", block.getD "name" (.string "")),
      ("arguments", .string arguments)])]

/-- The finish reason of a stop reason. -/
def finishReason (stopReason : String) : String :=
  match stopReason with
  | "end_turn" => "stop"
  | "tool_use" => "tool_calls"
  | "max_tokens" => "length"
  | "stop_sequence" => "stop"
  | _ => "stop"

/-- `claude_to_openai_response`, at a time in seconds since the epoch. -/
def claudeToOpenaiResponse (created : UInt64) (body : Json) : ProxyResult Json :=
  let content := (body.getArray "content").getD []
  let reasoning := String.join (blockStrings "thinking" "thinking" content)
  let toolCalls := (content.filter fun block => block.getStr "type" = some "tool_use").map
    (toolCall codec)
  let usage := body.getD "usage" (.object [])
  let inputTokens := (usage.getU64 "input_tokens").getD 0
  let outputTokens := (usage.getU64 "output_tokens").getD 0
  let message := ofMembers (
    [("role", .string "assistant"),
      ("content", .string (String.join (blockStrings "text" "text" content)))] ++
    (if reasoning = "" then [] else [("reasoning_content", .string reasoning)]) ++
    (if toolCalls.isEmpty then [] else [("tool_calls", .array toolCalls)]))
  .ok (ofMembers [
    ("id", body.getD "id" (.string "")),
    ("object", .string "chat.completion"),
    ("created", ofU64 created),
    ("model", body.getD "model" (.string "")),
    ("choices", .array [ofMembers [("index", ofU64 0), ("message", message),
      ("finish_reason", .string (finishReason ((body.getStr "stop_reason").getD "")))]]),
    ("usage", ofMembers [("prompt_tokens", ofU64 inputTokens),
      ("completion_tokens", ofU64 outputTokens),
      ("total_tokens", ofU64 (inputTokens + outputTokens))])])

/-! ### Members -/

/-- The settings of a translated request. -/
structure RequestMembers (body out : Json) : Prop where
  newerLimit : out.get "max_completion_tokens" = none
  maxTokens : out.get "max_tokens" = some (ofU64 ((body.getU64 "max_tokens").getD 4096))
  stream : out.get "stream" = none
  temperature : out.get "temperature" = body.get "temperature"
  topP : out.get "top_p" = body.get "top_p"
  tools : out.get "tools" =
    if (((body.getArray "tools").getD []).filterMap convertTool).isEmpty then none
    else some (.array (((body.getArray "tools").getD []).filterMap convertTool))
  disableParallelToolUse : out.get "disable_parallel_tool_use" =
    ((body.get "parallel_tool_calls").bind asBool).map fun b => .bool !b
  thinking : out.get "thinking" = (body.getStr "reasoning_effort").map fun effort =>
    ofMembers [("type", .string "enabled"), ("budget_tokens", ofU64 (thinkingBudget effort))]

variable {codec}

theorem openaiToClaudeRequest_members {body out : Json}
    (h : openaiToClaudeRequest codec body = .ok out) : RequestMembers body out := by
  cases h
  constructor <;>
    simp only [get_ofMembers_append, get_ofMembers_ite, get_ofMembers_cons, get_ofMembers_nil,
      get_ofMembers_member?] <;>
    simp

end Chennix.O2C
