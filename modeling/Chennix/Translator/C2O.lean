import Chennix.Translator.O2C

/-!
# Claude clients of OpenAI-compatible channels

Requests in the Claude format become OpenAI requests, and the OpenAI responses to them become
Claude responses.

## Main definitions

* `claudeToOpenaiRequest` — the outgoing request
* `openaiToClaudeResponse` — the response on its way back
-/

namespace Chennix.C2O

open Foundations Json O2C

/-- The concatenated text blocks of an array. -/
def joinedTexts (blocks : List Json) : String := String.join (blockStrings "text" "text" blocks)

/-- The system prompt: a string or text blocks. -/
def systemText (body : Json) : String :=
  match body.get "system" with
  | some (.string s) => s
  | some (.array blocks) => joinedTexts blocks
  | _ => ""

/-- The blocks of a message, whose content may be a mere string. -/
def messageBlocks (msg : Json) : List Json :=
  match msg.get "content" with
  | some (.array blocks) => blocks
  | some (.string s) => [textBlock (.string s)]
  | _ => []

def isToolResult (block : Json) : Bool := block.getStr "type" == some "tool_result"

variable (codec : Codec)

/-- A tool result as a message of its own. -/
def toolMessage (block : Json) : Json :=
  let content := match block.getD "content" (.string "") with
    | .string s => s
    | .array blocks => joinedTexts blocks
    | other => codec.display other
  ofMembers [("role", .string "tool"), ("tool_call_id", block.getD "tool_use_id" (.string "")),
    ("content", .string content)]

/-- A message with tool results: one message each, then one of the texts between them. -/
def splitMessage (role : String) (blocks : List Json) : List Json :=
  let texts := blockStrings "text" "text" blocks
  (blocks.filter isToolResult).map (toolMessage codec) ++
    if texts = [] then []
    else [ofMembers [("role", .string role), ("content", .string (String.join texts))]]

/-- A message without tool results. -/
def plainMessage (role : String) (blocks : List Json) : Json :=
  let content := joinedTexts blocks
  let toolCalls := (blocks.filter fun block => block.getStr "type" = some "tool_use").map
    (toolCall codec)
  if toolCalls.isEmpty then ofMembers [("role", .string role), ("content", .string content)]
  else
    ofMembers [("role", .string role),
      ("content", if content = "" then .null else .string content),
      ("tool_calls", .array toolCalls)]

def convertMessage (msg : Json) : List Json :=
  let role := (msg.getStr "role").getD "user"
  let blocks := messageBlocks msg
  if blocks.any isToolResult then splitMessage codec role blocks
  else [plainMessage codec role blocks]

def convertTool (tool : Json) : Json :=
  ofMembers [("type", .string "function"),
    ("function", ofMembers ([("name", tool.getD "name" (.string ""))] ++
      member? "description" (tool.get "description") ++
      [("parameters", tool.getD "input_schema" (.object []))]))]

/-- The reasoning effort of a thinking budget. -/
def reasoningEffort (budget : UInt64) : String :=
  if budget < 1700 then "low" else if budget < 3000 then "medium" else "high"

/-- `claude_to_openai_request`. -/
def claudeToOpenaiRequest (body : Json) : ProxyResult Json :=
  let system := systemText body
  let tools := ((body.getArray "tools").getD []).map convertTool
  .ok (ofMembers (
    member? "model" (body.get "model") ++
    [("messages", .array (
      (if system = "" then [] else
        [ofMembers [("role", .string "system"), ("content", .string system)]]) ++
      ((body.getArray "messages").getD []).flatMap (convertMessage codec)))] ++
    member? "max_tokens" (body.get "max_tokens") ++
    member? "temperature" (body.get "temperature") ++
    member? "top_p" (body.get "top_p") ++
    member? "stream" (body.get "stream") ++
    (if tools.isEmpty then [] else [("tools", .array tools)]) ++
    member? "parallel_tool_calls"
      (((body.get "disable_parallel_tool_use").bind asBool).map fun b => .bool !b) ++
    member? "reasoning_effort" (((body.get "thinking").bind (·.getU64 "budget_tokens")).map
      fun budget => .string (reasoningEffort budget))))

/-- The content of a message: its reasoning, its text, its tool calls. -/
def messageContent (message : Json) : List Json :=
  let reasoning := (message.getStr "reasoning_content").or (message.getStr "reasoning")
  let text := message.getStr "content"
  ((reasoning.filter (· ≠ "")).toList.map fun r =>
    ofMembers [("type", .string "thinking"), ("thinking", .string r)]) ++
  ((text.filter (· ≠ "")).toList.map fun t => textBlock (.string t)) ++
  ((message.getArray "tool_calls").getD []).map (toolUse codec)

/-- The stop reason of a finish reason. -/
def stopReason (finishReason : String) : String :=
  match finishReason with
  | "stop" => "end_turn"
  | "tool_calls" => "tool_use"
  | "length" => "max_tokens"
  | "content_filter" => "end_turn"
  | _ => "end_turn"

/-- `openai_to_claude_response`. -/
def openaiToClaudeResponse (body : Json) : ProxyResult Json :=
  let choice := ((body.getArray "choices").getD []).head?
  let content := ((choice.bind (·.get "message")).map (messageContent codec)).getD []
  let reason := (choice.bind (·.getStr "finish_reason")).map stopReason
  let usage := body.getD "usage" (.object [])
  .ok (ofMembers [
    ("id", body.getD "id" (.string "")),
    ("type", .string "message"),
    ("role", .string "assistant"),
    ("model", body.getD "model" (.string "")),
    ("content", .array (if content.isEmpty then [textBlock (.string "")] else content)),
    ("stop_reason", .string (reason.getD "end_turn")),
    ("stop_sequence", .null),
    ("usage", ofMembers [("input_tokens", ofU64 ((usage.getU64 "prompt_tokens").getD 0)),
      ("output_tokens", ofU64 ((usage.getU64 "completion_tokens").getD 0))])])

/-! ### Members -/

/-- The settings of a translated request. -/
structure RequestMembers (body out : Json) : Prop where
  newerLimit : out.get "max_completion_tokens" = none
  maxTokens : out.get "max_tokens" = body.get "max_tokens"
  stream : out.get "stream" = body.get "stream"
  temperature : out.get "temperature" = body.get "temperature"
  topP : out.get "top_p" = body.get "top_p"
  responseFormat : out.get "response_format" = none
  tools : out.get "tools" = if ((body.getArray "tools").getD []).isEmpty then none
    else some (.array (((body.getArray "tools").getD []).map convertTool))
  parallelToolCalls : out.get "parallel_tool_calls" =
    ((body.get "disable_parallel_tool_use").bind asBool).map fun b => .bool !b
  reasoningEffort : out.get "reasoning_effort" =
    ((body.get "thinking").bind (·.getU64 "budget_tokens")).map
      fun budget => .string (reasoningEffort budget)

variable {codec}

theorem claudeToOpenaiRequest_members {body out : Json}
    (h : claudeToOpenaiRequest codec body = .ok out) : RequestMembers body out := by
  cases h
  constructor <;>
    simp only [get_ofMembers_append, get_ofMembers_ite, get_ofMembers_cons, get_ofMembers_nil,
      get_ofMembers_member?] <;>
    simp

end Chennix.C2O
