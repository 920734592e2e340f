import Chennix.Translator.ToolCalls

/-!
# Requests there and back

A Claude request that becomes an OpenAI request and then a Claude request again is what it was, if
it is written as the translations write requests. The results of tools, which leave a message as
messages of their own, are merged back into it.

## Main definitions

* `Turn`, `Use`, `Result`, `Tool` — messages, blocks and tools in normal form
* `NormalForm` — the requests that are made of them
* `Preserved` — the request that comes back has the members of the one that went

## Main results

* `preserved` — nothing is lost on the way there and back
-/

namespace Chennix.RoundTrip

open Foundations Json O2C C2O

/-- A text that says something. -/
abbrev Text : Type := {s : String // s ≠ ""}

def Text.block (text : Text) : Json := textBlock (.string text)

/-- A tool that is called. -/
structure Use where
  id : Json
  name : Json
  input : Json

def Use.block (use : Use) : Json :=
  ofMembers [("type", .string "tool_use"), ("id", use.id), ("name", use.name),
    ("input", use.input)]

/-- What a tool answered. -/
structure Result where
  toolUseId : Json
  content : String

def Result.block (result : Result) : Json :=
  ofMembers [("type", .string "tool_result"), ("tool_use_id", result.toolUseId),
    ("content", .string result.content)]

/-- A message in normal form. -/
inductive Turn
  | prompt (text : Text)
  /-- The results of tools come first. -/
  | results (answers : List Result) (nonempty : answers ≠ []) (text : Option Text)
  /-- The assistant says something, calls tools, or both. -/
  | reply (text : Option Text) (uses : List Use) (nonempty : text = none → uses ≠ [])

def Turn.role : Turn → String
  | .prompt _ => "user"
  | .results _ _ _ => "user"
  | .reply _ _ _ => "assistant"

def Turn.blocks : Turn → List Json
  | .prompt text => [text.block]
  | .results answers _ text => answers.map Result.block ++ text.toList.map Text.block
  | .reply text uses _ => text.toList.map Text.block ++ uses.map Use.block

def Turn.text : Turn → Option Text
  | .prompt text => some text
  | .results _ _ text => text
  | .reply text _ _ => text

def Turn.answers : Turn → List Result
  | .results answers _ _ => answers
  | _ => []

def Turn.uses : Turn → List Use
  | .reply _ uses _ => uses
  | _ => []

def Turn.message (turn : Turn) : Json := messageObject (turn.role, turn.blocks)

/-- A tool that may be called. -/
structure Tool where
  name : Json
  description : Option Json
  inputSchema : Json

def Tool.json (tool : Tool) : Json :=
  ofMembers ([("name", tool.name)] ++ member? "description" tool.description ++
    [("input_schema", tool.inputSchema)])

def thinking (budget : UInt64) : Json :=
  ofMembers [("type", .string "enabled"), ("budget_tokens", ofU64 budget)]

/-- A request in normal form. -/
structure NormalForm (body : Json) : Prop where
  messages : ∃ turns : List Turn, body.get "messages" = some (.array (turns.map Turn.message)) ∧
    turns.head?.map Turn.role = some "user" ∧ turns.IsChain fun turn turn' => turn.role ≠ turn'.role
  system : ∀ v ∈ body.get "system", ∃ text : Text, v = .array [text.block]
  tools : ∀ v ∈ body.get "tools", ∃ tools : List Tool, tools ≠ [] ∧ v = .array (tools.map Tool.json)
  maxTokens : ∃ n, body.get "max_tokens" = some (.number n) ∧ ∀ x, n ≠ .float x
  thinking : ∀ v ∈ body.get "thinking", ∃ budget ∈ [1280, 2048, 4096], v = thinking budget

/-- The members of a request that both formats know. -/
def keptFields : List String :=
  ["messages", "system", "tools", "max_tokens", "temperature", "top_p", "thinking",
    "disable_parallel_tool_use"]

/-- The request comes back with the same members. -/
def Preserved (codec : Codec) (body : Json) : Prop :=
  ∃ out back, claudeToOpenaiRequest codec body = .ok out ∧
    openaiToClaudeRequest codec out = .ok back ∧ ∀ k ∈ keptFields, back.get k = body.get k

variable {codec : Codec} {body out back : Json}

/-! ### Blocks on the way -/

theorem get_messageObject (msg : String × List Json) :
    senderOf (messageObject msg) = msg.1 ∧ messageBlocks (messageObject msg) = msg.2 := by
  simp [senderOf, messageBlocks, messageObject, getStr, get_ofMembers, asStr]

@[simp] theorem getStr_type_text (text : Text) : text.block.getStr "type" = some "text" := by
  simp [Text.block, textBlock, getStr, get_ofMembers, asStr]

@[simp] theorem getStr_type_use (use : Use) : use.block.getStr "type" = some "tool_use" := by
  simp [Use.block, getStr, get_ofMembers, asStr]

@[simp] theorem getStr_type_result (result : Result) :
    result.block.getStr "type" = some "tool_result" := by
  simp [Result.block, getStr, get_ofMembers, asStr]

theorem getStr_text (text : Text) : text.block.getStr "text" = some text.1 := by
  simp [Text.block, textBlock, getStr, get_ofMembers, asStr]

/-- Only texts are joined. -/
theorem blockStrings_texts (texts : List Text) :
    blockStrings "text" "text" (texts.map Text.block) = texts.map Subtype.val := by
  rw [blockStrings, List.filterMap_map, ← List.filterMap_eq_map]
  exact List.filterMap_congr fun text _ => by simp [getStr_text]

theorem blockStrings_uses (uses : List Use) :
    blockStrings "text" "text" (uses.map Use.block) = [] := by
  rw [blockStrings, List.filterMap_map, List.filterMap_eq_nil_iff]
  intro use _
  simp

theorem blockStrings_results (answers : List Result) :
    blockStrings "text" "text" (answers.map Result.block) = [] := by
  rw [blockStrings, List.filterMap_map, List.filterMap_eq_nil_iff]
  intro result _
  simp

theorem blockStrings_append (type member : String) (blocks blocks' : List Json) :
    blockStrings type member (blocks ++ blocks') =
      blockStrings type member blocks ++ blockStrings type member blocks' :=
  List.filterMap_append

/-- A call that was printed is parsed again. -/
theorem toolUse_toolCall {use : Use} (h : codec.Recovers use.input) :
    toolUse codec (toolCall codec use.block) = use.block := by
  obtain ⟨s, hprint, hparse⟩ := h
  simp [toolUse, toolCall, Use.block, getD, getStr, get_ofMembers, asStr, hprint, hparse,
    Except.toOption]

theorem toolResult_toolMessage (result : Result) :
    toolResult (toolMessage codec result.block) = result.block := by
  simp [toolResult, toolMessage, Result.block, getD, get_ofMembers]

/-! ### Messages on the way -/

theorem senderOf_message (turn : Turn) : senderOf turn.message = turn.role :=
  (get_messageObject _).1

theorem messageBlocks_message (turn : Turn) : messageBlocks turn.message = turn.blocks :=
  (get_messageObject _).2

theorem Turn.role_ne (turn : Turn) : turn.role ≠ "tool" ∧ turn.role ≠ "system" := by
  cases turn <;> simp [Turn.role]

theorem toolResults_message (turn : Turn) :
    toolResults turn.message = turn.answers.map Result.block := by
  rw [toolResults, messageBlocks_message]
  cases turn <;>
    simp [Turn.blocks, Turn.answers, isToolResult, List.filter_map, Function.comp_def]

theorem toolUses_message (turn : Turn) : C2O.toolUses turn.message = turn.uses.map Use.block := by
  rw [C2O.toolUses, messageBlocks_message]
  cases turn <;> simp [Turn.blocks, Turn.uses, List.filter_map, Function.comp_def]

theorem blockStrings_message (turn : Turn) :
    blockStrings "text" "text" (messageBlocks turn.message) =
      turn.text.toList.map Subtype.val := by
  rw [messageBlocks_message]
  cases turn with
  | prompt text => exact blockStrings_texts [text]
  | results answers _ text =>
    rw [Turn.blocks, blockStrings_append, blockStrings_results, blockStrings_texts]
    rfl
  | reply text uses _ =>
    rw [Turn.blocks, blockStrings_append, blockStrings_uses, blockStrings_texts, List.append_nil]
    rfl

/-- A string that is not empty becomes a block. -/
def textBlocks (s : String) : List Json := if s = "" then [] else [textBlock (.string s)]

theorem textBlocks_message (turn : Turn) :
    textBlocks (joinedTexts (messageBlocks turn.message)) = turn.text.toList.map Text.block := by
  rw [joinedTexts, blockStrings_message]
  cases turn.text with
  | none => rfl
  | some text =>
    have hjoin : String.join [text.1] = text.1 := by simp
    show textBlocks (String.join [text.1]) = [text.block]
    rw [hjoin, textBlocks, if_neg text.2]
    rfl

/-- The content of a message is a string, or null if there is none. -/
theorem contentBlocks_eq {msg : Json} {s : String} {p : Prop} [Decidable p]
    (h : msg.get "content" = some (if p ∧ s = "" then .null else .string s)) :
    contentBlocks msg = textBlocks s := by
  rw [contentBlocks, h, textBlocks]
  by_cases hs : s = ""
  · by_cases hp : p <;> simp [hs, hp]
  · simp [hs]

theorem blocksOf_plainMessage {msg : Json} (h : senderOf msg ≠ "tool") :
    blocksOf codec (plainMessage codec (senderOf msg) (messageBlocks msg)) =
      textBlocks (joinedTexts (messageBlocks msg)) ++
        (C2O.toolUses msg).map fun block => toolUse codec (toolCall codec block) := by
  have hsender : senderOf (plainMessage codec (senderOf msg) (messageBlocks msg)) =
      senderOf msg := by
    rw [senderOf, plainMessage_role, Option.getD_some]
  rw [blocksOf, hsender, if_neg h, contentBlocks_eq (plainMessage_get_content _ _), getArray,
    plainMessage_calls]
  congr 1
  split
  · rename_i huses
    rw [huses]
    rfl
  · exact List.map_map

theorem blocksOf_textMessages {msg : Json} (h : senderOf msg ≠ "tool") :
    (textMessages msg).flatMap (blocksOf codec) =
      textBlocks (joinedTexts (messageBlocks msg)) := by
  rw [textMessages]
  split
  · rename_i htexts
    rw [joinedTexts, htexts]
    rfl
  · obtain ⟨m, hm⟩ : ∃ m, m = ofMembers [("role", .string (senderOf msg)),
      ("content", .string (joinedTexts (messageBlocks msg)))] := ⟨_, rfl⟩
    have hsender : senderOf m = senderOf msg := by
      simp [hm, senderOf, getStr, get_ofMembers, asStr]
    have hcontent : contentBlocks m = textBlocks (joinedTexts (messageBlocks msg)) :=
      contentBlocks_eq (p := False) (by simp [hm, get_ofMembers])
    have hcalls : m.getArray "tool_calls" = none := by simp [hm, getArray, get_ofMembers]
    rw [← hm, List.flatMap_singleton, blocksOf, hsender, if_neg h, hcontent, hcalls]
    exact List.append_nil _

theorem blocksOf_toolMessage (result : Result) :
    blocksOf codec (toolMessage codec result.block) = [result.block] := by
  have hsender : senderOf (toolMessage codec result.block) = "tool" := by
    rw [senderOf, (answers_toolMessage _).role, Option.getD_some]
  rw [blocksOf, if_pos hsender, toolResult_toolMessage]

/-- **A message** leaves as one or more, whose blocks are its own. -/
theorem flatMap_blocksOf_convertMessage {turn : Turn}
    (h : ∀ use ∈ turn.uses, codec.Recovers use.input) :
    (convertMessage codec turn.message).flatMap (blocksOf codec) = turn.blocks := by
  have hrole : senderOf turn.message ≠ "tool" := senderOf_message turn ▸ turn.role_ne.1
  by_cases hresults : toolResults turn.message = []
  · have huses : ((turn.uses.map Use.block).map fun block => toolUse codec (toolCall codec block)) =
        turn.uses.map Use.block := by
      rw [List.map_map]
      exact List.map_congr_left fun use huse => toolUse_toolCall (h use huse)
    rw [convertMessage_of_none hresults, List.flatMap_singleton, blocksOf_plainMessage hrole,
      textBlocks_message, toolUses_message, huses]
    rw [toolResults_message, List.map_eq_nil_iff] at hresults
    cases turn with
    | prompt text => rfl
    | results answers nonempty text => exact absurd hresults nonempty
    | reply text uses _ => rfl
  · have hanswers : ((turn.answers.map Result.block).map (toolMessage codec)).flatMap
        (blocksOf codec) = turn.answers.map Result.block := by
      rw [List.map_map, List.flatMap_map, List.map_eq_flatMap]
      exact List.flatMap_congr fun result _ => blocksOf_toolMessage result
    rw [convertMessage_of_results hresults, List.flatMap_append, blocksOf_textMessages hrole,
      textBlocks_message, toolResults_message, hanswers]
    rw [toolResults_message, List.map_eq_nil_iff] at hresults
    cases turn with
    | prompt text => exact absurd rfl hresults
    | results answers _ text => rfl
    | reply text uses _ => exact absurd rfl hresults

/-- What a message becomes has its role. -/
theorem roleOf_convertMessage {turn : Turn} {msg : Json}
    (h : msg ∈ convertMessage codec turn.message) :
    roleOf msg = turn.role ∧ isSystem msg = false := by
  have hsame (hsender : senderOf msg = turn.role) :
      roleOf msg = turn.role ∧ isSystem msg = false := by
    rw [roleOf, isSystem, hsender, if_neg turn.role_ne.1]
    exact ⟨rfl, decide_eq_false turn.role_ne.2⟩
  by_cases hresults : toolResults turn.message = []
  · rw [convertMessage_of_none hresults, List.mem_singleton] at h
    refine hsame ?_
    rw [h, senderOf, plainMessage_role, Option.getD_some, senderOf_message]
  · rw [convertMessage_of_results hresults, List.mem_append] at h
    rcases h with h | h
    · obtain ⟨block, _, rfl⟩ := List.mem_map.mp h
      have hsender : senderOf (toolMessage codec block) = "tool" := by
        rw [senderOf, (answers_toolMessage _).role, Option.getD_some]
      rw [roleOf, isSystem, hsender, if_pos rfl]
      refine ⟨?_, by decide⟩
      rw [toolResults_message, List.map_eq_nil_iff] at hresults
      cases turn with
      | prompt text => rfl
      | results answers _ text => rfl
      | reply text uses _ => exact absurd rfl hresults
    · refine hsame ?_
      rw [textMessages] at h
      split at h
      · cases h
      · rw [List.mem_singleton.mp h]
        simp [senderOf, getStr, get_ofMembers, asStr, ← senderOf_message]

theorem convertMessage_ne_nil (msg : Json) : convertMessage codec msg ≠ [] := by
  by_cases hresults : toolResults msg = []
  · rw [convertMessage_of_none hresults]
    exact List.cons_ne_nil _ _
  · rw [convertMessage_of_results hresults]
    exact List.append_ne_nil_of_left_ne_nil (fun h => hresults (List.map_eq_nil_iff.mp h)) _

/-! ### The conversation there and back -/

/-- What the messages become falls into segments, one for each. -/
theorem isSegments_convert {turns : List Turn}
    (h : turns.IsChain fun turn turn' => turn.role ≠ turn'.role) :
    Merging.IsSegments roleOf
      (turns.map fun turn => (turn.role, convertMessage codec turn.message)) where
  nonempty := List.forall_mem_map.mpr fun _ _ => convertMessage_ne_nil _
  labelled := List.forall_mem_map.mpr fun _ _ _ hmsg => (roleOf_convertMessage hmsg).1
  chain := (List.isChain_map _).mpr h

/-- **The conversation** is merged back into its messages. -/
theorem claudeMessages_convert {turns : List Turn}
    (hspoken : O2C.spoken out = turns.flatMap fun turn => convertMessage codec turn.message)
    (hhead : turns.head?.map Turn.role = some "user")
    (hchain : turns.IsChain fun turn turn' => turn.role ≠ turn'.role)
    (hcodec : ∀ turn ∈ turns, ∀ use ∈ turn.uses, codec.Recovers use.input) :
    (claudeMessages codec out).map messageObject = turns.map Turn.message := by
  have hsegments : Merging.IsSegments roleOf
      (turns.map fun turn => (turn.role, convertMessage codec turn.message)) :=
    isSegments_convert hchain
  have hmerge : Merging.merge ((O2C.spoken out).map fun msg => (roleOf msg, blocksOf codec msg)) =
      turns.map fun turn =>
        (turn.role, (convertMessage codec turn.message).flatMap (blocksOf codec)) := by
    have hsnd : O2C.spoken out = (turns.map fun turn =>
        (turn.role, convertMessage codec turn.message)).flatMap Prod.snd := by
      rw [hspoken, List.flatMap_map]
    rw [hsnd, Merging.merge_segments hsegments, List.map_map]
    rfl
  have hblocks : (turns.map fun turn => (turn.role,
      (convertMessage codec turn.message).flatMap (blocksOf codec))) =
      turns.map fun turn => (turn.role, turn.blocks) :=
    List.map_congr_left fun turn hturn => by
      rw [flatMap_blocksOf_convertMessage (hcodec turn hturn)]
  have hstart : (turns.map fun turn => (turn.role, turn.blocks)).head?.map Prod.fst =
      some "user" := by
    rw [List.head?_map, Option.map_map]
    exact hhead
  rw [claudeMessages, hmerge, hblocks, startWithUser, if_pos hstart, List.map_map]
  rfl

theorem messagesOf_out (h : claudeToOpenaiRequest codec body = .ok out) :
    messagesOf out = systemMessages body ++ (messagesOf body).flatMap (convertMessage codec) := by
  rw [messagesOf, getArray, claudeToOpenaiRequest_messages h]
  rfl

theorem isSystem_systemMessages : ∀ msg ∈ systemMessages body, isSystem msg = true := by
  intro msg hmsg
  rw [systemMessages] at hmsg
  split at hmsg
  · cases hmsg
  · rw [List.mem_singleton.mp hmsg]
    simp [isSystem, senderOf, getStr, get_ofMembers, asStr]

theorem isSystem_convert {turns : List Turn} :
    ∀ msg ∈ (turns.map Turn.message).flatMap (convertMessage codec), isSystem msg = false := by
  intro msg hmsg
  obtain ⟨_, hmessage, hmsg⟩ := List.mem_flatMap.mp hmsg
  obtain ⟨turn, _, rfl⟩ := List.mem_map.mp hmessage
  exact (roleOf_convertMessage hmsg).2

theorem spoken_out {turns : List Turn} (h : claudeToOpenaiRequest codec body = .ok out)
    (hturns : messagesOf body = turns.map Turn.message) :
    O2C.spoken out = turns.flatMap fun turn => convertMessage codec turn.message := by
  have hsystem : (systemMessages body).filter (fun msg => !isSystem msg) = [] :=
    List.filter_eq_nil_iff.mpr fun msg hmsg => by simp [isSystem_systemMessages msg hmsg]
  rw [O2C.spoken, messagesOf_out h, hturns, List.filter_append, hsystem, List.nil_append,
    List.filter_eq_self.mpr fun msg hmsg => by simp [isSystem_convert msg hmsg], List.flatMap_map]

theorem systemPrompt_out {turns : List Turn} (h : claudeToOpenaiRequest codec body = .ok out)
    (hturns : messagesOf body = turns.map Turn.message) :
    systemPrompt codec out = if systemText body = "" then [] else [systemText body] := by
  have hformat : responseFormatTexts codec out = [] := by
    rw [responseFormatTexts, (claudeToOpenaiRequest_members h).responseFormat]
  rw [systemPrompt, hformat, List.append_nil, messagesOf_out h, hturns, List.filter_append,
    List.filter_eq_self.mpr isSystem_systemMessages,
    List.filter_eq_nil_iff.mpr fun msg hmsg => by simp [isSystem_convert msg hmsg],
    List.append_nil, systemMessages]
  split
  · rfl
  · rename_i hsystem
    simp [systemTexts, get_ofMembers, hsystem]

/-- The system prompt comes back. -/
theorem get_system_back {turns : List Turn} (hout : claudeToOpenaiRequest codec body = .ok out)
    (hback : openaiToClaudeRequest codec out = .ok back)
    (hturns : messagesOf body = turns.map Turn.message)
    (h : ∀ v ∈ body.get "system", ∃ text : Text, v = .array [text.block]) :
    back.get "system" = body.get "system" := by
  rw [openaiToClaudeRequest_system hback, systemPrompt_out hout hturns]
  cases hsystem : body.get "system" with
  | none =>
    have hnone : systemText body = "" := by rw [systemText, hsystem]
    rw [if_pos hnone, if_pos rfl]
  | some v =>
    obtain ⟨text, rfl⟩ := h v hsystem
    have hjoin : joinedTexts [text.block] = text.1 := by
      have hstrings : blockStrings "text" "text" [text.block] = [text.1] :=
        blockStrings_texts [text]
      rw [joinedTexts, hstrings]
      simp
    have htext : systemText body = text.1 := by
      rw [systemText, hsystem]
      exact hjoin
    rw [htext, if_neg text.2, if_neg (List.cons_ne_nil _ _)]
    rfl

/-- The members of a tool, under the name its format has for the schema. -/
theorem get_tool (name schema : Json) (description : Option Json) (schemaField k : String) :
    (ofMembers ([("name", name)] ++ member? "description" description ++
      [(schemaField, schema)])).get k =
      if schemaField = k then some schema
      else if "description" = k then description.or (if "name" = k then some name else none)
      else if "name" = k then some name else none := by
  simp only [get_ofMembers_append, get_ofMembers_cons, get_ofMembers_nil, get_ofMembers_member?]
  grind

theorem convertTool_convertTool (tool : Tool) :
    O2C.convertTool (C2O.convertTool tool.json) = some tool.json := by
  have hsent : (C2O.convertTool tool.json).get "function" = some (ofMembers
      ([("name", tool.name)] ++ member? "description" tool.description ++
        [("parameters", tool.inputSchema)])) := by
    rw [C2O.convertTool, get_ofMembers_cons, get_ofMembers_cons, get_ofMembers_nil, Option.none_or,
      if_pos rfl, Option.some_or, getD, getD, Tool.json, get_tool, get_tool, get_tool]
    simp
  rw [O2C.convertTool, hsent, Option.map_some, getD, getD, get_tool, get_tool, get_tool, Tool.json]
  simp

/-- The tools come back. -/
theorem get_tools_back (hout : claudeToOpenaiRequest codec body = .ok out)
    (hback : openaiToClaudeRequest codec out = .ok back)
    (h : ∀ v ∈ body.get "tools", ∃ tools : List Tool, tools ≠ [] ∧
      v = .array (tools.map Tool.json)) :
    back.get "tools" = body.get "tools" := by
  have htools := (claudeToOpenaiRequest_members hout).tools
  rw [(openaiToClaudeRequest_members hback).tools]
  cases hget : body.get "tools" with
  | none =>
    rw [getArray, hget] at htools
    rw [getArray, htools]
    rfl
  | some v =>
    obtain ⟨tools, hne, rfl⟩ := h v hget
    have hconvert : ((tools.map Tool.json).map C2O.convertTool).filterMap O2C.convertTool =
        tools.map Tool.json := by
      rw [List.filterMap_map, List.filterMap_map, ← List.filterMap_eq_map]
      exact List.filterMap_congr fun tool _ => convertTool_convertTool tool
    have hsent : out.getArray "tools" = some ((tools.map Tool.json).map C2O.convertTool) := by
      rw [getArray, htools, getArray, hget, if_neg (by simp [hne, asArray])]
      rfl
    have hnonempty : ¬ (tools.map Tool.json).isEmpty = true := by simp [hne]
    rw [hsent, Option.getD_some, hconvert, if_neg hnonempty]

theorem thinkingBudget_reasoningEffort {budget : UInt64} (h : budget ∈ [1280, 2048, 4096]) :
    thinkingBudget (reasoningEffort budget) = budget := by
  simp only [List.mem_cons, List.not_mem_nil, or_false] at h
  rcases h with rfl | rfl | rfl <;> decide

/-- The budget comes back from the effort. -/
theorem get_thinking_back (hout : claudeToOpenaiRequest codec body = .ok out)
    (hback : openaiToClaudeRequest codec out = .ok back)
    (h : ∀ v ∈ body.get "thinking", ∃ budget ∈ [1280, 2048, 4096], v = thinking budget) :
    back.get "thinking" = body.get "thinking" := by
  rw [(openaiToClaudeRequest_members hback).thinking, getStr,
    (claudeToOpenaiRequest_members hout).reasoningEffort]
  cases hget : body.get "thinking" with
  | none => rfl
  | some v =>
    obtain ⟨budget, hbudget, rfl⟩ := h v hget
    have hread : (thinking budget).getU64 "budget_tokens" = some budget :=
      getU64_eq_some.mpr (by simp [thinking, get_ofMembers])
    rw [Option.bind_some, hread]
    show some (thinking (thinkingBudget (reasoningEffort budget))) = _
    rw [thinkingBudget_reasoningEffort hbudget]

/-- The flag is inverted twice. -/
theorem get_flag_back (hout : claudeToOpenaiRequest codec body = .ok out)
    (hback : openaiToClaudeRequest codec out = .ok back)
    (h : ∀ v ∈ body.get "disable_parallel_tool_use", ∃ b, v = .bool b) :
    back.get "disable_parallel_tool_use" = body.get "disable_parallel_tool_use" := by
  rw [(openaiToClaudeRequest_members hback).disableParallelToolUse,
    (claudeToOpenaiRequest_members hout).parallelToolCalls]
  cases hget : body.get "disable_parallel_tool_use" with
  | none => rfl
  | some v =>
    obtain ⟨b, rfl⟩ := h v hget
    show some (Json.bool !!b) = _
    rw [Bool.not_not]

/-- **Nothing is lost** on the way there and back, if the limit of the completion is not negative
and the flag, where there is one, is a flag. -/
theorem preserved (codec : Codec) (h : NormalForm body)
    (hlimit : (body.getU64 "max_tokens").isSome)
    (hflag : ∀ v ∈ body.get "disable_parallel_tool_use", ∃ b, v = .bool b)
    (hcodec : ∀ msg ∈ messagesOf body, ∀ block ∈ C2O.toolUses msg, ∀ input ∈ block.get "input",
      codec.Recovers input) :
    Preserved codec body := by
  obtain ⟨out, hout⟩ : ∃ out, claudeToOpenaiRequest codec body = .ok out := ⟨_, rfl⟩
  obtain ⟨back, hback⟩ : ∃ back, openaiToClaudeRequest codec out = .ok back := ⟨_, rfl⟩
  obtain ⟨turns, hmessages, hhead, hchain⟩ := h.messages
  have hturns : messagesOf body = turns.map Turn.message := by
    rw [messagesOf, getArray, hmessages]
    rfl
  have hinputs : ∀ turn ∈ turns, ∀ use ∈ turn.uses, codec.Recovers use.input := by
    intro turn hturn use huse
    refine hcodec turn.message (hturns ▸ List.mem_map_of_mem hturn) use.block ?_ use.input ?_
    · rw [toolUses_message]
      exact List.mem_map_of_mem huse
    · simp [Use.block, get_ofMembers]
  have hmessagesBack : back.get "messages" = body.get "messages" := by
    rw [openaiToClaudeRequest_messages hback, hmessages,
      claudeMessages_convert (spoken_out hout hturns) hhead hchain hinputs]
  have hlimitBack : back.get "max_tokens" = body.get "max_tokens" := by
    obtain ⟨n, hn⟩ := Option.isSome_iff_exists.mp hlimit
    rw [(openaiToClaudeRequest_members hback).maxTokens, getU64,
      (claudeToOpenaiRequest_members hout).maxTokens, getU64_eq_some.mp hn]
    rfl
  have htemperature : back.get "temperature" = body.get "temperature" :=
    (openaiToClaudeRequest_members hback).temperature.trans
      (claudeToOpenaiRequest_members hout).temperature
  have htopP : back.get "top_p" = body.get "top_p" :=
    (openaiToClaudeRequest_members hback).topP.trans (claudeToOpenaiRequest_members hout).topP
  refine ⟨out, back, hout, hback, ?_⟩
  simp only [keptFields, List.forall_mem_cons]
  exact ⟨hmessagesBack, get_system_back hout hback hturns h.system,
    get_tools_back hout hback h.tools, hlimitBack, htemperature, htopP,
    get_thinking_back hout hback h.thinking, get_flag_back hout hback hflag, List.forall_mem_nil _⟩

/-! ### A tool is asked for the time -/

def clockTurns : List Turn :=
  [.prompt ⟨"What time is it?", by decide⟩,
    .reply none [⟨.string "toolu_1", .string "clock", .object []⟩] fun _ => by simp,
    .results [⟨.string "toolu_1", "noon"⟩] (by simp) (some ⟨"In words, please.", by decide⟩)]

def clockRequest : Json :=
  ofMembers [("messages", .array (clockTurns.map Turn.message)), ("max_tokens", ofU64 100),
    ("disable_parallel_tool_use", .bool true), ("thinking", thinking 2048)]

theorem normalForm_clockRequest : NormalForm clockRequest where
  messages := by
    refine ⟨clockTurns, by simp [clockRequest, get_ofMembers], rfl, ?_⟩
    simp [clockTurns, Turn.role]
  system := by simp [clockRequest, get_ofMembers]
  tools := by simp [clockRequest, get_ofMembers]
  maxTokens := ⟨.posInt 100, by simp [clockRequest, get_ofMembers, ofU64], nofun⟩
  thinking := by
    intro v hv
    refine ⟨2048, by decide, ?_⟩
    simpa [clockRequest, get_ofMembers, eq_comm] using hv

theorem preserved_clockRequest : Preserved objectCodec clockRequest := by
  refine preserved objectCodec normalForm_clockRequest (by decide +kernel) ?_ ?_
  · intro v hv
    exact ⟨true, by simpa [clockRequest, get_ofMembers, eq_comm] using hv⟩
  · intro msg hmsg block hblock input hinput
    have hmessages : messagesOf clockRequest = clockTurns.map Turn.message := by
      simp [messagesOf, clockRequest, getArray, get_ofMembers, asArray]
    rw [hmessages] at hmsg
    obtain ⟨turn, hturn, rfl⟩ := List.mem_map.mp hmsg
    rw [toolUses_message] at hblock
    obtain ⟨use, huse, rfl⟩ := List.mem_map.mp hblock
    have hempty : use.input = .object [] := by
      simp only [clockTurns, List.mem_cons, List.not_mem_nil, or_false] at hturn
      rcases hturn with rfl | rfl | rfl <;> simp [Turn.uses] at huse
      rw [huse]
    have hget : use.block.get "input" = some use.input := by simp [Use.block, get_ofMembers]
    rw [hget, hempty] at hinput
    cases hinput
    exact ⟨"\x7b\x7d", rfl, rfl⟩

/-! ### What the translations do not know -/

def greetingTurn : Turn := .prompt ⟨"Hello.", by decide⟩

/-- A limit below zero. -/
def negativeLimit : Json :=
  ofMembers [("messages", .array [greetingTurn.message]), ("max_tokens", .number (.negInt (-1)))]

/-- A flag that is no flag. -/
def unreadFlag : Json :=
  ofMembers [("messages", .array [greetingTurn.message]), ("max_tokens", ofU64 100),
    ("disable_parallel_tool_use", .string "yes")]

/-- A negative limit comes back as the default, and a flag that is none does not come back. -/
theorem not_preserved :
    NormalForm negativeLimit ∧ NormalForm unreadFlag ∧
      ∀ codec, ¬ Preserved codec negativeLimit ∧ ¬ Preserved codec unreadFlag := by
  refine ⟨?_, ?_, fun codec => ⟨?_, ?_⟩⟩
  · constructor
    · exact ⟨[greetingTurn], by simp [negativeLimit, get_ofMembers], rfl, List.isChain_singleton _⟩
    · simp [negativeLimit, get_ofMembers]
    · simp [negativeLimit, get_ofMembers]
    · exact ⟨.negInt (-1), by simp [negativeLimit, get_ofMembers], nofun⟩
    · simp [negativeLimit, get_ofMembers]
  · constructor
    · exact ⟨[greetingTurn], by simp [unreadFlag, get_ofMembers], rfl, List.isChain_singleton _⟩
    · simp [unreadFlag, get_ofMembers]
    · simp [unreadFlag, get_ofMembers]
    · exact ⟨.posInt 100, by simp [unreadFlag, get_ofMembers, ofU64], nofun⟩
    · simp [unreadFlag, get_ofMembers]
  · rintro ⟨out, back, hout, hback, hkept⟩
    have hlimit := hkept "max_tokens" (by decide)
    rw [(openaiToClaudeRequest_members hback).maxTokens, getU64,
      (claudeToOpenaiRequest_members hout).maxTokens] at hlimit
    simp [negativeLimit, get_ofMembers, asU64, ofU64] at hlimit
  · rintro ⟨out, back, hout, hback, hkept⟩
    have hflag := hkept "disable_parallel_tool_use" (by decide)
    rw [(openaiToClaudeRequest_members hback).disableParallelToolUse,
      (claudeToOpenaiRequest_members hout).parallelToolCalls] at hflag
    simp [unreadFlag, get_ofMembers, asBool] at hflag

end Chennix.RoundTrip
