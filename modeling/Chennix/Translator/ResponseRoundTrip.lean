import Chennix.Translator.RoundTrip

/-!
# Responses there and back

An OpenAI response that becomes a Claude response and then an OpenAI response again tells the client
what it told before. On the way its reasoning, its text and its tool calls are one list of blocks.

## Main definitions

* `choiceOf`, `messageOf`, `tokens` — what a client reads of an OpenAI response
* `reasoningOf` — the reasoning the translation reads, which has two names
* `Complete` — the responses that are complete
* `Returned` — the response that comes back tells the same

## Main results

* `returned` — nothing is lost on the way there and back
-/

namespace Chennix.RoundTrip

open Foundations Json O2C C2O

/-- The first choice. -/
def choiceOf (body : Json) : Json := (((body.getArray "choices").getD []).head?).getD .null

def messageOf (body : Json) : Json := (choiceOf body).getD "message" .null

def functionOf (call : Json) : Json := call.getD "function" (.object [])

def tokens (body : Json) (field : String) : Option UInt64 :=
  (body.getD "usage" (.object [])).getU64 field

/-- The reasoning of a message, which some upstreams call by another name. -/
def reasoningOf (message : Json) : Option String :=
  (message.getStr "reasoning_content").or (message.getStr "reasoning")

/-- A tool call with arguments. -/
structure IsCall (codec : Codec) (call : Json) : Prop where
  type : call.get "type" = some (.string "function")
  id : call.get "id" ≠ none
  name : (functionOf call).get "name" ≠ none
  arguments : ∃ s v, (functionOf call).getStr "arguments" = some s ∧ codec.fromStr s = .ok v

/-- An OpenAI response with all that a client asks for. -/
structure Complete (codec : Codec) (body : Json) : Prop where
  id : body.get "id" ≠ none
  model : body.get "model" ≠ none
  content : ∃ v, (messageOf body).get "content" = some v ∧ (v = .null ∨ ∃ s, v = .string s)
  reasoning : ∀ v ∈ (messageOf body).get "reasoning_content", ∃ s, v = .string s
  calls : ∀ call ∈ callsOf (messageOf body), IsCall codec call
  finishReason : ∃ reason ∈ ["stop", "tool_calls", "length"],
    (choiceOf body).get "finish_reason" = some (.string reason)
  usage : ∃ prompt completion, tokens body "prompt_tokens" = some prompt ∧
    tokens body "completion_tokens" = some completion ∧
    prompt.toNat + completion.toNat < 2 ^ 64

/-- The same call, with arguments that are the same values. -/
structure SameCall (codec : Codec) (call call' : Json) : Prop where
  type : call'.get "type" = call.get "type"
  id : call'.get "id" = call.get "id"
  name : (functionOf call').get "name" = (functionOf call).get "name"
  arguments : ∃ s s' v, (functionOf call).getStr "arguments" = some s ∧
    (functionOf call').getStr "arguments" = some s' ∧
    codec.fromStr s = .ok v ∧ codec.fromStr s' = .ok v

/-- What comes back tells the same. An absent text is an empty one, and empty reasoning is
absent. -/
structure Returned (codec : Codec) (reasoning : Json → Option String) (body back : Json) :
    Prop where
  id : back.get "id" = body.get "id"
  model : back.get "model" = body.get "model"
  content : (messageOf back).get "content" =
    some (.string (((messageOf body).getStr "content").getD ""))
  reasoning : (messageOf back).get "reasoning_content" =
    ((reasoning (messageOf body)).filter (· ≠ "")).map .string
  calls : List.Forall₂ (SameCall codec) (callsOf (messageOf body)) (callsOf (messageOf back))
  finishReason : (choiceOf back).get "finish_reason" = (choiceOf body).get "finish_reason"
  promptTokens : tokens back "prompt_tokens" = tokens body "prompt_tokens"
  completionTokens : tokens back "completion_tokens" = tokens body "completion_tokens"
  totalTokens : ∃ prompt completion total, tokens body "prompt_tokens" = some prompt ∧
    tokens body "completion_tokens" = some completion ∧
    tokens back "total_tokens" = some total ∧ total.toNat = prompt.toNat + completion.toNat

variable {codec : Codec} {body out back message call : Json} {created : UInt64}

/-! ### Blocks of a response -/

/-- The blocks of a response, of which there is at least one. -/
def responseContent (codec : Codec) (body : Json) : List Json :=
  let content := messageContent codec (messageOf body)
  if content.isEmpty then [textBlock (.string "")] else content

theorem getStr_type_toolUse (call : Json) :
    (toolUse codec call).getStr "type" = some "tool_use" := by
  simp [toolUse, getStr, get_ofMembers, asStr]

theorem join_toList (text : Option String) : String.join text.toList = text.getD "" := by
  cases text <;> simp

theorem blockStrings_toolUse {type member : String} (h : type ≠ "tool_use") (calls : List Json) :
    blockStrings type member (calls.map (toolUse codec)) = [] := by
  rw [blockStrings, List.filterMap_map, List.filterMap_eq_nil_iff]
  intro call _
  rw [Function.comp_apply, getStr_type_toolUse, if_neg fun heq => h (Option.some.inj heq).symm]

theorem blockStrings_thinking (codec : Codec) (message : Json) :
    blockStrings "thinking" "thinking" (messageContent codec message) =
      ((reasoningOf message).filter (· ≠ "")).toList := by
  rw [messageContent, blockStrings_append, blockStrings_append,
    blockStrings_toolUse (by decide), List.append_nil, reasoningOf]
  cases (Option.filter _ _) <;> cases (Option.filter _ _) <;>
    simp [blockStrings, textBlock, getStr, get_ofMembers, asStr]

theorem blockStrings_content (codec : Codec) (message : Json) :
    blockStrings "text" "text" (messageContent codec message) =
      ((message.getStr "content").filter (· ≠ "")).toList := by
  rw [messageContent, blockStrings_append, blockStrings_append,
    blockStrings_toolUse (by decide), List.append_nil]
  cases (Option.filter _ _) <;> cases (Option.filter _ _) <;>
    simp [blockStrings, textBlock, getStr, get_ofMembers, asStr]

theorem filter_messageContent (message : Json) :
    (messageContent codec message).filter (fun block => block.getStr "type" = some "tool_use") =
      (callsOf message).map (toolUse codec) := by
  have hcalls : ((callsOf message).map (toolUse codec)).filter
      (fun block => block.getStr "type" = some "tool_use") =
        (callsOf message).map (toolUse codec) := by
    refine List.filter_eq_self.mpr fun block hblock => ?_
    obtain ⟨call, _, rfl⟩ := List.mem_map.mp hblock
    exact decide_eq_true (getStr_type_toolUse call)
  rw [messageContent, List.filter_append, List.filter_append, ← callsOf, hcalls]
  cases (Option.filter _ _) <;> cases (Option.filter _ _) <;>
    simp [textBlock, getStr, get_ofMembers, asStr]

/-- The invented text of an empty message is empty. -/
theorem join_thinking (body : Json) :
    String.join (blockStrings "thinking" "thinking" (responseContent codec body)) =
      ((reasoningOf (messageOf body)).filter (· ≠ "")).getD "" := by
  rw [← join_toList, ← blockStrings_thinking codec, responseContent]
  split
  · rename_i hempty
    rw [List.isEmpty_iff.mp hempty]
    simp [blockStrings, textBlock, getStr, get_ofMembers, asStr]
  · rfl

theorem join_content (body : Json) :
    String.join (blockStrings "text" "text" (responseContent codec body)) =
      ((messageOf body).getStr "content").getD "" := by
  have hfilter : (((messageOf body).getStr "content").filter (· ≠ "")).getD "" =
      ((messageOf body).getStr "content").getD "" := by
    cases (messageOf body).getStr "content" with
    | none => rfl
    | some text => by_cases h : text = "" <;> simp [Option.filter_some, h]
  rw [← hfilter, ← join_toList, ← blockStrings_content codec, responseContent]
  split
  · rename_i hempty
    rw [List.isEmpty_iff.mp hempty]
    simp [blockStrings, textBlock, getStr, get_ofMembers, asStr]
  · rfl

theorem filter_responseContent (body : Json) :
    (responseContent codec body).filter (fun block => block.getStr "type" = some "tool_use") =
      (callsOf (messageOf body)).map (toolUse codec) := by
  rw [← filter_messageContent, responseContent]
  split
  · rename_i hempty
    rw [List.isEmpty_iff.mp hempty]
    simp [textBlock, getStr, get_ofMembers, asStr]
  · rfl

/-! ### Members on the way -/

theorem openaiToClaudeResponse_members (h : openaiToClaudeResponse codec body = .ok out) :
    out.get "id" = some (body.getD "id" (.string "")) ∧
      out.get "model" = some (body.getD "model" (.string "")) ∧
      out.getArray "content" = some (responseContent codec body) ∧
      out.getStr "stop_reason" =
        some ((((choiceOf body).getStr "finish_reason").map stopReason).getD "end_turn") ∧
      tokens out "input_tokens" = some ((tokens body "prompt_tokens").getD 0) ∧
      tokens out "output_tokens" = some ((tokens body "completion_tokens").getD 0) := by
  have hcontent : (((((body.getArray "choices").getD []).head?).bind (·.get "message")).map
      (messageContent codec)).getD [] = messageContent codec (messageOf body) := by
    rw [messageOf, choiceOf]
    cases ((body.getArray "choices").getD []).head? with
    | none => rfl
    | some choice =>
      rw [Option.bind_some, Option.getD_some, getD]
      cases choice.get "message" <;> rfl
  have hreason : (((body.getArray "choices").getD []).head?).bind (·.getStr "finish_reason") =
      (choiceOf body).getStr "finish_reason" := by
    rw [choiceOf]
    cases ((body.getArray "choices").getD []).head? <;> rfl
  cases h
  rw [hcontent, hreason]
  refine ⟨?_, ?_, ?_, ?_, ?_, ?_⟩
  all_goals simp [get_ofMembers, getArray, getStr, getD, tokens, asArray, asStr, responseContent,
    getU64, asU64, ofU64]

/-- The message of the response that comes back. -/
def openaiMessage (text reasoning : String) (calls : List Json) : Json :=
  ofMembers ([("role", .string "assistant"), ("content", .string text)] ++
    (if reasoning = "" then [] else [("reasoning_content", .string reasoning)]) ++
    (if calls.isEmpty then [] else [("tool_calls", .array calls)]))

theorem openaiMessage_members (text reasoning : String) (calls : List Json) :
    (openaiMessage text reasoning calls).get "content" = some (.string text) ∧
      (openaiMessage text reasoning calls).get "reasoning_content" =
        ((some reasoning).filter (· ≠ "")).map .string ∧
      callsOf (openaiMessage text reasoning calls) = calls := by
  rw [openaiMessage, callsOf, getArray]
  by_cases hreasoning : reasoning = "" <;> by_cases hcalls : calls = [] <;>
    simp [hreasoning, hcalls, get_ofMembers, asArray, Option.filter_some]

theorem claudeToOpenaiResponse_members (h : claudeToOpenaiResponse codec created out = .ok back) :
    back.get "id" = some (out.getD "id" (.string "")) ∧
      back.get "model" = some (out.getD "model" (.string "")) ∧
      messageOf back = openaiMessage
        (String.join (blockStrings "text" "text" ((out.getArray "content").getD [])))
        (String.join (blockStrings "thinking" "thinking" ((out.getArray "content").getD [])))
        ((((out.getArray "content").getD []).filter
          fun block => block.getStr "type" = some "tool_use").map (toolCall codec)) ∧
      (choiceOf back).get "finish_reason" =
        some (.string (finishReason ((out.getStr "stop_reason").getD ""))) ∧
      tokens back "prompt_tokens" = some ((tokens out "input_tokens").getD 0) ∧
      tokens back "completion_tokens" = some ((tokens out "output_tokens").getD 0) ∧
      tokens back "total_tokens" =
        some ((tokens out "input_tokens").getD 0 + (tokens out "output_tokens").getD 0) := by
  cases h
  refine ⟨?_, ?_, ?_, ?_, ?_, ?_, ?_⟩
  all_goals
    simp [get_ofMembers, getArray, getD, tokens, asArray, getU64, asU64, ofU64, messageOf, choiceOf,
      openaiMessage]

/-! ### What comes back -/

/-- A call comes back with the same arguments, printed anew. -/
theorem sameCall_toolCall (h : IsCall codec call)
    (hcodec : ∀ s v, codec.fromStr s = .ok v → codec.Recovers v) :
    SameCall codec call (toolCall codec (toolUse codec call)) := by
  obtain ⟨id, hid⟩ := Option.ne_none_iff_exists'.mp h.id
  obtain ⟨name, hname⟩ := Option.ne_none_iff_exists'.mp h.name
  obtain ⟨s, v, hs, hv⟩ := h.arguments
  obtain ⟨s', hprint, hparse⟩ := hcodec s v hv
  have huse : toolUse codec call = Use.block ⟨id, name, v⟩ := by
    show ofMembers [("type", .string "tool_use"), ("id", call.getD "id" (.string "")),
      ("name", (functionOf call).getD "name" (.string "")),
      ("input", (codec.fromStr (((functionOf call).getStr "arguments").getD
        "\x7b\x7d")).toOption.getD (.object []))] = _
    rw [hs, Option.getD_some, hv, getD, hid, getD, hname]
    rfl
  rw [huse]
  have hfunction : functionOf (toolCall codec (Use.block ⟨id, name, v⟩)) =
      ofMembers [("name", name), ("arguments", .string s')] := by
    simp [functionOf, toolCall, Use.block, getD, get_ofMembers, hprint, Except.toOption]
  constructor
  · rw [h.type]
    simp [toolCall, get_ofMembers]
  · rw [hid]
    simp [toolCall, Use.block, getD, get_ofMembers]
  · rw [hfunction, hname]
    simp [get_ofMembers]
  · refine ⟨s, s', v, hs, ?_, hv, hparse⟩
    rw [hfunction]
    simp [getStr, get_ofMembers, asStr]

theorem finishReason_stopReason {reason : String} (h : reason ∈ ["stop", "tool_calls", "length"]) :
    finishReason (stopReason reason) = reason := by
  simp only [List.mem_cons, List.not_mem_nil, or_false] at h
  rcases h with rfl | rfl | rfl <;> decide

/-- **Nothing is lost** on the way there and back. The reasoning has the name that OpenAI's own
upstreams give it. -/
theorem returned (codec : Codec) (created : UInt64) (h : Complete codec body)
    (hcodec : ∀ s v, codec.fromStr s = .ok v → codec.Recovers v) :
    ∃ out back, openaiToClaudeResponse codec body = .ok out ∧
      claudeToOpenaiResponse codec created out = .ok back ∧
      Returned codec reasoningOf body back := by
  obtain ⟨out, hout⟩ : ∃ out, openaiToClaudeResponse codec body = .ok out := ⟨_, rfl⟩
  obtain ⟨back, hback⟩ : ∃ back, claudeToOpenaiResponse codec created out = .ok back := ⟨_, rfl⟩
  obtain ⟨hid, hmodel, hcontent, hstop, hinput, houtput⟩ := openaiToClaudeResponse_members hout
  obtain ⟨hid', hmodel', hmessage, hfinish, hprompt, hcompletion, htotal⟩ :=
    claudeToOpenaiResponse_members hback
  rw [hcontent, Option.getD_some, join_content, join_thinking, filter_responseContent,
    List.map_map] at hmessage
  obtain ⟨htext, hreasoning, hcalls⟩ := openaiMessage_members
    (((messageOf body).getStr "content").getD "")
    (((reasoningOf (messageOf body)).filter (· ≠ "")).getD "")
    ((callsOf (messageOf body)).map (toolCall codec ∘ toolUse codec))
  obtain ⟨id, hbodyId⟩ := Option.ne_none_iff_exists'.mp h.id
  obtain ⟨model, hbodyModel⟩ := Option.ne_none_iff_exists'.mp h.model
  obtain ⟨reason, hreason, hbodyFinish⟩ := h.finishReason
  obtain ⟨prompt, completion, hbodyPrompt, hbodyCompletion, hsum⟩ := h.usage
  rw [hbodyPrompt, Option.getD_some] at hinput
  rw [hbodyCompletion, Option.getD_some] at houtput
  rw [hinput, houtput, Option.getD_some, Option.getD_some] at htotal
  refine ⟨out, back, hout, hback, ?_, ?_, ?_, ?_, ?_, ?_, ?_, ?_, ?_⟩
  · rw [hid', getD, hid, getD, hbodyId]
    rfl
  · rw [hmodel', getD, hmodel, getD, hbodyModel]
    rfl
  · rw [hmessage, htext]
  · rw [hmessage, hreasoning]
    cases (reasoningOf (messageOf body)) with
    | none => rfl
    | some reasoning => by_cases hempty : reasoning = "" <;> simp [Option.filter_some, hempty]
  · rw [hmessage, hcalls, List.forall₂_map_right_iff, List.forall₂_same]
    exact fun call hcall => sameCall_toolCall (h.calls call hcall) hcodec
  · rw [hfinish, hstop, getStr, hbodyFinish]
    show some (Json.string (finishReason (stopReason reason))) = _
    rw [finishReason_stopReason hreason]
  · rw [hprompt, hinput, hbodyPrompt]
    rfl
  · rw [hcompletion, houtput, hbodyCompletion]
    rfl
  · refine ⟨prompt, completion, _, hbodyPrompt, hbodyCompletion, htotal, ?_⟩
    rw [UInt64.toNat_add, Nat.mod_eq_of_lt hsum]

/-! ### An answer with a call -/

/-- A response to a request for the time. -/
def timeResponse (message : Json) : Json :=
  ofMembers [("id", .string "chatcmpl-1"), ("model", .string "gpt"),
    ("choices", .array [ofMembers [("message", message), ("finish_reason", .string "tool_calls")]]),
    ("usage", ofMembers [("prompt_tokens", ofU64 12), ("completion_tokens", ofU64 7)])]

def clockCall : Json :=
  ofMembers [("id", .string "call_1"), ("type", .string "function"),
    ("function", ofMembers [("name", .string "clock"), ("arguments", .string "\x7b\x7d")])]

theorem isCall_clockCall : IsCall objectCodec clockCall where
  type := by simp [clockCall, get_ofMembers]
  id := by simp [clockCall, get_ofMembers]
  name := by simp [clockCall, functionOf, getD, get_ofMembers]
  arguments := by
    refine ⟨"\x7b\x7d", .object [], ?_, rfl⟩
    simp [clockCall, functionOf, getD, getStr, get_ofMembers, asStr]

/-- A response is complete if its message is. -/
theorem complete_timeResponse (hcontent : message.get "content" = some .null)
    (hreasoning : message.get "reasoning_content" = none)
    (hcalls : ∀ call ∈ callsOf message, IsCall codec call) :
    Complete codec (timeResponse message) := by
  have hmessage : messageOf (timeResponse message) = message := by
    simp [messageOf, choiceOf, timeResponse, getArray, getD, get_ofMembers, asArray]
  constructor
  · simp [timeResponse, get_ofMembers]
  · simp [timeResponse, get_ofMembers]
  · exact ⟨.null, by rw [hmessage, hcontent], .inl rfl⟩
  · simp [hmessage, hreasoning]
  · rwa [hmessage]
  · refine ⟨"tool_calls", by decide, ?_⟩
    simp [choiceOf, timeResponse, getArray, get_ofMembers, asArray]
  · refine ⟨12, 7, ?_, ?_, by decide⟩
    all_goals simp [tokens, timeResponse, getD, getU64, get_ofMembers, asU64, ofU64]

/-- The only value this codec reads it can write. -/
theorem recovers_objectCodec {s : String} {v : Json} (h : objectCodec.fromStr s = .ok v) :
    objectCodec.Recovers v := by
  rw [objectCodec] at h
  dsimp only at h
  split at h
  · cases h
    exact ⟨"\x7b\x7d", rfl, rfl⟩
  · cases h

theorem returned_timeResponse :
    ∃ out back, openaiToClaudeResponse objectCodec (timeResponse (ofMembers
        [("content", .null), ("tool_calls", .array [clockCall])])) = .ok out ∧
      claudeToOpenaiResponse objectCodec 1700000000 out = .ok back ∧
      Returned objectCodec reasoningOf (timeResponse (ofMembers
        [("content", .null), ("tool_calls", .array [clockCall])])) back := by
  refine returned objectCodec 1700000000 (complete_timeResponse ?_ ?_ ?_) fun _ _ =>
    recovers_objectCodec
  · simp [get_ofMembers]
  · simp [get_ofMembers]
  · simp [callsOf, getArray, get_ofMembers, asArray, isCall_clockCall]

/-- A message whose reasoning has the other name. -/
def reasoningMessage : Json :=
  ofMembers [("content", .null), ("reasoning", .string "The clock is not needed.")]

/-- The reasoning comes back under the name it did not have. -/
theorem not_returned :
    Complete objectCodec (timeResponse reasoningMessage) ∧
      (∀ s v, objectCodec.fromStr s = .ok v → objectCodec.Recovers v) ∧
      ¬ ∃ out back, openaiToClaudeResponse objectCodec (timeResponse reasoningMessage) = .ok out ∧
        claudeToOpenaiResponse objectCodec 1700000000 out = .ok back ∧
        Returned objectCodec (·.getStr "reasoning_content") (timeResponse reasoningMessage)
          back := by
  refine ⟨complete_timeResponse ?_ ?_ ?_, fun _ _ => recovers_objectCodec, ?_⟩
  · simp [reasoningMessage, get_ofMembers]
  · simp [reasoningMessage, get_ofMembers]
  · simp [callsOf, reasoningMessage, getArray, get_ofMembers]
  · rintro ⟨out, back, hout, hback, h⟩
    cases hout
    cases hback
    have hreasoning := congrArg (Option.bind · asStr) h.reasoning
    exact absurd hreasoning (by decide +kernel)

end Chennix.RoundTrip
