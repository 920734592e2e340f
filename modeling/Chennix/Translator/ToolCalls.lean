import Chennix.Translator.C2O
import Chennix.Translator.Conversation

/-!
# Tool calls of Claude's clients

OpenAI wants the results of tool calls directly after the calls, each in a message of its own.
Claude wants them as blocks of the next message, which may hold text as well. The translation moves
the text behind the results.

## Main definitions

* `toolUses`, `toolResults` — the blocks of a message that call tools, and those that answer
* `Paired` — the requests in which each call is answered by the next message
* `Answered` — the messages in which each call is followed by its results
* `Kept` — the messages that have all the calls and results of a request
* `speech` — what a message of the outgoing request says

## Main results

* `claudeToOpenaiRequest_answered` — calls and results stay together and are all there, and all
  texts are kept
-/

namespace Chennix.C2O

open Foundations Json O2C

/-- The blocks that call tools. -/
def toolUses (msg : Json) : List Json :=
  (messageBlocks msg).filter fun block => block.getStr "type" = some "tool_use"

/-- The blocks that hold results of tools. -/
def toolResults (msg : Json) : List Json := (messageBlocks msg).filter isToolResult

def useId (block : Json) : Json := block.getD "id" (.string "")

def resultId (block : Json) : Json := block.getD "tool_use_id" (.string "")

/-- A Claude request in which tools are called by the assistant and answered by the user, in the
next message, with one result for each call. -/
structure Paired (body : Json) : Prop where
  roles : ∀ msg ∈ messagesOf body, senderOf msg = "user" ∨ senderOf msg = "assistant"
  uses : ∀ msg ∈ messagesOf body, toolUses msg ≠ [] → senderOf msg = "assistant"
  results : ∀ msg ∈ messagesOf body, toolResults msg ≠ [] → senderOf msg = "user"
  answered : ∀ before msg after, messagesOf body = before ++ msg :: after → toolUses msg ≠ [] →
    ∃ next rest, after = next :: rest ∧
      ((toolResults next).map resultId).Perm ((toolUses msg).map useId)

/-- The texts of the text blocks, one after the other. -/
def textOf (blocks : List Json) : String :=
  String.join (blocks.filterMap fun block =>
    if block.getStr "type" = some "text" then block.getStr "text" else none)

/-- The text of a tool's result: a string, text blocks, or another value as JSON. -/
def resultText (codec : Codec) (block : Json) : String :=
  match block.getD "content" (.string "") with
  | .string s => s
  | .array blocks => textOf blocks
  | other => codec.display other

/-- The message is the result of a tool. -/
structure Answers (codec : Codec) (block msg : Json) : Prop where
  role : msg.getStr "role" = some "tool"
  id : msg.get "tool_call_id" = some (resultId block)
  text : msg.getStr "content" = some (resultText codec block)

/-- Directly after every message with tool calls, which is one of the assistant, come the results:
one for each call, in the order of the blocks of a message that follows the calls in the request. -/
def Answered (codec : Codec) (body : Json) (msgs : List Json) : Prop :=
  ∀ before msg after, msgs = before ++ msg :: after → msg.get "tool_calls" ≠ none →
    msg.getStr "role" = some "assistant" ∧
    ∃ calls asking next answers rest, msg.getArray "tool_calls" = some calls ∧
      (∃ earlier later, messagesOf body = earlier ++ asking :: next :: later) ∧
      calls.map useId = (toolUses asking).map useId ∧ after = answers ++ rest ∧
      List.Forall₂ (Answers codec) (toolResults next) answers ∧
      (answers.map fun answer => answer.getD "tool_call_id" .null).Perm (calls.map useId)

/-- The tool calls of a message of the outgoing request. -/
def callsOf (msg : Json) : List Json := (msg.getArray "tool_calls").getD []

/-- The call is what the block asks for, with its input as a text. -/
structure Asks (codec : Codec) (block call : Json) : Prop where
  type : call.getStr "type" = some "function"
  id : call.get "id" = some (useId block)
  name : (call.getD "function" .null).get "name" = some (block.getD "name" (.string ""))
  arguments : ∀ s, codec.toStr (block.getD "input" (.object [])) = .ok s →
    (call.getD "function" .null).getStr "arguments" = some s

/-- All is there, and in order: for each message of the request that calls tools one with its calls,
and for each result of a tool a message. -/
structure Kept (codec : Codec) (body : Json) (msgs : List Json) : Prop where
  calls : List.Forall₂ (List.Forall₂ (Asks codec))
    (((messagesOf body).map toolUses).filter fun uses => !uses.isEmpty)
    ((msgs.map callsOf).filter fun calls => !calls.isEmpty)
  results : List.Forall₂ (Answers codec) ((messagesOf body).flatMap toolResults)
    (msgs.filter fun msg => msg.getStr "role" = some "tool")

/-- What a message of the outgoing request says, if it is one of the user or the assistant. -/
def speech (msg : Json) : Option (String × String) :=
  (msg.getStr "role").bind fun role =>
    if role = "user" ∨ role = "assistant" then
      ((msg.getStr "content").filter (· ≠ "")).map fun text => (role, text)
    else none

/-- What a message of a Claude request says. -/
def said (msg : Json) : Option (String × String) :=
  let text := textOf (messageBlocks msg)
  if text = "" then none else some (senderOf msg, text)

variable {codec : Codec} {body msg block : Json}

/-! ### The messages of the outgoing request -/

/-- The system prompt, as a message. -/
def systemMessages (body : Json) : List Json :=
  if systemText body = "" then []
  else [ofMembers [("role", .string "system"), ("content", .string (systemText body))]]

theorem claudeToOpenaiRequest_messages {out : Json}
    (h : claudeToOpenaiRequest codec body = .ok out) :
    out.get "messages" = some (.array
      (systemMessages body ++ (messagesOf body).flatMap (convertMessage codec))) := by
  cases h
  simp only [get_ofMembers_append, get_ofMembers_ite, get_ofMembers_cons, get_ofMembers_nil,
    get_ofMembers_member?]
  simp [systemMessages, messagesOf]

theorem joinedTexts_eq (blocks : List Json) : joinedTexts blocks = textOf blocks := rfl

theorem answers_toolMessage (block : Json) : Answers codec block (toolMessage codec block) where
  role := by simp [toolMessage, getStr, get_ofMembers, asStr]
  id := by simp [toolMessage, get_ofMembers, resultId]
  text := by
    simp only [toolMessage, getStr, get_ofMembers, resultText, joinedTexts_eq]
    cases block.getD "content" (.string "") <;> rfl

/-- The text between the results, as a message. -/
def textMessages (msg : Json) : List Json :=
  if blockStrings "text" "text" (messageBlocks msg) = [] then []
  else [ofMembers [("role", .string (senderOf msg)),
    ("content", .string (joinedTexts (messageBlocks msg)))]]

theorem convertMessage_of_results (h : toolResults msg ≠ []) :
    convertMessage codec msg = (toolResults msg).map (toolMessage codec) ++ textMessages msg := by
  have hany : (messageBlocks msg).any isToolResult = true := by
    obtain ⟨block, hblock⟩ := List.exists_mem_of_ne_nil _ h
    exact List.any_eq_true.mpr ⟨block, List.mem_filter.mp hblock⟩
  exact if_pos hany

theorem convertMessage_of_none (h : toolResults msg = []) :
    convertMessage codec msg = [plainMessage codec (senderOf msg) (messageBlocks msg)] := by
  have hany : ¬ (messageBlocks msg).any isToolResult = true := by
    rw [List.any_eq_true]
    rintro ⟨block, hblock⟩
    exact List.ne_nil_of_mem (List.mem_filter.mpr hblock) h
  exact if_neg hany

theorem useId_toolCall (block : Json) : useId (toolCall codec block) = useId block := by
  simp [useId, toolCall, getD, get_ofMembers]

theorem map_useId_toolCall (blocks : List Json) :
    (blocks.map (toolCall codec)).map useId = blocks.map useId := by
  rw [List.map_map]
  exact List.map_congr_left fun block _ => useId_toolCall block

/-- A message without results has the calls of its blocks. -/
theorem plainMessage_eq (role : String) (msg : Json) :
    plainMessage codec role (messageBlocks msg) =
      ofMembers ([("role", .string role), ("content", if toolUses msg ≠ [] ∧
          joinedTexts (messageBlocks msg) = "" then .null
        else .string (joinedTexts (messageBlocks msg)))] ++
        if toolUses msg = [] then [] else
          [("tool_calls", .array ((toolUses msg).map (toolCall codec)))]) := by
  rw [plainMessage]
  by_cases huses : toolUses msg = []
  · have hcalls : (((messageBlocks msg).filter fun block =>
        block.getStr "type" = some "tool_use").map (toolCall codec)).isEmpty = true := by
      rw [List.isEmpty_iff, List.map_eq_nil_iff]
      exact huses
    rw [if_pos huses]
    simp only [hcalls, huses]
    rfl
  · have hcalls : ¬ (((messageBlocks msg).filter fun block =>
        block.getStr "type" = some "tool_use").map (toolCall codec)).isEmpty = true := by
      rw [List.isEmpty_iff, List.map_eq_nil_iff]
      exact huses
    rw [if_neg huses]
    simp only [hcalls, huses, ne_eq, not_false_eq_true, true_and]
    rfl

theorem plainMessage_role (role : String) (msg : Json) :
    (plainMessage codec role (messageBlocks msg)).getStr "role" = some role := by
  rw [plainMessage_eq, getStr, get_ofMembers_append, get_ofMembers_cons]
  split <;> simp [get_ofMembers, asStr]

theorem plainMessage_calls (role : String) (msg : Json) :
    (plainMessage codec role (messageBlocks msg)).get "tool_calls" =
      if toolUses msg = [] then none
      else some (.array ((toolUses msg).map (toolCall codec))) := by
  rw [plainMessage_eq, get_ofMembers_append]
  split <;> simp [get_ofMembers]

theorem plainMessage_get_content (role : String) (msg : Json) :
    (plainMessage codec role (messageBlocks msg)).get "content" =
      some (if toolUses msg ≠ [] ∧ joinedTexts (messageBlocks msg) = "" then .null
        else .string (joinedTexts (messageBlocks msg))) := by
  rw [plainMessage_eq, get_ofMembers_append]
  by_cases huses : toolUses msg = [] <;> simp [huses, get_ofMembers]

theorem plainMessage_content (role : String) (msg : Json) :
    ((plainMessage codec role (messageBlocks msg)).getStr "content").filter (· ≠ "") =
      (some (joinedTexts (messageBlocks msg))).filter (· ≠ "") := by
  rw [getStr, plainMessage_get_content, Option.bind_some]
  split
  · rename_i h
    rw [h.2]
    rfl
  · rfl

/-! ### What is said -/

theorem said_eq (msg : Json) : said msg =
    ((some (joinedTexts (messageBlocks msg))).filter (· ≠ "")).map fun text =>
      (senderOf msg, text) := by
  rw [said, ← joinedTexts_eq, Option.filter_some]
  by_cases h : joinedTexts (messageBlocks msg) = ""
  · rw [if_pos h, h]
    rfl
  · rw [if_neg h, if_pos (decide_eq_true h)]
    rfl

theorem speech_toolMessage (block : Json) : speech (toolMessage codec block) = none := by
  rw [speech, (answers_toolMessage block).role]
  rfl

theorem speech_plainMessage (h : senderOf msg = "user" ∨ senderOf msg = "assistant") :
    speech (plainMessage codec (senderOf msg) (messageBlocks msg)) = said msg := by
  rw [speech, plainMessage_role, Option.bind_some, if_pos h, plainMessage_content, said_eq]

theorem filterMap_speech_textMessages
    (h : senderOf msg = "user" ∨ senderOf msg = "assistant") :
    (textMessages msg).filterMap speech = (said msg).toList := by
  rw [textMessages]
  split
  · rename_i htexts
    rw [said, ← joinedTexts_eq, joinedTexts, htexts]
    rfl
  · have hspeech : speech (ofMembers [("role", .string (senderOf msg)),
        ("content", .string (joinedTexts (messageBlocks msg)))]) = said msg := by
      have hrole : (ofMembers [("role", .string (senderOf msg)),
          ("content", .string (joinedTexts (messageBlocks msg)))]).getStr "role" =
            some (senderOf msg) := by
        simp [getStr, get_ofMembers, asStr]
      have hcontent : (ofMembers [("role", .string (senderOf msg)),
          ("content", .string (joinedTexts (messageBlocks msg)))]).getStr "content" =
            some (joinedTexts (messageBlocks msg)) := by
        simp [getStr, get_ofMembers, asStr]
      rw [speech, hrole, Option.bind_some, if_pos h, hcontent, said_eq]
    rw [List.filterMap_cons, hspeech]
    cases said msg <;> rfl

/-- **Texts are kept**: a message says what it said, once, under its role. -/
theorem filterMap_speech_convertMessage
    (h : senderOf msg = "user" ∨ senderOf msg = "assistant") :
    (convertMessage codec msg).filterMap speech = (said msg).toList := by
  by_cases hresults : toolResults msg = []
  · rw [convertMessage_of_none hresults, List.filterMap_cons, speech_plainMessage h]
    cases said msg <;> rfl
  · have hanswers : ((toolResults msg).map (toolMessage codec)).filterMap speech = [] := by
      rw [List.filterMap_eq_nil_iff]
      rintro _ hm
      obtain ⟨block, _, rfl⟩ := List.mem_map.mp hm
      exact speech_toolMessage block
    rw [convertMessage_of_results hresults, List.filterMap_append, hanswers, List.nil_append,
      filterMap_speech_textMessages h]

theorem filterMap_speech_systemMessages (body : Json) :
    (systemMessages body).filterMap speech = [] := by
  rw [systemMessages]
  split
  · rfl
  · rw [List.filterMap_eq_nil_iff]
    intro m hm
    rw [List.mem_singleton.mp hm]
    simp [speech, getStr, get_ofMembers, asStr]

/-! ### Calls and results -/

/-- An element of lists one after another stands in one of them. -/
theorem exists_of_flatMap_eq {α β : Type} {f : α → List β} {l : List α} {before after : List β}
    {m : β} (h : l.flatMap f = before ++ m :: after) :
    ∃ earlier a later p q, l = earlier ++ a :: later ∧ f a = p ++ m :: q ∧
      after = q ++ later.flatMap f := by
  induction l generalizing before with
  | nil => exact absurd h.symm (List.append_ne_nil_of_right_ne_nil _ (List.cons_ne_nil _ _))
  | cons a l ih =>
    have hrest {before' : List β} (h' : l.flatMap f = before' ++ m :: after) :
        ∃ earlier a' later p q, a :: l = earlier ++ a' :: later ∧ f a' = p ++ m :: q ∧
          after = q ++ later.flatMap f := by
      obtain ⟨earlier, a', later, p, q, rfl, ha, hafter⟩ := ih h'
      exact ⟨a :: earlier, a', later, p, q, rfl, ha, hafter⟩
    rw [List.flatMap_cons] at h
    rcases List.append_eq_append_iff.mp h with ⟨before', _, htail⟩ | ⟨c, hhead, htail⟩
    · exact hrest htail
    · cases c with
      | nil => exact hrest (htail.symm.trans (List.nil_append _).symm)
      | cons m' q =>
        cases htail
        exact ⟨[], a, l, before, q, rfl, hhead, rfl⟩

/-- Only messages that are made of calls have calls. -/
theorem get_calls_textMessages {m : Json} (h : m ∈ textMessages msg) :
    m.get "tool_calls" = none := by
  rw [textMessages] at h
  split at h
  · cases h
  · rw [List.mem_singleton.mp h]
    simp [get_ofMembers]

theorem get_calls_toolMessage (block : Json) :
    (toolMessage codec block).get "tool_calls" = none := by
  simp [toolMessage, get_ofMembers]

theorem get_calls_systemMessages {m : Json} (h : m ∈ systemMessages body) :
    m.get "tool_calls" = none := by
  rw [systemMessages] at h
  split at h
  · cases h
  · rw [List.mem_singleton.mp h]
    simp [get_ofMembers]

/-- A message with calls is made of one of the assistant's that calls tools, and is all that is made
of it. -/
theorem convertMessage_calls {m : Json} (hm : m ∈ convertMessage codec msg)
    (hcalls : m.get "tool_calls" ≠ none) :
    toolUses msg ≠ [] ∧ convertMessage codec msg = [m] ∧
      m = plainMessage codec (senderOf msg) (messageBlocks msg) := by
  by_cases hresults : toolResults msg = []
  · rw [convertMessage_of_none hresults, List.mem_singleton] at hm
    subst hm
    refine ⟨fun huses => hcalls ?_, convertMessage_of_none hresults, rfl⟩
    rw [plainMessage_calls, if_pos huses]
  · rw [convertMessage_of_results hresults, List.mem_append] at hm
    rcases hm with hm | hm
    · obtain ⟨block, _, rfl⟩ := List.mem_map.mp hm
      exact absurd (get_calls_toolMessage block) hcalls
    · exact absurd (get_calls_textMessages hm) hcalls

theorem answered_convert (h : Paired body) :
    Answered codec body
      (systemMessages body ++ (messagesOf body).flatMap (convertMessage codec)) := by
  intro before m after hsplit hcalls
  obtain ⟨earlier, asking, later, p, q, hmsgs, hconvert, hafter⟩ :
      ∃ earlier asking later p q, messagesOf body = earlier ++ asking :: later ∧
        convertMessage codec asking = p ++ m :: q ∧
        after = q ++ later.flatMap (convertMessage codec) := by
    rcases List.append_eq_append_iff.mp hsplit with ⟨before', _, htail⟩ | ⟨c, hhead, htail⟩
    · exact exists_of_flatMap_eq htail
    · cases c with
      | nil => exact exists_of_flatMap_eq (htail.symm.trans (List.nil_append _).symm)
      | cons m' q =>
        cases htail
        have hmem : m ∈ systemMessages body := by
          rw [hhead]
          exact List.mem_append_right _ List.mem_cons_self
        exact absurd (get_calls_systemMessages hmem) hcalls
  have hmem : m ∈ convertMessage codec asking := by
    rw [hconvert]
    exact List.mem_append_right _ List.mem_cons_self
  obtain ⟨huses, hall, hm⟩ := convertMessage_calls hmem hcalls
  have hasking : asking ∈ messagesOf body := by
    rw [hmsgs]
    exact List.mem_append_right _ List.mem_cons_self
  obtain ⟨next, rest, hlater, hperm⟩ := h.answered _ _ _ hmsgs huses
  have hresults : toolResults next ≠ [] := by
    intro hnil
    rw [hnil, List.map_nil, List.nil_perm, List.map_eq_nil_iff] at hperm
    exact huses hperm
  have hq : q = [] := by
    rw [hall] at hconvert
    cases p with
    | nil => exact (List.cons.inj hconvert).2.symm
    | cons _ p => exact absurd (List.cons.inj hconvert).2.symm (by simp)
  refine ⟨?_, (toolUses asking).map (toolCall codec), asking, next,
    (toolResults next).map (toolMessage codec),
    textMessages next ++ rest.flatMap (convertMessage codec), ?_,
    ⟨earlier, rest, by rw [hmsgs, hlater]⟩, ?_, ?_, ?_, ?_⟩
  · rw [hm, plainMessage_role, h.uses asking hasking huses]
  · rw [hm, getArray, plainMessage_calls, if_neg huses]
    rfl
  · exact map_useId_toolCall _
  · rw [hafter, hq, hlater, List.flatMap_cons, convertMessage_of_results hresults]
    simp
  · exact List.forall₂_map_right_iff.mpr (List.forall₂_same.mpr fun b _ => answers_toolMessage b)
  · have hids : ((toolResults next).map (toolMessage codec)).map
        (fun answer => answer.getD "tool_call_id" .null) = (toolResults next).map resultId := by
      rw [List.map_map]
      refine List.map_congr_left fun block _ => ?_
      show (toolMessage codec block).getD "tool_call_id" .null = _
      rw [getD, (answers_toolMessage block).id, Option.getD_some]
    rw [hids, map_useId_toolCall]
    exact hperm

/-! ### Nothing is lost -/

theorem asks_toolCall (block : Json) : Asks codec block (toolCall codec block) where
  type := by simp [toolCall, getStr, get_ofMembers, asStr]
  id := by simp [toolCall, get_ofMembers, useId]
  name := by simp [toolCall, getD, get_ofMembers]
  arguments s hs := by
    rw [toolCall, hs]
    simp [getD, getStr, get_ofMembers, asStr, Except.toOption]

theorem callsOf_of_none {m : Json} (h : m.get "tool_calls" = none) : callsOf m = [] := by
  rw [callsOf, getArray, h]
  rfl

theorem callsOf_plainMessage (role : String) (msg : Json) :
    callsOf (plainMessage codec role (messageBlocks msg)) =
      (toolUses msg).map (toolCall codec) := by
  rw [callsOf, getArray, plainMessage_calls]
  split
  · rename_i h
    rw [h]
    rfl
  · rfl

/-- A message becomes one with its calls, if it has any. -/
theorem calls_convertMessage (h : toolUses msg ≠ [] → toolResults msg = []) :
    ((convertMessage codec msg).map callsOf).filter (fun calls => !calls.isEmpty) =
      ([toolUses msg].filter fun uses => !uses.isEmpty).map (List.map (toolCall codec)) := by
  by_cases hresults : toolResults msg = []
  · rw [convertMessage_of_none hresults, List.map_singleton, callsOf_plainMessage]
    cases toolUses msg <;> rfl
  · have huses : toolUses msg = [] := by
      by_contra huses
      exact hresults (h huses)
    rw [huses, convertMessage_of_results hresults, List.filter_eq_nil_iff.mpr]
    · rfl
    intro calls hcalls
    obtain ⟨m, hm, rfl⟩ := List.mem_map.mp hcalls
    have hnone : m.get "tool_calls" = none := by
      rcases List.mem_append.mp hm with hm | hm
      · obtain ⟨block, -, rfl⟩ := List.mem_map.mp hm
        exact get_calls_toolMessage block
      · exact get_calls_textMessages hm
    simp [callsOf_of_none hnone]

theorem role_textMessages {m : Json} (h : m ∈ textMessages msg) :
    m.getStr "role" = some (senderOf msg) := by
  rw [textMessages] at h
  split at h
  · cases h
  · rw [List.mem_singleton.mp h]
    simp [getStr, get_ofMembers, asStr]

/-- A message becomes a message for each of its results, besides one of its own role. -/
theorem results_convertMessage (h : senderOf msg ≠ "tool") :
    (convertMessage codec msg).filter (fun m => m.getStr "role" = some "tool") =
      (toolResults msg).map (toolMessage codec) := by
  have hrole {m : Json} (hm : m.getStr "role" = some (senderOf msg)) :
      ¬decide (m.getStr "role" = some "tool") = true := by
    rw [decide_eq_true_iff, hm, Option.some_inj]
    exact h
  by_cases hresults : toolResults msg = []
  · rw [convertMessage_of_none hresults, hresults, List.map_nil, List.filter_eq_nil_iff]
    intro m hm
    rw [List.mem_singleton.mp hm]
    exact hrole (plainMessage_role _ _)
  · have htexts : (textMessages msg).filter (fun m => m.getStr "role" = some "tool") = [] :=
      List.filter_eq_nil_iff.mpr fun m hm => hrole (role_textMessages hm)
    have hanswers : ((toolResults msg).map (toolMessage codec)).filter
        (fun m => m.getStr "role" = some "tool") = (toolResults msg).map (toolMessage codec) := by
      refine List.filter_eq_self.mpr fun m hm => ?_
      obtain ⟨block, -, rfl⟩ := List.mem_map.mp hm
      exact decide_eq_true (answers_toolMessage block).role
    rw [convertMessage_of_results hresults, List.filter_append, hanswers, htexts, List.append_nil]

/-- **All calls and results** are there. -/
theorem kept_convert (h : Paired body) :
    Kept codec body (systemMessages body ++ (messagesOf body).flatMap (convertMessage codec)) := by
  have hplain : ∀ msg ∈ messagesOf body, toolUses msg ≠ [] → toolResults msg = [] := by
    intro msg hmsg huses
    by_contra hresults
    have hroles := (h.uses msg hmsg huses).symm.trans (h.results msg hmsg hresults)
    exact absurd hroles (by decide)
  have hsender : ∀ msg ∈ messagesOf body, senderOf msg ≠ "tool" := by
    intro msg hmsg htool
    rcases h.roles msg hmsg with hrole | hrole <;> exact absurd (htool.symm.trans hrole) (by decide)
  constructor
  · have hsystem : ((systemMessages body).map callsOf).filter (fun calls => !calls.isEmpty) =
        [] := by
      refine List.filter_eq_nil_iff.mpr fun calls hcalls => ?_
      obtain ⟨m, hm, rfl⟩ := List.mem_map.mp hcalls
      simp [callsOf_of_none (get_calls_systemMessages hm)]
    have hcalls : (((messagesOf body).flatMap (convertMessage codec)).map callsOf).filter
        (fun calls => !calls.isEmpty) = (((messagesOf body).map toolUses).filter
          fun uses => !uses.isEmpty).map (List.map (toolCall codec)) := by
      rw [List.map_flatMap, List.filter_flatMap, List.flatMap_congr fun msg hmsg =>
        calls_convertMessage (hplain msg hmsg), ← List.map_flatMap, ← List.filter_flatMap,
        ← List.map_eq_flatMap]
    rw [List.map_append, List.filter_append, hsystem, List.nil_append, hcalls]
    exact List.forall₂_map_right_iff.mpr (List.forall₂_same.mpr fun uses _ =>
      List.forall₂_map_right_iff.mpr (List.forall₂_same.mpr fun block _ => asks_toolCall block))
  · have hsystem : (systemMessages body).filter (fun m => m.getStr "role" = some "tool") = [] := by
      refine List.filter_eq_nil_iff.mpr fun m hm => ?_
      rw [systemMessages] at hm
      split at hm
      · cases hm
      · rw [List.mem_singleton.mp hm]
        simp [getStr, get_ofMembers, asStr]
    rw [List.filter_append, hsystem, List.nil_append, List.filter_flatMap,
      List.flatMap_congr fun msg hmsg => results_convertMessage (hsender msg hmsg),
      ← List.map_flatMap]
    exact List.forall₂_map_right_iff.mpr (List.forall₂_same.mpr fun b _ => answers_toolMessage b)

/-- **Calls and results** stay together and are all there, and all texts are kept. -/
theorem claudeToOpenaiRequest_answered (codec : Codec) (h : Paired body) :
    ∃ out msgs, claudeToOpenaiRequest codec body = .ok out ∧
      out.get "messages" = some (.array msgs) ∧ Answered codec body msgs ∧ Kept codec body msgs ∧
      msgs.filterMap speech = (messagesOf body).filterMap said := by
  refine ⟨_, _, rfl, claudeToOpenaiRequest_messages rfl, answered_convert h, kept_convert h, ?_⟩
  rw [List.filterMap_append, filterMap_speech_systemMessages, List.nil_append,
    List.filterMap_flatMap, List.filterMap_eq_flatMap_toList]
  exact List.flatMap_congr fun msg hmsg => filterMap_speech_convertMessage (h.roles msg hmsg)

/-! ### A tool is asked for the time -/

/-- A message of a Claude request. -/
def claudeMessage (role : String) (blocks : List Json) : Json :=
  ofMembers [("role", .string role), ("content", .array blocks)]

def askTime : Json :=
  ofMembers [("type", .string "tool_use"), ("id", .string "toolu_1"), ("name", .string "clock"),
    ("input", .object [])]

def tellTime : Json :=
  ofMembers [("type", .string "tool_result"), ("tool_use_id", .string "toolu_1"),
    ("content", .string "noon")]

/-- The user answers before the result and after it. -/
def timeRequest : Json :=
  ofMembers [("messages", .array [claudeMessage "assistant" [askTime],
    claudeMessage "user" [textBlock (.string "It is "), tellTime, textBlock (.string "now.")]])]

theorem messagesOf_timeRequest : messagesOf timeRequest = [claudeMessage "assistant" [askTime],
    claudeMessage "user" [textBlock (.string "It is "), tellTime, textBlock (.string "now.")]] := by
  simp [messagesOf, timeRequest, getArray, get_ofMembers, asArray]

theorem senderOf_claudeMessage (role : String) (blocks : List Json) :
    senderOf (claudeMessage role blocks) = role := by
  simp [senderOf, claudeMessage, getStr, get_ofMembers, asStr]

theorem messageBlocks_claudeMessage (role : String) (blocks : List Json) :
    messageBlocks (claudeMessage role blocks) = blocks := by
  simp [messageBlocks, claudeMessage, get_ofMembers]

theorem paired_timeRequest : Paired timeRequest := by
  have huses : toolUses (claudeMessage "assistant" [askTime]) = [askTime] := by
    rw [toolUses, messageBlocks_claudeMessage]
    simp [askTime, getStr, get_ofMembers, asStr]
  have hanswers : toolResults (claudeMessage "user"
      [textBlock (.string "It is "), tellTime, textBlock (.string "now.")]) = [tellTime] := by
    rw [toolResults, messageBlocks_claudeMessage]
    simp [isToolResult, tellTime, textBlock, getStr, get_ofMembers, asStr]
  have hnone : toolResults (claudeMessage "assistant" [askTime]) = [] := by
    rw [toolResults, messageBlocks_claudeMessage]
    simp [isToolResult, askTime, getStr, get_ofMembers, asStr]
  have hplain : toolUses (claudeMessage "user"
      [textBlock (.string "It is "), tellTime, textBlock (.string "now.")]) = [] := by
    rw [toolUses, messageBlocks_claudeMessage]
    simp [tellTime, textBlock, getStr, get_ofMembers, asStr]
  constructor <;> rw [messagesOf_timeRequest]
  · simp [senderOf_claudeMessage]
  · simp [senderOf_claudeMessage, hplain]
  · simp [senderOf_claudeMessage, hnone]
  · intro before msg after hsplit hcalls
    cases before with
    | nil =>
      cases hsplit
      refine ⟨_, _, rfl, ?_⟩
      rw [huses, hanswers]
      simp [resultId, useId, askTime, tellTime, getD, get_ofMembers]
    | cons first before =>
      cases before with
      | nil =>
        cases hsplit
        exact absurd hplain hcalls
      | cons second before => simp at hsplit

theorem answered_timeRequest :
    ∃ (out : Json) (msgs : List Json), claudeToOpenaiRequest objectCodec timeRequest = .ok out ∧
      Answered objectCodec timeRequest msgs ∧ Kept objectCodec timeRequest msgs ∧
      msgs.filterMap speech = [("user", "It is now.")] := by
  obtain ⟨out, msgs, hout, _, hanswered, hkept, hsaid⟩ :=
    claudeToOpenaiRequest_answered objectCodec paired_timeRequest
  refine ⟨out, msgs, hout, hanswered, hkept, hsaid.trans ?_⟩
  rw [messagesOf_timeRequest]
  decide +kernel

end Chennix.C2O
