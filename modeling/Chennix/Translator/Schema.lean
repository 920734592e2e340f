import Chennix.Translator.Conversation

/-!
# The schema of Claude's messages

Claude accepts messages of the user and of the assistant, with at least one block each, and no empty
texts. An outgoing request meets this schema unless the conversation has messages of a developer,
parts with empty texts, or a run of messages from one side in which nothing is said.

## Main definitions

* `ValidMessage`, `Valid` — the schema
* `SaysSomething`, `HasEmptyPart` — what a message of an OpenAI request holds
* `Presentable` — the conversations whose requests meet the schema

## Main results

* `valid_iff` — a request meets the schema exactly if the conversation is presentable
-/

namespace Chennix.O2C

open Foundations Json

/-- A block that is no empty text. -/
def ValidBlock (block : Json) : Prop :=
  block.getStr "type" = some "text" → block.getStr "text" ≠ some ""

/-- A message that Claude accepts. -/
def ValidMessage (msg : Json) : Prop :=
  (msg.getStr "role" = some "user" ∨ msg.getStr "role" = some "assistant") ∧
    ∃ blocks, msg.getArray "content" = some blocks ∧ blocks ≠ [] ∧ ∀ b ∈ blocks, ValidBlock b

/-- The outgoing request has messages that Claude accepts. -/
def Valid (codec : Codec) (body : Json) : Prop :=
  ∃ out msgs, openaiToClaudeRequest codec body = .ok out ∧ out.getArray "messages" = some msgs ∧
    ∀ msg ∈ msgs, ValidMessage msg

/-- The messages have the roles that OpenAI knows. -/
def OpenaiRoles (body : Json) : Prop :=
  ∀ msg ∈ messagesOf body, senderOf msg ∈ ["system", "developer", "user", "assistant", "tool"]

/-- The message is the result of a tool, or has a content that is neither null nor empty, or tool
calls. -/
def SaysSomething (msg : Json) : Prop :=
  senderOf msg = "tool" ∨ (∃ s, msg.get "content" = some (.string s) ∧ s ≠ "") ∨
    (∃ parts, msg.get "content" = some (.array parts) ∧ parts ≠ []) ∨
    ∃ calls, msg.getArray "tool_calls" = some calls ∧ calls ≠ []

/-- A text part of the message has an empty text, or none at all. -/
def HasEmptyPart (msg : Json) : Prop :=
  senderOf msg ≠ "tool" ∧ ∃ parts, msg.get "content" = some (.array parts) ∧
    ∃ part ∈ parts, part.getStr "type" = some "text" ∧
      (part.get "text" = none ∨ part.get "text" = some (.string ""))

/-- No developer speaks, no part is empty, and something is said whenever the turn changes. -/
structure Presentable (body : Json) : Prop where
  noDeveloper : ∀ msg ∈ spoken body, senderOf msg ≠ "developer"
  noEmptyPart : ∀ msg ∈ spoken body, ¬ HasEmptyPart msg
  turns : ∀ turn ∈ (spoken body).splitBy (fun m m' => roleOf m = roleOf m'),
    ∃ msg ∈ turn, SaysSomething msg

variable {codec : Codec} {body msg : Json}

/-! ### Blocks -/

theorem getStr_textBlock (text : Json) :
    (textBlock text).getStr "type" = some "text" ∧ (textBlock text).get "text" = some text := by
  simp [textBlock, getStr, get_ofMembers, asStr]

theorem validBlock_textBlock {text : Json} :
    ValidBlock (textBlock text) ↔ text ≠ .string "" := by
  obtain ⟨htype, htext⟩ := getStr_textBlock text
  have hstr : (textBlock text).getStr "text" = asStr text := by
    rw [getStr, htext, Option.bind_some]
  rw [ValidBlock, hstr]
  refine ⟨fun h heq => h htype (by rw [heq]; rfl), fun h _ heq => h ?_⟩
  cases text with
  | string s => exact congrArg Json.string (Option.some.inj heq)
  | _ => cases heq

/-- A block of another type. -/
theorem validBlock_of_type {block : Json} (h : block.getStr "type" ≠ some "text") :
    ValidBlock block := fun htext => absurd htext h

theorem validBlock_toolResult (msg : Json) : ValidBlock (toolResult msg) :=
  validBlock_of_type (by simp [toolResult, getStr, get_ofMembers, asStr])

theorem validBlock_toolUse (call : Json) : ValidBlock (toolUse codec call) :=
  validBlock_of_type (by simp [toolUse, getStr, get_ofMembers, asStr])

theorem validBlock_contentPart (part : Json) :
    ValidBlock (contentPart part) ↔ ¬ (part.getStr "type" = some "text" ∧
      (part.get "text" = none ∨ part.get "text" = some (.string ""))) := by
  rw [contentPart]
  by_cases htype : part.getStr "type" = some "text"
  · rw [if_pos htype, validBlock_textBlock, getD]
    cases part.get "text" with
    | none => simp [htype]
    | some text => simp [htype]
  · rw [if_neg htype]
    exact iff_of_true (validBlock_of_type htype) fun h => htype h.1

/-! ### Messages -/

theorem contentBlocks_ne_nil : contentBlocks msg ≠ [] ↔
    (∃ s, msg.get "content" = some (.string s) ∧ s ≠ "") ∨
      ∃ parts, msg.get "content" = some (.array parts) ∧ parts ≠ [] := by
  rw [contentBlocks]
  cases msg.get "content" with
  | none => simp
  | some content =>
    cases content with
    | string s => by_cases hs : s = "" <;> simp [hs]
    | array parts => simp
    | _ => simp

/-- Something is said where there is a block. -/
theorem blocksOf_ne_nil : blocksOf codec msg ≠ [] ↔ SaysSomething msg := by
  rw [blocksOf, SaysSomething]
  by_cases htool : senderOf msg = "tool"
  · rw [if_pos htool]
    exact iff_of_true (List.cons_ne_nil _ _) (.inl htool)
  · rw [if_neg htool, or_iff_right htool, ← or_assoc, ← contentBlocks_ne_nil, Ne,
      List.append_eq_nil_iff, not_and_or]
    refine or_congr_right ?_
    cases msg.getArray "tool_calls" <;> simp

/-- The blocks are no empty texts where no part is. -/
theorem validBlocks_iff : (∀ b ∈ blocksOf codec msg, ValidBlock b) ↔ ¬ HasEmptyPart msg := by
  rw [blocksOf, HasEmptyPart]
  by_cases htool : senderOf msg = "tool"
  · rw [if_pos htool]
    refine iff_of_true (fun b hb => ?_) fun h => h.1 htool
    rw [List.mem_singleton.mp hb]
    exact validBlock_toolResult msg
  · rw [if_neg htool, List.forall_mem_append, and_iff_left, and_iff_right htool]
    · rw [contentBlocks]
      cases msg.get "content" with
      | none => simp
      | some content =>
        cases content with
        | string s =>
          by_cases hs : s = ""
          · simp [hs]
          · simp [hs, validBlock_textBlock]
        | array parts =>
          rw [List.forall_mem_map]
          simp [validBlock_contentPart]
        | _ => simp
    · intro b hb
      obtain ⟨call, _, rfl⟩ := List.mem_map.mp hb
      exact validBlock_toolUse call

theorem validMessage_messageObject {m : String × List Json} :
    ValidMessage (messageObject m) ↔
      (m.1 = "user" ∨ m.1 = "assistant") ∧ m.2 ≠ [] ∧ ∀ b ∈ m.2, ValidBlock b := by
  have hrole : (messageObject m).getStr "role" = some m.1 := by
    simp [messageObject, getStr, get_ofMembers, asStr]
  have hcontent : (messageObject m).getArray "content" = some m.2 := by
    simp [messageObject, getArray, get_ofMembers, asArray]
  rw [ValidMessage, hrole, hcontent]
  simp

/-- The placeholder is valid. -/
theorem forall_startWithUser {p : String × List Json → Prop}
    (hp : p ("user", [textBlock (.string ".")])) {merged : List (String × List Json)} :
    (∀ m ∈ startWithUser merged, p m) ↔ ∀ m ∈ merged, p m := by
  rw [startWithUser]
  split
  · rfl
  · exact List.forall_mem_cons.trans (and_iff_right hp)

theorem OpenaiRoles.roleOf_iff (h : OpenaiRoles body) (hmsg : msg ∈ spoken body) :
    roleOf msg = "user" ∨ roleOf msg = "assistant" ↔ senderOf msg ≠ "developer" := by
  obtain ⟨hmem, hsystem⟩ := List.mem_filter.mp hmsg
  rw [Bool.not_eq_true', isSystem, decide_eq_false_iff_not] at hsystem
  have hrole := h msg hmem
  simp only [List.mem_cons, List.not_mem_nil, or_false] at hrole
  rw [roleOf]
  rcases hrole with hrole | hrole | hrole | hrole | hrole
  · exact absurd hrole hsystem
  all_goals
    rw [hrole]
    decide

/-- **The schema** is met exactly by the requests of presentable conversations. -/
theorem valid_iff (codec : Codec) (h : OpenaiRoles body) : Valid codec body ↔ Presentable body := by
  have hvalid : Valid codec body ↔
      ∀ m ∈ claudeMessages codec body, ValidMessage (messageObject m) := by
    have hmessages : (openaiToClaudeRequest codec body).toOption.bind (·.getArray "messages") =
        some ((claudeMessages codec body).map messageObject) := by
      show getArray _ "messages" = _
      rw [getArray, openaiToClaudeRequest_messages rfl]
      rfl
    constructor
    · rintro ⟨out, msgs, hout, hmsgs, hall⟩ m hm
      rw [hout] at hmessages
      cases hmsgs.symm.trans hmessages
      exact hall _ (List.mem_map_of_mem hm)
    · intro hall
      exact ⟨_, _, rfl, hmessages, List.forall_mem_map.mpr hall⟩
  simp only [hvalid, validMessage_messageObject]
  rw [claudeMessages, forall_startWithUser (p := fun m => (m.1 = "user" ∨ m.1 = "assistant") ∧
    m.2 ≠ [] ∧ ∀ b ∈ m.2, ValidBlock b)]
  · simp only [forall₂_and]
    rw [Merging.forall_label_merge (p := fun role => role = "user" ∨ role = "assistant"),
      Merging.forall_ne_nil_merge, Merging.forall_contents_merge]
    constructor
    · rintro ⟨hroles, hturns, hblocks⟩
      refine ⟨fun msg hmsg => (h.roleOf_iff hmsg).mp (hroles msg hmsg),
        fun msg hmsg => validBlocks_iff.mp (hblocks msg hmsg), fun turn hturn => ?_⟩
      obtain ⟨msg, hmsg, hne⟩ := hturns turn hturn
      exact ⟨msg, hmsg, blocksOf_ne_nil.mp hne⟩
    · rintro ⟨hdeveloper, hempty, hturns⟩
      refine ⟨fun msg hmsg => (h.roleOf_iff hmsg).mpr (hdeveloper msg hmsg), fun turn hturn => ?_,
        fun msg hmsg => validBlocks_iff.mpr (hempty msg hmsg)⟩
      obtain ⟨msg, hmsg, hsays⟩ := hturns turn hturn
      exact ⟨msg, hmsg, blocksOf_ne_nil.mpr hsays⟩
  · refine ⟨.inl rfl, List.cons_ne_nil _ _, fun b hb => ?_⟩
    rw [List.mem_singleton.mp hb]
    exact validBlock_textBlock.mpr fun heq => absurd (Json.string.inj heq) (by decide)

/-! ### Requests that do not meet the schema -/

/-- A message of the user, and a request with this message. -/
def asked (content : Json) : Json := ofMembers [("role", .string "user"), ("content", content)]

def asking (content : Json) : Json := ofMembers [("messages", .array [asked content])]

theorem messagesOf_asking (content : Json) : messagesOf (asking content) = [asked content] := by
  simp [messagesOf, asking, getArray, get_ofMembers, asArray]

theorem senderOf_asked (content : Json) : senderOf (asked content) = "user" := by
  simp [senderOf, asked, getStr, get_ofMembers, asStr]

theorem get_asked (content : Json) : (asked content).get "content" = some content := by
  simp [asked, get_ofMembers]

theorem spoken_asking (content : Json) : spoken (asking content) = [asked content] := by
  rw [spoken, messagesOf_asking, List.filter_singleton, isSystem, senderOf_asked]
  rfl

theorem openaiRoles_asking (content : Json) : OpenaiRoles (asking content) := by
  intro msg hmsg
  rw [messagesOf_asking, List.mem_singleton] at hmsg
  rw [hmsg, senderOf_asked]
  decide

/-- A message whose content is empty has no block. -/
theorem not_valid : ¬ ∀ (codec : Codec) (body : Json), OpenaiRoles body → Valid codec body := by
  intro hall
  obtain ⟨out, msgs, hout, hmsgs, hvalid⟩ := hall objectCodec (asking (.string ""))
    (openaiRoles_asking _)
  have hblocks : blocksOf objectCodec (asked (.string "")) = [] := by
    have hcalls : (asked (.string "")).getArray "tool_calls" = none := by
      simp [asked, getArray, get_ofMembers]
    rw [blocksOf, senderOf_asked, contentBlocks, get_asked, hcalls]
    rfl
  have hmessages : claudeMessages objectCodec (asking (.string "")) = [("user", [])] := by
    rw [claudeMessages, spoken_asking, List.map_singleton, hblocks, roleOf, senderOf_asked]
    rfl
  rw [getArray, openaiToClaudeRequest_messages hout, hmessages] at hmsgs
  cases hmsgs
  exact (validMessage_messageObject.mp (hvalid _ List.mem_cons_self)).2.1 rfl

theorem valid_sample : Valid objectCodec (asking (.string "Hello.")) := by
  refine (valid_iff objectCodec (openaiRoles_asking _)).mpr ⟨?_, ?_, ?_⟩ <;> rw [spoken_asking]
  · intro msg hmsg
    rw [List.mem_singleton.mp hmsg, senderOf_asked]
    decide
  · rintro msg hmsg ⟨_, parts, hparts, _⟩
    rw [List.mem_singleton.mp hmsg, get_asked] at hparts
    cases hparts
  · intro turn hturn
    rw [List.splitBy_of_isChain (List.cons_ne_nil _ _) (List.isChain_singleton _),
      List.mem_singleton] at hturn
    subst hturn
    exact ⟨_, List.mem_cons_self, .inr (.inl ⟨"Hello.", get_asked _, by decide⟩)⟩

end Chennix.O2C
