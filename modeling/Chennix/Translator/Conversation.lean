import Chennix.Foundations.Merging
import Chennix.Translator.O2C

/-!
# Conversations of Claude channels

An OpenAI request becomes a Claude request with the same conversation. System messages go to the
system prompt; the blocks of the others stay in order, each under its role, in messages that
alternate between the user and the assistant.

## Main definitions

* `messagesOf`, `roleOf`, `blocksOf` — the messages of a request, who speaks, and what is said
* `claudeMessages` — the messages of the outgoing request, as roles with blocks
* `Says`, `Prompts`, `DemandsFormat` — the blocks that a message has to become, the texts of a
  system message, and the instruction for a response format

## Main results

* `says_iff`, `prompts_iff`, `demandsFormat_iff` — the translation gives these and nothing else
* `openaiToClaudeRequest_messages`, `openaiToClaudeRequest_system` — the members of the outgoing
  request
* `openaiToClaudeRequest_conversation` — the conversation is preserved
-/

namespace Chennix.O2C

open Foundations Json

/-- The messages of a request. -/
def messagesOf (body : Json) : List Json := (body.getArray "messages").getD []

/-- Who speaks in an OpenAI request. -/
def senderOf (msg : Json) : String := (msg.getStr "role").getD "user"

def isSystem (msg : Json) : Bool := senderOf msg = "system"

/-- Who speaks in a Claude request: the results of tools come from the user. -/
def roleOf (msg : Json) : String := if senderOf msg = "tool" then "user" else senderOf msg

variable (codec : Codec)

/-- What is said: the result of a tool, or the parts of the content and the tool calls. -/
def blocksOf (msg : Json) : List Json :=
  if senderOf msg = "tool" then [toolResult msg]
  else contentBlocks msg ++ ((msg.getArray "tool_calls").getD []).map (toolUse codec)

/-- The messages that are part of the conversation. -/
def spoken (body : Json) : List Json := (messagesOf body).filter fun msg => !isSystem msg

/-- The texts of the system prompt. -/
def systemPrompt (body : Json) : List String :=
  ((messagesOf body).filter isSystem).flatMap systemTexts ++ responseFormatTexts codec body

/-- The messages of the outgoing request, as roles with blocks. -/
def claudeMessages (body : Json) : List (String × List Json) :=
  startWithUser (Merging.merge ((spoken body).map fun msg => (roleOf msg, blocksOf codec msg)))

/-- A message of the outgoing request. -/
def messageObject (msg : String × List Json) : Json :=
  ofMembers [("role", .string msg.1), ("content", .array msg.2)]

/-- Blocks, each under the role of its message. -/
def flattened (msgs : List (String × List Json)) : List (String × Json) :=
  msgs.flatMap fun msg => msg.2.map fun block => (msg.1, block)

/-! ### What messages have to become -/

/-- A part of a content: a text part becomes a block of its text, others pass unchanged. -/
inductive PartBecomes : Json → Json → Prop
  | text {part : Json} (h : part.getStr "type" = some "text") :
    PartBecomes part
      (ofMembers [("type", .string "text"), ("text", part.getD "text" (.string ""))])
  | other {part : Json} (h : part.getStr "type" ≠ some "text") : PartBecomes part part

/-- What a content gives: something for a text that is not empty, or what its parts give. -/
inductive ContentGives {β : Type} (ofText : String → β) (ofParts : List Json → List β → Prop) :
    Option Json → List β → Prop
  | text {s : String} (h : s ≠ "") : ContentGives ofText ofParts (some (.string s)) [ofText s]
  | empty : ContentGives ofText ofParts (some (.string "")) []
  | parts {parts : List Json} {given : List β} (h : ofParts parts given) :
    ContentGives ofText ofParts (some (.array parts)) given
  | nothing {content : Option Json} (htext : ∀ s, content ≠ some (.string s))
      (hparts : ∀ parts, content ≠ some (.array parts)) : ContentGives ofText ofParts content []

/-- The blocks of a content. -/
def ContentBecomes : Option Json → List Json → Prop :=
  ContentGives (fun s => ofMembers [("type", .string "text"), ("text", .string s)])
    (List.Forall₂ PartBecomes)

/-- A tool call becomes a use of the tool. Its input are the arguments, if they are JSON. -/
def CallBecomes (call block : Json) : Prop :=
  block = ofMembers [("type", .string "tool_use"), ("id", call.getD "id" (.string "")),
    ("name", (call.getD "function" (.object [])).getD "name" (.string "")),
    ("input", (codec.fromStr (((call.getD "function" (.object [])).getStr "arguments").getD
      "\x7b\x7d")).toOption.getD (.object []))]

/-- A message: the result of a tool, or a content with the tool calls behind it. -/
inductive Says (msg : Json) : List Json → Prop
  | emptyResult (h : senderOf msg = "tool")
      (hcontent : msg.get "content" = none ∨ msg.get "content" = some .null) :
    Says msg [ofMembers [("type", .string "tool_result"),
      ("tool_use_id", msg.getD "tool_call_id" (.string "")), ("content", .string "")]]
  | result {content : Json} (h : senderOf msg = "tool")
      (hcontent : msg.get "content" = some content) (hnull : content ≠ .null) :
    Says msg [ofMembers [("type", .string "tool_result"),
      ("tool_use_id", msg.getD "tool_call_id" (.string "")), ("content", content)]]
  | speech {blocks calls : List Json} (h : senderOf msg ≠ "tool")
      (hcontent : ContentBecomes (msg.get "content") blocks)
      (hcalls : List.Forall₂ (CallBecomes codec) ((msg.getArray "tool_calls").getD []) calls) :
    Says msg (blocks ++ calls)

/-- The texts of the text parts. -/
inductive TextsOf : List Json → List String → Prop
  | nil : TextsOf [] []
  | text {part : Json} {parts : List Json} {s : String} {texts : List String}
      (h : part.getStr "type" = some "text") (hs : part.getStr "text" = some s)
      (hrest : TextsOf parts texts) : TextsOf (part :: parts) (s :: texts)
  | other {part : Json} {parts : List Json} {texts : List String}
      (h : part.getStr "type" ≠ some "text" ∨ part.getStr "text" = none)
      (hrest : TextsOf parts texts) : TextsOf (part :: parts) texts

/-- The texts of the content of a system message. -/
def Prompts : Option Json → List String → Prop := ContentGives id TextsOf

/-- The instruction for the response format of a request. -/
inductive DemandsFormat (body : Json) : List String → Prop
  | nothing (h : ∀ rf, body.get "response_format" = some rf →
      rf.getStr "type" ≠ some "json_object" ∧ rf.getStr "type" ≠ some "json_schema") :
    DemandsFormat body []
  | object {rf : Json} (h : body.get "response_format" = some rf)
      (htype : rf.getStr "type" = some "json_object" ∨ rf.getStr "type" = some "json_schema" ∧
        (rf.get "json_schema").bind (·.get "schema") = none) :
    DemandsFormat body ["Please respond with a valid JSON object."]
  | schema {rf schema : Json} (h : body.get "response_format" = some rf)
      (htype : rf.getStr "type" = some "json_schema")
      (hschema : (rf.get "json_schema").bind (·.get "schema") = some schema) :
    DemandsFormat body
      ["Please respond with a JSON object matching this schema: " ++ codec.display schema]

variable {codec} {body msg : Json}

/-- A relation that is a function, element by element. -/
theorem forall₂_iff_eq_map {α β : Type} {R : α → β → Prop} {f : α → β}
    (h : ∀ a b, R a b ↔ b = f a) {l : List α} {l' : List β} :
    List.Forall₂ R l l' ↔ l' = l.map f := by
  rw [show R = fun a b => b = f a from funext₂ fun a b => propext (h a b)]
  induction l generalizing l' with
  | nil => exact List.forall₂_nil_left_iff
  | cons a l ih =>
    rw [List.forall₂_cons_left_iff, List.map_cons]
    constructor
    · rintro ⟨b, l', rfl, hrest, rfl⟩
      rw [ih.mp hrest]
    · rintro rfl
      exact ⟨_, _, rfl, ih.mpr rfl, rfl⟩

theorem partBecomes_iff (part block : Json) :
    PartBecomes part block ↔ block = contentPart part := by
  rw [contentPart]
  by_cases h : part.getStr "type" = some "text"
  · rw [if_pos h]
    constructor
    · intro hbecomes
      cases hbecomes with
      | text _ => rfl
      | other hother => exact absurd h hother
    · rintro rfl
      exact .text h
  · rw [if_neg h]
    constructor
    · intro hbecomes
      cases hbecomes with
      | text htext => exact absurd htext h
      | other _ => rfl
    · rintro rfl
      exact .other h

theorem contentGives_iff {β : Type} {ofText : String → β} {ofParts : List Json → List β → Prop}
    (f : List Json → List β) (hparts : ∀ parts given, ofParts parts given ↔ given = f parts)
    (content : Option Json) (given : List β) :
    ContentGives ofText ofParts content given ↔ given = match content with
      | some (.string s) => if s = "" then [] else [ofText s]
      | some (.array parts) => f parts
      | _ => [] := by
  constructor
  · intro h
    cases h with
    | text h => exact (if_neg h).symm
    | empty => rfl
    | parts h => exact (hparts _ _).mp h
    | nothing htext hparts =>
      split
      · exact absurd rfl (htext _)
      · exact absurd rfl (hparts _)
      · rfl
  · rintro rfl
    split
    · rename_i s
      by_cases hempty : s = ""
      · rw [hempty, if_pos rfl]
        exact .empty
      · rw [if_neg hempty]
        exact .text hempty
    · exact .parts ((hparts _ _).mpr rfl)
    · rename_i htext hparts
      exact .nothing htext hparts

theorem contentBecomes_iff (msg : Json) (blocks : List Json) :
    ContentBecomes (msg.get "content") blocks ↔ blocks = contentBlocks msg :=
  contentGives_iff (List.map contentPart) (fun _ _ => forall₂_iff_eq_map partBecomes_iff) _ _

/-- **What a message says** becomes its blocks, and nothing else does. -/
theorem says_iff (msg : Json) (blocks : List Json) :
    Says codec msg blocks ↔ blocks = blocksOf codec msg := by
  have hcalls {calls : List Json} : List.Forall₂ (CallBecomes codec)
      ((msg.getArray "tool_calls").getD []) calls ↔
        calls = ((msg.getArray "tool_calls").getD []).map (toolUse codec) :=
    forall₂_iff_eq_map fun _ _ => Iff.rfl
  rw [blocksOf]
  by_cases htool : senderOf msg = "tool"
  · rw [if_pos htool, toolResult]
    constructor
    · intro h
      cases h with
      | emptyResult _ hcontent => rcases hcontent with hcontent | hcontent <;> rw [hcontent]
      | @result content _ hcontent hnull =>
        rw [hcontent]
        cases content with
        | null => exact absurd rfl hnull
        | _ => rfl
      | speech h => exact absurd htool h
    · rintro rfl
      cases hcontent : msg.get "content" with
      | none => exact .emptyResult htool (.inl hcontent)
      | some content =>
        cases content with
        | null => exact .emptyResult htool (.inr hcontent)
        | _ => exact .result htool hcontent Json.noConfusion
  · rw [if_neg htool]
    constructor
    · intro h
      cases h with
      | emptyResult h => exact absurd h htool
      | result h => exact absurd h htool
      | speech _ hcontent h => rw [(contentBecomes_iff msg _).mp hcontent, hcalls.mp h]
    · rintro rfl
      exact .speech htool ((contentBecomes_iff msg _).mpr rfl) (hcalls.mpr rfl)

theorem textsOf_iff (parts : List Json) (texts : List String) :
    TextsOf parts texts ↔ texts = parts.filterMap fun part =>
      if part.getStr "type" = some "text" then part.getStr "text" else none := by
  constructor
  · intro h
    induction h with
    | nil => rfl
    | text h hs _ ih => rw [List.filterMap_cons, if_pos h, hs, ih]
    | @other part parts texts h _ ih =>
      have hnone : (if part.getStr "type" = some "text" then part.getStr "text" else none) =
          none := by
        rcases h with h | h
        · exact if_neg h
        · rw [h, ite_self]
      rw [List.filterMap_cons, hnone, ih]
  · rintro rfl
    induction parts with
    | nil => exact .nil
    | cons part parts ih =>
      rw [List.filterMap_cons]
      by_cases h : part.getStr "type" = some "text"
      · rw [if_pos h]
        cases hs : part.getStr "text" with
        | none => exact .other (.inr hs) ih
        | some s => exact .text h hs ih
      · rw [if_neg h]
        exact .other (.inl h) ih

/-- **The texts of a system message.** -/
theorem prompts_iff (msg : Json) (texts : List String) :
    Prompts (msg.get "content") texts ↔ texts = systemTexts msg := by
  rw [Prompts, contentGives_iff _ textsOf_iff]
  rfl

/-- **The instruction for the response format.** -/
theorem demandsFormat_iff (body : Json) (texts : List String) :
    DemandsFormat codec body texts ↔ texts = responseFormatTexts codec body := by
  rw [responseFormatTexts]
  constructor
  · intro h
    cases h with
    | nothing h =>
      cases hrf : body.get "response_format" with
      | none => rfl
      | some rf =>
        obtain ⟨hobject, hschema⟩ := h rf hrf
        dsimp only
        cases htype : rf.getStr "type" with
        | none => rfl
        | some type =>
          rw [htype] at hobject hschema
          rw [Option.getD_some]
          split
          · exact absurd rfl hobject
          · exact absurd rfl hschema
          · rfl
    | object h htype =>
      rcases htype with htype | ⟨htype, hschema⟩
      · simp only [h, htype, Option.getD_some]
      · simp only [h, htype, Option.getD_some, hschema]
    | schema h htype hschema => simp only [h, htype, Option.getD_some, hschema]
  · rintro rfl
    cases hrf : body.get "response_format" with
    | none => exact .nothing fun rf h => by rw [hrf] at h; cases h
    | some rf =>
      have hsame : ∀ rf', body.get "response_format" = some rf' → rf' = rf := fun rf' h =>
        Option.some.inj (h.symm.trans hrf)
      cases htype : rf.getStr "type" with
      | none =>
        dsimp only
        rw [htype]
        exact .nothing fun rf' h => by rw [hsame rf' h, htype]; simp
      | some type =>
        dsimp only
        rw [htype, Option.getD_some]
        split
        · exact .object hrf (.inl htype)
        · cases hschema : (rf.get "json_schema").bind (·.get "schema") with
          | none => exact .object hrf (.inr ⟨htype, hschema⟩)
          | some schema => exact .schema hrf htype hschema
        · rename_i hobject hschema
          refine .nothing fun rf' h => ?_
          rw [hsame rf' h, htype]
          simpa using ⟨hobject, hschema⟩

/-! ### The outgoing request -/

theorem readMessage_eq (msg : Json) :
    readMessage codec msg =
      if isSystem msg then .inl (systemTexts msg) else .inr (roleOf msg, blocksOf codec msg) := by
  show (if senderOf msg = "system" then _ else if senderOf msg = "tool" then _ else _) = _
  rw [isSystem, roleOf, blocksOf]
  by_cases hsystem : senderOf msg = "system"
  · rw [if_pos hsystem, if_pos (decide_eq_true hsystem)]
  · rw [if_neg hsystem, if_neg (of_decide_eq_true · |> hsystem)]
    by_cases htool : senderOf msg = "tool"
    · rw [if_pos htool, if_pos htool, if_pos htool]
    · rw [if_neg htool, if_neg htool, if_neg htool]
      rfl

theorem filterMap_getRight? (msgs : List Json) :
    (msgs.map (readMessage codec)).filterMap Sum.getRight? =
      (msgs.filter fun msg => !isSystem msg).map fun msg => (roleOf msg, blocksOf codec msg) := by
  induction msgs with
  | nil => rfl
  | cons msg msgs ih =>
    rw [List.map_cons, List.filterMap_cons, readMessage_eq, List.filter_cons, ih]
    cases isSystem msg <;> rfl

theorem filterMap_getLeft? (msgs : List Json) :
    ((msgs.map (readMessage codec)).filterMap Sum.getLeft?).flatten =
      (msgs.filter isSystem).flatMap systemTexts := by
  induction msgs with
  | nil => rfl
  | cons msg msgs ih =>
    rw [List.map_cons, List.filterMap_cons, readMessage_eq, List.filter_cons]
    cases isSystem msg
    · exact ih
    · exact (congrArg (systemTexts msg ++ ·) ih).trans List.flatMap_cons.symm

theorem mergeMessage_eq (merged : List (String × List Json)) (msg : String × List Json) :
    mergeMessage merged msg = Merging.absorb merged msg := by
  rw [mergeMessage, Merging.absorb]
  cases merged.getLast? <;> rfl

/-- The messages of the outgoing request. -/
theorem openaiToClaudeRequest_messages {out : Json}
    (h : openaiToClaudeRequest codec body = .ok out) :
    out.get "messages" = some (.array ((claudeMessages codec body).map messageObject)) := by
  cases h
  simp only [get_ofMembers_append, get_ofMembers_ite, get_ofMembers_cons, get_ofMembers_nil,
    get_ofMembers_member?, filterMap_getRight?, funext₂ mergeMessage_eq]
  simp [claudeMessages, Merging.merge, spoken, messagesOf]
  exact fun _ _ _ => rfl

/-- The system prompt of the outgoing request. -/
theorem openaiToClaudeRequest_system {out : Json}
    (h : openaiToClaudeRequest codec body = .ok out) :
    out.get "system" =
      if systemPrompt codec body = [] then none
      else some (.array ((systemPrompt codec body).map fun text => textBlock (.string text))) := by
  cases h
  simp only [get_ofMembers_append, get_ofMembers_ite, get_ofMembers_cons, get_ofMembers_nil,
    get_ofMembers_member?, filterMap_getLeft?]
  simp [systemPrompt, messagesOf]

/-! ### The conversation -/

/-- The messages have the roles that messages have. -/
def KnownRoles (body : Json) : Prop :=
  ∀ msg ∈ messagesOf body, senderOf msg ∈ ["system", "user", "assistant", "tool"]

theorem KnownRoles.roleOf_eq (h : KnownRoles body) (hmsg : msg ∈ spoken body) :
    roleOf msg = if senderOf msg = "assistant" then "assistant" else "user" := by
  obtain ⟨hmem, hsystem⟩ := List.mem_filter.mp hmsg
  rw [Bool.not_eq_true', isSystem, decide_eq_false_iff_not] at hsystem
  have hrole := h msg hmem
  simp only [List.mem_cons, List.not_mem_nil, or_false] at hrole
  rw [roleOf]
  rcases hrole with hrole | hrole | hrole | hrole
  · exact absurd hrole hsystem
  all_goals
    rw [hrole]
    decide

theorem startWithUser_head (merged : List (String × List Json)) :
    (startWithUser merged).head?.map Prod.fst = some "user" := by
  rw [startWithUser]
  split
  · rename_i h
    exact h
  · rfl

/-- The placeholder goes before a conversation that does not begin with the user. -/
theorem startWithUser_isChain {merged : List (String × List Json)}
    (h : merged.IsChain fun x y => x.1 ≠ y.1) :
    (startWithUser merged).IsChain fun x y => x.1 ≠ y.1 := by
  rw [startWithUser]
  split
  · exact h
  · rename_i hhead
    exact List.isChain_cons.mpr ⟨fun y hy heq => hhead (by rw [hy, Option.map_some, ← heq]), h⟩

/-- Whether the placeholder is needed. -/
theorem KnownRoles.head_eq (h : KnownRoles body) :
    (spoken body).head?.map roleOf = some "user" ↔
      ¬ ∀ msg ∈ (spoken body).head?, senderOf msg = "assistant" := by
  cases hhead : (spoken body).head? with
  | none => simp
  | some msg =>
    rw [Option.map_some, h.roleOf_eq (List.mem_of_mem_head? hhead)]
    by_cases hassistant : senderOf msg = "assistant" <;> simp [hassistant]

/-- The blocks of a message, each under the role that it has in a Claude request. -/
def underRole (msg : Json) (blocks : List Json) : List (String × Json) :=
  blocks.map fun block => (if senderOf msg = "assistant" then "assistant" else "user", block)

/-- **The conversation** is preserved. The messages of the outgoing request begin with the user and
alternate; their blocks are those that the messages have to become, in order and each under its
role, after a placeholder exactly if the conversation is empty or begins with the assistant. The
system prompt holds the texts of the system messages, in order, and the instruction for the response
format. -/
theorem openaiToClaudeRequest_conversation (codec : Codec) (h : KnownRoles body) :
    ∃ out msgs said texts format, openaiToClaudeRequest codec body = .ok out ∧
      out.get "messages" = some (.array (msgs.map messageObject)) ∧
      msgs.head?.map Prod.fst = some "user" ∧ (msgs.IsChain fun m m' => m.1 ≠ m'.1) ∧
      (∀ m ∈ msgs, m.1 = "user" ∨ m.1 = "assistant") ∧
      List.Forall₂ (Says codec) (spoken body) said ∧
      flattened msgs =
        (if ∀ msg ∈ (spoken body).head?, senderOf msg = "assistant"
          then [("user", ofMembers [("type", .string "text"), ("text", .string ".")])] else []) ++
        (List.zipWith underRole (spoken body) said).flatten ∧
      List.Forall₂ (fun msg => Prompts (msg.get "content")) ((messagesOf body).filter isSystem)
        texts ∧
      DemandsFormat codec body format ∧
      out.get "system" =
        if texts.flatten ++ format = [] then none
        else some (.array ((texts.flatten ++ format).map fun text =>
          ofMembers [("type", .string "text"), ("text", .string text)])) := by
  have hchain := Merging.isChain_merge roleOf (blocksOf codec) (spoken body)
  have hflat := Merging.flatMap_merge roleOf (blocksOf codec) (spoken body)
  have hhead := Merging.head?_merge roleOf (blocksOf codec) (spoken body)
  refine ⟨_, claudeMessages codec body, (spoken body).map (blocksOf codec),
    ((messagesOf body).filter isSystem).map systemTexts, responseFormatTexts codec body, rfl,
    openaiToClaudeRequest_messages rfl, startWithUser_head _, startWithUser_isChain hchain, ?_,
    (forall₂_iff_eq_map says_iff).mpr rfl, ?_, (forall₂_iff_eq_map prompts_iff).mpr rfl,
    (demandsFormat_iff body _).mpr rfl, ?_⟩
  · intro m hm
    have hmerged (hm : m ∈ Merging.merge ((spoken body).map fun msg =>
        (roleOf msg, blocksOf codec msg))) : m.1 = "user" ∨ m.1 = "assistant" := by
      obtain ⟨msg, hmsg, hrole⟩ := Merging.exists_of_mem_merge _ _ _ hm
      rw [← hrole, h.roleOf_eq hmsg]
      split
      · exact .inr rfl
      · exact .inl rfl
    rw [claudeMessages, startWithUser] at hm
    split at hm
    · exact hmerged hm
    · rcases List.mem_cons.mp hm with rfl | hm
      · exact .inl rfl
      · exact hmerged hm
  · have hblocks : ((spoken body).flatMap fun msg =>
        (blocksOf codec msg).map fun block => (roleOf msg, block)) =
        (List.zipWith underRole (spoken body) ((spoken body).map (blocksOf codec))).flatten := by
      rw [List.zipWith_map_right, List.zipWith_self, ← List.flatMap_def]
      exact List.flatMap_congr fun msg hmsg => by rw [h.roleOf_eq hmsg, underRole]
    rw [← hblocks, ← hflat, flattened, claudeMessages, startWithUser, hhead]
    by_cases hplaceholder : ∀ msg ∈ (spoken body).head?, senderOf msg = "assistant"
    · rw [if_pos hplaceholder, if_neg fun huser => h.head_eq.mp huser hplaceholder]
      rfl
    · rw [if_neg hplaceholder, if_pos (h.head_eq.mpr hplaceholder), List.nil_append]
  · rw [← List.flatMap_def]
    exact openaiToClaudeRequest_system rfl

/-! ### A conversation that begins with the assistant -/

/-- A codec that knows the empty object. -/
def objectCodec : Codec where
  fromSlice _ := .error "no object"
  fromStr s := if s = "\x7b\x7d" then .ok (.object []) else .error "no object"
  toStr _ := .ok "\x7b\x7d"
  toVec _ := .ok [0x7b, 0x7d]
  display _ := "\x7b\x7d"
  toVec_ok _ := ⟨[0x7b, 0x7d], rfl⟩

def greeting : Json :=
  ofMembers [("messages", .array [
    ofMembers [("role", .string "system"), ("content", .string "Be brief.")],
    ofMembers [("role", .string "assistant"), ("content", .string "Hello."),
      ("tool_calls", .array [ofMembers [("id", .string "call_1"), ("function", ofMembers
        [("name", .string "clock"), ("arguments", .string "\x7b\x7d")])]])],
    ofMembers [("role", .string "tool"), ("tool_call_id", .string "call_1"),
      ("content", .string "noon")],
    ofMembers [("role", .string "user"), ("content", .string "Thanks.")]])]

theorem openaiToClaudeRequest_greeting :
    ∃ (out : Json) (msgs : List (String × List Json)),
      openaiToClaudeRequest objectCodec greeting = .ok out ∧
      out.get "messages" = some (.array (msgs.map messageObject)) ∧
      msgs.head?.map Prod.fst = some "user" ∧
      flattened msgs = [
        ("user", ofMembers [("type", .string "text"), ("text", .string ".")]),
        ("assistant", ofMembers [("type", .string "text"), ("text", .string "Hello.")]),
        ("assistant", ofMembers [("type", .string "tool_use"), ("id", .string "call_1"),
          ("name", .string "clock"), ("input", .object [])]),
        ("user", ofMembers [("type", .string "tool_result"), ("tool_use_id", .string "call_1"),
          ("content", .string "noon")]),
        ("user", ofMembers [("type", .string "text"), ("text", .string "Thanks.")])] ∧
      out.get "system" = some (.array
        [ofMembers [("type", .string "text"), ("text", .string "Be brief.")]]) := by
  have hroles : KnownRoles greeting := by
    have hmessages : (messagesOf greeting).all fun msg =>
        senderOf msg ∈ ["system", "user", "assistant", "tool"] := by decide +kernel
    exact fun msg hmsg => of_decide_eq_true (List.all_eq_true.mp hmessages msg hmsg)
  obtain ⟨out, msgs, said, texts, format, hout, hmessages, hhead, -, -, hsaid, hflat, htexts,
    hformat, hsystem⟩ := openaiToClaudeRequest_conversation objectCodec hroles
  rw [forall₂_iff_eq_map says_iff] at hsaid
  rw [forall₂_iff_eq_map prompts_iff] at htexts
  rw [demandsFormat_iff] at hformat
  subst hsaid htexts hformat
  refine ⟨out, msgs, hout, hmessages, hhead, hflat.trans ?_, hsystem.trans ?_⟩
  · rfl
  · rfl

end Chennix.O2C
