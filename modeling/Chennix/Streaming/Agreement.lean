import Chennix.Streaming.Answers

/-!
# A Claude answer, streamed or whole

An answer of Claude's comes as a whole message or as events: for each block a start, pieces, a stop.
The machine that turns the events into chunks and the translation of the whole message are separate
code. An OpenAI client makes the same of both, as long as the machine does not run out of indices
for tool calls, which have 32 bits.

## Main definitions

* `ClaudeAnswer.IsStreamed` — the events of an answer
* `ClaudeStream` — an answer with its JSON and its events
* `RoleFirst` — the role comes at most once, and before any content

## Main results

* `heard_blocks` — blocks are heard as they are
* `roleFirst_process` — whatever events arrive, the role comes first
* `ClaudeStream.agrees_iff` — the streamed answer is the whole answer up to 2³¹ tools
* `ClaudeStream.outnumbered` — an answer with one tool more
-/

namespace Chennix

open Foundations Json ClaudeToOpenaiStreamState

/-! ### The answer as events -/

/-- The start of a block. -/
def Starts (e : ServerEvent) (block : Json) : Prop :=
  e.name = "content_block_start" ∧ e.data.get "content_block" = some block

/-- A piece of a block. -/
def Brings (e : ServerEvent) (delta : Json) : Prop :=
  e.name = "content_block_delta" ∧ e.data.get "delta" = some delta

def BringsText (type member : String) (e : ServerEvent) (piece : String) : Prop :=
  ∃ delta, Brings e delta ∧ delta.getStr "type" = some type ∧ delta.getStr member = some piece

/-- A piece of the thinking, or a signature. -/
def BringsThinking (e : ServerEvent) (piece : String) : Prop :=
  BringsText "thinking_delta" "thinking" e piece ∨
    piece = "" ∧ ∃ delta, Brings e delta ∧ delta.getStr "type" = some "signature_delta"

/-- The events of a block: its start, its pieces, its stop. -/
inductive Delivers : ClaudeBlock → List ServerEvent → Prop
  | text {start stop : ServerEvent} {block : Json} {deltas : List ServerEvent}
      {pieces : List String} (hstart : Starts start block)
      (htype : block.getStr "type" = some "text")
      (hdeltas : List.Forall₂ (BringsText "text_delta" "text") deltas pieces)
      (hstop : stop.name = "content_block_stop") :
      Delivers (.text (String.join pieces)) (start :: deltas ++ [stop])
  | thinking {start stop : ServerEvent} {block : Json} {deltas : List ServerEvent}
      {pieces : List String} (hstart : Starts start block)
      (htype : block.getStr "type" = some "thinking")
      (hdeltas : List.Forall₂ BringsThinking deltas pieces)
      (hstop : stop.name = "content_block_stop") :
      Delivers (.thinking (String.join pieces)) (start :: deltas ++ [stop])
  | toolUse {start stop : ServerEvent} {block : Json} {id name : String}
      {deltas : List ServerEvent} {pieces : List String} (hstart : Starts start block)
      (htype : block.getStr "type" = some "tool_use") (hid : block.getStr "id" = some id)
      (hname : block.getStr "name" = some name)
      (hdeltas : List.Forall₂ (BringsText "input_json_delta" "partial_json") deltas pieces)
      (hstop : stop.name = "content_block_stop") :
      Delivers (.toolUse id name (String.join pieces)) (start :: deltas ++ [stop])

/-- The start of the message, with the input tokens. -/
def ClaudeAnswer.Begins (a : ClaudeAnswer) (e : ServerEvent) : Prop :=
  e.name = "message_start" ∧ ∃ message usage, e.data.get "message" = some message ∧
    message.get "usage" = some usage ∧ usage.getU64 "input_tokens" = some a.inputTokens

/-- The stop reason and the output tokens. -/
def ClaudeAnswer.Closes (a : ClaudeAnswer) (e : ServerEvent) : Prop :=
  e.name = "message_delta" ∧
    (∃ delta, e.data.get "delta" = some delta ∧ delta.getStr "stop_reason" = a.stopReason) ∧
    ∃ usage, e.data.get "usage" = some usage ∧ usage.getU64 "output_tokens" = some a.outputTokens

/-- The events of an answer, with pings anywhere. -/
def ClaudeAnswer.IsStreamed (a : ClaudeAnswer) (events : List ServerEvent) : Prop :=
  ∃ start parts delta stop,
    events.filter (·.name ≠ "ping") = start :: (List.flatten parts ++ [delta, stop]) ∧
      a.Begins start ∧ List.Forall₂ Delivers a.blocks parts ∧ a.Closes delta ∧
      stop.name = "message_stop"

/-- An answer of Claude's, as a whole and as events. -/
structure ClaudeStream (codec : Codec) extends ClaudeAnswer where
  body : Json
  events : List ServerEvent
  whole : toClaudeAnswer.IsBody codec body
  streamed : toClaudeAnswer.IsStreamed events

/-! ### The answer as it streams -/

theorem deltas_makeChunk (s : ClaudeToOpenaiStreamState) (body : ChunkBody) :
    (s.makeChunk body).deltas = body.deltas := received_data _

/-- What the client has heard after a step. -/
def heard (f : Step) (s : ClaudeToOpenaiStreamState) (m : OpenaiMessage) : OpenaiMessage :=
  ((f s).1.flatMap OpenaiEvent.deltas).foldl OpenaiMessage.add m

theorem heard_andThen (f g : Step) (s : ClaudeToOpenaiStreamState) (m : OpenaiMessage) :
    heard (f.andThen g) s m = heard g (f s).2 (heard f s m) := by
  rw [heard, Emitter.andThen, List.flatMap_append, List.foldl_append]
  rfl

/-- What a step leaves alone that has nothing to do with tool calls and the end. -/
structure Kept (s s' : ClaudeToOpenaiStreamState) : Prop where
  toolCallIndex : s'.toolCallIndex = s.toolCallIndex
  currentOaiToolIndex : s'.currentOaiToolIndex = s.currentOaiToolIndex
  inputTokens : s'.inputTokens = s.inputTokens
  deferredStopReason : s'.deferredStopReason = s.deferredStopReason

theorem Kept.refl (s : ClaudeToOpenaiStreamState) : Kept s s := ⟨rfl, rfl, rfl, rfl⟩

theorem Kept.trans {s s' s'' : ClaudeToOpenaiStreamState} (h : Kept s s') (h' : Kept s' s'') :
    Kept s s'' :=
  ⟨h'.1.trans h.1, h'.2.trans h.2, h'.3.trans h.3, h'.4.trans h.4⟩

/-- The step changes the answer as `g` does, and nothing else. -/
def Hears (f : Step) (g : OpenaiMessage → OpenaiMessage) : Prop :=
  ∀ s, (∀ m, heard f s m = g m) ∧ Kept s (f s).2

theorem Hears.andThen {f f' : Step} {g g' : OpenaiMessage → OpenaiMessage} (h : Hears f g)
    (h' : Hears f' g') : Hears (f.andThen f') fun m => g' (g m) := by
  intro s
  refine ⟨fun m => ?_, (h s).2.trans (h' _).2⟩
  rw [heard_andThen, (h s).1, (h' _).1]

/-- What emits nothing changes nothing the client hears. -/
theorem Hears.quiet {f : Step} (hout : ∀ s, (f s).1 = []) (hkept : ∀ s, Kept s (f s).2) :
    Hears f id := by
  intro s
  refine ⟨fun m => ?_, hkept s⟩
  rw [heard, hout]
  rfl

theorem hears_announce : Hears announce id := by
  intro s
  rw [announce]
  refine ⟨fun m => ?_, ?_⟩
  · rw [heard, announce]
    split
    · rfl
    · rw [List.flatMap_singleton, deltas_makeChunk]
      rfl
  · split
    · exact .refl s
    · exact ⟨rfl, rfl, rfl, rfl⟩

/-- A chunk brings the pieces it is made for. -/
theorem hears_emit (body : ChunkBody) :
    Hears (emit body) fun m => body.deltas.foldl OpenaiMessage.add m := by
  intro s
  refine ⟨fun m => ?_, .refl s⟩
  rw [heard, emit, List.flatMap_singleton, deltas_makeChunk]

/-- The answer with more text. -/
def addContent (text : String) (m : OpenaiMessage) : OpenaiMessage :=
  { m with content := m.content ++ text }

def addReasoning (text : String) (m : OpenaiMessage) : OpenaiMessage :=
  { m with reasoning := m.reasoning ++ text }

theorem addContent_empty : addContent "" = id := by
  funext m
  simp [addContent]

theorem addContent_append (t t' : String) (m : OpenaiMessage) :
    addContent t' (addContent t m) = addContent (t ++ t') m := by
  simp [addContent, String.append_assoc]

theorem addReasoning_empty : addReasoning "" = id := by
  funext m
  simp [addReasoning]

theorem addReasoning_append (t t' : String) (m : OpenaiMessage) :
    addReasoning t' (addReasoning t m) = addReasoning (t ++ t') m := by
  simp [addReasoning, String.append_assoc]

theorem hears_content (text : String) : Hears (emit (.content text)) (addContent text) := by
  intro s
  refine ⟨fun m => ?_, .refl s⟩
  rw [(hears_emit _ s).1]
  by_cases h : text = "" <;>
    simp [ChunkBody.deltas, addContent, OpenaiMessage.add, Option.filter_some, h]

theorem hears_reasoning (text : String) : Hears (emit (.reasoning text)) (addReasoning text) := by
  intro s
  refine ⟨fun m => ?_, .refl s⟩
  rw [(hears_emit _ s).1]
  by_cases h : text = "" <;>
    simp [ChunkBody.deltas, addReasoning, OpenaiMessage.add, Option.filter_some, h]

/-! #### Blocks of text and of thinking -/

theorem process_start {e : ServerEvent} {block : Json} (h : Starts e block) :
    e.process = (noteIndex e.data).andThen (startBlock block) := by
  rw [ServerEvent.process, processJson, h.1, getD, h.2]
  rfl

theorem process_delta {e : ServerEvent} {delta : Json} (h : Brings e delta) :
    e.process = addDelta delta := by
  rw [ServerEvent.process, processJson, h.1]
  show addDelta (e.data.getD "delta" .null) = _
  rw [getD, h.2, Option.getD_some]

theorem process_stop {e : ServerEvent} (h : e.name = "content_block_stop") :
    e.process = .skip := by
  rw [ServerEvent.process, processJson, h]
  rfl

theorem hears_noteIndex (v : Json) : Hears (noteIndex v) id :=
  .quiet (fun _ => rfl) fun _ => ⟨rfl, rfl, rfl, rfl⟩

theorem hears_enterText : Hears enterText id := .quiet (fun _ => rfl) fun _ => ⟨rfl, rfl, rfl, rfl⟩

theorem hears_skip : Hears .skip id := .quiet (fun _ => rfl) .refl

/-- A piece of text is heard. -/
theorem hears_text {e : ServerEvent} {piece : String}
    (h : BringsText "text_delta" "text" e piece) : Hears e.process (addContent piece) := by
  obtain ⟨delta, hdelta, htype, hpiece⟩ := h
  have hstep : e.process = announce.andThen (emit (.content piece)) := by
    rw [process_delta hdelta, addDelta, htype, hpiece]
    rfl
  rw [hstep]
  exact hears_announce.andThen (hears_content piece)

/-- A piece of thinking is heard as reasoning. -/
theorem hears_thinking {e : ServerEvent} {piece : String} (h : BringsThinking e piece) :
    Hears e.process (addReasoning piece) := by
  rcases h with ⟨delta, hdelta, htype, hpiece⟩ | ⟨rfl, delta, hdelta, htype⟩
  · have hstep : e.process = announce.andThen
        (if piece = "" then .skip else emit (.reasoning piece)) := by
      rw [process_delta hdelta, addDelta, htype, hpiece, Option.toList_some,
        Emitter.forEach_singleton]
      rfl
    rw [hstep]
    refine hears_announce.andThen ?_
    split
    · next hp =>
      rw [hp, addReasoning_empty]
      exact hears_skip
    · exact hears_reasoning piece
  · have hstep : e.process = .skip := by
      rw [process_delta hdelta, addDelta, htype]
      rfl
    rw [hstep, addReasoning_empty]
    exact hears_skip

/-- Pieces one after another are heard joined. -/
theorem hears_pieces {R : ServerEvent → String → Prop}
    {add : String → OpenaiMessage → OpenaiMessage}
    (hR : ∀ e piece, R e piece → Hears e.process (add piece)) (hempty : add "" = id)
    (hadd : ∀ t t' m, add t' (add t m) = add (t ++ t') m) {es : List ServerEvent}
    {pieces : List String} (h : List.Forall₂ R es pieces) :
    Hears (Emitter.forEach ServerEvent.process es) (add (String.join pieces)) := by
  induction h with
  | nil =>
    rw [String.join_nil, hempty]
    exact hears_skip
  | @cons e piece es pieces he _ ih =>
    have hboth : add (String.join (piece :: pieces)) = fun m => add (String.join pieces)
        (add piece m) := by
      funext m
      rw [hadd, String.join_cons]
    rw [hboth, Emitter.forEach_cons]
    exact (hR e piece he).andThen ih

/-- A block is its start and its pieces. -/
theorem process_block {start stop : ServerEvent} (hstop : stop.name = "content_block_stop")
    (deltas : List ServerEvent) :
    Emitter.forEach ServerEvent.process (start :: deltas ++ [stop]) =
      start.process.andThen (Emitter.forEach ServerEvent.process deltas) := by
  rw [Emitter.forEach_append, Emitter.forEach_singleton, process_stop hstop, Emitter.andThen_skip,
    Emitter.forEach_cons]

/-- A block that is no tool's adds its text or its reasoning. -/
theorem hears_block {b : ClaudeBlock} {es : List ServerEvent} (h : Delivers b es)
    (htool : b.toolOf = none) : Hears (Emitter.forEach ServerEvent.process es) fun m =>
      addReasoning (b.thinkingOf.getD "") (addContent (b.textOf.getD "") m) := by
  cases h with
  | @text start stop block deltas pieces hstart htype hdeltas hstop =>
    have hopen : Hears start.process id := by
      rw [process_start hstart, startBlock, htype]
      exact (hears_noteIndex _).andThen (hears_announce.andThen hears_enterText)
    have hpieces := hears_pieces (R := BringsText "text_delta" "text") (fun _ _ => hears_text)
      addContent_empty addContent_append hdeltas
    rw [process_block hstop]
    show Hears _ fun m => addReasoning "" (addContent (String.join pieces) m)
    rw [addReasoning_empty]
    exact hopen.andThen hpieces
  | @thinking start stop block deltas pieces hstart htype hdeltas hstop =>
    have hopen : Hears start.process id := by
      rw [process_start hstart, startBlock, htype]
      exact (hears_noteIndex _).andThen hears_skip
    have hpieces :=
      hears_pieces (R := BringsThinking) (fun _ _ => hears_thinking) addReasoning_empty
      addReasoning_append hdeltas
    rw [process_block hstop]
    show Hears _ fun m => addReasoning (String.join pieces) (addContent "" m)
    rw [addContent_empty]
    exact hopen.andThen hpieces
  | toolUse => cases htool

/-! #### Blocks of tools -/

/-- The start of a tool's block begins a tool call with the next index. -/
theorem process_startTool {e : ServerEvent} {block : Json} {id name : String} (h : Starts e block)
    (htype : block.getStr "type" = some "tool_use") (hid : block.getStr "id" = some id)
    (hname : block.getStr "name" = some name) :
    e.process = (noteIndex e.data).andThen (announce.andThen (startTool id name)) := by
  rw [process_start h, startBlock, htype, hid, hname]
  rfl

theorem heard_startTool (id name : String) (s : ClaudeToOpenaiStreamState) (m : OpenaiMessage) :
    heard (startTool id name) s m = m.add (.toolCall s.toolCallIndex.toInt id name "") := by
  rw [heard, startTool, List.flatMap_singleton, deltas_makeChunk]
  rfl

/-- Arguments go on with the last tool call. -/
theorem heard_addToolArguments {s : ClaudeToOpenaiStreamState} {index : Int32}
    (hindex : s.currentOaiToolIndex = some index) {m : OpenaiMessage} {calls : List ToolCall}
    {c : ToolCall} (hcalls : m.toolCalls = calls ++ [c]) (hc : c.index = index.toInt)
    (hother : ∀ c' ∈ calls, c'.index ≠ index.toInt) (arguments : String) :
    heard (addToolArguments arguments) s m =
      { m with toolCalls := calls ++ [c.extend arguments] } := by
  rw [heard, addToolArguments, hindex]
  show ([s.makeChunk (.toolCallArgs index arguments)].flatMap _).foldl _ _ = _
  rw [List.flatMap_singleton, deltas_makeChunk]
  show { m with toolCalls := addToolPiece m.toolCalls index.toInt none none arguments } = _
  rw [hcalls, addToolPiece_last hc hother]

theorem addToolArguments_state (arguments : String) (s : ClaudeToOpenaiStreamState) :
    (addToolArguments arguments s).2 = s := by
  rw [addToolArguments]
  split <;> rfl

theorem process_arguments {e : ServerEvent} {piece : String}
    (h : BringsText "input_json_delta" "partial_json" e piece) :
    e.process = addToolArguments piece := by
  obtain ⟨delta, hdelta, htype, hpiece⟩ := h
  rw [process_delta hdelta, addDelta, htype, hpiece]
  rfl

/-- The pieces of the arguments leave the machine as it is. -/
theorem arguments_state {deltas : List ServerEvent} {pieces : List String}
    (h : List.Forall₂ (BringsText "input_json_delta" "partial_json") deltas pieces)
    (s : ClaudeToOpenaiStreamState) : (Emitter.forEach ServerEvent.process deltas s).2 = s := by
  induction h with
  | nil => rfl
  | @cons e piece deltas pieces he _ ih =>
    show (Emitter.forEach ServerEvent.process deltas (e.process s).2).2 = s
    rw [process_arguments he, addToolArguments_state, ih]

/-- They are heard joined. -/
theorem heard_arguments {deltas : List ServerEvent} {pieces : List String}
    (h : List.Forall₂ (BringsText "input_json_delta" "partial_json") deltas pieces)
    {s : ClaudeToOpenaiStreamState} {index : Int32} (hindex : s.currentOaiToolIndex = some index)
    {m : OpenaiMessage} {calls : List ToolCall} {c : ToolCall} (hcalls : m.toolCalls = calls ++ [c])
    (hc : c.index = index.toInt) (hother : ∀ c' ∈ calls, c'.index ≠ index.toInt) :
    heard (Emitter.forEach ServerEvent.process deltas) s m =
      { m with toolCalls := calls ++ [c.extend (String.join pieces)] } := by
  induction h generalizing m c with
  | nil =>
    rw [ToolCall.extend, String.join_nil, String.append_empty, ← hcalls]
    rfl
  | @cons e piece deltas pieces he _ ih =>
    rw [Emitter.forEach_cons, heard_andThen, process_arguments he, addToolArguments_state,
      heard_addToolArguments hindex hcalls hc hother, ih (c := c.extend piece) rfl hc,
      String.join_cons]
    simp [ToolCall.extend, String.append_assoc]

/-- What the blocks leave alone, and how many tool calls they begin. -/
structure Advanced (n : ℕ) (s s' : ClaudeToOpenaiStreamState) : Prop where
  toolCallIndex : s'.toolCallIndex = s.toolCallIndex + Int32.ofNat n
  inputTokens : s'.inputTokens = s.inputTokens
  deferredStopReason : s'.deferredStopReason = s.deferredStopReason

theorem Kept.advanced {s s' : ClaudeToOpenaiStreamState} (h : Kept s s') : Advanced 0 s s' :=
  ⟨h.toolCallIndex.trans (Int32.add_zero _).symm, h.inputTokens, h.deferredStopReason⟩

theorem Advanced.trans {n n' : ℕ} {s s' s'' : ClaudeToOpenaiStreamState} (h : Advanced n s s')
    (h' : Advanced n' s' s'') : Advanced (n + n') s s'' := by
  refine ⟨?_, h'.2.trans h.2, h'.3.trans h.3⟩
  rw [h'.1, h.1, Int32.ofNat_add, Int32.add_assoc]

/-- The start of a tool call: the role if it has not come yet, and then the id and the name. -/
structure Began (id name : String) (f : Step) : Prop where
  heard : ∀ s m, heard f s m = m.add (.toolCall s.toolCallIndex.toInt id name "")
  brings : ∀ s, .toolCall s.toolCallIndex.toInt id name "" ∈ (f s).1.flatMap OpenaiEvent.deltas
  advanced : ∀ s, Advanced 1 s (f s).2
  remembered : ∀ s, (f s).2.currentOaiToolIndex = some s.toolCallIndex

theorem began_startTool {pre : Step} (h : Hears pre id) (id name : String) :
    Began id name (pre.andThen (startTool id name)) where
  heard := by
    intro s m
    rw [heard_andThen, (h s).1, heard_startTool, (h s).2.toolCallIndex]
    rfl
  brings := by
    intro s
    show _ ∈ ((pre s).1 ++ [_]).flatMap OpenaiEvent.deltas
    rw [List.flatMap_append, List.flatMap_singleton, deltas_makeChunk, (h s).2.toolCallIndex]
    exact List.mem_append_right _ List.mem_cons_self
  advanced := by
    intro s
    refine ⟨?_, (h s).2.inputTokens, (h s).2.deferredStopReason⟩
    show (pre s).2.toolCallIndex + 1 = _
    rw [(h s).2.toolCallIndex]
    rfl
  remembered := by
    intro s
    show some (pre s).2.toolCallIndex = _
    rw [(h s).2.toolCallIndex]

/-- A tool's block, from its start on. -/
theorem began_block {id name inputJson : String} {es : List ServerEvent}
    (h : Delivers (.toolUse id name inputJson) es) : ∃ f deltas pieces, Began id name f ∧
      List.Forall₂ (BringsText "input_json_delta" "partial_json") deltas pieces ∧
      inputJson = String.join pieces ∧ Emitter.forEach ServerEvent.process es =
        f.andThen (Emitter.forEach ServerEvent.process deltas) := by
  cases h with
  | @toolUse start stop block _ _ deltas pieces hstart htype hid hname hdeltas hstop =>
    refine ⟨start.process, deltas, pieces, ?_, hdeltas, rfl, process_block hstop deltas⟩
    rw [process_startTool hstart htype hid hname, ← Emitter.andThen_assoc]
    exact began_startTool ((hears_noteIndex _).andThen hears_announce) id name

/-- A tool's block is heard as a tool call, if its index is not there yet. -/
theorem heard_toolBlock {id name inputJson : String} {es : List ServerEvent}
    (h : Delivers (.toolUse id name inputJson) es) (s : ClaudeToOpenaiStreamState)
    {m : OpenaiMessage} (hnew : ∀ c ∈ m.toolCalls, c.index ≠ s.toolCallIndex.toInt) :
    heard (Emitter.forEach ServerEvent.process es) s m = { m with
      toolCalls := m.toolCalls ++ [⟨s.toolCallIndex.toInt, id, name, inputJson⟩] } := by
  obtain ⟨f, deltas, pieces, hf, hdeltas, rfl, hes⟩ := began_block h
  rw [hes, heard_andThen, hf.heard,
    heard_arguments hdeltas (hf.remembered s) (addToolPiece_new hnew _ _ _) rfl hnew]
  simp [ToolCall.extend, OpenaiMessage.add]

theorem advanced_toolBlock {id name inputJson : String} {es : List ServerEvent}
    (h : Delivers (.toolUse id name inputJson) es) (s : ClaudeToOpenaiStreamState) :
    Advanced 1 s (Emitter.forEach ServerEvent.process es s).2 := by
  obtain ⟨f, deltas, pieces, hf, hdeltas, rfl, hes⟩ := began_block h
  rw [hes]
  show Advanced 1 s (Emitter.forEach ServerEvent.process deltas (f s).2).2
  rw [arguments_state hdeltas]
  exact hf.advanced s

theorem brings_toolBlock {id name inputJson : String} {es : List ServerEvent}
    (h : Delivers (.toolUse id name inputJson) es) (s : ClaudeToOpenaiStreamState) :
    .toolCall s.toolCallIndex.toInt id name "" ∈
      (Emitter.forEach ServerEvent.process es s).1.flatMap OpenaiEvent.deltas := by
  obtain ⟨f, deltas, pieces, hf, -, -, hes⟩ := began_block h
  rw [hes, Emitter.andThen, List.flatMap_append]
  exact List.mem_append_left _ (hf.brings s)

/-! #### All blocks -/

theorem tool_or_not (b : ClaudeBlock) :
    b.toolOf = none ∨ ∃ id name inputJson, b = .toolUse id name inputJson := by
  cases b with
  | toolUse id name inputJson => exact .inr ⟨id, name, inputJson, rfl⟩
  | _ => exact .inl rfl

theorem advanced_blocks {bs : List ClaudeBlock} {parts : List (List ServerEvent)}
    (h : List.Forall₂ Delivers bs parts) (s : ClaudeToOpenaiStreamState) :
    Advanced (bs.filterMap ClaudeBlock.toolOf).length s
      (Emitter.forEach ServerEvent.process parts.flatten s).2 := by
  induction h generalizing s with
  | nil => exact (Kept.refl s).advanced
  | @cons b es bs parts hb _ ih =>
    rw [List.flatten_cons, Emitter.forEach_append, List.filterMap_cons]
    rcases tool_or_not b with hnone | ⟨id, name, inputJson, rfl⟩
    · have := (hears_block hb hnone s).2.advanced.trans (ih _)
      rw [Nat.zero_add] at this
      rw [hnone]
      exact this
    · have := (advanced_toolBlock hb s).trans (ih _)
      rw [Nat.add_comm] at this
      exact this

/-- The answer with what the blocks hold. -/
def addBlocks (k : ℕ) (bs : List ClaudeBlock) (m : OpenaiMessage) : OpenaiMessage :=
  { m with
    content := m.content ++ String.join (bs.filterMap ClaudeBlock.textOf)
    reasoning := m.reasoning ++ String.join (bs.filterMap ClaudeBlock.thinkingOf)
    toolCalls := m.toolCalls ++ callsFrom k (bs.filterMap ClaudeBlock.toolOf) }

theorem addBlocks_nil (k : ℕ) (m : OpenaiMessage) : addBlocks k [] m = m := by
  simp [addBlocks, callsFrom]

theorem addBlocks_cons {b : ClaudeBlock} (hnone : b.toolOf = none) (k : ℕ) (bs : List ClaudeBlock)
    (m : OpenaiMessage) : addBlocks k (b :: bs) m = addBlocks k bs
      (addReasoning (b.thinkingOf.getD "") (addContent (b.textOf.getD "") m)) := by
  cases b with
  | text t => simp [addBlocks, addContent, addReasoning, List.filterMap_cons, String.append_assoc]
  | thinking t =>
    simp [addBlocks, addContent, addReasoning, List.filterMap_cons, String.append_assoc]
  | toolUse => cases hnone

theorem addBlocks_cons_tool (id name inputJson : String) (k : ℕ) (bs : List ClaudeBlock)
    (m : OpenaiMessage) : addBlocks k (.toolUse id name inputJson :: bs) m = addBlocks (k + 1) bs
      { m with toolCalls := m.toolCalls ++ [⟨k, id, name, inputJson⟩] } := by
  simp [addBlocks, callsFrom, List.filterMap_cons]

/-- The blocks are heard as they are, as long as the indices of tool calls do not run out. -/
theorem heard_blocks {bs : List ClaudeBlock} {parts : List (List ServerEvent)}
    (h : List.Forall₂ Delivers bs parts) {s : ClaudeToOpenaiStreamState} {k : ℕ}
    (hindex : s.toolCallIndex = Int32.ofNat k) {m : OpenaiMessage}
    (hm : ∀ c ∈ m.toolCalls, c.index < k)
    (hroom : k + (bs.filterMap ClaudeBlock.toolOf).length ≤ 2 ^ 31) :
    heard (Emitter.forEach ServerEvent.process parts.flatten) s m = addBlocks k bs m := by
  induction h generalizing s k m with
  | nil => exact (addBlocks_nil k m).symm
  | @cons b es bs parts hb _ ih =>
    rw [List.flatten_cons, Emitter.forEach_append, heard_andThen]
    rcases tool_or_not b with hnone | ⟨id, name, inputJson, rfl⟩
    · have hblock := hears_block hb hnone s
      rw [List.filterMap_cons, hnone] at hroom
      rw [hblock.1, addBlocks_cons hnone]
      exact ih (hblock.2.toolCallIndex.trans hindex) hm hroom
    · have hroom : k + ((bs.filterMap ClaudeBlock.toolOf).length + 1) ≤ 2 ^ 31 := hroom
      have hk : s.toolCallIndex.toInt = k := by
        rw [hindex, Int32.toInt_ofNat_of_lt (by omega)]
      have hnext : (Emitter.forEach ServerEvent.process es s).2.toolCallIndex =
          Int32.ofNat (k + 1) := by
        rw [(advanced_toolBlock hb s).toolCallIndex, hindex, ← Int32.ofNat_add]
      have hnew : ∀ c ∈ m.toolCalls, c.index ≠ s.toolCallIndex.toInt := by
        intro c hc
        have := hm c hc
        omega
      rw [heard_toolBlock hb s hnew, hk, addBlocks_cons_tool]
      refine ih hnext (fun c hc => ?_) (by omega)
      rcases List.mem_append.mp hc with hc | hc
      · have := hm c hc
        omega
      · rw [List.mem_singleton.mp hc]
        show (k : ℤ) < (k + 1 : ℕ)
        omega

/-- Each tool's block begins a tool call with its number, cut down to 32 bits. -/
theorem brings_blocks {bs : List ClaudeBlock} {parts : List (List ServerEvent)}
    (h : List.Forall₂ Delivers bs parts) {s : ClaudeToOpenaiStreamState} {k : ℕ}
    (hindex : s.toolCallIndex = Int32.ofNat k) {j : ℕ}
    (hj : j < (bs.filterMap ClaudeBlock.toolOf).length) :
    ∃ d ∈ (Emitter.forEach ServerEvent.process parts.flatten s).1.flatMap OpenaiEvent.deltas,
      d.tool = some (Int32.ofNat (k + j)).toInt := by
  induction h generalizing s k j with
  | nil => cases hj
  | @cons b es bs parts hb _ ih =>
    rw [List.flatten_cons, Emitter.forEach_append, Emitter.andThen, List.flatMap_append]
    rcases tool_or_not b with hnone | ⟨id, name, inputJson, rfl⟩
    · rw [List.filterMap_cons, hnone] at hj
      obtain ⟨d, hd, ht⟩ := ih ((hears_block hb hnone s).2.toolCallIndex.trans hindex) hj
      exact ⟨d, List.mem_append_right _ hd, ht⟩
    · cases j with
      | zero =>
        refine ⟨_, List.mem_append_left _ (brings_toolBlock hb s), ?_⟩
        rw [hindex]
        rfl
      | succ j =>
        have hnext : (Emitter.forEach ServerEvent.process es s).2.toolCallIndex =
            Int32.ofNat (k + 1) := by
          rw [(advanced_toolBlock hb s).toolCallIndex, hindex, ← Int32.ofNat_add]
        obtain ⟨d, hd, ht⟩ := ih hnext (Nat.lt_of_succ_lt_succ hj)
        refine ⟨d, List.mem_append_right _ hd, ?_⟩
        rw [ht, Nat.add_right_comm, Nat.add_assoc]

/-! #### The start and the end -/

theorem process_begins {a : ClaudeAnswer} {e : ServerEvent} (h : a.Begins e)
    (s : ClaudeToOpenaiStreamState) : (e.process s).1 = [] ∧
      (e.process s).2.inputTokens = a.inputTokens ∧
      (e.process s).2.toolCallIndex = s.toolCallIndex ∧
      (e.process s).2.deferredStopReason = s.deferredStopReason := by
  obtain ⟨hname, message, usage, hmessage, husage, hinput⟩ := h
  have hstep : e.process = noteMessage message := by
    rw [ServerEvent.process, processJson, if_pos hname, hmessage, Option.toList_some,
      Emitter.forEach_singleton]
  rw [hstep, noteMessage, husage, Option.map_some, hinput]
  exact ⟨rfl, rfl, rfl, rfl⟩

theorem process_closes {a : ClaudeAnswer} {e : ServerEvent} (h : a.Closes e)
    {s : ClaudeToOpenaiStreamState} (hs : s.deferredStopReason = none) : (e.process s).1 = [] ∧
      (e.process s).2.inputTokens = s.inputTokens ∧
      (e.process s).2.deferredStopReason = a.stopReason ∧
      (e.process s).2.deferredOutputTokens = a.outputTokens := by
  obtain ⟨hname, ⟨delta, hdelta, hreason⟩, usage, husage, houtput⟩ := h
  have hstep : e.process = (noteStopReason delta).andThen (noteOutput usage) := by
    rw [ServerEvent.process, processJson, hname, hdelta, husage, Option.toList_some,
      Option.toList_some, Emitter.forEach_singleton, Emitter.forEach_singleton]
    rfl
  rw [hstep]
  refine ⟨rfl, rfl, ?_, ?_⟩
  · show (delta.getStr "stop_reason").or s.deferredStopReason = _
    rw [hreason, hs, Option.or_none]
  · show (usage.getU64 "output_tokens").getD 0 = _
    rw [houtput, Option.getD_some]

theorem process_stopMessage {e : ServerEvent} (h : e.name = "message_stop") :
    e.process = stopMessage := by
  rw [ServerEvent.process, processJson, h]
  rfl

/-- The end of an answer. -/
def ClaudeAnswer.ending (a : ClaudeAnswer) : List OpenaiDelta :=
  .finish (finishReason a.stopReason) :: a.usage.toList.map .usage

theorem deltas_stopMessage {a : ClaudeAnswer} {s : ClaudeToOpenaiStreamState}
    (hinput : s.inputTokens = a.inputTokens) (hreason : s.deferredStopReason = a.stopReason)
    (houtput : s.deferredOutputTokens = a.outputTokens) :
    (stopMessage s).1.flatMap OpenaiEvent.deltas = a.ending := by
  rw [stopMessage, hinput, hreason, houtput, List.flatMap_append, List.flatMap_append,
    List.flatMap_singleton, deltas_makeChunk, ClaudeAnswer.ending, ClaudeAnswer.usage]
  split
  · rw [List.flatMap_singleton, deltas_makeChunk]
    rfl
  · rfl

namespace ClaudeStream

variable {codec : Codec} (st : ClaudeStream codec) (created : UInt64)

/-- What is sent to the client. -/
def output : List OpenaiEvent := (Emitter.forEach ServerEvent.process st.events (new created)).1

/-- What the client makes of it. -/
def received : OpenaiMessage := .fold ((st.output created).flatMap OpenaiEvent.deltas)

/-- The output is that of the blocks, and then the end. -/
theorem exists_output : ∃ parts s before, List.Forall₂ Delivers st.blocks parts ∧
    s.toolCallIndex = 0 ∧
    st.output created = (Emitter.forEach ServerEvent.process parts.flatten s).1 ++
      (before ++ [.done]) ∧
    (before ++ [.done]).flatMap OpenaiEvent.deltas = st.ending := by
  obtain ⟨start, parts, delta, stop, hevents, hstart, hparts, hdelta, hstop⟩ := st.streamed
  have hping : ∀ e : ServerEvent, decide (e.name ≠ "ping") = false → e.process = .skip := by
    intro e he
    have hname : e.name = "ping" := by simpa using he
    rw [ServerEvent.process, processJson, hname]
    rfl
  obtain ⟨hstart, hinput, hindex, hreason⟩ := process_begins hstart (new created)
  generalize hs : (start.process (new created)).2 = s at hinput hindex hreason
  have hblocks := advanced_blocks hparts s
  generalize ht : (Emitter.forEach ServerEvent.process parts.flatten s).2 = t at hblocks
  obtain ⟨hquiet, hinput', hreason', houtput⟩ :=
    process_closes hdelta (hblocks.deferredStopReason.trans hreason)
  generalize hu : (delta.process t).2 = u at hinput' hreason' houtput
  have hall : st.output created =
      (Emitter.forEach ServerEvent.process parts.flatten s).1 ++ (stopMessage u).1 := by
    rw [output, ← Emitter.forEach_filter hping, hevents, Emitter.forEach_cons,
      Emitter.forEach_append, Emitter.forEach_cons, Emitter.forEach_singleton,
      process_stopMessage hstop]
    simp only [Emitter.andThen, hstart, hs, ht, hquiet, hu, List.nil_append]
  refine ⟨parts, s, _, hparts, hindex, hall, ?_⟩
  exact deltas_stopMessage (hinput'.trans (hblocks.inputTokens.trans hinput)) hreason' houtput

/-- With indices enough, the client makes of it what the answer is. -/
theorem received_eq (hroom : st.tools.length ≤ 2 ^ 31) :
    st.received created = st.message (callsFrom 0 st.tools) st.usage := by
  obtain ⟨parts, s, before, hparts, hindex, houtput, hend⟩ := st.exists_output created
  have hblocks := heard_blocks hparts (k := 0) hindex (m := .empty) (fun c hc => by cases hc)
    (by rw [Nat.zero_add]; exact hroom)
  rw [received, houtput, List.flatMap_append, OpenaiMessage.fold_append, hend]
  show st.ending.foldl OpenaiMessage.add (heard _ s .empty) = _
  rw [hblocks, ClaudeAnswer.ending, addBlocks, ClaudeAnswer.message]
  cases st.usage <;> simp [OpenaiMessage.add, OpenaiMessage.empty, ClaudeAnswer.tools]

/-- Without, some tool call has an index that is negative. -/
theorem negative_index (hroom : 2 ^ 31 < st.tools.length) :
    ∃ c ∈ (st.received created).toolCalls, c.index < 0 := by
  obtain ⟨parts, s, before, hparts, hindex, houtput, -⟩ := st.exists_output created
  obtain ⟨d, hd, ht⟩ := brings_blocks hparts (k := 0) hindex hroom
  have hmem : d ∈ (st.output created).flatMap OpenaiEvent.deltas := by
    rw [houtput, List.flatMap_append]
    exact List.mem_append_left _ hd
  obtain ⟨c, hc, heq⟩ := (mem_toolCalls _ _).mpr ⟨d, hmem, ht⟩
  refine ⟨c, hc, ?_⟩
  rw [heq]
  decide

end ClaudeStream

/-! ### The role -/

def OpenaiEvent.isRole : OpenaiEvent → Bool
  | .chunk c => c.body = .role
  | .done => false

/-- Content, reasoning or a piece of a tool call. -/
def OpenaiEvent.isContent : OpenaiEvent → Bool
  | .chunk ⟨_, _, _, .content _⟩ => true
  | .chunk ⟨_, _, _, .reasoning _⟩ => true
  | .chunk ⟨_, _, _, .toolCallStart _ _ _⟩ => true
  | .chunk ⟨_, _, _, .toolCallArgs _ _⟩ => true
  | _ => false

/-- The role comes at most once, and before any content. -/
structure RoleFirst (out : List OpenaiEvent) : Prop where
  once : out.countP OpenaiEvent.isRole ≤ 1
  first : ForPrefixes (fun before e => e.isContent → ∃ e' ∈ before, e'.isRole) out

/-- What has been sent agrees with what the machine remembers. -/
structure Announced (out : List OpenaiEvent) (s : ClaudeToOpenaiStreamState) : Prop where
  roleFirst : RoleFirst out
  sent : s.started → ∃ e ∈ out, e.isRole
  unsent : s.started = false → out.countP OpenaiEvent.isRole = 0
  tool : s.currentOaiToolIndex.isSome → s.started

theorem announced_new (created : UInt64) : Announced [] (new created) where
  roleFirst := ⟨Nat.zero_le 1, forPrefixes_nil⟩
  sent := fun h => by cases h
  unsent := fun _ => rfl
  tool := fun h => by cases h

/-- More is sent, but not the role, and content only once the role has been sent. -/
theorem Announced.append {out es : List OpenaiEvent} {s s' : ClaudeToOpenaiStreamState}
    (h : Announced out s) (hrole : es.countP OpenaiEvent.isRole = 0)
    (hcontent : (∃ e ∈ es, e.isContent) → s.started) (hstarted : s'.started = s.started)
    (htool : s'.currentOaiToolIndex.isSome → s.started) : Announced (out ++ es) s' where
  roleFirst := by
    refine ⟨?_, forPrefixes_append h.roleFirst.first fun p e q hes he => ?_⟩
    · rw [List.countP_append, hrole]
      exact h.roleFirst.once
    · have hmem : e ∈ es := by
        rw [hes]
        exact List.mem_append_right _ List.mem_cons_self
      obtain ⟨e', he', hr⟩ := h.sent (hcontent ⟨e, hmem, he⟩)
      exact ⟨e', List.mem_append_left _ he', hr⟩
  sent := by
    intro hs
    obtain ⟨e, he, hr⟩ := h.sent (hstarted.symm.trans hs)
    exact ⟨e, List.mem_append_left _ he, hr⟩
  unsent := by
    intro hs
    rw [List.countP_append, hrole, h.unsent (hstarted.symm.trans hs)]
  tool := fun ht => hstarted.trans (htool ht)

/-- The step keeps what has been sent in agreement. -/
def KeepsRole (f : Step) : Prop :=
  ∀ out s, Announced out s → Announced (out ++ (f s).1) (f s).2

theorem KeepsRole.andThen {f g : Step} (hf : KeepsRole f) (hg : KeepsRole g) :
    KeepsRole (f.andThen g) := by
  intro out s h
  have := hg _ _ (hf out s h)
  rwa [List.append_assoc] at this

theorem KeepsRole.quiet {f : Step} (hout : ∀ s, (f s).1 = [])
    (hstarted : ∀ s, (f s).2.started = s.started)
    (htool : ∀ s, (f s).2.currentOaiToolIndex = s.currentOaiToolIndex) : KeepsRole f := by
  intro out s h
  rw [hout]
  refine h.append rfl (fun ⟨_, he, _⟩ => by cases he) (hstarted s) fun ht => ?_
  rw [htool] at ht
  exact h.tool ht

theorem keepsRole_skip : KeepsRole .skip :=
  .quiet (fun _ => rfl) (fun _ => rfl) fun _ => rfl

theorem KeepsRole.forEach {ι : Type} {f : ι → Step} (h : ∀ i, KeepsRole (f i)) (is : List ι) :
    KeepsRole (Emitter.forEach f is) :=
  fun out _ ho => Emitter.forEach_invariant (fun i _ out s => h i out s) out ho

theorem keepsRole_announce : KeepsRole announce := by
  intro out s h
  rw [announce]
  split
  · rw [List.append_nil]
    exact h
  · next hs =>
    have hunsent := h.unsent (Bool.not_eq_true _ ▸ hs)
    have hrole : ([s.makeChunk .role].countP OpenaiEvent.isRole) = 1 := rfl
    refine ⟨⟨?_, ?_⟩, fun _ => ?_, fun hn => absurd hn Bool.true_eq_false.mp, fun _ => rfl⟩
    · rw [List.countP_append, hunsent, hrole]
    · exact forPrefixes_concat.mpr ⟨h.roleFirst.first, fun hn => by cases hn⟩
    · exact ⟨_, List.mem_append_right _ List.mem_cons_self, rfl⟩

/-- What is only taken after the role needs to keep the agreement only there. -/
theorem KeepsRole.announced {g : Step}
    (hg : ∀ out s, s.started → Announced out s → Announced (out ++ (g s).1) (g s).2) :
    KeepsRole (announce.andThen g) := by
  intro out s h
  have hstarted : (announce s).2.started := by
    rw [announce]
    split
    · assumption
    · rfl
  have := hg _ _ hstarted (keepsRole_announce out s h)
  rwa [List.append_assoc] at this

theorem announced_emit {body : ChunkBody} (hbody : body ≠ .role) (out : List OpenaiEvent)
    (s : ClaudeToOpenaiStreamState) (hs : s.started) (h : Announced out s) :
    Announced (out ++ (emit body s).1) (emit body s).2 := by
  refine h.append ?_ (fun _ => hs) rfl h.tool
  show ([s.makeChunk body].countP OpenaiEvent.isRole) = 0
  exact List.countP_eq_zero.mpr fun e he => by
    rw [List.mem_singleton.mp he]
    simpa [makeChunk, OpenaiEvent.isRole] using hbody

theorem keepsRole_startBlock (block : Json) : KeepsRole (startBlock block) := by
  rw [startBlock]
  split
  · exact .announced fun out s hs h => (KeepsRole.quiet (f := enterText) (fun _ => rfl)
      (fun _ => rfl) fun _ => rfl) out s h
  · split
    · exact .announced fun out s hs h => h.append rfl (fun _ => hs) rfl fun _ => hs
    · exact keepsRole_skip

theorem keepsRole_addToolArguments (arguments : String) :
    KeepsRole (addToolArguments arguments) := by
  intro out s h
  rw [addToolArguments]
  split
  · next index hindex =>
    have hs : s.started := h.tool (by rw [hindex]; rfl)
    exact h.append rfl (fun _ => hs) rfl h.tool
  · rw [List.append_nil]
    exact h

theorem keepsRole_addDelta (delta : Json) : KeepsRole (addDelta delta) := by
  rw [addDelta]
  split
  · exact .announced (announced_emit (by simp))
  split
  · refine .announced fun out s hs h => ?_
    cases delta.getStr "thinking" with
    | none => exact keepsRole_skip out s h
    | some thinking =>
      rw [Option.toList_some, Emitter.forEach_singleton]
      split
      · exact keepsRole_skip out s h
      · exact announced_emit (by simp) out s hs h
  split
  · exact keepsRole_skip
  split
  · exact keepsRole_addToolArguments _
  · exact keepsRole_skip

theorem keepsRole_stopMessage : KeepsRole stopMessage := by
  intro out s h
  rw [stopMessage]
  split
  · exact h.append rfl (fun hc => by simp [makeChunk, OpenaiEvent.isContent] at hc) rfl h.tool
  · exact h.append rfl (fun hc => by simp [makeChunk, OpenaiEvent.isContent] at hc) rfl h.tool

/-- An event keeps what has been sent in agreement. -/
theorem keepsRole_process (e : ServerEvent) : KeepsRole e.process := by
  rw [ServerEvent.process, processJson]
  split
  · exact .forEach (fun _ => .quiet (fun _ => rfl) (fun _ => rfl) fun _ => rfl) _
  split
  · exact (KeepsRole.quiet (f := noteIndex _) (fun _ => rfl) (fun _ => rfl) fun _ => rfl).andThen
      (keepsRole_startBlock _)
  split
  · exact keepsRole_addDelta _
  split
  · exact (KeepsRole.forEach
      (fun _ => .quiet (fun _ => rfl) (fun _ => rfl) fun _ => rfl) _).andThen
        (.forEach (fun _ => .quiet (fun _ => rfl) (fun _ => rfl) fun _ => rfl) _)
  split
  · exact keepsRole_stopMessage
  · exact keepsRole_skip

/-- Whatever events arrive, the role comes at most once, and before any content. -/
theorem roleFirst_process (events : List ServerEvent) (created : UInt64) :
    RoleFirst (Emitter.forEach ServerEvent.process events (new created)).1 :=
  (KeepsRole.forEach keepsRole_process events [] _ (announced_new created)).roleFirst

namespace ClaudeStream

variable {codec : Codec} (st : ClaudeStream codec) (created : UInt64)

/-- **The streamed answer is the answer as a whole just if it uses at most 2³¹ tools.** In any
case the role comes at most once, before any content, and the output ends with `[DONE]`. -/
theorem agrees_iff (created' : UInt64) : ∃ response,
    O2C.claudeToOpenaiResponse codec created' st.body = .ok response ∧
      (SameAnswer (st.received created) (.read response) ↔ st.tools.length ≤ 2 ^ 31) ∧
      RoleFirst (st.output created) ∧ ∃ before, st.output created = before ++ [.done] := by
  obtain ⟨response, hresponse, hread⟩ := read_response st.whole created'
  refine ⟨response, hresponse, ?_, roleFirst_process st.events created, ?_⟩
  · rw [hread]
    constructor
    · intro h
      by_contra hroom
      obtain ⟨c, hc, hneg⟩ := st.negative_index created (not_le.mp hroom)
      rw [h.toolCalls] at hc
      obtain ⟨t, -, rfl⟩ := List.mem_map.mp hc
      exact absurd hneg (Int.not_lt.mpr (Int.natCast_nonneg t.2))
    · intro hroom
      rw [st.received_eq created hroom]
      refine ⟨rfl, rfl, rfl, rfl, ?_⟩
      rintro usage ⟨rfl⟩ hany
      exact if_pos hany
  · obtain ⟨parts, s, before, -, -, houtput, -⟩ := st.exists_output created
    exact ⟨_, houtput.trans (List.append_assoc _ _ _).symm⟩

/-! #### Too many tools -/

/-- A codec that writes an empty object. -/
def emptyCodec : Codec where
  fromSlice := fun _ => .error ""
  fromStr := fun _ => .error ""
  toStr := fun _ => .ok "\x7b\x7d"
  toVec := fun _ => .ok (Utf8.encode "\x7b\x7d")
  display := fun _ => "\x7b\x7d"
  toVec_ok := fun _ => ⟨Utf8.encode "\x7b\x7d", rfl⟩

def toolBlock : Json :=
  ofMembers [("type", .string "tool_use"), ("id", .string "toolu_1"), ("name", .string "f"),
    ("input", .object [])]

/-- The events of a tool's block. -/
def toolEvents : List ServerEvent :=
  [⟨"content_block_start", ofMembers [("content_block", toolBlock)]⟩,
    ⟨"content_block_delta", ofMembers [("delta", ofMembers [("type", .string "input_json_delta"),
      ("partial_json", .string "\x7b\x7d")])]⟩,
    ⟨"content_block_stop", .object []⟩]

theorem delivers_toolEvents : Delivers (.toolUse "toolu_1" "f" "\x7b\x7d") toolEvents :=
  @Delivers.toolUse _ _ _ _ _ [_] ["\x7b\x7d"] ⟨rfl, rfl⟩ rfl rfl rfl
    (.cons ⟨_, ⟨rfl, rfl⟩, rfl, rfl⟩ .nil) rfl

theorem forall₂_replicate {α β : Type} {R : α → β → Prop} {a : α} {b : β} (h : R a b) (n : ℕ) :
    List.Forall₂ R (List.replicate n a) (List.replicate n b) := by
  induction n with
  | zero => exact .nil
  | succ n ih => exact .cons h ih

def startEvent : ServerEvent :=
  ⟨"message_start", ofMembers [("message", ofMembers [("usage",
    ofMembers [("input_tokens", ofU64 1)])])]⟩

def deltaEvent : ServerEvent :=
  ⟨"message_delta", ofMembers [("delta", ofMembers [("stop_reason", .string "tool_use")]),
    ("usage", ofMembers [("output_tokens", ofU64 1)])]⟩

/-- An answer that uses a tool `n` times. -/
def repeated (n : ℕ) : ClaudeStream emptyCodec where
  blocks := List.replicate n (.toolUse "toolu_1" "f" "\x7b\x7d")
  stopReason := some "tool_use"
  inputTokens := 1
  outputTokens := 1
  body := ofMembers [("content", .array (List.replicate n toolBlock)),
    ("stop_reason", .string "tool_use"),
    ("usage", ofMembers [("input_tokens", ofU64 1), ("output_tokens", ofU64 1)])]
  events := startEvent :: ((List.replicate n toolEvents).flatten ++
    [deltaEvent, ⟨"message_stop", .object []⟩])
  whole := by
    refine ⟨⟨List.replicate n toolBlock, ?_, forall₂_replicate ⟨rfl, rfl, rfl, _, rfl, rfl⟩ n⟩, ?_,
      ofMembers [("input_tokens", ofU64 1), ("output_tokens", ofU64 1)], ?_, rfl, rfl⟩ <;>
      simp [getArray, getStr, get_ofMembers, asArray, asStr]
  streamed := by
    refine ⟨startEvent, List.replicate n toolEvents, deltaEvent, ⟨"message_stop", .object []⟩, ?_,
      ⟨rfl, _, _, rfl, rfl, rfl⟩, forall₂_replicate delivers_toolEvents n,
      ⟨rfl, ⟨_, rfl, rfl⟩, _, rfl, rfl⟩, rfl⟩
    refine List.filter_eq_self.mpr fun e he => ?_
    rcases List.mem_cons.mp he with rfl | he
    · rfl
    rcases List.mem_append.mp he with he | he
    · obtain ⟨es, hes, he⟩ := List.mem_flatten.mp he
      rw [List.eq_of_mem_replicate hes] at he
      simp only [toolEvents, List.mem_cons, List.not_mem_nil, or_false] at he
      rcases he with rfl | rfl | rfl <;> rfl
    · rcases List.mem_pair.mp he with rfl | rfl <;> rfl

theorem length_tools_repeated (n : ℕ) : (repeated n).tools.length = n := by
  have htool : ClaudeBlock.toolOf (.toolUse "toolu_1" "f" "\x7b\x7d") =
      some ⟨"toolu_1", "f", "\x7b\x7d"⟩ := rfl
  show ((List.replicate n _).filterMap ClaudeBlock.toolOf).length = n
  rw [List.filterMap_replicate_of_some htool, List.length_replicate]

/-- With one tool too many, the last index is negative. -/
theorem outnumbered : ¬∀ (st : ClaudeStream emptyCodec) (created created' : UInt64)
    (response : Json), O2C.claudeToOpenaiResponse emptyCodec created' st.body = .ok response →
      SameAnswer (st.received created) (.read response) := by
  intro h
  obtain ⟨response, hresponse, hread⟩ := read_response (repeated (2 ^ 31 + 1)).whole 0
  obtain ⟨c, hc, hneg⟩ := (repeated (2 ^ 31 + 1)).negative_index 0
    (by rw [length_tools_repeated]; omega)
  rw [(h _ 0 0 response hresponse).toolCalls, hread] at hc
  obtain ⟨t, -, rfl⟩ := List.mem_map.mp hc
  exact absurd hneg (Int.not_lt.mpr (Int.natCast_nonneg t.2))

end ClaudeStream

end Chennix
