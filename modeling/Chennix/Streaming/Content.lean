import Mathlib.Algebra.Ring.Int.Defs
import Chennix.Streaming.Bracketing
import Chennix.Streaming.Messages

/-!
# The content of converted streams

An OpenAI answer with one choice arrives in chunks; its tool calls one after another, each in pieces
that are not interrupted. The Claude events that the machine makes of it carry the same text, the
same reasoning and the same tool calls, as long as the machine tells the tool calls apart. It does
so by their index, cut down to 32 bits, and it remembers only the last; before the first tool call
it remembers −1.

## Main definitions

* `OpenaiStream` — the chunks of an answer, with what is known of them
* `OpenaiStream.Distinguished` — the first piece of a tool call has another index than the last
* `Preserved` — the same content on both sides

## Main results

* `OpenaiStream.preserved_iff` — the content is preserved just where tool calls are told apart
* `OpenaiStream.lost_tool` — a tool call whose index is read as −1
-/

namespace Chennix

open Foundations Json OpenaiToClaudeStreamState

/-! ### What is known along a list -/

/-- Every element fits those before it. -/
def ForPrefixes {α : Type} (P : List α → α → Prop) (l : List α) : Prop :=
  ∀ p x q, l = p ++ x :: q → P p x

theorem forPrefixes_nil {α : Type} {P : List α → α → Prop} : ForPrefixes P [] := by
  intro p x q h
  exact absurd (congrArg List.length h) (by simp)

theorem forPrefixes_concat {α : Type} {P : List α → α → Prop} {l : List α} {x : α} :
    ForPrefixes P (l ++ [x]) ↔ ForPrefixes P l ∧ P l x := by
  constructor
  · intro h
    refine ⟨fun p y q hl => h p y (q ++ [x]) ?_, h l x [] rfl⟩
    rw [hl, List.append_assoc, List.cons_append]
  · rintro ⟨hl, hx⟩ p y q heq
    rcases List.eq_nil_or_concat q with rfl | ⟨q, z, rfl⟩
    · obtain ⟨rfl, hxy⟩ := List.append_inj' heq rfl
      rw [← List.singleton_inj.mp hxy]
      exact hx
    · refine hl p y q ?_
      have : l ++ [x] = (p ++ y :: q) ++ [z] := by rw [heq]; simp
      exact (List.append_inj' this rfl).1

theorem forPrefixes_append {α : Type} {P : List α → α → Prop} {l m : List α}
    (h : ForPrefixes P l) (hm : ∀ p x q, m = p ++ x :: q → P (l ++ p) x) :
    ForPrefixes P (l ++ m) := by
  induction m using List.reverseRecOn with
  | nil => rwa [List.append_nil]
  | append_singleton m x ih =>
    rw [← List.append_assoc]
    refine forPrefixes_concat.mpr ⟨ih fun p y q hmq => hm p y (q ++ [x]) ?_, hm m x [] rfl⟩
    rw [hmq, List.append_assoc, List.cons_append]

theorem ForPrefixes.left {α : Type} {P : List α → α → Prop} {l m : List α}
    (h : ForPrefixes P (l ++ m)) : ForPrefixes P l := by
  rintro p x q rfl
  exact h p x (q ++ m) (by simp)

/-! ### What a chunk says -/

/-- The integer that a value is. -/
def integerOf : Json → Option ℤ
  | .number (.posInt n) => some n.toNat
  | .number (.negInt n) => some n.toInt
  | _ => none

/-- The choice of a chunk that has one. -/
def choiceOf (v : Json) : Json := ((v.getArray "choices").getD []).headD .null

/-- The delta of a chunk. -/
def deltaOf (v : Json) : Json := (choiceOf v).getD "delta" .null

def toolCallsOf (v : Json) : List Json := ((deltaOf v).getArray "tool_calls").getD []

def toolIndex (tc : Json) : Option ℤ := (tc.get "index").bind integerOf

/-- A piece of a tool call. -/
def toolDelta (tc : Json) : OpenaiDelta :=
  .toolCall ((toolIndex tc).getD 0) (tc.getStr "id") ((tc.get "function").bind (·.getStr "name"))
    (((tc.get "function").bind (·.getStr "arguments")).getD "")

/-- What a chunk says: its reasoning, its pieces of tool calls, its text. -/
def spoken (v : Json) : List OpenaiDelta :=
  ((reasoningOf (deltaOf v)).filter (· ≠ "")).toList.map .reasoning ++
    (toolCallsOf v).map toolDelta ++
    (((deltaOf v).getStr "content").filter (· ≠ "")).toList.map .content

/-- A piece of a tool call goes on with the piece right before it, or begins the tool call. -/
def Contiguous : List OpenaiDelta → Prop :=
  ForPrefixes fun before d => ∀ index, d.tool = some index →
    before.getLast?.bind OpenaiDelta.tool = some index ∨ ∀ d' ∈ before, d'.tool ≠ some index

/-- The chunks of an answer with one choice. Nothing is asked of the ids and the names of later
pieces of a tool call. -/
structure OpenaiStream where
  /-- Before the finish reason. -/
  chunks : List Json
  /-- With the finish reason. -/
  last : Json
  finishReason : String
  /-- After the finish reason. -/
  usageOnly : Option Json
  single : ∀ v ∈ chunks ++ [last], ∃ choice, v.getArray "choices" = some [choice]
  indexed : ∀ v ∈ chunks ++ [last], ∀ tc ∈ toolCallsOf v,
    ∃ index : ℤ, 0 ≤ index ∧ toolIndex tc = some index
  running : ∀ v ∈ chunks, (choiceOf v).getStr "finish_reason" = none
  finished : (choiceOf last).getStr "finish_reason" = some finishReason
  contiguous : Contiguous ((chunks ++ [last]).flatMap spoken)
  noChoice : ∀ v ∈ usageOnly, (v.getArray "choices").getD [] = []

namespace OpenaiStream

/-- The data lines, up to `[DONE]`. -/
def lines (st : OpenaiStream) : List DataLine :=
  (st.chunks ++ [st.last]).map .json ++ st.usageOnly.toList.map .json ++ [.done]

def deltas (st : OpenaiStream) : List OpenaiDelta := (st.chunks ++ [st.last]).flatMap spoken

/-- The answer. -/
def message (st : OpenaiStream) : OpenaiMessage :=
  .fold (st.deltas ++ [.finish st.finishReason])

end OpenaiStream

/-- The same content on both sides. -/
structure Preserved (m : OpenaiMessage) (c : ClaudeMessage) : Prop where
  text : c.text = m.content
  thinking : c.thinking = m.reasoning
  tools : c.tools = m.toolCalls.map fun t => ⟨t.id, t.name, t.arguments⟩
  stopReason : c.stopReason = m.finishReason.map stopReason

/-- An index as the machine reads it: cut down to 32 bits, and 0 beyond 64 bits with a sign. -/
def cutIndex (index : ℤ) : Int32 := if index < 2 ^ 63 then Int32.ofInt index else 0

/-- The index the machine remembers after some pieces. -/
def lastIndex (deltas : List OpenaiDelta) : Int32 :=
  deltas.foldl (fun i d => (d.tool.map cutIndex).getD i) (-1)

/-- The first piece of a tool call has another index than the last piece of the tool call before,
and another than −1 if there is none, as the machine reads them. -/
def Distinguished : List OpenaiDelta → Prop :=
  ForPrefixes fun before d => ∀ index, d.tool = some index →
    (∀ d' ∈ before, d'.tool ≠ some index) → cutIndex index ≠ lastIndex before

def OpenaiStream.Distinguished (st : OpenaiStream) : Prop := Chennix.Distinguished st.deltas

/-! ### Reading a chunk -/

/-- What the machine does with a piece of the answer. -/
def say : OpenaiDelta → Step
  | .content text => addText text
  | .reasoning text => addReasoning text
  | .toolCall index id name arguments =>
    addToolCall ⟨cutIndex index, id.getD "", name.getD "", arguments⟩
  | _ => .skip

theorem read_index {tc : Json} {index : ℤ} (h : toolIndex tc = some index) (h0 : 0 ≤ index) :
    (((tc.get "index").bind asI64).getD 0).toInt32 = cutIndex index := by
  obtain ⟨v, hv, hint⟩ := Option.bind_eq_some_iff.mp h
  rw [hv, Option.bind_some, cutIndex]
  cases v with
  | number n =>
    cases n with
    | posInt n =>
      obtain rfl := Option.some.inj hint
      rw [asI64]
      by_cases hn : n.toNat < 2 ^ 63
      · have hz : (n.toNat : ℤ) < 2 ^ 63 := by omega
        have hint : n.toInt64.toInt = n.toNat :=
          BitVec.toInt_eq_toNat_of_lt (x := n.toBitVec) (by show 2 * n.toNat < 2 ^ 64; omega)
        rw [if_pos hn, if_pos hz, Option.getD_some, ← hint]
        exact (Int32.ofInt_int64ToInt _).symm
      · have hz : ¬(n.toNat : ℤ) < 2 ^ 63 := by omega
        rw [if_neg hn, if_neg hz]
        rfl
    | negInt n =>
      obtain rfl := Option.some.inj hint
      have hlt : n.toInt < 2 ^ 63 := n.toInt_lt
      rw [if_pos hlt]
      exact (Int32.ofInt_int64ToInt n).symm
    | float x => cases hint
  | _ => cases hint

/-- A piece whose index is a number that is not negative is read as it is said. -/
theorem addToolCall_read {tc : Json} (h : ∃ index : ℤ, 0 ≤ index ∧ toolIndex tc = some index) :
    addToolCall (ToolFragment.read tc) = say (toolDelta tc) := by
  obtain ⟨index, h0, hindex⟩ := h
  rw [toolDelta, hindex, Option.getD_some, say, ToolFragment.read, read_index hindex h0]

theorem forEach_filter_skip {f : String → Step} (hf : f "" = .skip) (text : Option String) :
    Emitter.forEach f text.toList = Emitter.forEach f (text.filter (· ≠ "")).toList := by
  cases text with
  | none => rfl
  | some t =>
    by_cases ht : t = ""
    · subst ht
      show (f "").andThen .skip = .skip
      rw [hf]
      rfl
    · rw [Option.filter_some, if_pos (decide_eq_true ht)]

/-- What the machine does with a chunk with one choice: it notes what it has to, starts the message
and says what the chunk says, before it looks at the finish reason. -/
theorem processJson_single {v : Json} (hsingle : ∃ choice, v.getArray "choices" = some [choice])
    (hindexed : ∀ tc ∈ toolCallsOf v, ∃ index : ℤ, 0 ≤ index ∧ toolIndex tc = some index) :
    processJson v = (noteHeader (v.getStr "id") (v.getStr "model")).andThen
      ((Emitter.forEach noteUsage (reportedUsage v).toList).andThen
        (startMessage.andThen ((Emitter.forEach say (spoken v)).andThen
          (Emitter.forEach finish ((choiceOf v).getStr "finish_reason").toList)))) := by
  obtain ⟨choice, hchoice⟩ := hsingle
  have hof : choiceOf v = choice := by rw [choiceOf, hchoice]; rfl
  have hspoken : Emitter.forEach say (spoken v) =
      (Emitter.forEach addReasoning (reasoningOf (deltaOf v)).toList).andThen
        ((Emitter.forEach addToolCall (toolFragments (deltaOf v))).andThen
          (Emitter.forEach addText ((deltaOf v).getStr "content").toList)) := by
    rw [spoken, List.append_assoc, Emitter.forEach_append, Emitter.forEach_append,
      Emitter.forEach_map, Emitter.forEach_map, Emitter.forEach_map,
      forEach_filter_skip (f := addReasoning) rfl, forEach_filter_skip (f := addText) rfl,
      toolFragments, Emitter.forEach_map]
    congr 2
    exact (Emitter.forEach_congr fun tc htc => addToolCall_read (hindexed tc htc)).symm
  rw [hspoken, Emitter.andThen_assoc, Emitter.andThen_assoc, processJson, hchoice, deltaOf, hof]
  rfl

/-! ### The answer so far -/

/-- What the last piece of a tool call was. -/
def endsWith (p : List OpenaiDelta) (index : ℤ) : Prop :=
  p.getLast?.bind OpenaiDelta.tool = some index

theorem lastIndex_concat (p : List OpenaiDelta) (d : OpenaiDelta) :
    lastIndex (p ++ [d]) = (d.tool.map cutIndex).getD (lastIndex p) := by
  rw [lastIndex, List.foldl_append]
  rfl

theorem endsWith_concat {p : List OpenaiDelta} {d : OpenaiDelta} {index : ℤ} :
    endsWith (p ++ [d]) index ↔ d.tool = some index := by
  rw [endsWith, List.getLast?_concat]
  rfl

theorem lastIndex_of_endsWith {p : List OpenaiDelta} {index : ℤ} (h : endsWith p index) :
    lastIndex p = cutIndex index := by
  rcases List.eq_nil_or_concat p with rfl | ⟨p, d, rfl⟩
  · cases h
  · rw [List.concat_eq_append] at h ⊢
    rw [lastIndex_concat, endsWith_concat.mp h]
    rfl

/-- The tool call of the last piece is the last tool call. -/
theorem toolCalls_of_endsWith {p : List OpenaiDelta} (hp : Contiguous p) {index : ℤ}
    (h : endsWith p index) : ∃ calls c, (OpenaiMessage.fold p).toolCalls = calls ++ [c] ∧
      c.index = index ∧ ∀ c' ∈ calls, c'.index ≠ index := by
  induction p using List.reverseRecOn with
  | nil => cases h
  | append_singleton p d ih =>
    obtain ⟨hp', hd⟩ := forPrefixes_concat.mp hp
    have htool := endsWith_concat.mp h
    cases d with
    | toolCall i id name arguments =>
      obtain rfl := Option.some.inj htool
      rw [OpenaiMessage.fold_concat]
      show ∃ calls c, addToolPiece (OpenaiMessage.fold p).toolCalls i id name arguments =
        calls ++ [c] ∧ _
      rcases hd i rfl with hlast | hnew
      · obtain ⟨calls, c, hcalls, hc, hother⟩ := ih hp' hlast
        exact ⟨calls, c.extend arguments, by rw [hcalls, addToolPiece_last hc hother], hc, hother⟩
      · have hnone : ∀ c ∈ (OpenaiMessage.fold p).toolCalls, c.index ≠ i := by
          intro c hc hi
          obtain ⟨d', hd', ht⟩ := (mem_toolCalls p i).mp ⟨c, hc, hi⟩
          exact hnew d' hd' ht
        exact ⟨_, _, addToolPiece_new hnone id name arguments, rfl, hnone⟩
    | _ => cases htool

/-! ### The message so far -/

/-- The message after a step. -/
def told (f : Step) (s : OpenaiToClaudeStreamState) (c : ClaudeMessage) : ClaudeMessage :=
  (f s).1.foldl ClaudeMessage.add c

theorem told_andThen (f g : Step) (s : OpenaiToClaudeStreamState) (c : ClaudeMessage) :
    told (f.andThen g) s c = told g (f s).2 (told f s c) := List.foldl_append

/-- The block that is open is the last one of the message. -/
def Opened (s : OpenaiToClaudeStreamState) (c : ClaudeMessage) : Prop :=
  ∀ type, s.currentBlockType = some type →
    ∃ b rest, c.blocks = b :: rest ∧ b.index = s.contentBlockIndex ∧ b.block.type = type

/-- What content leaves alone. -/
structure Frame (s s' : OpenaiToClaudeStreamState) : Prop where
  started : s'.started = s.started
  messageStopped : s'.messageStopped = s.messageStopped

theorem frame_closeCurrentBlock (s : OpenaiToClaudeStreamState) :
    Frame s (closeCurrentBlock s).2 := by
  rw [closeCurrentBlock]
  split <;> exact ⟨rfl, rfl⟩

theorem remembered_closeCurrentBlock (s : OpenaiToClaudeStreamState) :
    (closeCurrentBlock s).2.currentOaiToolIndex = s.currentOaiToolIndex := by
  rw [closeCurrentBlock]
  split <;> rfl

theorem told_closeCurrentBlock (s : OpenaiToClaudeStreamState) (c : ClaudeMessage) :
    told closeCurrentBlock s c = c := by
  rw [told, closeCurrentBlock]
  split <;> rfl

/-- The message with another block. -/
def ClaudeMessage.push (c : ClaudeMessage) (index : Int32) (block : ContentBlock)
    (content : String) : ClaudeMessage := { c with blocks := ⟨index, block, content⟩ :: c.blocks }

theorem told_reopen (block : ContentBlock) (s : OpenaiToClaudeStreamState) (c : ClaudeMessage) :
    told (closeCurrentBlock.andThen (openBlock block)) s c = c.push s.nextIndex block "" := by
  rw [told_andThen, told_closeCurrentBlock, told, openBlock, contentBlockIndex_closeCurrentBlock]
  rfl

/-- A delta of the type of the last block goes there. -/
theorem appendDelta_head {index : Int32} {delta : BlockDelta} {b : FoldedBlock}
    {bs : List FoldedBlock} (hindex : b.index = index) (htype : b.block.type = delta.type) :
    appendDelta index delta (b :: bs) = { b with content := b.content ++ delta.content } :: bs := by
  rw [appendDelta, if_pos hindex, if_pos htype]

/-- After a delta there are as many tool uses as before. -/
theorem length_toolUses_appendDelta (index : Int32) (delta : BlockDelta) (bs : List FoldedBlock) :
    (toolUses (appendDelta index delta bs)).length = (toolUses bs).length := by
  induction bs with
  | nil => rfl
  | cons b bs ih =>
    rw [appendDelta]
    split
    · split
      · rw [toolUses, toolUses, List.length_append, List.length_append]
        congr 1
        cases b.block <;> rfl
      · rfl
    · rw [toolUses, toolUses, List.length_append, List.length_append, ih]

/-! #### Texts and reasonings -/

/-- What is said of a text or a reasoning: it is added to what the blocks of its type hold, and its
block is the one that is open. -/
structure Written (type : BlockType) (content : String) (s : OpenaiToClaudeStreamState)
    (c : ClaudeMessage) (s' : OpenaiToClaudeStreamState) (c' : ClaudeMessage) : Prop where
  frame : Frame s s'
  remembered : s'.currentOaiToolIndex = s.currentOaiToolIndex
  contents : ∀ t, contentOf t c'.blocks = contentOf t c.blocks ++ if type = t then content else ""
  tools : c'.tools = c.tools
  opened : Opened s' c'

theorem written_addDelta (block : ContentBlock) (delta : BlockDelta)
    (htype : block.type = delta.type) (hblock : block.type ≠ .toolUse)
    {s : OpenaiToClaudeStreamState} {c : ClaudeMessage} (h : Opened s c) :
    Written block.type delta.content s c ((ensureBlock block).andThen (emitDelta delta) s).2
      (told ((ensureBlock block).andThen (emitDelta delta)) s c) := by
  have htools : ∀ (b : FoldedBlock) (bs : List FoldedBlock), b.block.type ≠ .toolUse →
      toolUses (b :: bs) = toolUses bs := by
    intro b bs hb
    rw [toolUses]
    cases hblock' : b.block with
    | toolUse id name => exact absurd (by rw [hblock']; rfl) hb
    | _ => exact List.append_nil _
  rw [told_andThen]
  show Written _ _ s c (ensureBlock block s).2 _
  by_cases hopen : s.currentBlockType = some block.type
  · -- Its block is open: the delta is appended to it.
    obtain ⟨b, rest, hblocks, hindex, hb⟩ := h block.type hopen
    have hidle : ensureBlock block s = ([], s) := by rw [ensureBlock, if_pos hopen]
    have hafter : (told (emitDelta delta) s c).blocks =
        { b with content := b.content ++ delta.content } :: rest := by
      show appendDelta _ _ c.blocks = _
      rw [hblocks, appendDelta_head hindex (hb.trans htype)]
    have hsame : told (ensureBlock block) s c = c := by
      rw [told, hidle]
      rfl
    rw [hsame, hidle]
    refine ⟨⟨rfl, rfl⟩, rfl, fun t => ?_, ?_, fun t ht => ⟨_, _, hafter, hindex, ?_⟩⟩
    · rw [hafter, hblocks, contentOf, contentOf, String.append_assoc, hb]
      congr 1
      split <;> rfl
    · rw [ClaudeMessage.tools, ClaudeMessage.tools, hafter, hblocks, htools _ _ (hb ▸ hblock),
        htools _ _ (hb ▸ hblock)]
    · exact hb.trans (Option.some.inj (hopen.symm.trans ht))
  · -- A block is started for it.
    have hreopen : ensureBlock block s = closeCurrentBlock.andThen (openBlock block) s := by
      rw [ensureBlock, if_neg hopen]
    have hindex : (ensureBlock block s).2.contentBlockIndex = s.nextIndex := by
      rw [hreopen]
      exact contentBlockIndex_closeCurrentBlock s
    have hafter :
        (told (emitDelta delta) (ensureBlock block s).2 (told (ensureBlock block) s c)).blocks
        = ⟨s.nextIndex, block, "" ++ delta.content⟩ :: c.blocks := by
      show appendDelta _ _ (told (ensureBlock block) s c).blocks = _
      rw [hindex, told, hreopen]
      show appendDelta _ _ (told (closeCurrentBlock.andThen (openBlock block)) s c).blocks = _
      rw [told_reopen]
      exact appendDelta_head rfl htype
    refine ⟨?_, ?_, fun t => ?_, ?_, fun t ht => ⟨_, _, hafter, hindex.symm, ?_⟩⟩
    · rw [hreopen]
      exact ⟨(frame_closeCurrentBlock s).started, (frame_closeCurrentBlock s).messageStopped⟩
    · rw [hreopen]
      exact remembered_closeCurrentBlock s
    · rw [hafter, contentOf, String.empty_append]
    · rw [ClaudeMessage.tools, ClaudeMessage.tools, hafter, htools _ _ hblock]
    · rw [currentBlockType_ensureBlock] at ht
      exact Option.some.inj ht

theorem Written.refl (type : BlockType) {s : OpenaiToClaudeStreamState} {c : ClaudeMessage}
    (h : Opened s c) : Written type "" s c s c where
  frame := ⟨rfl, rfl⟩
  remembered := rfl
  contents := fun t => by
    rw [ite_self]
    exact (String.append_empty).symm
  tools := rfl
  opened := h

theorem written_addText (text : String) {s : OpenaiToClaudeStreamState} {c : ClaudeMessage}
    (h : Opened s c) : Written .text text s c (addText text s).2 (told (addText text) s c) := by
  rw [addText]
  split
  · next ht =>
    subst ht
    exact .refl _ h
  · exact written_addDelta .text (.text text) rfl (fun hn => by cases hn) h

theorem written_addReasoning (text : String) {s : OpenaiToClaudeStreamState} {c : ClaudeMessage}
    (h : Opened s c) :
    Written .thinking text s c (addReasoning text s).2 (told (addReasoning text) s c) := by
  rw [addReasoning]
  split
  · next ht =>
    subst ht
    exact .refl _ h
  · exact written_addDelta .thinking (.thinking text) rfl (fun hn => by cases hn) h

/-! #### Tool calls -/

/-- Arguments that are not empty go to the block that is open. -/
def addArguments (arguments : String) : Step :=
  if arguments = "" then .skip else emitDelta (.inputJson arguments)

theorem addArguments_state (arguments : String) (s : OpenaiToClaudeStreamState) :
    (addArguments arguments s).2 = s := by
  rw [addArguments]
  split <;> rfl

/-- Arguments are appended to a tool's block. -/
theorem told_addArguments (arguments : String) {s : OpenaiToClaudeStreamState} {c : ClaudeMessage}
    {b : FoldedBlock} {bs : List FoldedBlock} (hblocks : c.blocks = b :: bs)
    (hindex : b.index = s.contentBlockIndex) (htype : b.block.type = .toolUse) :
    (told (addArguments arguments) s c).blocks =
      { b with content := b.content ++ arguments } :: bs := by
  rw [addArguments]
  split
  · next ha =>
    show c.blocks = _
    rw [hblocks, ha, String.append_empty]
  · show appendDelta _ _ c.blocks = _
    rw [hblocks]
    exact appendDelta_head hindex htype

/-- Arguments add no block. -/
theorem length_tools_addArguments (arguments : String) (s : OpenaiToClaudeStreamState)
    (c : ClaudeMessage) : (told (addArguments arguments) s c).tools.length = c.tools.length := by
  rw [addArguments]
  split
  · rfl
  · exact length_toolUses_appendDelta _ _ _

/-- Wherever arguments go, the block that is open stays the last. -/
theorem opened_addArguments (arguments : String) {s : OpenaiToClaudeStreamState}
    {c : ClaudeMessage} (h : Opened s c) : Opened s (told (addArguments arguments) s c) := by
  rw [addArguments]
  split
  · exact h
  · intro type htype
    obtain ⟨b, rest, hblocks, hindex, hb⟩ := h type htype
    show ∃ b' rest', appendDelta _ _ c.blocks = b' :: rest' ∧ _
    rw [hblocks, appendDelta, if_pos hindex]
    split
    · exact ⟨_, _, rfl, hindex, hb⟩
    · exact ⟨_, _, rfl, hindex, hb⟩

theorem addToolCall_eq (tc : ToolFragment) :
    addToolCall tc = (ensureTool tc).andThen (addArguments tc.arguments) := rfl

/-- A piece with the index that is remembered starts no block. -/
theorem ensureTool_same (tc : ToolFragment) {s : OpenaiToClaudeStreamState}
    (h : tc.index = s.currentOaiToolIndex) : ensureTool tc s = ([], s) := by
  rw [ensureTool, if_pos h]

/-- A piece with another index starts a block with its arguments. -/
theorem told_addToolCall_other (tc : ToolFragment) {s : OpenaiToClaudeStreamState}
    (h : tc.index ≠ s.currentOaiToolIndex) (c : ClaudeMessage) :
    (told (addToolCall tc) s c).blocks =
        ⟨s.nextIndex, .toolUse tc.id tc.name, tc.arguments⟩ :: c.blocks ∧
      Frame s (addToolCall tc s).2 ∧ (addToolCall tc s).2.currentOaiToolIndex = tc.index ∧
      (addToolCall tc s).2.contentBlockIndex = s.nextIndex ∧
      (addToolCall tc s).2.currentBlockType = some .toolUse := by
  have hensure : ensureTool tc s =
      ((closeCurrentBlock.andThen (openBlock (.toolUse tc.id tc.name))).andThen
        (noteTool tc)) s := by
    rw [ensureTool, if_neg h, Emitter.andThen_assoc]
  have hindex : (ensureTool tc s).2.contentBlockIndex = s.nextIndex := by
    rw [hensure]
    exact contentBlockIndex_closeCurrentBlock s
  have htold : told (ensureTool tc) s c = c.push s.nextIndex (.toolUse tc.id tc.name) "" := by
    rw [told, hensure]
    show told (_) s c = _
    rw [told_andThen, told_reopen]
    rfl
  have hstate : (addToolCall tc s).2 = (ensureTool tc s).2 := addArguments_state _ _
  rw [hstate]
  refine ⟨?_, ?_, ?_, hindex, ?_⟩
  · rw [addToolCall_eq, told_andThen, htold,
      told_addArguments _ (b := ⟨s.nextIndex, .toolUse tc.id tc.name, ""⟩) rfl hindex.symm rfl,
      String.empty_append]
  · rw [hensure]
    exact ⟨(frame_closeCurrentBlock s).started, (frame_closeCurrentBlock s).messageStopped⟩
  · rw [hensure]
    rfl
  · rw [hensure]
    rfl

/-! ### Both sides together -/

/-- The content is the same on both sides, and after a piece of a tool call a tool's block is
open. -/
structure Same (p : List OpenaiDelta) (s : OpenaiToClaudeStreamState) (c : ClaudeMessage) :
    Prop where
  text : c.text = (OpenaiMessage.fold p).content
  thinking : c.thinking = (OpenaiMessage.fold p).reasoning
  tools : c.tools = (OpenaiMessage.fold p).toolCalls.map fun t => ⟨t.id, t.name, t.arguments⟩
  toolOpen : ∀ index, endsWith p index → s.currentBlockType = some .toolUse

/-- What holds after the pieces `p`: the same on both sides if tool calls are told apart, and
fewer tool uses than tool calls if not. -/
structure Agrees (p : List OpenaiDelta) (s : OpenaiToClaudeStreamState) (c : ClaudeMessage) :
    Prop where
  notStopped : s.messageStopped = false
  fresh : s.started = false → s.currentBlockType = none
  opened : Opened s c
  remembered : s.currentOaiToolIndex = lastIndex p
  same : Distinguished p → Same p s c
  fewer : ¬Distinguished p → c.tools.length < (OpenaiMessage.fold p).toolCalls.length

theorem distinguished_concat {p : List OpenaiDelta} {d : OpenaiDelta} (hd : d.tool = none) :
    Distinguished (p ++ [d]) ↔ Distinguished p := by
  rw [Distinguished, forPrefixes_concat]
  exact and_iff_left fun index hindex => by rw [hd] at hindex; cases hindex

/-- A text or a reasoning keeps both sides together. -/
theorem Agrees.written {p : List OpenaiDelta} {s s' : OpenaiToClaudeStreamState}
    {c c' : ClaudeMessage} (h : Agrees p s c) (hs : s.started) {type : BlockType}
    {content : String} (hw : Written type content s c s' c') {d : OpenaiDelta}
    (hd : d.tool = none)
    (hcontent : ((OpenaiMessage.fold p).add d).content =
      (OpenaiMessage.fold p).content ++ if type = .text then content else "")
    (hreasoning : ((OpenaiMessage.fold p).add d).reasoning =
      (OpenaiMessage.fold p).reasoning ++ if type = .thinking then content else "")
    (htools : ((OpenaiMessage.fold p).add d).toolCalls = (OpenaiMessage.fold p).toolCalls) :
    Agrees (p ++ [d]) s' c' where
  notStopped := hw.frame.messageStopped.trans h.notStopped
  fresh := fun hn => absurd ((hw.frame.started.trans hs).symm.trans hn) Bool.true_eq_false.mp
  opened := hw.opened
  remembered := by
    rw [hw.remembered, h.remembered, lastIndex_concat, hd]
    rfl
  same := by
    intro hdist
    have hsame := h.same ((distinguished_concat hd).mp hdist)
    refine ⟨?_, ?_, ?_, fun index hindex => ?_⟩
    · rw [ClaudeMessage.text, hw.contents, OpenaiMessage.fold_concat, hcontent, ← hsame.text]
      rfl
    · rw [ClaudeMessage.thinking, hw.contents, OpenaiMessage.fold_concat, hreasoning,
        ← hsame.thinking]
      rfl
    · rw [hw.tools, OpenaiMessage.fold_concat, htools, hsame.tools]
    · rw [endsWith_concat, hd] at hindex
      cases hindex
  fewer := by
    intro hdist
    rw [hw.tools, OpenaiMessage.fold_concat, htools]
    exact h.fewer fun hn => hdist ((distinguished_concat hd).mpr hn)

/-! A piece of a tool call. -/

section ToolCall

variable {p : List OpenaiDelta} {s : OpenaiToClaudeStreamState} {c : ClaudeMessage} {index : ℤ}
  {id name : Option String} {arguments : String}

theorem fold_toolCall : OpenaiMessage.fold (p ++ [.toolCall index id name arguments]) =
    { OpenaiMessage.fold p with
      toolCalls := addToolPiece (OpenaiMessage.fold p).toolCalls index id name arguments } := by
  rw [OpenaiMessage.fold_concat]
  rfl

theorem length_le_addToolPiece (calls : List ToolCall) (index : ℤ) (id name : Option String)
    (arguments : String) :
    calls.length ≤ (addToolPiece calls index id name arguments).length := by
  rw [addToolPiece]
  split
  · rw [List.length_map]
  · rw [List.length_append]
    omega

/-- A tool call that no piece before is of is not there yet. -/
theorem toolCalls_new (h : ∀ d ∈ p, d.tool ≠ some index) :
    ∀ call ∈ (OpenaiMessage.fold p).toolCalls, call.index ≠ index := by
  intro call hcall hindex
  obtain ⟨d, hd, htool⟩ := (mem_toolCalls p index).mp ⟨call, hcall, hindex⟩
  exact h d hd htool

/-- The machine takes a piece for one of the last tool call. -/
theorem say_toolCall_same (id name : Option String) (arguments : String) (c : ClaudeMessage)
    (hsame : cutIndex index = s.currentOaiToolIndex) :
    told (say (.toolCall index id name arguments)) s c = told (addArguments arguments) s c ∧
      (say (.toolCall index id name arguments) s).2 = s := by
  have hensure := ensureTool_same ⟨cutIndex index, id.getD "", name.getD "", arguments⟩ hsame
  have hquiet : told (ensureTool ⟨cutIndex index, id.getD "", name.getD "", arguments⟩) s c =
      c := by
    rw [told, hensure]
    rfl
  constructor
  · show told (addToolCall _) s c = _
    rw [addToolCall_eq, told_andThen, hquiet, hensure]
  · show (addArguments arguments (ensureTool _ s).2).2 = s
    rw [addArguments_state, hensure]

/-- Arguments that go to the tool call they are of. -/
theorem Same.goesOn (h : Same p s c) (hopened : Opened s c) (hp : Contiguous p)
    (hgoesOn : endsWith p index) :
    Same (p ++ [.toolCall index id name arguments]) s (told (addArguments arguments) s c) := by
  obtain ⟨calls, call, hcalls, hcall, hother⟩ := toolCalls_of_endsWith hp hgoesOn
  obtain ⟨b, bs, hblocks, hindex, htype⟩ := hopened _ (h.toolOpen index hgoesOn)
  have hafter := told_addArguments arguments hblocks hindex htype
  have hcontentOf : ∀ t : BlockType, t ≠ .toolUse →
      contentOf t (told (addArguments arguments) s c).blocks =
        contentOf t c.blocks := by
    intro t ht
    rw [hafter, hblocks, contentOf, contentOf, if_neg fun hb => ht (hb.symm.trans htype),
      if_neg fun hb => ht (hb.symm.trans htype)]
  refine ⟨?_, ?_, ?_, fun i _ => h.toolOpen index hgoesOn⟩
  · rw [fold_toolCall, ← h.text]
    exact hcontentOf .text (fun hn => by cases hn)
  · rw [fold_toolCall, ← h.thinking]
    exact hcontentOf .thinking (fun hn => by cases hn)
  · obtain ⟨i, block, content⟩ := b
    have htools := h.tools
    rw [ClaudeMessage.tools, hblocks, toolUses, hcalls, List.map_append] at htools
    rw [ClaudeMessage.tools, hafter, fold_toolCall, hcalls, addToolPiece_last hcall hother,
      List.map_append, toolUses]
    cases block with
    | toolUse id' name' =>
      obtain ⟨hinit, huse⟩ := List.append_inj' htools rfl
      have huse := List.singleton_inj.mp huse
      obtain ⟨hid, hname, harguments⟩ := ToolUse.mk.inj huse
      rw [hinit, hid, hname, harguments]
      rfl
    | _ => cases htype

/-- A piece that the machine takes for one of the last tool call. -/
theorem Agrees.toolCall_same (h : Agrees p s c)
    (hp : Contiguous (p ++ [.toolCall index id name arguments]))
    (hsame : cutIndex index = s.currentOaiToolIndex) :
    Agrees (p ++ [.toolCall index id name arguments])
      (say (.toolCall index id name arguments) s).2
      (told (say (.toolCall index id name arguments)) s c) := by
  obtain ⟨hp', hd⟩ := forPrefixes_concat.mp hp
  obtain ⟨htold, hstate⟩ := say_toolCall_same id name arguments c hsame
  rw [htold, hstate]
  refine ⟨h.notStopped, h.fresh, opened_addArguments arguments h.opened, ?_, fun hdist => ?_,
    fun hdist => ?_⟩
  · rw [lastIndex_concat]
    exact hsame.symm
  · -- So it is: another one would have another index.
    have hgoesOn : endsWith p index := by
      refine (hd index rfl).resolve_right fun hnew => ?_
      exact (forPrefixes_concat.mp hdist).2 index rfl hnew (hsame.trans h.remembered)
    exact (h.same hdist.left).goesOn h.opened hp' hgoesOn
  · -- If it was another one, a tool use is missing.
    rw [length_tools_addArguments, fold_toolCall]
    by_cases hdist' : Distinguished p
    · have hnew : ∀ d' ∈ p, d'.tool ≠ some index := by
        by_contra hn
        refine hdist (forPrefixes_concat.mpr ⟨hdist', fun i hi hall => ?_⟩)
        obtain rfl := Option.some.inj hi
        exact absurd hall hn
      rw [(h.same hdist').tools, List.length_map, addToolPiece_new (toolCalls_new hnew),
        List.length_append]
      exact Nat.lt_succ_self _
    · exact (h.fewer hdist').trans_le (length_le_addToolPiece _ _ _ _ _)

/-- A piece for which the machine starts a block. -/
theorem Agrees.toolCall_other (h : Agrees p s c) (hs : s.started)
    (hp : Contiguous (p ++ [.toolCall index id name arguments]))
    (hother : cutIndex index ≠ s.currentOaiToolIndex) :
    Agrees (p ++ [.toolCall index id name arguments])
      (say (.toolCall index id name arguments) s).2
      (told (say (.toolCall index id name arguments)) s c) := by
  obtain ⟨hblocks, hframe, hremembered, hindex, htype⟩ := told_addToolCall_other
    ⟨cutIndex index, id.getD "", name.getD "", arguments⟩ hother c
  have hnew : ∀ call ∈ (OpenaiMessage.fold p).toolCalls, call.index ≠ index := by
    refine toolCalls_new (((forPrefixes_concat.mp hp).2 index rfl).resolve_left fun hgoesOn => ?_)
    exact hother ((lastIndex_of_endsWith hgoesOn).symm.trans h.remembered.symm)
  have htools : (told (say (.toolCall index id name arguments)) s c).tools =
      c.tools ++ [⟨id.getD "", name.getD "", arguments⟩] := by
    rw [ClaudeMessage.tools, say, hblocks, toolUses]
    rfl
  refine ⟨hframe.messageStopped.trans h.notStopped, fun hn => ?_, fun t ht => ?_, ?_,
    fun hdist => ?_, fun hdist => ?_⟩
  · exact absurd ((hframe.started.trans hs).symm.trans hn) Bool.true_eq_false.mp
  · exact ⟨_, _, hblocks, hindex.symm, Option.some.inj (htype.symm.trans ht)⟩
  · rw [lastIndex_concat]
    exact hremembered
  · have hok := h.same hdist.left
    refine ⟨?_, ?_, ?_, fun _ _ => htype⟩
    · rw [fold_toolCall, ← hok.text, ClaudeMessage.text, say, hblocks, contentOf]
      exact String.append_empty
    · rw [fold_toolCall, ← hok.thinking, ClaudeMessage.thinking, say, hblocks, contentOf]
      exact String.append_empty
    · rw [htools, hok.tools, fold_toolCall, addToolPiece_new hnew, List.map_append]
      rfl
  · have hdist' : ¬Distinguished p := by
      refine fun hn => hdist (forPrefixes_concat.mpr ⟨hn, fun i hi _ => ?_⟩)
      obtain rfl := Option.some.inj hi
      exact fun heq => hother (heq.trans h.remembered.symm)
    rw [htools, fold_toolCall, addToolPiece_new hnew, List.length_append, List.length_append]
    exact Nat.succ_lt_succ (h.fewer hdist')

/-- A piece of a tool call keeps both sides together. -/
theorem Agrees.toolCall (h : Agrees p s c) (hs : s.started)
    (hp : Contiguous (p ++ [.toolCall index id name arguments])) :
    Agrees (p ++ [.toolCall index id name arguments])
      (say (.toolCall index id name arguments) s).2
      (told (say (.toolCall index id name arguments)) s c) := by
  by_cases hsame : cutIndex index = s.currentOaiToolIndex
  · exact h.toolCall_same hp hsame
  · exact h.toolCall_other hs hp hsame

end ToolCall

/-- Once started, a message stays so. -/
theorem started_say (d : OpenaiDelta) {s : OpenaiToClaudeStreamState} (h : s.started) :
    (say d s).2.started := by
  cases d with
  | content text => exact started_act h (.text text)
  | reasoning text => exact started_act h (.reasoning text)
  | toolCall index id name arguments => exact started_act h (.toolCall _)
  | _ => exact h

/-- A piece of the answer keeps both sides together. -/
theorem Agrees.say {p : List OpenaiDelta} {s : OpenaiToClaudeStreamState} {c : ClaudeMessage}
    (h : Agrees p s c) (hs : s.started) {d : OpenaiDelta} (hp : Contiguous (p ++ [d])) :
    Agrees (p ++ [d]) (say d s).2 (told (say d) s c) := by
  cases d with
  | content text =>
    exact h.written hs (written_addText text h.opened) rfl rfl String.append_empty.symm rfl
  | reasoning text =>
    exact h.written hs (written_addReasoning text h.opened) rfl String.append_empty.symm rfl rfl
  | toolCall index id name arguments => exact h.toolCall hs hp
  | _ =>
    exact h.written hs (Written.refl .text h.opened) rfl String.append_empty.symm
      String.append_empty.symm rfl

/-- So do pieces one after another. -/
theorem Agrees.forEach_say {p : List OpenaiDelta} {s : OpenaiToClaudeStreamState}
    {c : ClaudeMessage} (h : Agrees p s c) (hs : s.started) {ds : List OpenaiDelta}
    (hp : Contiguous (p ++ ds)) :
    Agrees (p ++ ds) (Emitter.forEach Chennix.say ds s).2
        (told (Emitter.forEach Chennix.say ds) s c) ∧
      (Emitter.forEach Chennix.say ds s).2.started := by
  induction ds generalizing p s c with
  | nil =>
    rw [List.append_nil]
    exact ⟨h, hs⟩
  | cons d ds ih =>
    rw [List.append_cons] at hp ⊢
    rw [Emitter.forEach_cons, told_andThen]
    exact ih (h.say hs hp.left) (started_say d hs) hp

/-! ### Chunks -/

/-- What the two sides have in common is read off a few fields. -/
theorem Agrees.congr {p : List OpenaiDelta} {s s' : OpenaiToClaudeStreamState} {c : ClaudeMessage}
    (h : Agrees p s c) (hstopped : s'.messageStopped = s.messageStopped)
    (hstarted : s'.started = false → s.started = false)
    (htype : s'.currentBlockType = s.currentBlockType)
    (hindex : s.currentBlockType ≠ none → s'.contentBlockIndex = s.contentBlockIndex)
    (hremembered : s'.currentOaiToolIndex = s.currentOaiToolIndex) : Agrees p s' c where
  notStopped := hstopped.trans h.notStopped
  fresh := fun hn => htype.trans (h.fresh (hstarted hn))
  opened := by
    intro type ht
    have hopen : s.currentBlockType = some type := htype.symm.trans ht
    have hne : s.currentBlockType ≠ none := by
      rw [hopen]
      exact Option.some_ne_none type
    rw [hindex hne]
    exact h.opened type hopen
  remembered := hremembered.trans h.remembered
  same := fun hdist =>
    have hsame := h.same hdist
    ⟨hsame.text, hsame.thinking, hsame.tools, fun i hi => htype.trans (hsame.toolOpen i hi)⟩
  fewer := h.fewer

/-- What is noted of a chunk before its content. -/
def note (v : Json) : Step :=
  (noteHeader (v.getStr "id") (v.getStr "model")).andThen
    (Emitter.forEach noteUsage (reportedUsage v).toList)

theorem told_note (v : Json) (s : OpenaiToClaudeStreamState) (c : ClaudeMessage) :
    told (note v) s c = c := by
  have hheader : told (noteHeader (v.getStr "id") (v.getStr "model")) s c = c := by
    rw [told, noteHeader]
    split <;> rfl
  rw [note, told_andThen, hheader]
  cases reportedUsage v <;> rfl

/-- What is noted leaves the rest alone. -/
structure Noted (s s' : OpenaiToClaudeStreamState) : Prop where
  started : s'.started = s.started
  messageStopped : s'.messageStopped = s.messageStopped
  currentBlockType : s'.currentBlockType = s.currentBlockType
  contentBlockIndex : s'.contentBlockIndex = s.contentBlockIndex
  currentOaiToolIndex : s'.currentOaiToolIndex = s.currentOaiToolIndex
  finished : s'.finished = s.finished
  deferredStopReason : s'.deferredStopReason = s.deferredStopReason

theorem noted_note (v : Json) (s : OpenaiToClaudeStreamState) : Noted s (note v s).2 := by
  have hheader : Noted s (noteHeader (v.getStr "id") (v.getStr "model") s).2 := by
    rw [noteHeader]
    split <;> exact ⟨rfl, rfl, rfl, rfl, rfl, rfl, rfl⟩
  show Noted s (Emitter.forEach noteUsage (reportedUsage v).toList _).2
  cases reportedUsage v with
  | none => exact hheader
  | some usage =>
    exact ⟨hheader.1, hheader.2, hheader.3, hheader.4, hheader.5, hheader.6, hheader.7⟩

theorem Agrees.note {p : List OpenaiDelta} {s : OpenaiToClaudeStreamState} {c : ClaudeMessage}
    (h : Agrees p s c) (v : Json) : Agrees p (note v s).2 (told (note v) s c) := by
  have hnoted := noted_note v s
  rw [told_note]
  exact h.congr hnoted.messageStopped (fun hn => hnoted.started.symm.trans hn)
    hnoted.currentBlockType (fun _ => hnoted.contentBlockIndex) hnoted.currentOaiToolIndex

theorem Agrees.start {p : List OpenaiDelta} {s : OpenaiToClaudeStreamState} {c : ClaudeMessage}
    (h : Agrees p s c) : Agrees p (startMessage s).2 (told startMessage s c) ∧
      (startMessage s).2.started := by
  rw [told, startMessage]
  split
  · next hs => exact ⟨h, hs⟩
  · next hs =>
    have hnone := h.fresh (Bool.not_eq_true _ ▸ hs)
    exact ⟨h.congr rfl (fun hn => absurd hn Bool.true_eq_false.mp) rfl
      (fun hn => absurd hnone hn) rfl, rfl⟩

/-- The content of a chunk. -/
def content (v : Json) : Step :=
  ((note v).andThen startMessage).andThen (Emitter.forEach say (spoken v))

/-- A chunk keeps both sides together, up to its finish reason. -/
theorem Agrees.content {p : List OpenaiDelta} {s : OpenaiToClaudeStreamState} {c : ClaudeMessage}
    (h : Agrees p s c) (v : Json) (hp : Contiguous (p ++ spoken v)) :
    Agrees (p ++ spoken v) (content v s).2 (told (content v) s c) := by
  have hstart := (h.note v).start
  rw [Chennix.content, told_andThen, told_andThen]
  exact (hstart.1.forEach_say hstart.2 hp).1

theorem processJson_eq_content {v : Json}
    (hsingle : ∃ choice, v.getArray "choices" = some [choice])
    (hindexed : ∀ tc ∈ toolCallsOf v, ∃ index : ℤ, 0 ≤ index ∧ toolIndex tc = some index) :
    processJson v = (content v).andThen
      (Emitter.forEach finish ((choiceOf v).getStr "finish_reason").toList) := by
  rw [processJson_single hsingle hindexed, content, note, Emitter.andThen_assoc,
    Emitter.andThen_assoc, Emitter.andThen_assoc]

/-- Chunks before the finish reason keep both sides together. -/
theorem Agrees.chunks {chunks : List Json}
    (hsingle : ∀ v ∈ chunks, ∃ choice, v.getArray "choices" = some [choice])
    (hindexed : ∀ v ∈ chunks, ∀ tc ∈ toolCallsOf v,
      ∃ index : ℤ, 0 ≤ index ∧ toolIndex tc = some index)
    (hrunning : ∀ v ∈ chunks, (choiceOf v).getStr "finish_reason" = none)
    {p : List OpenaiDelta} {s : OpenaiToClaudeStreamState} {c : ClaudeMessage} (h : Agrees p s c)
    (hp : Contiguous (p ++ chunks.flatMap spoken)) :
    Agrees (p ++ chunks.flatMap spoken) (Emitter.forEach processJson chunks s).2
      (told (Emitter.forEach processJson chunks) s c) := by
  induction chunks generalizing p s c with
  | nil =>
    rw [List.flatMap_nil, List.append_nil]
    exact h
  | cons v chunks ih =>
    have hv : processJson v = Chennix.content v := by
      rw [processJson_eq_content (hsingle v List.mem_cons_self) (hindexed v List.mem_cons_self),
        hrunning v List.mem_cons_self]
      exact Emitter.andThen_skip _
    rw [List.flatMap_cons, ← List.append_assoc] at hp ⊢
    rw [Emitter.forEach_cons, told_andThen, hv]
    exact ih (fun w hw => hsingle w (List.mem_cons_of_mem v hw))
      (fun w hw => hindexed w (List.mem_cons_of_mem v hw))
      (fun w hw => hrunning w (List.mem_cons_of_mem v hw)) (h.content v hp.left) hp

theorem agrees_new : Agrees [] new ClaudeMessage.empty where
  notStopped := rfl
  fresh := fun _ => rfl
  opened := by
    intro type h
    cases h
  remembered := rfl
  same := fun _ => ⟨rfl, rfl, rfl, fun index h => by cases h⟩
  fewer := fun h => absurd forPrefixes_nil h

/-! ### The end -/

/-- The message has finished: its blocks are there, and its stop reason is, or will be once the
message is ended. -/
structure Closing (reason : String) (blocks : List FoldedBlock) (s : OpenaiToClaudeStreamState)
    (c : ClaudeMessage) : Prop where
  blocks : c.blocks = blocks
  stopped : s.messageStopped → c.stopReason = some reason
  pending : s.messageStopped = false → s.finished ∧ s.deferredStopReason = some reason

theorem closing_finish {s : OpenaiToClaudeStreamState} (c : ClaudeMessage)
    (hs : s.messageStopped = false) (finishReason : String) :
    Closing (stopReason finishReason) c.blocks (finish finishReason s).2
      (told (finish finishReason) s c) := by
  have hstopped : (closeCurrentBlock s).2.messageStopped = false :=
    (frame_closeCurrentBlock s).messageStopped.trans hs
  rw [finish, told_andThen, told_andThen, told_closeCurrentBlock]
  show Closing _ _ (stopIfUsage (noteFinish finishReason (closeCurrentBlock s).2).2).2
    (told stopIfUsage (noteFinish finishReason (closeCurrentBlock s).2).2 c)
  rw [told, stopIfUsage]
  split
  · exact ⟨rfl, fun _ => rfl, fun hn => absurd hn Bool.true_eq_false.mp⟩
  · exact ⟨rfl, fun hn => absurd (hstopped.symm.trans hn) Bool.false_eq_true.mp,
      fun _ => ⟨rfl, rfl⟩⟩

theorem Closing.note {reason : String} {blocks : List FoldedBlock} {s : OpenaiToClaudeStreamState}
    {c : ClaudeMessage} (h : Closing reason blocks s c) (v : Json) :
    Closing reason blocks (note v s).2 (told (note v) s c) := by
  have hnoted := noted_note v s
  rw [told_note]
  exact ⟨h.blocks, fun hs => h.stopped (hnoted.messageStopped.symm.trans hs), fun hs => by
    rw [hnoted.finished, hnoted.deferredStopReason]
    exact h.pending (hnoted.messageStopped.symm.trans hs)⟩

theorem Closing.flush {reason : String} {blocks : List FoldedBlock} {s : OpenaiToClaudeStreamState}
    {c : ClaudeMessage} (h : Closing reason blocks s c) :
    Closing reason blocks (flush s).2 (told flush s c) ∧ (flush s).2.messageStopped := by
  cases hs : s.messageStopped with
  | true =>
    have hquiet : OpenaiToClaudeStreamState.flush s = ([], s) := by
      rw [OpenaiToClaudeStreamState.flush, hs]
      exact if_neg (by rw [Bool.not_true, Bool.and_false]; exact Bool.false_ne_true)
    rw [told, hquiet]
    exact ⟨h, hs⟩
  | false =>
    obtain ⟨hfinished, hreason⟩ := h.pending hs
    have hends : OpenaiToClaudeStreamState.flush s =
        ([s.messageDelta, .messageStop], { s with messageStopped := true }) := by
      rw [OpenaiToClaudeStreamState.flush, hs, hfinished]
      rfl
    rw [told, hends]
    refine ⟨⟨h.blocks, fun _ => ?_, fun hn => absurd hn Bool.true_eq_false.mp⟩, rfl⟩
    show some (s.deferredStopReason.getD "end_turn") = _
    rw [hreason]
    rfl

/-- A chunk without a choice, and then the end of the lines. -/
theorem Closing.rest {reason : String} {blocks : List FoldedBlock} {s : OpenaiToClaudeStreamState}
    {c : ClaudeMessage} (h : Closing reason blocks s c) {usageOnly : Option Json}
    (hnone : ∀ v ∈ usageOnly, (v.getArray "choices").getD [] = []) {f : Step}
    (hf : f = (Emitter.forEach processJson usageOnly.toList).andThen
      OpenaiToClaudeStreamState.flush) :
    (told f s c).blocks = blocks ∧ (told f s c).stopReason = some reason := by
  have hrest : Closing reason blocks (Emitter.forEach processJson usageOnly.toList s).2
      (told (Emitter.forEach processJson usageOnly.toList) s c) := by
    cases usageOnly with
    | none => exact h
    | some v =>
      have hquiet : processJson v = (Chennix.note v).andThen OpenaiToClaudeStreamState.flush := by
        have hv := hnone v rfl
        rw [processJson, Chennix.note, Emitter.andThen_assoc]
        congr 2
        cases hc : v.getArray "choices" with
        | none => rfl
        | some choices =>
          rw [hc, Option.getD_some] at hv
          rw [hv]
      rw [Option.toList_some, Emitter.forEach_singleton, hquiet, told_andThen]
      exact (h.note v).flush.1
  subst hf
  rw [told_andThen]
  have hends := hrest.flush
  exact ⟨hends.1.blocks, hends.1.stopped hends.2⟩

namespace OpenaiStream

variable (st : OpenaiStream)

/-- The message after all lines. -/
def claude : ClaudeMessage := .fold (Emitter.forEach processLine st.lines new).1

/-- The message is the one that the content makes up, with the stop reason. -/
theorem exists_agrees : ∃ s c, Agrees st.deltas s c ∧ st.claude.blocks = c.blocks ∧
    st.claude.stopReason = some (stopReason st.finishReason) := by
  have hsplit : st.deltas = st.chunks.flatMap spoken ++ spoken st.last := by
    rw [deltas, List.flatMap_append, List.flatMap_singleton]
  have hcontiguous : Contiguous (([] ++ st.chunks.flatMap spoken) ++ spoken st.last) := by
    rw [List.nil_append, ← hsplit]
    exact st.contiguous
  have hbefore := agrees_new.chunks (fun v hv => st.single v (List.mem_append_left _ hv))
    (fun v hv => st.indexed v (List.mem_append_left _ hv)) st.running hcontiguous.left
  have hagrees := hbefore.content st.last hcontiguous
  rw [List.nil_append, ← hsplit] at hagrees
  have hlast : processJson st.last = (content st.last).andThen (finish st.finishReason) := by
    rw [processJson_eq_content (st.single _ (List.mem_append_right _ List.mem_cons_self))
      (st.indexed _ (List.mem_append_right _ List.mem_cons_self)), st.finished, Option.toList_some,
      Emitter.forEach_singleton]
  have hlines : Emitter.forEach processLine st.lines =
      (Emitter.forEach processJson st.chunks).andThen (((content st.last).andThen
        (finish st.finishReason)).andThen ((Emitter.forEach processJson st.usageOnly.toList).andThen
          OpenaiToClaudeStreamState.flush)) := by
    rw [lines, Emitter.forEach_append, Emitter.forEach_append, Emitter.forEach_map,
      Emitter.forEach_map, Emitter.forEach_singleton, Emitter.andThen_assoc,
      ← hlast]
    show (Emitter.forEach processJson _).andThen _ = _
    rw [Emitter.forEach_append, Emitter.forEach_singleton, Emitter.andThen_assoc]
    rfl
  have hclaude : st.claude = told (Emitter.forEach processLine st.lines) new .empty := rfl
  refine ⟨_, _, hagrees, ?_⟩
  rw [hclaude, hlines, told_andThen, told_andThen, told_andThen (content st.last)]
  exact (closing_finish _ hagrees.notStopped st.finishReason).rest st.noChoice rfl

/-- **A stream keeps its content just where its tool calls are told apart.** -/
theorem preserved_iff : Preserved st.message st.claude ↔ st.Distinguished := by
  obtain ⟨s, c, hagrees, hblocks, hreason⟩ := st.exists_agrees
  have hmessage : st.message = (OpenaiMessage.fold st.deltas).add (.finish st.finishReason) :=
    OpenaiMessage.fold_concat _ _
  have htools : st.claude.tools = c.tools := congrArg toolUses hblocks
  constructor
  · intro h
    by_contra hdist
    have hlength := hagrees.fewer hdist
    rw [← htools, h.tools, List.length_map, hmessage] at hlength
    exact absurd hlength (lt_irrefl _)
  · intro hdist
    have hsame := hagrees.same hdist
    rw [hmessage]
    refine ⟨?_, ?_, htools.trans hsame.tools, hreason⟩
    · exact (congrArg (contentOf .text) hblocks).trans hsame.text
    · exact (congrArg (contentOf .thinking) hblocks).trans hsame.thinking

/-- One tool call, with an index that is −1 when cut down to 32 bits. -/
def outsized : OpenaiStream where
  chunks := [ofMembers [("choices", .array [ofMembers [("delta", ofMembers [("tool_calls",
    .array [ofMembers [("index", ofU64 4294967295), ("id", .string "call_1"),
      ("function", ofMembers [("name", .string "f"), ("arguments", .string "\x7b\x7d")])]])])]])]]
  last := ofMembers [("choices", .array [ofMembers [("finish_reason", .string "tool_calls")]])]
  finishReason := "tool_calls"
  usageOnly := none
  single := by
    intro v hv
    rcases List.mem_pair.mp hv with rfl | rfl <;> exact ⟨_, rfl⟩
  indexed := by
    intro v hv tc htc
    rcases List.mem_pair.mp hv with rfl | rfl
    · rw [List.mem_singleton.mp htc]
      exact ⟨4294967295, by decide, rfl⟩
    · cases htc
  running := by
    intro v hv
    rw [List.mem_singleton.mp hv]
    rfl
  finished := rfl
  contiguous :=
    forPrefixes_concat (l := []).mpr ⟨forPrefixes_nil, fun _ _ => .inr fun d hd => by cases hd⟩
  noChoice := fun v hv => by cases hv

/-- The tool call is lost. -/
theorem lost_tool : ¬∀ st : OpenaiStream, Preserved st.message st.claude := by
  intro h
  have htools : outsized.claude.tools = [] := by decide
  have hcalls : outsized.message.toolCalls.length = 1 := by decide
  have := congrArg List.length (h outsized).tools
  rw [htools, List.length_map, hcalls] at this
  cases this

end OpenaiStream

end Chennix
