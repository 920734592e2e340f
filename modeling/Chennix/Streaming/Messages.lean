import Chennix.Translator.OpenaiToClaudeStream
import Mathlib.Data.List.Induction

/-!
# What clients make of a stream

A client puts a message together from the pieces it receives. An OpenAI client joins the contents
and sorts the pieces of tool calls by their index; a Claude client appends each delta to the block
that was started last under its index.

## Main definitions

* `OpenaiDelta`, `OpenaiMessage.fold` — the pieces of an OpenAI answer, and the answer
* `ClaudeMessage.fold` — the message that Claude's events make up

## Main results

* `OpenaiMessage.fold_append`, `ClaudeMessage.fold_append` — pieces one after another
* `addToolPiece_new`, `addToolPiece_last` — a tool call begins, the last one goes on
-/

namespace Chennix

open Foundations

/-! ### OpenAI -/

/-- A piece of an OpenAI answer. -/
inductive OpenaiDelta
  | role (role : String)
  | content (text : String)
  | reasoning (text : String)
  | toolCall (index : ℤ) (id name : Option String) (arguments : String)
  | finish (reason : String)
  | usage (usage : Usage)
  deriving DecidableEq, Repr

structure ToolCall where
  index : ℤ
  id : String
  name : String
  arguments : String
  deriving DecidableEq, Repr

/-- The pieces of the arguments come one after another. -/
def ToolCall.extend (c : ToolCall) (arguments : String) : ToolCall :=
  { c with arguments := c.arguments ++ arguments }

structure OpenaiMessage where
  content : String
  reasoning : String
  /-- The tool calls, by first appearance. -/
  toolCalls : List ToolCall
  finishReason : Option String
  usage : Option Usage
  deriving DecidableEq, Repr

/-- A piece of a tool call: of one that is there, or of a new one with its id and its name. -/
def addToolPiece (calls : List ToolCall) (index : ℤ) (id name : Option String)
    (arguments : String) : List ToolCall :=
  if calls.any (·.index == index) then
    calls.map fun c => if c.index = index then c.extend arguments else c
  else calls ++ [⟨index, id.getD "", name.getD "", arguments⟩]

namespace OpenaiMessage

def empty : OpenaiMessage := ⟨"", "", [], none, none⟩

def add (m : OpenaiMessage) : OpenaiDelta → OpenaiMessage
  | .role _ => m
  | .content text => { m with content := m.content ++ text }
  | .reasoning text => { m with reasoning := m.reasoning ++ text }
  | .toolCall index id name arguments =>
    { m with toolCalls := addToolPiece m.toolCalls index id name arguments }
  | .finish reason => { m with finishReason := some reason }
  | .usage usage => { m with usage := some usage }

def fold (deltas : List OpenaiDelta) : OpenaiMessage := deltas.foldl add empty

theorem fold_append (ds ds' : List OpenaiDelta) : fold (ds ++ ds') = ds'.foldl add (fold ds) :=
  List.foldl_append

theorem fold_concat (ds : List OpenaiDelta) (d : OpenaiDelta) :
    fold (ds ++ [d]) = (fold ds).add d :=
  fold_append ds [d]

end OpenaiMessage

/-- A tool call that is not there yet. -/
theorem addToolPiece_new {calls : List ToolCall} {index : ℤ} (h : ∀ c ∈ calls, c.index ≠ index)
    (id name : Option String) (arguments : String) :
    addToolPiece calls index id name arguments =
      calls ++ [⟨index, id.getD "", name.getD "", arguments⟩] := by
  have hnone : ¬calls.any (·.index == index) := by
    rw [List.any_eq_true]
    rintro ⟨c, hc, heq⟩
    exact h c hc (beq_iff_eq.mp heq)
  rw [addToolPiece, if_neg hnone]

/-- The last tool call goes on. -/
theorem addToolPiece_last {calls : List ToolCall} {c : ToolCall} {index : ℤ} (hc : c.index = index)
    (h : ∀ c' ∈ calls, c'.index ≠ index) (id name : Option String) (arguments : String) :
    addToolPiece (calls ++ [c]) index id name arguments = calls ++ [c.extend arguments] := by
  have hthere : (calls ++ [c]).any (·.index == index) := by
    rw [List.any_append, List.any_cons, hc, beq_self_eq_true, Bool.true_or, Bool.or_true]
  rw [addToolPiece, if_pos hthere, List.map_append, List.map_singleton, if_pos hc]
  congr 1
  conv_rhs => rw [← List.map_id calls]
  exact List.map_congr_left fun c' hc' => if_neg (h c' hc')

/-- The tool call that a piece belongs to. -/
def OpenaiDelta.tool : OpenaiDelta → Option ℤ
  | .toolCall index _ _ _ => some index
  | _ => none

/-- The indices of the tool calls are those of the pieces. -/
theorem mem_toolCalls (p : List OpenaiDelta) (index : ℤ) :
    (∃ c ∈ (OpenaiMessage.fold p).toolCalls, c.index = index) ↔ ∃ d ∈ p, d.tool = some index := by
  induction p using List.reverseRecOn with
  | nil => exact iff_of_false (fun ⟨_, h, _⟩ => by cases h) fun ⟨_, h, _⟩ => by cases h
  | append_singleton p d ih =>
    have hsplit : (∃ d' ∈ p ++ [d], d'.tool = some index) ↔
        (∃ d' ∈ p, d'.tool = some index) ∨ d.tool = some index := by
      simp [or_and_right, exists_or]
    rw [OpenaiMessage.fold_concat, hsplit, ← ih]
    cases d with
    | toolCall i id name arguments =>
      show (∃ c ∈ addToolPiece (OpenaiMessage.fold p).toolCalls i id name arguments,
          c.index = index) ↔
        _ ∨ some i = some index
      rw [Option.some.injEq, addToolPiece]
      split
      · next hany =>
        obtain ⟨c₀, hc₀, hi⟩ := List.any_eq_true.mp hany
        constructor
        · rintro ⟨c, hc, rfl⟩
          obtain ⟨c', hc', rfl⟩ := List.mem_map.mp hc
          refine .inl ⟨c', hc', ?_⟩
          split <;> rfl
        · rintro (⟨c, hc, rfl⟩ | rfl)
          · refine ⟨_, List.mem_map_of_mem hc, ?_⟩
            split <;> rfl
          · refine ⟨_, List.mem_map_of_mem hc₀, ?_⟩
            rw [if_pos (beq_iff_eq.mp hi)]
            exact beq_iff_eq.mp hi
      · constructor
        · rintro ⟨c, hc, rfl⟩
          rcases List.mem_append.mp hc with hc | hc
          · exact .inl ⟨c, hc, rfl⟩
          · rw [List.mem_singleton.mp hc]
            exact .inr rfl
        · rintro (⟨c, hc, rfl⟩ | rfl)
          · exact ⟨c, List.mem_append_left _ hc, rfl⟩
          · exact ⟨_, List.mem_append_right _ List.mem_cons_self, rfl⟩
    | _ => exact (or_iff_left (by simp [OpenaiDelta.tool])).symm

/-! ### Claude -/

/-- A content block with the content received so far. -/
structure FoldedBlock where
  index : Int32
  block : ContentBlock
  content : String
  deriving DecidableEq, Repr

/-- A tool's use: its input is JSON text. -/
structure ToolUse where
  id : String
  name : String
  inputJson : String
  deriving DecidableEq, Repr

structure ClaudeMessage where
  /-- The blocks, the last one first. -/
  blocks : List FoldedBlock
  stopReason : Option String
  deriving DecidableEq, Repr

def BlockDelta.content : BlockDelta → String
  | .text s => s
  | .thinking s => s
  | .inputJson s => s

/-- A delta goes to the last block with its index, if that is of its type. -/
def appendDelta (index : Int32) (delta : BlockDelta) : List FoldedBlock → List FoldedBlock
  | [] => []
  | b :: bs =>
    if b.index = index then
      (if b.block.type = delta.type then { b with content := b.content ++ delta.content } else b) ::
        bs
    else b :: appendDelta index delta bs

/-- The contents of the blocks of a type, joined. -/
def contentOf (type : BlockType) : List FoldedBlock → String
  | [] => ""
  | b :: bs => contentOf type bs ++ if b.block.type = type then b.content else ""

/-- The tools used, in the order of their blocks. -/
def toolUses : List FoldedBlock → List ToolUse
  | [] => []
  | b :: bs => toolUses bs ++
    match b.block with
    | .toolUse id name => [⟨id, name, b.content⟩]
    | _ => []

namespace ClaudeMessage

def empty : ClaudeMessage := ⟨[], none⟩

def add (m : ClaudeMessage) : ClaudeEvent → ClaudeMessage
  | .contentBlockStart index block => { m with blocks := ⟨index, block, ""⟩ :: m.blocks }
  | .contentBlockDelta index delta => { m with blocks := appendDelta index delta m.blocks }
  | .messageDelta stopReason _ => { m with stopReason := some stopReason }
  | _ => m

def fold (events : List ClaudeEvent) : ClaudeMessage := events.foldl add empty

theorem fold_append (es es' : List ClaudeEvent) : fold (es ++ es') = es'.foldl add (fold es) :=
  List.foldl_append

def text (m : ClaudeMessage) : String := contentOf .text m.blocks

def thinking (m : ClaudeMessage) : String := contentOf .thinking m.blocks

def tools (m : ClaudeMessage) : List ToolUse := toolUses m.blocks

end ClaudeMessage

end Chennix
