import Chennix.Streaming.Bracketing

/-!
# The end of converted streams

A Claude message ends with a `message_delta` and a `message_stop`. The machine writes both together,
in three places: when a finish reason comes and the usage is known, when a chunk without choices
comes after the finish reason, and at `[DONE]`. The last two see to it that the end is written once.
The first does not, and nothing keeps content from being written after the end; at `[DONE]` there is
no end for a message whose finish reason never came, and what was opened after it stays open.

## Main definitions

* `EndsOnce`, `CompleteMessage` — one end with nothing behind it, every block stopped before it
* `OpenaiToClaudeStreamState.Quiet` — an action that has nothing to write

## Main results

* `OpenaiToClaudeStreamState.terminates_iff` — a stream terminates well just where nothing comes
  after the end, and at `[DONE]` the message has finished with no block open
* `OpenaiToClaudeStreamState.finished_twice` — a stream with two ends
-/

namespace Chennix

open Foundations

/-! ### What a stream should end with -/

/-- The events a message ends with. -/
def ClaudeEvent.isEnd : ClaudeEvent → Bool
  | .messageDelta _ _ => true
  | .messageStop => true
  | _ => false

def ClaudeEvent.isMessageDelta : ClaudeEvent → Bool
  | .messageDelta _ _ => true
  | _ => false

/-- The indices of blocks started and not stopped, after an event. -/
def openAfter (opened : List Int32) : ClaudeEvent → List Int32
  | .contentBlockStart index _ => index :: opened
  | .contentBlockStop index => opened.erase index
  | _ => opened

/-- The indices of the blocks that were started and not stopped. -/
def openBlocks (events : List ClaudeEvent) : List Int32 := events.foldl openAfter []

/-- At most one end, and nothing behind it. -/
structure EndsOnce (events : List ClaudeEvent) : Prop where
  deltas : events.countP ClaudeEvent.isMessageDelta ≤ 1
  stops : events.count .messageStop ≤ 1
  last : ∀ pre post, events = pre ++ .messageStop :: post → post = []

/-- One end, at the end, and every block stopped before it. -/
def CompleteMessage (events : List ClaudeEvent) : Prop :=
  ∃ body stopReason outputTokens,
    events = body ++ [.messageDelta stopReason outputTokens, .messageStop] ∧
      (∀ e ∈ body, e.isEnd = false) ∧ openBlocks body = []

/-- The stream ends at most once; after `[DONE]` a message that was started is complete. -/
structure Terminates (lines : List OpenaiToClaudeStreamState.DataLine)
    (events : List ClaudeEvent) : Prop where
  once : EndsOnce events
  complete : ∀ ls, lines = ls ++ [.done] → (∃ id model, .messageStart id model ∈ events) →
    CompleteMessage events

theorem openBlocks_append (out out' : List ClaudeEvent) :
    openBlocks (out ++ out') = out'.foldl openAfter (openBlocks out) := List.foldl_append

theorem countP_isMessageDelta_of_no_end {out : List ClaudeEvent}
    (hout : ∀ e ∈ out, e.isEnd = false) : out.countP ClaudeEvent.isMessageDelta = 0 := by
  rw [List.countP_eq_zero]
  intro e he hdelta
  have hend := hout e he
  cases e with
  | messageDelta => cases hend
  | _ => cases hdelta

theorem messageStop_not_mem {out : List ClaudeEvent} (hout : ∀ e ∈ out, e.isEnd = false) :
    ClaudeEvent.messageStop ∉ out := fun h => by cases hout _ h

/-- One end at most, when it stands at the end. -/
theorem endsOnce_of_body {body : List ClaudeEvent} (hbody : ∀ e ∈ body, e.isEnd = false)
    (stopReason : String) (outputTokens : UInt64) :
    EndsOnce (body ++ [.messageDelta stopReason outputTokens, .messageStop]) := by
  have hstop := messageStop_not_mem hbody
  refine ⟨?_, ?_, ?_⟩
  · rw [List.countP_append, countP_isMessageDelta_of_no_end hbody]
    exact Nat.le_refl _
  · rw [List.count_append, List.count_eq_zero.mpr hstop]
    exact Nat.le_refl _
  · intro pre post h
    rcases List.append_eq_append_iff.mp h with ⟨mid, hpre, hmid⟩ | ⟨mid, hbody', _⟩
    · -- The stop is one of the two events at the end, and the first is none.
      cases mid with
      | nil => cases hmid
      | cons e mid =>
        obtain ⟨_, hrest⟩ := List.cons.inj hmid
        cases mid with
        | nil => exact (List.cons.inj hrest).2.symm
        | cons e' mid =>
          have := congrArg List.length (List.cons.inj hrest).2
          simp at this
    · cases mid with
      | nil => cases ‹_ = _›
      | cons e mid =>
        obtain ⟨rfl, _⟩ := List.cons.inj ‹_ = e :: mid ++ _›
        exact absurd (hbody' ▸ List.mem_append_right pre List.mem_cons_self) hstop

/-- No end at all. -/
theorem endsOnce_of_no_end {out : List ClaudeEvent} (hout : ∀ e ∈ out, e.isEnd = false) :
    EndsOnce out := by
  refine ⟨?_, ?_, ?_⟩
  · rw [countP_isMessageDelta_of_no_end hout]
    exact Nat.zero_le _
  · rw [List.count_eq_zero.mpr (messageStop_not_mem hout)]
    exact Nat.zero_le _
  · rintro pre post rfl
    exact absurd (List.mem_append_right pre List.mem_cons_self) (messageStop_not_mem hout)

namespace OpenaiToClaudeStreamState

/-- The action has nothing to write: no content, no end. -/
def Quiet (s : OpenaiToClaudeStreamState) : Action → Prop
  | .reasoning text => text = ""
  | .text text => text = ""
  | .toolCall tc => tc.index = s.currentOaiToolIndex ∧ tc.arguments = ""
  | .finish _ => s.currentBlockType = none ∧ s.deferredUsage = none
  | _ => True

/-- Nothing is written after the end. -/
def QuietAtEnd (s : OpenaiToClaudeStreamState) (a : Action) : Prop :=
  s.messageStopped → s.Quiet a

/-- The index of the block that is open. -/
def openIndices (s : OpenaiToClaudeStreamState) : List Int32 :=
  if s.currentBlockType.isSome then [s.contentBlockIndex] else []

/-! ### What has been written -/

/-- How the events written so far agree with what the machine remembers. -/
structure Told (out : List ClaudeEvent) (s : OpenaiToClaudeStreamState) : Prop where
  started : s.started ↔ ∃ id model, .messageStart id model ∈ out
  fresh : s.started = false → s.currentBlockType = none
  blocks : openBlocks out = s.openIndices
  running : s.messageStopped = false → ∀ e ∈ out, e.isEnd = false
  ended : s.messageStopped → s.started ∧ s.finished ∧ ∃ body stopReason outputTokens,
    out = body ++ [.messageDelta stopReason outputTokens, .messageStop] ∧
      ∀ e ∈ body, e.isEnd = false

/-- A message that has started and not ended yet. -/
structure Running (out : List ClaudeEvent) (s : OpenaiToClaudeStreamState) : Prop where
  told : Told out s
  started : s.started
  notStopped : s.messageStopped = false

/-- The step goes on with the message. -/
def Continues (f : Step) : Prop :=
  ∀ out s, Running out s → Running (out ++ (f s).1) (f s).2

theorem Continues.andThen {f g : Step} (hf : Continues f) (hg : Continues g) :
    Continues (f.andThen g) := by
  intro out s h
  have h₂ := hg _ _ (hf out s h)
  rwa [List.append_assoc] at h₂

theorem continues_skip : Continues Emitter.skip := by
  intro out s h
  show Running (out ++ []) s
  rwa [List.append_nil]

theorem Continues.ite {p : OpenaiToClaudeStreamState → Prop} [DecidablePred p] {f g : Step}
    (hf : Continues f) (hg : Continues g) : Continues fun s => if p s then f s else g s := by
  intro out s h
  by_cases hp : p s
  · simp only [if_pos hp]
    exact hf out s h
  · simp only [if_neg hp]
    exact hg out s h

/-- A step that writes nothing and leaves alone what the events tell. -/
theorem Told.congr {out : List ClaudeEvent} {s s' : OpenaiToClaudeStreamState} (h : Told out s)
    (hstarted : s'.started = s.started) (htype : s'.currentBlockType = s.currentBlockType)
    (hindex : s'.contentBlockIndex = s.contentBlockIndex)
    (hstopped : s'.messageStopped = s.messageStopped) (hfinished : s.finished → s'.finished) :
    Told out s' where
  started := by rw [hstarted, h.started]
  fresh := by
    rw [hstarted, htype]
    exact h.fresh
  blocks := by rw [h.blocks, openIndices, openIndices, htype, hindex]
  running := by
    rw [hstopped]
    exact h.running
  ended := by
    rw [hstopped, hstarted]
    intro hs
    obtain ⟨h₁, h₂, hbody⟩ := h.ended hs
    exact ⟨h₁, hfinished h₂, hbody⟩

/-- The message goes on with an event that does not end it. -/
theorem Running.write {out : List ClaudeEvent} {s s' : OpenaiToClaudeStreamState}
    {e : ClaudeEvent} (h : Running out s) (hend : e.isEnd = false)
    (hstarted : s'.started = s.started)
    (hstopped : s'.messageStopped = s.messageStopped)
    (hblocks : openAfter s.openIndices e = s'.openIndices) : Running (out ++ [e]) s' where
  told :=
    { started := by
        refine iff_of_true (hstarted.trans h.started) ?_
        obtain ⟨id, model, hmem⟩ := h.told.started.mp h.started
        exact ⟨id, model, List.mem_append_left _ hmem⟩
      fresh := fun hn => absurd (hn.symm.trans (hstarted.trans h.started)) Bool.false_ne_true
      blocks := by
        rw [openBlocks_append, h.told.blocks, ← hblocks]
        rfl
      running := by
        intro _ e' he'
        rcases List.mem_append.mp he' with he' | he'
        · exact h.told.running h.notStopped e' he'
        · rw [List.mem_singleton.mp he', hend]
      ended := fun hn => absurd ((hstopped.trans h.notStopped).symm.trans hn) Bool.false_ne_true }
  started := hstarted.trans h.started
  notStopped := hstopped.trans h.notStopped

/-- The message goes on with nothing. -/
theorem Running.note {out : List ClaudeEvent} {s s' : OpenaiToClaudeStreamState}
    (h : Running out s) (hstarted : s'.started = s.started)
    (htype : s'.currentBlockType = s.currentBlockType)
    (hindex : s'.contentBlockIndex = s.contentBlockIndex)
    (hstopped : s'.messageStopped = s.messageStopped) (hfinished : s.finished → s'.finished) :
    Running (out ++ []) s' := by
  rw [List.append_nil]
  exact ⟨h.told.congr hstarted htype hindex hstopped hfinished, hstarted.trans h.started,
    hstopped.trans h.notStopped⟩

theorem continues_closeCurrentBlock : Continues closeCurrentBlock := by
  intro out s h
  rw [closeCurrentBlock]
  split
  · next hopen =>
    refine h.write rfl rfl rfl ?_
    rw [openIndices, if_pos hopen]
    show [s.contentBlockIndex].erase s.contentBlockIndex = []
    rw [List.erase_cons_head]
  · exact continues_skip out s h

/-- A block starts after the one that was open is closed. -/
theorem continues_reopen (block : ContentBlock) :
    Continues (closeCurrentBlock.andThen (openBlock block)) := by
  intro out s h
  have h₁ := continues_closeCurrentBlock out s h
  have h₂ :
      Running ((out ++ (closeCurrentBlock s).1) ++ (openBlock block (closeCurrentBlock s).2).1)
      (openBlock block (closeCurrentBlock s).2).2 := by
    refine h₁.write rfl rfl rfl ?_
    rw [openIndices, currentBlockType_closeCurrentBlock]
    rfl
  rwa [List.append_assoc] at h₂

theorem continues_ensureBlock (block : ContentBlock) : Continues (ensureBlock block) :=
  continues_skip.ite (p := fun s => s.currentBlockType = some block.type) (continues_reopen block)

theorem continues_emitDelta (delta : BlockDelta) : Continues (emitDelta delta) :=
  fun _ _ h => h.write rfl rfl rfl rfl

theorem continues_addReasoning (text : String) : Continues (addReasoning text) := by
  rw [addReasoning]
  split
  · exact continues_skip
  · exact (continues_ensureBlock _).andThen (continues_emitDelta _)

theorem continues_addText (text : String) : Continues (addText text) := by
  rw [addText]
  split
  · exact continues_skip
  · exact (continues_ensureBlock _).andThen (continues_emitDelta _)

theorem continues_addToolCall (tc : ToolFragment) : Continues (addToolCall tc) := by
  have hnote : Continues (noteTool tc) := fun _ _ h => h.note rfl rfl rfl rfl id
  have htool : Continues (ensureTool tc) := by
    refine continues_skip.ite (p := fun s => tc.index = s.currentOaiToolIndex) ?_
    rw [← Emitter.andThen_assoc]
    exact (continues_reopen _).andThen hnote
  refine htool.andThen ?_
  split
  · exact continues_skip
  · exact continues_emitDelta _

/-- The end is written. -/
theorem Running.stop {out : List ClaudeEvent} {s : OpenaiToClaudeStreamState} (h : Running out s)
    (hfinished : s.finished) :
    Told (out ++ [s.messageDelta, .messageStop]) { s with messageStopped := true } where
  started := by
    refine iff_of_true h.started ?_
    obtain ⟨id, model, hmem⟩ := h.told.started.mp h.started
    exact ⟨id, model, List.mem_append_left _ hmem⟩
  fresh := h.told.fresh
  blocks := by
    rw [openBlocks_append, h.told.blocks]
    rfl
  running := fun hn => by cases hn
  ended := fun _ => ⟨h.started, hfinished, out, _, _, rfl, h.told.running h.notStopped⟩

/-! ### After the end -/

theorem addDelta_ne_nil (block : ContentBlock) (delta : BlockDelta)
    (s : OpenaiToClaudeStreamState) : ((ensureBlock block).andThen (emitDelta delta) s).1 ≠ [] :=
  List.append_ne_nil_of_right_ne_nil _ (List.cons_ne_nil _ _)

theorem ensureTool_ne_nil {tc : ToolFragment} {s : OpenaiToClaudeStreamState}
    (h : tc.index ≠ s.currentOaiToolIndex) : (ensureTool tc s).1 ≠ [] := by
  rw [ensureTool, if_neg h]
  exact List.append_ne_nil_of_right_ne_nil _ (List.cons_ne_nil _ _)

@[simp] theorem deferredUsage_closeCurrentBlock (s : OpenaiToClaudeStreamState) :
    (closeCurrentBlock s).2.deferredUsage = s.deferredUsage := by
  rw [closeCurrentBlock]
  split <;> rfl

/-- A finish reason writes something if a block is open or the usage is known. -/
theorem finish_ne_nil {reason : String} {s : OpenaiToClaudeStreamState}
    (h : ¬(s.currentBlockType = none ∧ s.deferredUsage = none)) : (finish reason s).1 ≠ [] := by
  rw [not_and_or] at h
  rcases h with htype | husage
  · refine List.append_ne_nil_of_left_ne_nil ?_ _
    rw [closeCurrentBlock, if_pos (Option.isSome_iff_ne_none.mpr htype)]
    exact List.cons_ne_nil _ _
  · refine List.append_ne_nil_of_right_ne_nil _ ?_
    have hsome : (noteFinish reason (closeCurrentBlock s).2).2.deferredUsage.isSome := by
      show (closeCurrentBlock s).2.deferredUsage.isSome
      rw [deferredUsage_closeCurrentBlock]
      exact Option.isSome_iff_ne_none.mpr husage
    show (stopIfUsage (noteFinish reason (closeCurrentBlock s).2).2).1 ≠ []
    rw [stopIfUsage, if_pos hsome]
    exact List.cons_ne_nil _ _

/-- After the end, an action that is not quiet writes something. -/
theorem loud_act {s : OpenaiToClaudeStreamState} {a : Action} (h : ¬s.Quiet a) :
    (act a s).1 ≠ [] := by
  cases a with
  | reasoning text =>
    have hne : text ≠ "" := h
    show (addReasoning text s).1 ≠ []
    rw [addReasoning, if_neg hne]
    exact addDelta_ne_nil _ _ s
  | text text =>
    have hne : text ≠ "" := h
    show (addText text s).1 ≠ []
    rw [addText, if_neg hne]
    exact addDelta_ne_nil _ _ s
  | toolCall tc =>
    show (addToolCall tc s).1 ≠ []
    by_cases hindex : tc.index = s.currentOaiToolIndex
    · have harguments : tc.arguments ≠ "" := fun ha => h ⟨hindex, ha⟩
      rw [addToolCall, if_neg harguments]
      exact List.append_ne_nil_of_right_ne_nil _ (List.cons_ne_nil _ _)
    · exact List.append_ne_nil_of_left_ne_nil (ensureTool_ne_nil hindex) _
  | finish reason => exact finish_ne_nil h
  | header id model => exact absurd trivial h
  | usage usage => exact absurd trivial h
  | flush => exact absurd trivial h
  | start => exact absurd trivial h

/-- After the end, a quiet action writes nothing and leaves alone what the events tell. -/
theorem quiet_act {out : List ClaudeEvent} {s : OpenaiToClaudeStreamState} {a : Action}
    (h : Told out s) (hstopped : s.messageStopped) (ha : s.Quiet a) :
    (act a s).1 = [] ∧ Told out (act a s).2 := by
  have hstarted := (h.ended hstopped).1
  have hidle : ∀ {f : Step}, f s = ([], s) → (f s).1 = [] ∧ Told out (f s).2 := by
    intro f hf
    rw [hf]
    exact ⟨rfl, h⟩
  cases a with
  | header id model => exact hidle (if_pos hstarted)
  | usage usage => exact ⟨rfl, h.congr rfl rfl rfl rfl id⟩
  | flush =>
    refine hidle (if_neg ?_)
    rw [hstopped, Bool.not_true, Bool.and_false]
    exact Bool.false_ne_true
  | start => exact hidle (if_pos hstarted)
  | reasoning text =>
    have hempty : text = "" := ha
    refine hidle ?_
    show addReasoning text s = ([], s)
    rw [addReasoning, if_pos hempty]
    rfl
  | text text =>
    have hempty : text = "" := ha
    refine hidle ?_
    show addText text s = ([], s)
    rw [addText, if_pos hempty]
    rfl
  | toolCall tc =>
    refine hidle ?_
    show addToolCall tc s = ([], s)
    rw [addToolCall, if_pos ha.2, Emitter.andThen_skip, ensureTool, if_pos ha.1]
  | finish reason =>
    have hclose : closeCurrentBlock s = ([], s) := by
      rw [closeCurrentBlock, ha.1]
      rfl
    have hfinish : finish reason s = ([], (noteFinish reason s).2) := by
      rw [finish, Emitter.andThen, hclose, Emitter.andThen]
      show ([] ++ ([] ++ (stopIfUsage (noteFinish reason s).2).1),
        (stopIfUsage (noteFinish reason s).2).2) = _
      have husage : ¬(noteFinish reason s).2.deferredUsage.isSome := by
        show ¬s.deferredUsage.isSome
        rw [ha.2]
        exact Bool.false_ne_true
      rw [stopIfUsage, if_neg husage]
      rfl
    show (finish reason s).1 = [] ∧ Told out (finish reason s).2
    rw [hfinish]
    exact ⟨rfl, h.congr rfl rfl rfl rfl fun _ => rfl⟩

/-! ### Whole streams -/

/-- **One action** keeps the events in agreement, if it is quiet after the end. -/
theorem Told.act {out : List ClaudeEvent} {s : OpenaiToClaudeStreamState} {a : Action}
    (hall : s.Known a ∧ s.QuietAtEnd a) (h : Told out s) :
    Told (out ++ (act a s).1) (act a s).2 := by
  obtain ⟨hknown, hquiet⟩ := hall
  cases hstopped : s.messageStopped with
  | true =>
    obtain ⟨hnil, htold⟩ := quiet_act h hstopped (hquiet hstopped)
    rwa [hnil, List.append_nil]
  | false =>
    have hgo : s.started → ∀ {f : Step}, Continues f → Told (out ++ (f s).1) (f s).2 :=
      fun hs f hf => (hf out s ⟨h, hs, hstopped⟩).told
    cases a with
    | header id model =>
      show Told (out ++ (noteHeader id model s).1) (noteHeader id model s).2
      rw [noteHeader]
      split
      · rwa [List.append_nil]
      · rw [List.append_nil]
        exact h.congr rfl rfl rfl rfl fun hf => hf
    | usage usage =>
      show Told (out ++ []) _
      rw [List.append_nil]
      exact h.congr rfl rfl rfl rfl id
    | flush =>
      show Told (out ++ (flush s).1) (flush s).2
      rw [flush]
      split
      · next hflush =>
        have hfinished := (Bool.and_eq_true_iff.mp hflush).1
        exact Running.stop ⟨h, hknown hfinished, hstopped⟩ hfinished
      · rwa [List.append_nil]
    | start =>
      show Told (out ++ (startMessage s).1) (startMessage s).2
      rw [startMessage]
      split
      · rwa [List.append_nil]
      · next hs =>
        have htype := h.fresh (Bool.eq_false_iff.mpr hs)
        refine ⟨iff_of_true rfl ⟨_, _, List.mem_append_right _ List.mem_cons_self⟩,
          fun _ => htype, ?_, fun _ e he => ?_, fun hn => ?_⟩
        · rw [openBlocks_append, h.blocks, openIndices, openIndices, htype]
          rfl
        · rcases List.mem_append.mp he with he | he
          · exact h.running hstopped e he
          · rw [List.mem_singleton.mp he]
            rfl
        · exact absurd (hstopped.symm.trans hn) Bool.false_ne_true
    | reasoning text => exact hgo hknown (continues_addReasoning text)
    | text text => exact hgo hknown (continues_addText text)
    | toolCall tc => exact hgo hknown (continues_addToolCall tc)
    | finish reason =>
      have hclosed : Running (out ++ (closeCurrentBlock s).1) (noteFinish reason
          (closeCurrentBlock s).2).2 := by
        have hnoted : Running ((out ++ (closeCurrentBlock s).1) ++ [])
            (noteFinish reason (closeCurrentBlock s).2).2 :=
          (continues_closeCurrentBlock out s ⟨h, hknown, hstopped⟩).note rfl rfl rfl rfl
            fun _ => rfl
        rwa [List.append_nil] at hnoted
      show Told (out ++ ((closeCurrentBlock s).1 ++ ([] ++
        (stopIfUsage (noteFinish reason (closeCurrentBlock s).2).2).1))) (stopIfUsage _).2
      rw [List.nil_append, ← List.append_assoc, stopIfUsage]
      split
      · exact hclosed.stop rfl
      · rw [List.append_nil]
        exact hclosed.told

theorem told_new : Told [] new where
  started := iff_of_false Bool.false_ne_true fun ⟨_, _, h⟩ => by cases h
  fresh := fun _ => rfl
  blocks := rfl
  running := fun _ e he => by cases he
  ended := fun h => by cases h

/-- The events of lines that are quiet after the end agree with what the machine remembers. -/
theorem told_of_quiet {as : List Action} (hknown : Emitter.Along act Known new as)
    (hquiet : Emitter.Along act QuietAtEnd new as) :
    Told (Emitter.forEach act as new).1 (Emitter.forEach act as new).2 :=
  Emitter.Along.invariant (fun _ _ _ hall h => Told.act hall h) (hknown.and hquiet) [] told_new

theorem Told.endsOnce {out : List ClaudeEvent} {s : OpenaiToClaudeStreamState} (h : Told out s) :
    EndsOnce out := by
  cases hs : s.messageStopped with
  | false => exact endsOnce_of_no_end (h.running hs)
  | true =>
    obtain ⟨_, _, body, stopReason, outputTokens, rfl, hbody⟩ := h.ended hs
    exact endsOnce_of_body hbody stopReason outputTokens

/-- The stream ends at most once just where nothing is written after the end. -/
theorem endsOnce_iff {as : List Action} (hknown : Emitter.Along act Known new as) :
    EndsOnce (Emitter.forEach act as new).1 ↔ Emitter.Along act QuietAtEnd new as := by
  constructor
  · intro hends
    by_contra hn
    obtain ⟨pre, a, post, rfl, hpre, ha⟩ := Emitter.exists_not_along hn
    have htold := told_of_quiet (Emitter.along_append.mp hknown).1 hpre
    obtain ⟨hstopped, hloud⟩ := Classical.not_imp.mp ha
    obtain ⟨_, _, body, stopReason, outputTokens, hbody, _⟩ := htold.ended hstopped
    have hrest : (Emitter.forEach act (pre ++ a :: post) new).1 =
        (body ++ [.messageDelta stopReason outputTokens]) ++ .messageStop ::
          ((act a (Emitter.forEach act pre new).2).1 ++
            (Emitter.forEach act post (act a (Emitter.forEach act pre new).2).2).1) := by
      rw [Emitter.forEach_append, Emitter.andThen, hbody, List.append_assoc, List.append_assoc]
      rfl
    have hnil := hends.last _ _ hrest
    exact loud_act hloud (List.append_eq_nil_iff.mp hnil).1
  · exact fun hquiet => (told_of_quiet hknown hquiet).endsOnce

/-- At `[DONE]` the message gets complete if it has finished and no block is open. -/
theorem completeMessage_iff {out : List ClaudeEvent} {s : OpenaiToClaudeStreamState}
    (h : Told out s) (hstarted : s.started) :
    CompleteMessage (out ++ (flush s).1) ↔ s.finished ∧ s.currentBlockType = none := by
  have hflush : Told (out ++ (flush s).1) (flush s).2 :=
    h.act (a := .flush) ⟨fun _ => hstarted, fun _ => trivial⟩
  have hindices : (flush s).2.openIndices = s.openIndices := by
    rw [flush]
    split <;> rfl
  have hbody : ∀ body stopReason outputTokens, out ++ (flush s).1 =
      body ++ [.messageDelta stopReason outputTokens, .messageStop] →
        openBlocks body = s.openIndices := by
    intro body stopReason outputTokens heq
    rw [← hindices, ← hflush.blocks, heq, openBlocks_append]
    rfl
  constructor
  · rintro ⟨body, stopReason, outputTokens, heq, _, hblocks⟩
    have hopen : s.openIndices = [] := by rw [← hbody _ _ _ heq, hblocks]
    refine ⟨?_, ?_⟩
    · -- Otherwise no end has been written, and none is at `[DONE]`.
      by_contra hn
      have hidle : flush s = ([], s) := by
        rw [flush, if_neg fun hf => hn (Bool.and_eq_true_iff.mp hf).1]
      have hstopped : s.messageStopped = false :=
        Bool.eq_false_iff.mpr fun hs => hn (h.ended hs).2.1
      rw [hidle, List.append_nil] at heq
      have hend := h.running hstopped .messageStop (by rw [heq]; simp)
      cases hend
    · rw [openIndices] at hopen
      split at hopen
      · cases hopen
      · next hn => exact Option.not_isSome_iff_eq_none.mp hn
  · rintro ⟨hfinished, htype⟩
    have hstopped : (flush s).2.messageStopped := by
      rw [flush]
      split
      · rfl
      · next hn =>
        rw [hfinished, Bool.true_and, Bool.not_eq_true', Bool.not_eq_false] at hn
        exact hn
    obtain ⟨_, _, body, stopReason, outputTokens, heq, hends⟩ := hflush.ended hstopped
    refine ⟨body, stopReason, outputTokens, heq, hends, ?_⟩
    rw [hbody _ _ _ heq, openIndices, htype]
    rfl

/-- **A stream terminates well** just where nothing comes after the end, and at `[DONE]` a message
that has started has finished and has no block open. -/
theorem terminates_iff (lines : List DataLine) :
    Terminates lines (Emitter.forEach processLine lines new).1 ↔
      Emitter.Along act QuietAtEnd new (lines.flatMap DataLine.actions) ∧
        ∀ ls, lines = ls ++ [.done] → (Emitter.forEach processLine ls new).2.started →
          (Emitter.forEach processLine ls new).2.finished ∧
            (Emitter.forEach processLine ls new).2.currentBlockType = none := by
  have hknown : ∀ ls : List DataLine, Emitter.Along act Known new (ls.flatMap DataLine.actions) :=
    known_lines fun h => by cases h
  have honce : EndsOnce (Emitter.forEach processLine lines new).1 ↔
      Emitter.Along act QuietAtEnd new (lines.flatMap DataLine.actions) := by
    rw [forEach_processLine]
    exact endsOnce_iff (hknown lines)
  -- What holds before the last line.
  have hbefore : ∀ ls, lines = ls ++ [.done] →
      Emitter.Along act QuietAtEnd new (lines.flatMap DataLine.actions) →
        Told (Emitter.forEach processLine ls new).1 (Emitter.forEach processLine ls new).2 := by
    rintro ls rfl hquiet
    rw [List.flatMap_append, Emitter.along_append] at hquiet
    rw [forEach_processLine]
    exact told_of_quiet (hknown ls) hquiet.1
  have hsplit : ∀ ls, lines = ls ++ [.done] → (Emitter.forEach processLine lines new).1 =
      (Emitter.forEach processLine ls new).1 ++
        (flush (Emitter.forEach processLine ls new).2).1 := by
    rintro ls rfl
    rw [Emitter.forEach_append, Emitter.forEach_singleton]
    rfl
  constructor
  · intro h
    have hquiet := honce.mp h.once
    refine ⟨hquiet, fun ls hls hstarted => ?_⟩
    have htold := hbefore ls hls hquiet
    refine (completeMessage_iff htold hstarted).mp ?_
    rw [← hsplit ls hls]
    obtain ⟨id, model, hmem⟩ := htold.started.mp hstarted
    refine h.complete ls hls ⟨id, model, ?_⟩
    rw [hsplit ls hls]
    exact List.mem_append_left _ hmem
  · rintro ⟨hquiet, hdone⟩
    refine ⟨honce.mpr hquiet, fun ls hls hstart => ?_⟩
    have htold := hbefore ls hls hquiet
    have hstarted : (Emitter.forEach processLine ls new).2.started := by
      obtain ⟨id, model, hmem⟩ := hstart
      rw [hsplit ls hls] at hmem
      refine htold.started.mpr ⟨id, model, (List.mem_append.mp hmem).resolve_right fun hflush => ?_⟩
      rw [flush] at hflush
      split at hflush
      · simp [messageDelta] at hflush
      · cases hflush
    rw [hsplit ls hls]
    exact (completeMessage_iff htold hstarted).mpr (hdone ls hls hstarted)

/-! ### Two ends -/

/-- A chunk that ends the answer and reports the usage. -/
def finishLine : DataLine :=
  .json (Json.ofMembers [("choices", .array [Json.ofMembers [("delta", .object []),
    ("finish_reason", .string "stop")]]), ("usage", Json.ofMembers [("prompt_tokens", Json.ofU64 1),
      ("completion_tokens", Json.ofU64 1)])])

/-- The finish reason comes twice, with the usage: so does the end. -/
theorem finished_twice : ¬∀ lines : List DataLine,
    Terminates lines (Emitter.forEach processLine lines new).1 := by
  intro h
  have hstops := (h [textLine "x", finishLine, finishLine, .done]).once.stops
  exact absurd hstops (by decide)

/-- A text without a finish reason: at `[DONE]` nothing is written, and its block stays open. -/
example : (Emitter.forEach processLine [textLine "x", .done] new).1 =
    [.messageStart "" "", .contentBlockStart 0 .text, .contentBlockDelta 0 (.text "x")] := by
  decide

end OpenaiToClaudeStreamState

end Chennix
