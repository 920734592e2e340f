import Chennix.Streaming.Content
import Chennix.Streaming.Termination

/-!
# The usage that a converted stream reports

A Claude message reports its output tokens once, in the `message_delta` that ends it. An OpenAI
upstream may report the usage on any chunk, as a rule after the finish reason in a chunk without
choices, and each report replaces the one before. The machine does not wait for the last: at the
finish reason it ends the message at once if it has heard of any usage, and else at the first chunk
without choices, whether this has a usage or not. What is reported later is noted and never told.

## Main definitions

* `FinishedStream` — the chunks of an answer with one finish reason
* `completionTokens` — the completion tokens that chunks report last
* `FinishedStream.heard` — the chunks up to the one at which the message is ended

## Main results

* `FinishedStream.reported_eq` — a message reports the tokens of the chunks that were heard
* `FinishedStream.reportsFinal_iff` — when these are the final tokens
* `FinishedStream.reported_early` — an answer whose usage grows after the finish reason
-/

namespace Chennix

open Foundations OpenaiToClaudeStreamState

/-! ### What is reported -/

/-- The finish reason of a chunk. -/
def finishReasonOf (v : Json) : Option String := (choiceOf v).getStr "finish_reason"

def hasChoices (v : Json) : Bool := (v.getArray "choices").any fun choices => !choices.isEmpty

/-- The last usage that chunks report. -/
def lastUsage (chunks : List Json) : Option Usage := (chunks.filterMap reportedUsage).getLast?

/-- The completion tokens that chunks report last. -/
def completionTokens (chunks : List Json) : UInt64 :=
  ((lastUsage chunks).map Usage.completionTokens).getD 0

/-- The output tokens that an event reports. -/
def ClaudeEvent.outputTokens : ClaudeEvent → Option UInt64
  | .messageDelta _ outputTokens => some outputTokens
  | _ => none

/-- The output tokens that events report. -/
def reportedTokens (events : List ClaudeEvent) : List UInt64 :=
  events.filterMap ClaudeEvent.outputTokens

/-- The chunks of an answer with one finish reason. -/
structure FinishedStream where
  before : List Json
  /-- With the finish reason. -/
  last : Json
  after : List Json
  running : ∀ v ∈ before, finishReasonOf v = none
  finished : finishReasonOf last ≠ none
  ended : ∀ v ∈ after, finishReasonOf v = none

namespace FinishedStream

def chunks (st : FinishedStream) : List Json := st.before ++ st.last :: st.after

/-- The data lines, up to `[DONE]`. -/
def lines (st : FinishedStream) : List DataLine := st.chunks.map .json ++ [.done]

def events (st : FinishedStream) : List ClaudeEvent := (Emitter.forEach processLine st.lines new).1

/-- The message reports its tokens once, and they are the last ones of the stream. -/
def ReportsFinal (st : FinishedStream) : Prop :=
  reportedTokens st.events = [completionTokens st.chunks]

end FinishedStream

/-- Chunks up to the first without choices. -/
def untilNoChoices : List Json → List Json
  | [] => []
  | v :: vs => if hasChoices v then v :: untilNoChoices vs else [v]

/-- The chunks up to the one at which the message is ended. -/
def FinishedStream.heard (st : FinishedStream) : List Json :=
  if (lastUsage (st.before ++ [st.last])).isSome then st.before ++ [st.last]
  else st.before ++ st.last :: untilNoChoices st.after

/-- Every list of chunks of which just one has a finish reason is such an answer. -/
theorem exists_finishedStream {chunks : List Json}
    (h : chunks.countP (fun v => (finishReasonOf v).isSome) = 1) :
    ∃ st : FinishedStream, st.chunks = chunks := by
  obtain ⟨v, hv, hlast⟩ : ∃ v ∈ chunks, (finishReasonOf v).isSome :=
    List.countP_pos_iff.mp (by omega)
  obtain ⟨before, after, rfl⟩ := List.append_of_mem hv
  simp only [List.countP_append, List.countP_cons, hlast, if_true] at h
  have hnone : ∀ vs : List Json, vs.countP (fun v => (finishReasonOf v).isSome) = 0 →
      ∀ v ∈ vs, finishReasonOf v = none := by
    intro vs hvs v hv
    simpa using List.countP_eq_zero.mp hvs v hv
  refine ⟨⟨before, v, after, hnone before (by omega), ?_, hnone after (by omega)⟩, rfl⟩
  exact Option.isSome_iff_ne_none.mp hlast

theorem lastUsage_cons (v : Json) (vs : List Json) :
    lastUsage (v :: vs) = (lastUsage vs).or (reportedUsage v) := by
  unfold lastUsage
  cases h : reportedUsage v with
  | none => simp [h]
  | some usage => simp [h, List.getLast?_cons]

theorem lastUsage_append (vs ws : List Json) :
    lastUsage (vs ++ ws) = (lastUsage ws).or (lastUsage vs) := by
  simp [lastUsage, List.getLast?_append]

@[simp] theorem reportedTokens_append (out out' : List ClaudeEvent) :
    reportedTokens (out ++ out') = reportedTokens out ++ reportedTokens out' :=
  List.filterMap_append

namespace OpenaiToClaudeStreamState

/-! ### Steps that have to do with content only -/

/-- What the machine knows of the end of the message. -/
def ending (s : OpenaiToClaudeStreamState) : Bool × Bool × Option Usage :=
  (s.finished, s.messageStopped, s.deferredUsage)

/-- The step reports nothing, and the end of the message is not its business. -/
def Mute (f : Step) : Prop := ∀ s, reportedTokens (f s).1 = [] ∧ (f s).2.ending = s.ending

theorem mute_skip : Mute Emitter.skip := fun _ => ⟨rfl, rfl⟩

theorem Mute.andThen {f g : Step} (hf : Mute f) (hg : Mute g) : Mute (f.andThen g) := by
  intro s
  refine ⟨?_, (hg _).2.trans (hf s).2⟩
  simp [Emitter.andThen, (hf s).1, (hg (f s).2).1]

theorem Mute.forEach {ι : Type} {f : ι → Step} (hf : ∀ i, Mute (f i)) (is : List ι) :
    Mute (Emitter.forEach f is) := by
  induction is with
  | nil => exact mute_skip
  | cons i is ih => exact (hf i).andThen ih

theorem Mute.ite {p : OpenaiToClaudeStreamState → Prop} [DecidablePred p] {f g : Step}
    (hf : Mute f) (hg : Mute g) : Mute fun s => if p s then f s else g s := by
  intro s
  by_cases hp : p s
  · simpa only [if_pos hp] using hf s
  · simpa only [if_neg hp] using hg s

theorem mute_closeCurrentBlock : Mute closeCurrentBlock := by
  intro s
  rw [closeCurrentBlock]
  split <;> exact ⟨rfl, rfl⟩

theorem mute_ensureBlock (block : ContentBlock) : Mute (ensureBlock block) :=
  mute_skip.ite (p := fun s => s.currentBlockType = some block.type)
    (mute_closeCurrentBlock.andThen fun _ => ⟨rfl, rfl⟩)

theorem mute_startMessage : Mute startMessage := by
  intro s
  rw [startMessage]
  split <;> exact ⟨rfl, rfl⟩

theorem mute_noteHeader (id model : Option String) : Mute (noteHeader id model) := by
  intro s
  rw [noteHeader]
  split <;> exact ⟨rfl, rfl⟩

theorem mute_emitDelta (delta : BlockDelta) : Mute (emitDelta delta) := fun _ => ⟨rfl, rfl⟩

theorem mute_addReasoning (reasoning : String) : Mute (addReasoning reasoning) := by
  rw [addReasoning]
  split
  · exact mute_skip
  · exact (mute_ensureBlock _).andThen (mute_emitDelta _)

theorem mute_addText (content : String) : Mute (addText content) := by
  rw [addText]
  split
  · exact mute_skip
  · exact (mute_ensureBlock _).andThen (mute_emitDelta _)

theorem mute_addToolCall (tc : ToolFragment) : Mute (addToolCall tc) := by
  have hopen : Mute (openBlock (.toolUse tc.id tc.name)) := fun _ => ⟨rfl, rfl⟩
  have hnote : Mute (noteTool tc) := fun _ => ⟨rfl, rfl⟩
  have htool : Mute (ensureTool tc) :=
    mute_skip.ite (p := fun s => tc.index = s.currentOaiToolIndex)
      (mute_closeCurrentBlock.andThen (hopen.andThen hnote))
  refine htool.andThen ?_
  split
  · exact mute_skip
  · exact mute_emitDelta _

/-- What a choice says, up to its finish reason. -/
def speak (choice : Json) : Step :=
  let delta := choice.getD "delta" .null
  startMessage.andThen
    ((Emitter.forEach addReasoning (reasoningOf delta).toList).andThen
      ((Emitter.forEach addToolCall (toolFragments delta)).andThen
        (Emitter.forEach addText (delta.getStr "content").toList)))

theorem mute_speak (choice : Json) : Mute (speak choice) :=
  mute_startMessage.andThen ((Mute.forEach mute_addReasoning _).andThen
    ((Mute.forEach mute_addToolCall _).andThen (Mute.forEach mute_addText _)))

theorem processChoice_eq_speak (choice : Json) : processChoice choice =
    (speak choice).andThen (Emitter.forEach finish (choice.getStr "finish_reason").toList) := by
  simp only [processChoice, speak, Emitter.andThen_assoc]

/-! ### One chunk -/

/-- The usage that is known after a chunk. -/
def usageAfter (s : OpenaiToClaudeStreamState) (v : Json) : Option Usage :=
  (reportedUsage v).or s.deferredUsage

theorem note_ending (v : Json) (s : OpenaiToClaudeStreamState) :
    reportedTokens (note v s).1 = [] ∧
      (note v s).2.ending = (s.finished, s.messageStopped, s.usageAfter v) := by
  obtain ⟨hout, hending⟩ := mute_noteHeader (v.getStr "id") (v.getStr "model") s
  simp only [ending, Prod.mk.injEq] at hending
  obtain ⟨hfinished, hstopped, husage⟩ := hending
  cases hv : reportedUsage v <;>
    simp [note, usageAfter, hv, Emitter.andThen, Emitter.skip, noteUsage, ending, hout, hfinished,
      hstopped, husage]

theorem processJson_of_choices {v : Json} (h : hasChoices v = true) :
    processJson v = (note v).andThen
      ((speak (choiceOf v)).andThen (Emitter.forEach finish (finishReasonOf v).toList)) := by
  rw [processJson, ← Emitter.andThen_assoc]
  rcases hv : v.getArray "choices" with _ | _ | ⟨choice, rest⟩
  · simp [hasChoices, hv] at h
  · simp [hasChoices, hv] at h
  · simp only [choiceOf, finishReasonOf, hv, Option.getD_some, List.headD_cons]
    rw [processChoice_eq_speak]
    rfl

theorem processJson_of_no_choices {v : Json} (h : hasChoices v = false) :
    processJson v = (note v).andThen flush := by
  rw [processJson, ← Emitter.andThen_assoc]
  rcases hv : v.getArray "choices" with _ | _ | ⟨choice, rest⟩
  · rfl
  · rfl
  · simp [hasChoices, hv] at h

/-- A chunk that says something, and has no finish reason. -/
theorem speaking_ending {v : Json} (hchoices : hasChoices v = true)
    (hreason : finishReasonOf v = none) (s : OpenaiToClaudeStreamState) :
    reportedTokens (processJson v s).1 = [] ∧
      (processJson v s).2.ending = (s.finished, s.messageStopped, s.usageAfter v) := by
  obtain ⟨hnote, hending⟩ := note_ending v s
  obtain ⟨hspeak, hkeep⟩ := mute_speak (choiceOf v) (note v s).2
  rw [processJson_of_choices hchoices, hreason]
  simp [Emitter.andThen, Emitter.skip, hnote, hspeak, hkeep, hending]

/-- A chunk that says nothing ends the message, if there is a message to end. -/
theorem silent_ending {v : Json} (hchoices : hasChoices v = false)
    (s : OpenaiToClaudeStreamState) :
    reportedTokens (processJson v s).1 = (if s.finished && !s.messageStopped then
        [((s.usageAfter v).map Usage.completionTokens).getD 0] else []) ∧
      (processJson v s).2.ending =
        (s.finished, s.messageStopped || s.finished, s.usageAfter v) := by
  obtain ⟨hnote, hending⟩ := note_ending v s
  simp only [ending, Prod.mk.injEq] at hending
  obtain ⟨hfinished, hstopped, husage⟩ := hending
  rw [processJson_of_no_choices hchoices]
  simp only [Emitter.andThen, reportedTokens_append, hnote, List.nil_append, flush, hfinished,
    hstopped]
  cases hf : s.finished <;> cases hs : s.messageStopped <;>
    simp [ending, messageDelta, reportedTokens, ClaudeEvent.outputTokens, hfinished, hstopped,
      husage, hf, hs]

theorem finish_ending (reason : String) (s : OpenaiToClaudeStreamState) :
    reportedTokens (finish reason s).1 = s.deferredUsage.toList.map Usage.completionTokens ∧
      (finish reason s).2.ending =
        (true, s.messageStopped || s.deferredUsage.isSome, s.deferredUsage) := by
  obtain ⟨hclose, hending⟩ := mute_closeCurrentBlock s
  simp only [ending, Prod.mk.injEq] at hending
  obtain ⟨-, hstopped, husage⟩ := hending
  simp only [finish, Emitter.andThen, reportedTokens_append, hclose, noteFinish, stopIfUsage,
    husage]
  cases hu : s.deferredUsage <;>
    simp [ending, messageDelta, reportedTokens, ClaudeEvent.outputTokens, hstopped]

/-- The chunk with the finish reason ends the message if a usage is known. -/
theorem last_ending {v : Json} (hreason : finishReasonOf v ≠ none)
    (s : OpenaiToClaudeStreamState) :
    reportedTokens (processJson v s).1 = (s.usageAfter v).toList.map Usage.completionTokens ∧
      (processJson v s).2.ending =
        (true, s.messageStopped || (s.usageAfter v).isSome, s.usageAfter v) := by
  have hchoices : hasChoices v = true := by
    by_contra hn
    refine hreason ?_
    rcases hv : v.getArray "choices" with _ | _ | ⟨choice, rest⟩
    · simp only [finishReasonOf, choiceOf, hv]
      rfl
    · simp only [finishReasonOf, choiceOf, hv]
      rfl
    · simp [hasChoices, hv] at hn
  obtain ⟨reason, hreason⟩ := Option.ne_none_iff_exists'.mp hreason
  obtain ⟨hnote, hending⟩ := note_ending v s
  obtain ⟨hspeak, hkeep⟩ := mute_speak (choiceOf v) (note v s).2
  rw [hending] at hkeep
  simp only [ending, Prod.mk.injEq] at hkeep
  obtain ⟨-, hstopped, husage⟩ := hkeep
  obtain ⟨hfinish, hending'⟩ := finish_ending reason (speak (choiceOf v) (note v s).2).2
  rw [hstopped, husage] at hending'
  rw [processJson_of_choices hchoices, hreason, Option.toList_some, Emitter.forEach_singleton]
  refine ⟨?_, hending'⟩
  simp [Emitter.andThen, hnote, hspeak, hfinish, husage]

/-! ### A stream -/

/-- Before the finish reason nothing is reported. -/
theorem before_ending {vs : List Json} (hrunning : ∀ v ∈ vs, finishReasonOf v = none)
    {s : OpenaiToClaudeStreamState} (hs : s.finished = false) :
    reportedTokens (Emitter.forEach processJson vs s).1 = [] ∧
      (Emitter.forEach processJson vs s).2.ending =
        (false, s.messageStopped, (lastUsage vs).or s.deferredUsage) := by
  induction vs generalizing s with
  | nil => exact ⟨rfl, by simp [Emitter.skip, ending, lastUsage, hs]⟩
  | cons v vs ih =>
    -- Neither kind of chunk ends a message that has not finished.
    have hstep : reportedTokens (processJson v s).1 = [] ∧
        (processJson v s).2.ending = (false, s.messageStopped, s.usageAfter v) := by
      cases hv : hasChoices v with
      | true => simpa [hs] using speaking_ending hv (hrunning v List.mem_cons_self) s
      | false => simpa [hs] using silent_ending hv s
    obtain ⟨hout, hending⟩ := hstep
    simp only [ending, Prod.mk.injEq] at hending
    obtain ⟨hfinished, hstopped, husage⟩ := hending
    obtain ⟨hrest, hlast⟩ := ih (fun w hw => hrunning w (List.mem_cons_of_mem v hw)) hfinished
    rw [hstopped, husage] at hlast
    refine ⟨?_, ?_⟩
    · simp [Emitter.andThen, hout, hrest]
    · simpa [Emitter.andThen, lastUsage_cons, usageAfter, Option.or_assoc] using hlast

/-- After the finish reason the message is ended at the first chunk without choices, or at
`[DONE]`. -/
theorem after_reported {vs : List Json} (hover : ∀ v ∈ vs, finishReasonOf v = none)
    {s : OpenaiToClaudeStreamState} (hs : s.finished = true) :
    reportedTokens (Emitter.forEach processLine (vs.map .json ++ [.done]) s).1 =
      if s.messageStopped then []
      else [(((lastUsage (untilNoChoices vs)).or s.deferredUsage).map
        Usage.completionTokens).getD 0] := by
  induction vs generalizing s with
  | nil =>
    have hdone : Emitter.forEach processLine [.done] s = flush s := by
      rw [Emitter.forEach_singleton]
      rfl
    rw [List.map_nil, List.nil_append, hdone, flush]
    cases hstopped : s.messageStopped <;>
      simp [hs, messageDelta, reportedTokens, ClaudeEvent.outputTokens, lastUsage, untilNoChoices]
  | cons v vs ih =>
    have hover' : ∀ w ∈ vs, finishReasonOf w = none :=
      fun w hw => hover w (List.mem_cons_of_mem v hw)
    have hsplit : Emitter.forEach processLine ((v :: vs).map .json ++ [.done]) s =
        (processJson v).andThen (Emitter.forEach processLine (vs.map .json ++ [.done])) s := rfl
    rw [hsplit, Emitter.andThen, reportedTokens_append, untilNoChoices]
    cases hv : hasChoices v with
    | true =>
      obtain ⟨hout, hending⟩ := speaking_ending hv (hover v List.mem_cons_self) s
      simp only [ending, Prod.mk.injEq] at hending
      obtain ⟨hfinished, hstopped, husage⟩ := hending
      rw [ih hover' (hfinished.trans hs), hstopped, husage, hout]
      simp [lastUsage_cons, usageAfter, Option.or_assoc]
    | false =>
      -- The message is over with this chunk, if it was not before.
      obtain ⟨hout, hending⟩ := silent_ending hv s
      simp only [ending, Prod.mk.injEq] at hending
      obtain ⟨hfinished, hstopped, -⟩ := hending
      rw [ih hover' (hfinished.trans hs), hstopped, hout, hs]
      cases s.messageStopped <;> simp [lastUsage, usageAfter]

end OpenaiToClaudeStreamState

namespace FinishedStream

variable (st : FinishedStream)

/-- **The tokens that are reported**, once, are those of the chunks that were heard. -/
theorem reported_eq : reportedTokens st.events = [completionTokens st.heard] := by
  have hlines : st.lines = st.before.map .json ++ .json st.last ::
      (st.after.map .json ++ [.done]) := by
    simp [lines, chunks]
  have hevents : st.events = ((Emitter.forEach processJson st.before).andThen
      ((processJson st.last).andThen
        (Emitter.forEach processLine (st.after.map .json ++ [.done]))) new).1 := by
    rw [events, hlines, Emitter.forEach_append, Emitter.forEach_map]
    rfl
  obtain ⟨hbefore, hopen⟩ := before_ending st.running (s := new) rfl
  obtain ⟨hlast, hending⟩ := last_ending st.finished (Emitter.forEach processJson st.before new).2
  simp only [ending, Prod.mk.injEq] at hopen hending
  obtain ⟨-, hopenStopped, hopenUsage⟩ := hopen
  obtain ⟨hfinished, hstopped, husage⟩ := hending
  -- What is known at the finish reason.
  have hknown : (Emitter.forEach processJson st.before new).2.usageAfter st.last =
      lastUsage (st.before ++ [st.last]) := by
    rw [usageAfter, hopenUsage, lastUsage_append]
    simp [lastUsage, new]
  have hafter := after_reported st.ended hfinished
  rw [hstopped, husage, hknown, hopenStopped] at hafter
  simp only [hevents, Emitter.andThen, reportedTokens_append, hbefore, hlast, hafter, hknown, heard]
  cases hu : lastUsage (st.before ++ [st.last]) with
  | some usage => simp [completionTokens, hu, new]
  | none =>
    have hheard : lastUsage (st.before ++ st.last :: untilNoChoices st.after) =
        lastUsage (untilNoChoices st.after) := by
      rw [List.append_cons, lastUsage_append, hu, Option.or_none]
    simp [completionTokens, hheard, new]

/-- **When the final tokens are reported**: the chunks up to the end of the message report the
tokens that all chunks report. -/
theorem reportsFinal_iff :
    st.ReportsFinal ↔ completionTokens st.heard = completionTokens st.chunks := by
  rw [ReportsFinal, reported_eq, List.cons.injEq, and_iff_left rfl]

/-! ### Tokens that come too late -/

instance : Decidable st.ReportsFinal := inferInstanceAs (Decidable (_ = _))

/-- A chunk that reports the tokens so far. -/
def counting (completionTokens : UInt64) (choices : List Json) : Json :=
  Json.ofMembers [("choices", .array choices), ("usage", Json.ofMembers
    [("prompt_tokens", Json.ofU64 1), ("completion_tokens", Json.ofU64 completionTokens)])]

/-- The usage is on the finish chunk, and again behind it, where it has grown. -/
def growing : FinishedStream where
  before := []
  last := counting 5 [Json.ofMembers [("finish_reason", .string "stop")]]
  after := [counting 10 []]
  running := nofun
  finished := by decide
  ended := by decide

/-- The message reports 5 tokens. -/
theorem reported_early : ¬∀ st : FinishedStream, st.ReportsFinal := by
  intro h
  exact absurd (h growing) (by decide)

end FinishedStream

end Chennix
