import Chennix.Foundations.Checked
import Chennix.Server.StreamResponse
import Mathlib.Algebra.Ring.Nat

/-!
# The totals that streams are counted with

The token counts in a stream are whatever the upstream writes. They are added while the stream is
relayed: over the chunks for the bill, and by the state machines for the totals of a usage. Here the
relay is given as a debug build runs it, where it has no result if one of the additions overflows.

## Main definitions

* `relayChunksChecked` — the relay of a debug build
* `CountsAddUp` — the counts fit together with those before
* `StreamTranslation.TotalsFit` — so do the totals that the state machine writes

## Main results

* `checks_relayChunks` — the debug build comes through exactly where all of these fit
-/

namespace Chennix

open Foundations Json

/-- Its two counts have a total. -/
def Usage.Fits (usage : Usage) : Prop :=
  usage.promptTokens.toNat + usage.completionTokens.toNat < 2 ^ 64

/-- What is read of inputs, up to one that cannot be read. -/
def readUntilError {α β ε : Type} (read : α → Except ε β) : List α → List β
  | [] => []
  | a :: as =>
    match read a with
    | .ok b => b :: readUntilError read as
    | .error _ => []

/-! ### OpenAI streams for Claude clients -/

namespace OpenaiToClaudeStreamState

/-- `reportedUsage` with its addition checked. -/
def reportedUsageChecked (v : Json) : Option (Option Usage) :=
  match (v.get "usage").filter fun usage => !usage.isNull with
  | none => some none
  | some usage => do
    let promptTokens := (usage.getU64 "prompt_tokens").getD 0
    let completionTokens := (usage.getU64 "completion_tokens").getD 0
    let totalTokens ← checkedAdd promptTokens completionTokens
    return some ⟨promptTokens, completionTokens, totalTokens⟩

/-- `processJson`, given the usage the chunk reports. -/
def processJsonWith (usage : Option Usage) (v : Json) : Step :=
  (noteHeader (v.getStr "id") (v.getStr "model")).andThen
    ((Emitter.forEach noteUsage usage.toList).andThen
      (match v.getArray "choices" with
        | some (choice :: _) => processChoice choice
        | _ => flush))

/-- `processLine` with its addition checked. -/
def processLineChecked (line : DataLine) (s : OpenaiToClaudeStreamState) :
    Option (List ClaudeEvent × OpenaiToClaudeStreamState) :=
  match line with
  | .done => some (flush s)
  | .json v => do
    let usage ← reportedUsageChecked v
    return processJsonWith usage v s

variable (codec : Codec)

/-- `processPayloads` with its additions checked. -/
def processPayloadsChecked : List String → OpenaiToClaudeStreamState →
    Option (ProxyResult (List ClaudeEvent) × OpenaiToClaudeStreamState)
  | [], s => some (.ok [], s)
  | data :: rest, s =>
    match DataLine.read codec data with
    | .error e => some (.error e, s)
    | .ok line => do
      let (out, s') ← processLineChecked line s
      let (result, s'') ← processPayloadsChecked rest s'
      return (result.map (out ++ ·), s'')

/-- `processChunk` with its additions checked. -/
def processChunkChecked (chunk : Bytes) (s : OpenaiToClaudeStreamState) :
    Option (ProxyResult (List ClaudeEvent) × OpenaiToClaudeStreamState) :=
  match Utf8.decode chunk with
  | none => some (.error (.translator ("invalid utf8 in SSE chunk: " ++ Utf8.errorText chunk)), s)
  | some text => processPayloadsChecked codec ((Text.lines text).filterMap payload) s

/-- The data lines of a network chunk, up to one that is no JSON. -/
def linesRead (chunk : Bytes) : List DataLine :=
  match Utf8.decode chunk with
  | none => []
  | some text => readUntilError (DataLine.read codec) ((Text.lines text).filterMap payload)

/-- The usage that a data line reports has a total. -/
def LineFits : DataLine → Prop
  | .done => True
  | .json v => ∀ usage ∈ reportedUsage v, usage.Fits

variable {codec}

theorem checks_reportedUsage (v : Json) :
    Checks (∀ usage ∈ reportedUsage v, usage.Fits) (reportedUsage v)
      (reportedUsageChecked v) := by
  unfold reportedUsage reportedUsageChecked
  cases (v.get "usage").filter fun usage => !usage.isNull with
  | none => exact (Checks.pure none).congr (by simp)
  | some usage =>
    let prompt := (usage.getU64 "prompt_tokens").getD 0
    let completion := (usage.getU64 "completion_tokens").getD 0
    have htotal := (checks_add prompt completion).map fun total =>
      some (Usage.mk prompt completion total)
    exact htotal.congr (by simp [Usage.Fits, prompt, completion])

theorem checks_processLine (line : DataLine) (s : OpenaiToClaudeStreamState) :
    Checks (LineFits line) (processLine line s) (processLineChecked line s) := by
  cases line with
  | done => exact Checks.pure (flush s)
  | json v => exact Checks.map (checks_reportedUsage v) fun usage => processJsonWith usage v s

theorem checks_processPayloads (payloads : List String) (s : OpenaiToClaudeStreamState) :
    Checks (∀ line ∈ readUntilError (DataLine.read codec) payloads, LineFits line)
      (processPayloads codec payloads s) (processPayloadsChecked codec payloads s) := by
  induction payloads generalizing s with
  | nil => exact (Checks.pure _).congr (by simp [readUntilError])
  | cons data rest ih =>
    rw [readUntilError, processPayloads, processPayloadsChecked]
    cases DataLine.read codec data with
    | error e => exact (Checks.pure _).congr (by simp)
    | ok line =>
      have hrest (out : List ClaudeEvent × OpenaiToClaudeStreamState) :=
        (ih out.2).map fun r => (r.1.map (out.1 ++ ·), r.2)
      exact ((checks_processLine line s).bind fun _ => hrest _).congr (by simp)

theorem checks_processChunk (chunk : Bytes) (s : OpenaiToClaudeStreamState) :
    Checks (∀ line ∈ linesRead codec chunk, LineFits line) (processChunk codec chunk s)
      (processChunkChecked codec chunk s) := by
  unfold linesRead processChunk processChunkChecked
  cases Utf8.decode chunk with
  | none => exact (Checks.pure _).congr (by simp)
  | some text => exact checks_processPayloads _ s

theorem isOk_processPayloads (payloads : List String) (s : OpenaiToClaudeStreamState) :
    (processPayloads codec payloads s).1.isOk = (payloads.mapM (DataLine.read codec)).isOk := by
  induction payloads generalizing s with
  | nil => rfl
  | cons data rest ih =>
    rw [processPayloads, List.mapM_cons]
    cases DataLine.read codec data with
    | error e => rfl
    | ok line =>
      have hout (r : ProxyResult (List ClaudeEvent)) :
          (r.map ((processLine line s).1 ++ ·)).isOk = r.isOk := by
        cases r <;> rfl
      have hlines (r : ProxyResult (List DataLine)) : (r >>= fun ls => pure (line :: ls)).isOk =
          r.isOk := by
        cases r <;> rfl
      exact (hout _).trans ((ih _).trans (hlines _).symm)

/-- A network chunk fails just if one of its lines cannot be read. -/
theorem isOk_processChunk (chunk : Bytes) (s : OpenaiToClaudeStreamState) :
    (processChunk codec chunk s).1.isOk = (readChunk codec chunk).isOk := by
  unfold processChunk readChunk
  cases Utf8.decode chunk with
  | none => rfl
  | some text => exact isOk_processPayloads _ s

end OpenaiToClaudeStreamState

/-! ### Claude streams for OpenAI clients -/

namespace ClaudeToOpenaiStreamState

/-- The input tokens that an event reports, if it is a message with a usage. -/
def ServerEvent.inputTokens (e : ServerEvent) : Option UInt64 :=
  if e.name = "message_start" then
    ((e.data.get "message").bind (·.get "usage")).map fun usage =>
      (usage.getU64 "input_tokens").getD 0
  else none

/-- The output tokens that an event reports, if it has a usage. -/
def ServerEvent.outputTokens (e : ServerEvent) : Option UInt64 :=
  if e.name = "message_delta" then
    (e.data.get "usage").map fun usage => (usage.getU64 "output_tokens").getD 0
  else none

/-- A total is made of the counts. -/
def ServerEvent.Totals (e : ServerEvent) : Prop :=
  e.outputTokens.isSome ∨ e.name = "message_stop"

/-- After counts of the input and the output: where a total is made, the counts that were reported
last have one. -/
def TotalsFit : UInt64 → UInt64 → List ServerEvent → Prop
  | _, _, [] => True
  | input, output, e :: es =>
    (e.Totals → input.toNat + (e.outputTokens.getD output).toNat < 2 ^ 64) ∧
      TotalsFit (e.inputTokens.getD input) (e.outputTokens.getD output) es

/-- `noteOutput` with its addition checked. -/
def noteOutputChecked (usage : Json) (s : ClaudeToOpenaiStreamState) :
    Option (List OpenaiEvent × ClaudeToOpenaiStreamState) := do
  let outputTokens := (usage.getU64 "output_tokens").getD 0
  let totalTokens ← checkedAdd s.inputTokens outputTokens
  return ([], { s with
    deferredOutputTokens := outputTokens
    deferredUsage := some ⟨s.inputTokens, outputTokens, totalTokens⟩ })

/-- `stopMessage`. The total in a usage is added when its chunk is made. -/
def stopMessageChecked (s : ClaudeToOpenaiStreamState) :
    Option (List OpenaiEvent × ClaudeToOpenaiStreamState) :=
  if 0 < s.inputTokens ∨ 0 < s.deferredOutputTokens then do
    let _total ← checkedAdd s.inputTokens s.deferredOutputTokens
    return stopMessage s
  else some (stopMessage s)

/-- `processJson` with its additions checked. -/
def ServerEvent.processChecked (e : ServerEvent) (s : ClaudeToOpenaiStreamState) :
    Option (List OpenaiEvent × ClaudeToOpenaiStreamState) :=
  if e.name = "message_delta" then
    let noted := Emitter.forEach noteStopReason (e.data.get "delta").toList s
    match e.data.get "usage" with
    | none => some noted
    | some usage => do
      let (out, s') ← noteOutputChecked usage noted.2
      return (noted.1 ++ out, s')
  else if e.name = "message_stop" then stopMessageChecked s
  else some (e.process s)

variable (codec : Codec)

/-- `processEvent` with its additions checked. -/
def processEventChecked (frame : String × Bytes) (s : ClaudeToOpenaiStreamState) :
    Option (ProxyResult (List OpenaiEvent) × ClaudeToOpenaiStreamState) :=
  match ServerEvent.read codec frame with
  | .error e => some (.error e, s)
  | .ok e => do
    let (out, s') ← e.processChecked s
    return (.ok out, s')

/-! #### Steps that count nothing -/

/-- The step leaves the counts alone. -/
def Uncounted (f : Step) : Prop := ∀ s,
  (f s).2.inputTokens = s.inputTokens ∧ (f s).2.deferredOutputTokens = s.deferredOutputTokens

theorem Uncounted.andThen {f g : Step} (hf : Uncounted f) (hg : Uncounted g) :
    Uncounted (f.andThen g) := fun s =>
  ⟨(hg _).1.trans (hf s).1, (hg _).2.trans (hf s).2⟩

theorem Uncounted.forEach {ι : Type} {f : ι → Step} (hf : ∀ i, Uncounted (f i))
    (is : List ι) : Uncounted (Emitter.forEach f is) := by
  induction is with
  | nil => exact fun _ => ⟨rfl, rfl⟩
  | cons i is ih => exact (hf i).andThen ih

theorem uncounted_skip : Uncounted .skip := fun _ => ⟨rfl, rfl⟩

theorem uncounted_emit (body : ChunkBody) : Uncounted (emit body) := fun _ => ⟨rfl, rfl⟩

theorem uncounted_announce : Uncounted announce := by
  intro s
  unfold announce
  split <;> exact ⟨rfl, rfl⟩

theorem uncounted_startBlock (block : Json) : Uncounted (startBlock block) := by
  simp only [startBlock]
  split_ifs
  · exact uncounted_announce.andThen fun _ => ⟨rfl, rfl⟩
  · exact uncounted_announce.andThen fun _ => ⟨rfl, rfl⟩
  · exact uncounted_skip

theorem uncounted_addToolArguments (arguments : String) :
    Uncounted (addToolArguments arguments) := by
  intro s
  unfold addToolArguments
  split <;> exact ⟨rfl, rfl⟩

theorem uncounted_addDelta (delta : Json) : Uncounted (addDelta delta) := by
  simp only [addDelta]
  split_ifs
  · exact uncounted_announce.andThen (uncounted_emit _)
  · refine uncounted_announce.andThen (.forEach (fun thinking => ?_) _)
    split_ifs
    · exact uncounted_skip
    · exact uncounted_emit _
  · exact uncounted_skip
  · exact uncounted_addToolArguments _
  · exact uncounted_skip

theorem uncounted_noteStopReason (delta : Option Json) :
    Uncounted (Emitter.forEach noteStopReason delta.toList) :=
  .forEach (fun _ _ => ⟨rfl, rfl⟩) _

/-! #### The counts along the events -/

/-- The counts after an event are those it reports, and else those before. -/
theorem process_counts (e : ServerEvent) (s : ClaudeToOpenaiStreamState) :
    (e.process s).2.inputTokens = e.inputTokens.getD s.inputTokens ∧
      (e.process s).2.deferredOutputTokens = e.outputTokens.getD s.deferredOutputTokens := by
  unfold ServerEvent.process processJson ServerEvent.inputTokens ServerEvent.outputTokens
  by_cases hstart : e.name = "message_start"
  · simp only [hstart, if_true, reduceIte, String.reduceEq]
    cases e.data.get "message" with
    | none => exact ⟨rfl, rfl⟩
    | some msg =>
      simp only [Option.toList_some, Emitter.forEach_singleton]
      exact ⟨rfl, rfl⟩
  by_cases hdelta : e.name = "message_delta"
  · simp only [hdelta, if_true, reduceIte, String.reduceEq]
    have hreason := uncounted_noteStopReason (e.data.get "delta") s
    cases e.data.get "usage" with
    | none => exact hreason
    | some usage =>
      simp only [Option.toList_some, Emitter.forEach_singleton]
      exact ⟨hreason.1, rfl⟩
  simp only [hstart, hdelta, if_false]
  split_ifs
  · exact Uncounted.andThen (fun _ => ⟨rfl, rfl⟩) (uncounted_startBlock _) s
  · exact uncounted_addDelta _ s
  · exact ⟨rfl, rfl⟩
  · exact ⟨rfl, rfl⟩

theorem checks_noteOutput (usage : Json) (s : ClaudeToOpenaiStreamState) :
    Checks (s.inputTokens.toNat + ((usage.getU64 "output_tokens").getD 0).toNat < 2 ^ 64)
      (noteOutput usage s) (noteOutputChecked usage s) := by
  let output := (usage.getU64 "output_tokens").getD 0
  exact (checks_add s.inputTokens output).map fun total =>
    ([], { s with
      deferredOutputTokens := output
      deferredUsage := some ⟨s.inputTokens, output, total⟩ })

/-- Where no usage is written both counts are zero, and have a total. -/
theorem checks_stopMessage (s : ClaudeToOpenaiStreamState) :
    Checks (s.inputTokens.toNat + s.deferredOutputTokens.toNat < 2 ^ 64) (stopMessage s)
      (stopMessageChecked s) := by
  unfold stopMessageChecked
  split
  · exact (checks_add s.inputTokens s.deferredOutputTokens).map fun _ => stopMessage s
  · rename_i hzero
    simp only [UInt64.lt_iff_toNat_lt, UInt64.toNat_zero, not_or, not_lt, Nat.le_zero_eq] at hzero
    exact (Checks.pure _).congr (by simp [hzero.1, hzero.2])

theorem checks_process (e : ServerEvent) (s : ClaudeToOpenaiStreamState) :
    Checks (e.Totals → s.inputTokens.toNat + (e.outputTokens.getD s.deferredOutputTokens).toNat <
      2 ^ 64) (e.process s) (e.processChecked s) := by
  unfold ServerEvent.Totals ServerEvent.outputTokens ServerEvent.processChecked
  by_cases hdelta : e.name = "message_delta"
  · let reason := Emitter.forEach noteStopReason (e.data.get "delta").toList
    have hreason := uncounted_noteStopReason (e.data.get "delta") s
    cases husage : e.data.get "usage" with
    | none =>
      have hprocess : e.process s = reason s := by
        simp [ServerEvent.process, processJson, hdelta, husage, reason]
      rw [hprocess]
      simpa [hdelta] using Checks.pure (reason s)
    | some usage =>
      have hprocess : e.process s = reason.andThen (noteOutput usage) s := by
        simp [ServerEvent.process, processJson, hdelta, husage, reason]
      have hnoted := (checks_noteOutput usage (reason s).2).map fun r => ((reason s).1 ++ r.1, r.2)
      rw [hreason.1] at hnoted
      rw [hprocess]
      simpa [hdelta, Emitter.andThen, reason] using hnoted
  by_cases hstop : e.name = "message_stop"
  · have hprocess : e.process s = stopMessage s := by
      simp [ServerEvent.process, processJson, hstop]
    rw [hprocess]
    simpa [hdelta, hstop] using checks_stopMessage s
  · simpa [hdelta, hstop] using Checks.pure (e.process s)

theorem totalsFit_append (input output : UInt64) (es es' : List ServerEvent) :
    TotalsFit input output (es ++ es') ↔ TotalsFit input output es ∧
      TotalsFit (es.foldl (fun n e => e.inputTokens.getD n) input)
        (es.foldl (fun n e => e.outputTokens.getD n) output) es' := by
  induction es generalizing input output with
  | nil => exact (and_iff_right trivial).symm
  | cons e es ih =>
    rw [List.cons_append, TotalsFit, TotalsFit, ih, and_assoc]
    rfl

variable {codec}

theorem checks_processEvent {frame : String × Bytes} {e : ServerEvent}
    (he : ServerEvent.read codec frame = .ok e) (s : ClaudeToOpenaiStreamState) :
    Checks (e.Totals → s.inputTokens.toNat + (e.outputTokens.getD s.deferredOutputTokens).toNat <
      2 ^ 64) (processEvent codec frame s) (processEventChecked codec frame s) := by
  unfold processEvent processEventChecked
  rw [he]
  exact (checks_process e s).map fun r => (Except.ok r.1, r.2)

end ClaudeToOpenaiStreamState

/-! ### The relay -/

namespace StreamTranslation

open ClaudeToOpenaiStreamState

variable (codec : Codec)

/-- `relayFrames` with its additions checked. -/
def relayFramesChecked : List (String × Bytes) → ClaudeToOpenaiStreamState →
    Option (List (ProxyResult Bytes) × ClaudeToOpenaiStreamState)
  | [], s => some ([], s)
  | frame :: frames, s => do
    match ← processEventChecked codec frame s with
    | (.error e, s') => return ([.error e], s')
    | (.ok events, s') => do
      let (sent, s'') ← relayFramesChecked frames s'
      return (events.map (fun event => .ok (event.bytes codec)) ++ sent, s'')

/-- `relay` with its additions checked. -/
def relayChecked (chunk : Bytes) :
    StreamTranslation → Option (List (ProxyResult Bytes) × StreamTranslation × Bool)
  | .passthrough => some ([.ok chunk], .passthrough, true)
  | .o2c s => do
    match ← OpenaiToClaudeStreamState.processChunkChecked codec chunk s with
    | (.ok events, s') => return (events.map fun event => .ok (event.bytes codec), .o2c s', true)
    | (.error e, s') => return ([.error e], .o2c s', false)
  | .c2o parser s => do
    let (frames, parser') := SseFrameParser.feed chunk parser
    let (sent, s') ← relayFramesChecked codec frames s
    return (sent, .c2o parser' s', true)

/-- The events that are processed: those of a network chunk up to one that cannot be read. -/
def eventsRead : SseFrameParser → List Bytes → List ServerEvent
  | _, [] => []
  | parser, chunk :: chunks =>
    readUntilError (ServerEvent.read codec) (SseFrameParser.feed chunk parser).1 ++
      eventsRead (SseFrameParser.feed chunk parser).2 chunks

/-- Network chunks up to one with a line that cannot be read. -/
def untilUnreadable : List Bytes → List Bytes
  | [] => []
  | chunk :: chunks =>
    if (OpenaiToClaudeStreamState.readChunk codec chunk).isOk then chunk :: untilUnreadable chunks
    else [chunk]

/-- The network chunks that are looked at. -/
def chunksRead : StreamTranslation → List Bytes → List Bytes
  | .o2c _, chunks => untilUnreadable codec chunks
  | _, chunks => chunks

/-- The totals that the state machine makes of a chunk fit. -/
def ChunkFits (chunk : Bytes) : StreamTranslation → Prop
  | .passthrough => True
  | .o2c _ => ∀ line ∈ OpenaiToClaudeStreamState.linesRead codec chunk,
      OpenaiToClaudeStreamState.LineFits line
  | .c2o parser s => ClaudeToOpenaiStreamState.TotalsFit s.inputTokens s.deferredOutputTokens
      (readUntilError (ServerEvent.read codec) (SseFrameParser.feed chunk parser).1)

/-- The totals that the state machine makes of the counts it is told fit. -/
def TotalsFit (chunks : List Bytes) : StreamTranslation → Prop
  | .passthrough => True
  | .o2c _ => ∀ line ∈ (untilUnreadable codec chunks).flatMap
      (OpenaiToClaudeStreamState.linesRead codec), OpenaiToClaudeStreamState.LineFits line
  | .c2o parser s => ClaudeToOpenaiStreamState.TotalsFit s.inputTokens s.deferredOutputTokens
      (eventsRead codec parser chunks)

variable {codec}

theorem checks_relayFrames (frames : List (String × Bytes)) (s : ClaudeToOpenaiStreamState) :
    Checks (ClaudeToOpenaiStreamState.TotalsFit s.inputTokens s.deferredOutputTokens
        (readUntilError (ServerEvent.read codec) frames))
      (relayFrames codec frames s) (relayFramesChecked codec frames s) := by
  induction frames generalizing s with
  | nil => exact Checks.pure _
  | cons frame frames ih =>
    rw [readUntilError]
    cases he : ServerEvent.read codec frame with
    | error e =>
      have hevent : processEvent codec frame s = (.error e, s) := by rw [processEvent, he]
      have hchecked : processEventChecked codec frame s = some (.error e, s) := by
        rw [processEventChecked, he]
      rw [relayFrames, relayFramesChecked, hevent, hchecked]
      exact Checks.pure _
    | ok e =>
      have hevent : processEvent codec frame s = (.ok (e.process s).1, (e.process s).2) := by
        rw [processEvent, he]
      have hrest := (ih (e.process s).2).map fun r =>
        ((e.process s).1.map (fun event => .ok (event.bytes codec)) ++ r.1, r.2)
      obtain ⟨hinput, houtput⟩ := process_counts e s
      rw [hinput, houtput] at hrest
      have hfirst := checks_processEvent he s
      rw [hevent] at hfirst
      rw [relayFrames, relayFramesChecked, hevent]
      exact hfirst.bind fun _ => hrest

/-- The counts after the frames are those that the events report. -/
theorem relayFrames_counts (frames : List (String × Bytes)) (s : ClaudeToOpenaiStreamState) :
    (relayFrames codec frames s).2.inputTokens =
        (readUntilError (ServerEvent.read codec) frames).foldl
          (fun n e => e.inputTokens.getD n) s.inputTokens ∧
      (relayFrames codec frames s).2.deferredOutputTokens =
        (readUntilError (ServerEvent.read codec) frames).foldl
          (fun n e => e.outputTokens.getD n) s.deferredOutputTokens := by
  induction frames generalizing s with
  | nil => exact ⟨rfl, rfl⟩
  | cons frame frames ih =>
    rw [relayFrames, readUntilError, processEvent]
    cases ServerEvent.read codec frame with
    | error e => exact ⟨rfl, rfl⟩
    | ok e =>
      obtain ⟨hinput, houtput⟩ := process_counts e s
      rw [List.foldl_cons, List.foldl_cons, ← hinput, ← houtput]
      exact ih (e.process s).2

theorem checks_relay (chunk : Bytes) (t : StreamTranslation) :
    Checks (t.ChunkFits codec chunk) (t.relay codec chunk) (t.relayChecked codec chunk) := by
  cases t with
  | passthrough => exact Checks.pure _
  | o2c s =>
    refine Checks.congr (Checks.bind (OpenaiToClaudeStreamState.checks_processChunk chunk s)
      fun _ => ?_) (iff_of_eq (and_true _))
    rw [relay]
    rcases OpenaiToClaudeStreamState.processChunk codec chunk s with ⟨_ | _, s'⟩
    · exact Checks.pure _
    · exact Checks.pure _
  | c2o parser s =>
    exact (checks_relayFrames (SseFrameParser.feed chunk parser).1 s).map fun r =>
      (r.1, c2o (SseFrameParser.feed chunk parser).2 r.2, true)

/-- The totals of a chunk, and those of the chunks after it where the relay goes on. -/
theorem totalsFit_cons (chunk : Bytes) (chunks : List Bytes) (t : StreamTranslation) :
    t.TotalsFit codec (chunk :: chunks) ↔ t.ChunkFits codec chunk ∧
      ((t.relay codec chunk).2.2 → (t.relay codec chunk).2.1.TotalsFit codec chunks) := by
  cases t with
  | passthrough => simp [TotalsFit, ChunkFits, relay]
  | o2c s =>
    have hok := @OpenaiToClaudeStreamState.isOk_processChunk codec chunk s
    rw [relay, TotalsFit, untilUnreadable, ChunkFits, ← hok]
    rcases OpenaiToClaudeStreamState.processChunk codec chunk s with ⟨_ | _, s'⟩
    · simp [Except.isOk, Except.toBool]
    · simp [Except.isOk, Except.toBool, TotalsFit, or_imp, forall_and]
  | c2o parser s =>
    obtain ⟨hinput, houtput⟩ := @relayFrames_counts codec
      (SseFrameParser.feed chunk parser).1 s
    rw [TotalsFit, eventsRead, totalsFit_append, ← hinput, ← houtput]
    simp [ChunkFits, relay, TotalsFit]

/-- The chunks that are looked at after a chunk. -/
theorem chunksRead_cons (chunk : Bytes) (chunks : List Bytes) (t : StreamTranslation) :
    chunksRead codec t (chunk :: chunks) = chunk ::
      if (t.relay codec chunk).2.2 then chunksRead codec (t.relay codec chunk).2.1 chunks
      else [] := by
  cases t with
  | passthrough => rfl
  | o2c s =>
    have hok := @OpenaiToClaudeStreamState.isOk_processChunk codec chunk s
    rw [relay, chunksRead, untilUnreadable, ← hok]
    rcases OpenaiToClaudeStreamState.processChunk codec chunk s with ⟨_ | _, s'⟩ <;> rfl
  | c2o parser s => rfl

end StreamTranslation

/-! ### The usage of the chunks -/

/-- `Usage.add` with its additions checked. -/
def Usage.addChecked (self other : Usage) : Option Usage := do
  let promptTokens ← checkedAdd self.promptTokens other.promptTokens
  let completionTokens ← checkedAdd self.completionTokens other.completionTokens
  let totalTokens ← checkedAdd self.totalTokens other.totalTokens
  return ⟨promptTokens, completionTokens, totalTokens⟩

/-- `Counts.usage` with its addition checked. -/
def ClaudeAdaptor.Counts.usageChecked (counts : Counts) : Option (Option Usage) :=
  if counts.inputTokens.isSome || counts.outputTokens.isSome then do
    let input := counts.inputTokens.getD 0
    let output := counts.outputTokens.getD 0
    let total ← checkedAdd input output
    return some ⟨input, output, total⟩
  else some none

variable (codec : Codec)

/-- `extractUsage` with its addition checked. -/
def extractUsageChecked (provider : ChannelProvider) (chunk : Bytes) : Option (Option Usage) :=
  match provider with
  | .openaiCompatible => some (OpenaiAdaptor.extractUsage codec chunk)
  | .anthropic => (((Text.lines (Utf8.lossy chunk)).filterMap
      (ClaudeAdaptor.lineEvent codec)).foldl ClaudeAdaptor.readEvent ⟨none, none⟩).usageChecked

/-- `addUsage` with its additions checked. -/
def addUsageChecked (provider : ChannelProvider) (usageAcc : Usage) (chunk : Bytes) :
    Option Usage := do
  match ← extractUsageChecked codec provider chunk with
  | some usage => usageAcc.addChecked usage
  | none => return usageAcc

/-- `relayChunks` with its additions checked. -/
def relayChunksChecked (provider : ChannelProvider) : List Bytes → Usage → StreamTranslation →
    Option (List (ProxyResult Bytes) × Usage)
  | [], usageAcc, _ => some ([], usageAcc)
  | chunk :: chunks, usageAcc, t => do
    let usageAcc ← addUsageChecked codec provider usageAcc chunk
    match ← t.relayChecked codec chunk with
    | (sent, t', true) => do
      let (sent', usageAcc') ← relayChunksChecked provider chunks usageAcc t'
      return (sent ++ sent', usageAcc')
    | (sent, _, false) => return (sent, usageAcc)

/-- `streamSseResponse` with its additions checked. -/
def streamSseResponseChecked (entryFormat : EntryFormat) (adaptorProvider : ChannelProvider)
    (created : UInt64) (chunks : List Bytes) : Option (List (ProxyResult Bytes) × Usage) :=
  relayChunksChecked codec adaptorProvider chunks .zero (.pick entryFormat adaptorProvider created)

/-- The total of a usage, which an OpenAI upstream reports and of a Claude upstream is added up. -/
def Usage.total (provider : ChannelProvider) (usage : Usage) : ℕ :=
  match provider with
  | .openaiCompatible => usage.totalTokens.toNat
  | .anthropic => usage.promptTokens.toNat + usage.completionTokens.toNat

/-- The counts of usages fit, together with those before. -/
structure CountsAddUp (provider : ChannelProvider) (usageAcc : Usage) (usages : List Usage) :
    Prop where
  prompt : usageAcc.promptTokens.toNat + (usages.map fun usage => usage.promptTokens.toNat).sum <
    2 ^ 64
  completion : usageAcc.completionTokens.toNat +
    (usages.map fun usage => usage.completionTokens.toNat).sum < 2 ^ 64
  total : usageAcc.totalTokens.toNat + (usages.map (Usage.total provider)).sum < 2 ^ 64

/-- The usages of the chunks that are looked at. -/
def usagesRead (provider : ChannelProvider) (t : StreamTranslation) (chunks : List Bytes) :
    List Usage :=
  (t.chunksRead codec chunks).filterMap (extractUsage codec provider)

variable {codec} {provider : ChannelProvider}

theorem countsAddUp_nil (usageAcc : Usage) : CountsAddUp provider usageAcc [] := by
  constructor <;> exact UInt64.toNat_lt _

theorem checks_extractUsage (chunk : Bytes) :
    Checks (∀ usage ∈ extractUsage codec provider chunk, usage.total provider < 2 ^ 64)
      (extractUsage codec provider chunk) (extractUsageChecked codec provider chunk) := by
  cases provider with
  | openaiCompatible =>
    refine (Checks.pure _).congr (iff_of_true trivial fun usage _ => ?_)
    exact usage.totalTokens.toNat_lt
  | anthropic =>
    rw [extractUsage, ClaudeAdaptor.extractUsage, extractUsageChecked]
    generalize List.foldl _ _ _ = counts
    unfold ClaudeAdaptor.Counts.usage ClaudeAdaptor.Counts.usageChecked
    split
    · let input := counts.inputTokens.getD 0
      let output := counts.outputTokens.getD 0
      have htotal := (checks_add input output).map fun total => some (Usage.mk input output total)
      exact htotal.congr (by simp [Usage.total, input, output])
    · exact (Checks.pure none).congr (by simp)

/-- A total that fits is the one that was added up. -/
theorem totalTokens_of_lt {chunk : Bytes} {usage : Usage}
    (husage : usage ∈ extractUsage codec provider chunk) (h : usage.total provider < 2 ^ 64) :
    usage.totalTokens.toNat = usage.total provider := by
  cases provider with
  | openaiCompatible => rfl
  | anthropic =>
    rw [extractUsage, ClaudeAdaptor.extractUsage] at husage
    revert husage
    generalize List.foldl _ _ _ = counts
    unfold ClaudeAdaptor.Counts.usage
    split
    · intro husage
      obtain rfl := Option.some_inj.mp husage
      exact toNat_add_of_lt h
    · intro husage
      cases husage

theorem checks_usage_add (self other : Usage) :
    Checks (self.promptTokens.toNat + other.promptTokens.toNat < 2 ^ 64 ∧
        self.completionTokens.toNat + other.completionTokens.toNat < 2 ^ 64 ∧
        self.totalTokens.toNat + other.totalTokens.toNat < 2 ^ 64)
      (self.add other) (self.addChecked other) :=
  (checks_add _ _).bind fun _ => (checks_add _ _).bind fun _ =>
    (checks_add _ _).map fun total => Usage.mk (self.promptTokens + other.promptTokens)
      (self.completionTokens + other.completionTokens) total

theorem checks_addUsage (usageAcc : Usage) (chunk : Bytes) :
    Checks (CountsAddUp provider usageAcc (extractUsage codec provider chunk).toList)
      (addUsage codec provider usageAcc chunk)
      (addUsageChecked codec provider usageAcc chunk) := by
  have hextract := @checks_extractUsage codec provider chunk
  have htotal (usage) := @totalTokens_of_lt codec provider chunk usage
  unfold addUsage addUsageChecked
  cases husage : extractUsage codec provider chunk with
  | none =>
    rw [husage] at hextract
    refine (hextract.bind fun _ => Checks.pure usageAcc).congr (iff_of_true (by simp) ?_)
    exact countsAddUp_nil usageAcc
  | some usage =>
    rw [husage] at hextract htotal
    refine (hextract.bind fun _ => checks_usage_add usageAcc usage).congr ⟨?_, ?_⟩
    · rintro ⟨hfits, hprompt, hcompletion, hsum⟩
      rw [htotal usage rfl (hfits usage rfl)] at hsum
      exact ⟨by simpa using hprompt, by simpa using hcompletion, by simpa using hsum⟩
    · rintro ⟨hprompt, hcompletion, hsum⟩
      simp only [Option.toList_some, List.map_cons, List.map_nil, List.sum_cons, List.sum_nil,
        Nat.add_zero] at hprompt hcompletion hsum
      have hfits : usage.total provider < 2 ^ 64 := by omega
      rw [← htotal usage rfl hfits] at hsum
      exact ⟨by simpa using hfits, hprompt, hcompletion, hsum⟩

/-- Counts that fit are added without wrapping. -/
theorem addUsage_toNat {usageAcc : Usage} {chunk : Bytes}
    (h : CountsAddUp provider usageAcc (extractUsage codec provider chunk).toList) :
    let usages := (extractUsage codec provider chunk).toList
    (addUsage codec provider usageAcc chunk).promptTokens.toNat =
        usageAcc.promptTokens.toNat + (usages.map fun usage => usage.promptTokens.toNat).sum ∧
      (addUsage codec provider usageAcc chunk).completionTokens.toNat =
        usageAcc.completionTokens.toNat +
          (usages.map fun usage => usage.completionTokens.toNat).sum ∧
      (addUsage codec provider usageAcc chunk).totalTokens.toNat =
        usageAcc.totalTokens.toNat + (usages.map (Usage.total provider)).sum := by
  have htotal (usage) := @totalTokens_of_lt codec provider chunk usage
  unfold addUsage
  cases husage : extractUsage codec provider chunk with
  | none => exact ⟨rfl, rfl, rfl⟩
  | some usage =>
    rw [husage] at h htotal
    obtain ⟨hprompt, hcompletion, hsum⟩ := h
    simp only [Option.toList_some, List.map_cons, List.map_nil, List.sum_cons, List.sum_nil,
      Nat.add_zero] at hprompt hcompletion hsum ⊢
    have htotal := htotal usage rfl (by omega)
    rw [← htotal] at hsum ⊢
    exact ⟨toNat_add_of_lt hprompt, toNat_add_of_lt hcompletion, toNat_add_of_lt hsum⟩

/-- Usages one after another: the counts before are those of a sum that did not wrap. -/
theorem countsAddUp_addUsage {usageAcc : Usage} {chunk : Bytes} (usages : List Usage)
    (h : CountsAddUp provider usageAcc (extractUsage codec provider chunk).toList) :
    CountsAddUp provider usageAcc ((extractUsage codec provider chunk).toList ++ usages) ↔
      CountsAddUp provider (addUsage codec provider usageAcc chunk) usages := by
  obtain ⟨hprompt, hcompletion, htotal⟩ := addUsage_toNat h
  constructor
  · rintro ⟨hp, hc, ht⟩
    simp only [List.map_append, List.sum_append, ← Nat.add_assoc] at hp hc ht
    exact ⟨hprompt ▸ hp, hcompletion ▸ hc, htotal ▸ ht⟩
  · rintro ⟨hp, hc, ht⟩
    rw [hprompt] at hp
    rw [hcompletion] at hc
    rw [htotal] at ht
    constructor <;> simpa only [List.map_append, List.sum_append, ← Nat.add_assoc]

theorem CountsAddUp.of_append {usageAcc : Usage} {usages usages' : List Usage}
    (h : CountsAddUp provider usageAcc (usages ++ usages')) :
    CountsAddUp provider usageAcc usages := by
  obtain ⟨hprompt, hcompletion, htotal⟩ := h
  simp only [List.map_append, List.sum_append] at hprompt hcompletion htotal
  constructor <;> omega

theorem usagesRead_cons (chunk : Bytes) (chunks : List Bytes) (t : StreamTranslation) :
    usagesRead codec provider t (chunk :: chunks) =
      (extractUsage codec provider chunk).toList ++
        if (t.relay codec chunk).2.2 then
          usagesRead codec provider (t.relay codec chunk).2.1 chunks
        else [] := by
  rw [usagesRead, StreamTranslation.chunksRead_cons]
  cases husage : extractUsage codec provider chunk <;>
    cases (t.relay codec chunk).2.2 <;> simp [husage, usagesRead]

/-- **The relay of a debug build** comes through where the counts of the chunks fit together, and
the totals that the state machine makes of them too. -/
theorem checks_relayChunks (chunks : List Bytes) (usageAcc : Usage) (t : StreamTranslation) :
    Checks (CountsAddUp provider usageAcc (usagesRead codec provider t chunks) ∧
        t.TotalsFit codec chunks)
      (relayChunks codec provider chunks usageAcc t)
      (relayChunksChecked codec provider chunks usageAcc t) := by
  induction chunks generalizing usageAcc t with
  | nil =>
    refine (Checks.pure _).congr (iff_of_true trivial ?_)
    cases t <;> exact ⟨countsAddUp_nil usageAcc, by simp [StreamTranslation.TotalsFit,
      StreamTranslation.untilUnreadable, StreamTranslation.eventsRead,
      ClaudeToOpenaiStreamState.TotalsFit]⟩
  | cons chunk chunks ih =>
    have hcount := @checks_addUsage codec provider usageAcc chunk
    have hrelay := @StreamTranslation.checks_relay codec chunk t
    rw [usagesRead_cons, t.totalsFit_cons, relayChunks, relayChunksChecked]
    generalize hr : t.relay codec chunk = r at hrelay
    obtain ⟨sent, t', goesOn⟩ := r
    cases goesOn with
    | true =>
      have hrest := (ih (addUsage codec provider usageAcc chunk) t').map fun r => (sent ++ r.1, r.2)
      refine (hcount.bind fun _ => hrelay.bind fun _ => hrest).congr ?_
      simp only [if_true, forall_const]
      constructor
      · rintro ⟨hchunk, htotals, hcounts, hrest⟩
        exact ⟨(countsAddUp_addUsage _ hchunk).mpr hcounts, htotals, hrest⟩
      · rintro ⟨hcounts, htotals, hrest⟩
        have hchunk := hcounts.of_append
        exact ⟨hchunk, htotals, (countsAddUp_addUsage _ hchunk).mp hcounts, hrest⟩
    | false =>
      refine Checks.congr (Checks.bind hcount fun _ => Checks.bind (Q := True) hrelay fun _ =>
        Checks.pure _) ?_
      simp

/-- The usage at the end holds the sums of the counts. -/
theorem relayChunks_toNat (chunks : List Bytes) {usageAcc : Usage} {t : StreamTranslation}
    (h : CountsAddUp provider usageAcc (usagesRead codec provider t chunks)) :
    let usages := usagesRead codec provider t chunks
    (relayChunks codec provider chunks usageAcc t).2.promptTokens.toNat =
        usageAcc.promptTokens.toNat + (usages.map fun usage => usage.promptTokens.toNat).sum ∧
      (relayChunks codec provider chunks usageAcc t).2.completionTokens.toNat =
        usageAcc.completionTokens.toNat +
          (usages.map fun usage => usage.completionTokens.toNat).sum := by
  induction chunks generalizing usageAcc t with
  | nil => cases t <;> exact ⟨rfl, rfl⟩
  | cons chunk chunks ih =>
    rw [usagesRead_cons] at h ⊢
    obtain ⟨hprompt, hcompletion, -⟩ := addUsage_toNat h.of_append
    rw [countsAddUp_addUsage _ h.of_append] at h
    rw [relayChunks]
    generalize t.relay codec chunk = r at h
    obtain ⟨sent, t', _ | _⟩ := r
    · simpa using ⟨hprompt, hcompletion⟩
    · obtain ⟨hprompts, hcompletions⟩ := ih (by simpa using h)
      simp [hprompts, hprompt, hcompletions, hcompletion, Nat.add_assoc]

end Chennix
