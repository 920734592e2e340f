import Chennix.Common.Types
import Chennix.Foundations.Json
import Chennix.Foundations.Lossy

/-!
# Usage in streams

What an adaptor reads off a network chunk about the tokens that were used. Each chunk is read for
itself, line by line.

## Main definitions

* `OpenaiAdaptor.extractUsage`, `ClaudeAdaptor.extractUsage` — the usage in a chunk
* `OpenaiAdaptor.Reports`, `ClaudeAdaptor.Reports` — the lines that report tokens

## Main results

* `extractUsage_of_last`, `exists_reports_of_extractUsage` — a chunk has used tokens if its last
  line reports some, and only if some line does
-/

namespace Chennix

open Foundations Json

variable (codec : Codec)

/-- What a data line holds. -/
def dataText (line : String) : Option String := Text.stripPrefix "data: " line

namespace OpenaiAdaptor

/-- The counts that a usage gives; a count that is missing is zero. -/
def readUsage (usage : Json) : Usage :=
  ⟨(usage.getU64 "prompt_tokens").getD 0, (usage.getU64 "completion_tokens").getD 0,
    (usage.getU64 "total_tokens").getD 0⟩

/-- The usage in a data line, unless it is null. -/
def lineUsage (line : String) : Option Usage :=
  (dataText line).bind fun jsonStr =>
    if Text.trim jsonStr = "[DONE]" then none
    else ((codec.fromStr jsonStr).toOption.bind fun v =>
        (v.get "usage").filter fun usage => !usage.isNull).map readUsage

/-- `extract_usage`: the last line with a usage counts. -/
def extractUsage (chunk : Bytes) : Option Usage :=
  ((Text.lines (Utf8.lossy chunk)).filterMap (lineUsage codec)).getLast?

/-- A usage with a count that is not zero. -/
def EventReports (v : Json) : Prop :=
  ∃ usage, v.get "usage" = some usage ∧
    ∃ k ∈ ["prompt_tokens", "completion_tokens", "total_tokens"],
      ∃ n, usage.getU64 k = some n ∧ n ≠ 0

/-- A data line with such a usage. -/
def Reports (line : String) : Prop :=
  ∃ jsonStr v, dataText line = some jsonStr ∧ Text.trim jsonStr ≠ "[DONE]" ∧
    codec.fromStr jsonStr = .ok v ∧ EventReports v

end OpenaiAdaptor

namespace ClaudeAdaptor

/-- The counts that were found so far. -/
structure Counts where
  inputTokens : Option UInt64
  outputTokens : Option UInt64

/-- The event in a data line. -/
def lineEvent (line : String) : Option Json :=
  (dataText line).bind fun jsonStr => (codec.fromStr jsonStr).toOption

/-- The output tokens are those of the `message_delta`, the input tokens those of the
`message_start`. A usage without a count clears what was found. -/
def readEvent (counts : Counts) (v : Json) : Counts where
  inputTokens :=
    if v.getStr "type" = some "message_start" then
      (((v.get "message").bind (·.get "usage")).map (·.getU64 "input_tokens")).getD
        counts.inputTokens
    else counts.inputTokens
  outputTokens :=
    if v.getStr "type" = some "message_delta" then
      ((v.get "usage").map (·.getU64 "output_tokens")).getD counts.outputTokens
    else counts.outputTokens

def Counts.usage (counts : Counts) : Option Usage :=
  if counts.inputTokens.isSome || counts.outputTokens.isSome then
    let input := counts.inputTokens.getD 0
    let output := counts.outputTokens.getD 0
    some ⟨input, output, input + output⟩
  else none

/-- `extract_usage`: the lines one after another. -/
def extractUsage (chunk : Bytes) : Option Usage :=
  (((Text.lines (Utf8.lossy chunk)).filterMap (lineEvent codec)).foldl readEvent
    ⟨none, none⟩).usage

/-- A `message_delta` with output tokens, or a `message_start` with input tokens. -/
def EventReports (v : Json) : Prop :=
  (v.getStr "type" = some "message_delta" ∧
    ∃ n, (v.get "usage").bind (·.getU64 "output_tokens") = some n ∧ n ≠ 0) ∨
  (v.getStr "type" = some "message_start" ∧
    ∃ n, ((v.get "message").bind (·.get "usage")).bind (·.getU64 "input_tokens") = some n ∧ n ≠ 0)

/-- A data line with such an event. -/
def Reports (line : String) : Prop :=
  ∃ jsonStr v, dataText line = some jsonStr ∧ codec.fromStr jsonStr = .ok v ∧ EventReports v

end ClaudeAdaptor

/-- `extract_usage` of the adaptor that `pick_adaptor` picks. -/
def extractUsage (provider : ChannelProvider) (chunk : Bytes) : Option Usage :=
  match provider with
  | .openaiCompatible => OpenaiAdaptor.extractUsage codec chunk
  | .anthropic => ClaudeAdaptor.extractUsage codec chunk

/-- The line reports tokens to the adaptor. -/
def Reports (provider : ChannelProvider) (line : String) : Prop :=
  match provider with
  | .openaiCompatible => OpenaiAdaptor.Reports codec line
  | .anthropic => ClaudeAdaptor.Reports codec line

variable {codec}

/-! ### Counting a chunk -/

theorem toOption_eq_some {α β : Type} {x : Except α β} {a : β} :
    x.toOption = some a ↔ x = .ok a := by
  cases x with
  | error e => exact iff_of_false nofun nofun
  | ok b => exact Option.some_inj.trans (Except.ok.injEq b a ▸ Iff.rfl)

namespace OpenaiAdaptor

theorem getD_ne_zero {x : Option UInt64} : x.getD 0 ≠ 0 ↔ ∃ n, x = some n ∧ n ≠ 0 := by
  cases x with
  | none => exact iff_of_false (fun h => h rfl) nofun
  | some n => simp

theorem readUsage_ne_zero {usage : Json} :
    readUsage usage ≠ .zero ↔ ∃ k ∈ ["prompt_tokens", "completion_tokens", "total_tokens"],
      ∃ n, usage.getU64 k = some n ∧ n ≠ 0 := by
  simp only [← getD_ne_zero, List.mem_cons, List.not_mem_nil, or_false, exists_eq_or_imp,
    exists_eq_left, readUsage, Usage.zero, ne_eq, Usage.mk.injEq, not_and_or]

theorem isNull_eq_false {usage : Json} {k : String} {n : UInt64} (h : usage.getU64 k = some n) :
    usage.isNull = false := by
  cases usage with
  | null => cases h
  | bool b => rfl
  | number x => rfl
  | string s => rfl
  | array l => rfl
  | object members => rfl

/-- What a line reports is its usage. -/
theorem reports_iff {line : String} :
    Reports codec line ↔ ∃ usage, lineUsage codec line = some usage ∧ usage ≠ .zero := by
  constructor
  · rintro ⟨jsonStr, v, hline, hdone, hv, usage, husage, hcount⟩
    refine ⟨readUsage usage, ?_, readUsage_ne_zero.mpr hcount⟩
    obtain ⟨k, _, n, hn, _⟩ := hcount
    rw [lineUsage, hline, Option.bind_some, if_neg hdone, hv]
    simp [Except.toOption, husage, isNull_eq_false hn]
  · rintro ⟨counts, hcounts, hne⟩
    obtain ⟨jsonStr, hline, hcounts⟩ := Option.bind_eq_some_iff.mp hcounts
    split at hcounts
    · cases hcounts
    · rename_i hdone
      obtain ⟨usage, husage, rfl⟩ := Option.map_eq_some_iff.mp hcounts
      obtain ⟨v, hv, hfilter⟩ := Option.bind_eq_some_iff.mp husage
      exact ⟨jsonStr, v, hline, hdone, toOption_eq_some.mp hv, usage,
        (Option.filter_eq_some_iff.mp hfilter).1, readUsage_ne_zero.mp hne⟩

end OpenaiAdaptor

namespace ClaudeAdaptor

theorem reports_iff {line : String} :
    Reports codec line ↔ ∃ v, lineEvent codec line = some v ∧ EventReports v := by
  constructor
  · rintro ⟨jsonStr, v, hline, hv, hreports⟩
    refine ⟨v, ?_, hreports⟩
    rw [lineEvent, hline, Option.bind_some, hv]
    rfl
  · rintro ⟨v, hevent, hreports⟩
    obtain ⟨jsonStr, hline, hv⟩ := Option.bind_eq_some_iff.mp hevent
    exact ⟨jsonStr, v, hline, toOption_eq_some.mp hv, hreports⟩

theorem Counts.usage_eq_zero {counts : Counts} (hinput : counts.inputTokens.getD 0 = 0)
    (houtput : counts.outputTokens.getD 0 = 0) : counts.usage.getD .zero = .zero := by
  rw [Counts.usage, hinput, houtput]
  split <;> rfl

theorem Counts.usage_ne_zero {counts : Counts}
    (h : (∃ n, counts.inputTokens = some n ∧ n ≠ 0) ∨ ∃ n, counts.outputTokens = some n ∧ n ≠ 0) :
    counts.usage.getD .zero ≠ .zero := by
  intro hzero
  rcases h with ⟨n, hn, hne⟩ | ⟨n, hn, hne⟩
  · rw [Counts.usage, hn] at hzero
    exact hne (congrArg Usage.promptTokens hzero)
  · rw [Counts.usage, hn, Option.isSome_some, Bool.or_true, if_pos rfl] at hzero
    exact hne (congrArg Usage.completionTokens hzero)

/-- An event that reports nothing leaves counts of nothing at nothing. -/
theorem readEvent_zero {counts : Counts} {v : Json} (hv : ¬ EventReports v)
    (hinput : counts.inputTokens.getD 0 = 0) (houtput : counts.outputTokens.getD 0 = 0) :
    (readEvent counts v).inputTokens.getD 0 = 0 ∧ (readEvent counts v).outputTokens.getD 0 = 0 := by
  rw [EventReports, not_or, not_and, not_and] at hv
  constructor
  · rw [readEvent]
    dsimp only
    split
    · rename_i htype
      have hnone := hv.2 htype
      cases husage : (v.get "message").bind (·.get "usage") with
      | none => exact hinput
      | some usage =>
        rw [husage, Option.bind_some] at hnone
        rw [Option.map_some, Option.getD_some]
        cases hn : usage.getU64 "input_tokens" with
        | none => rfl
        | some n => exact not_not.mp fun hne => hnone ⟨n, hn, hne⟩
    · exact hinput
  · rw [readEvent]
    dsimp only
    split
    · rename_i htype
      have hnone := hv.1 htype
      cases husage : v.get "usage" with
      | none => exact houtput
      | some usage =>
        rw [husage, Option.bind_some] at hnone
        rw [Option.map_some, Option.getD_some]
        cases hn : usage.getU64 "output_tokens" with
        | none => rfl
        | some n => exact not_not.mp fun hne => hnone ⟨n, hn, hne⟩
    · exact houtput

theorem foldl_readEvent_zero {events : List Json} (h : ∀ v ∈ events, ¬ EventReports v)
    {counts : Counts} (hinput : counts.inputTokens.getD 0 = 0)
    (houtput : counts.outputTokens.getD 0 = 0) :
    ((events.foldl readEvent counts).usage).getD .zero = .zero := by
  induction events generalizing counts with
  | nil => exact Counts.usage_eq_zero hinput houtput
  | cons v events ih =>
    obtain ⟨hinput', houtput'⟩ := readEvent_zero (h v List.mem_cons_self) hinput houtput
    exact ih (fun v' hv' => h v' (List.mem_cons_of_mem _ hv')) hinput' houtput'

/-- The last event that reports tokens is counted. -/
theorem readEvent_usage {v : Json} (h : EventReports v) (counts : Counts) :
    (readEvent counts v).usage.getD .zero ≠ .zero := by
  refine Counts.usage_ne_zero ?_
  rcases h with ⟨htype, n, hn, hne⟩ | ⟨htype, n, hn, hne⟩
  · obtain ⟨usage, husage, hcount⟩ := Option.bind_eq_some_iff.mp hn
    refine .inr ⟨n, ?_, hne⟩
    rw [readEvent]
    dsimp only
    rw [if_pos htype, husage, Option.map_some, Option.getD_some, hcount]
  · obtain ⟨usage, husage, hcount⟩ := Option.bind_eq_some_iff.mp hn
    refine .inl ⟨n, ?_, hne⟩
    rw [readEvent]
    dsimp only
    rw [if_pos htype, husage, Option.map_some, Option.getD_some, hcount]

end ClaudeAdaptor

/-- **A last line** that reports tokens is counted. -/
theorem extractUsage_of_last {provider : ChannelProvider} {chunk : Bytes} {before : List String}
    {line : String} (hlines : Text.lines (Utf8.lossy chunk) = before ++ [line])
    (h : Reports codec provider line) :
    (extractUsage codec provider chunk).getD .zero ≠ .zero := by
  cases provider with
  | openaiCompatible =>
    obtain ⟨usage, husage, hne⟩ := OpenaiAdaptor.reports_iff.mp h
    show ((OpenaiAdaptor.extractUsage codec chunk).getD .zero) ≠ .zero
    have hlast : [line].filterMap (OpenaiAdaptor.lineUsage codec) = [usage] := by
      rw [List.filterMap_cons, husage]
      rfl
    rw [OpenaiAdaptor.extractUsage, hlines, List.filterMap_append, hlast, List.getLast?_concat]
    exact hne
  | anthropic =>
    obtain ⟨v, hv, hreports⟩ := ClaudeAdaptor.reports_iff.mp h
    show ((ClaudeAdaptor.extractUsage codec chunk).getD .zero) ≠ .zero
    have hlast : [line].filterMap (ClaudeAdaptor.lineEvent codec) = [v] := by
      rw [List.filterMap_cons, hv]
      rfl
    rw [ClaudeAdaptor.extractUsage, hlines, List.filterMap_append, hlast, List.foldl_append]
    exact ClaudeAdaptor.readEvent_usage hreports _

/-- **Only lines** that report tokens are counted. -/
theorem exists_reports_of_extractUsage {provider : ChannelProvider} {chunk : Bytes}
    (h : (extractUsage codec provider chunk).getD .zero ≠ .zero) :
    ∃ line ∈ Text.lines (Utf8.lossy chunk), Reports codec provider line := by
  cases provider with
  | openaiCompatible =>
    cases hlast : ((Text.lines (Utf8.lossy chunk)).filterMap
        (OpenaiAdaptor.lineUsage codec)).getLast? with
    | none =>
      refine absurd ?_ h
      show ((OpenaiAdaptor.extractUsage codec chunk).getD .zero) = .zero
      rw [OpenaiAdaptor.extractUsage, hlast]
      rfl
    | some usage =>
      obtain ⟨line, hline, husage⟩ := List.mem_filterMap.mp (List.mem_of_getLast? hlast)
      refine ⟨line, hline, OpenaiAdaptor.reports_iff.mpr ⟨usage, husage, fun hzero => h ?_⟩⟩
      show ((OpenaiAdaptor.extractUsage codec chunk).getD .zero) = .zero
      rw [OpenaiAdaptor.extractUsage, hlast, hzero]
      rfl
  | anthropic =>
    by_contra hnone
    refine h (ClaudeAdaptor.foldl_readEvent_zero (fun v hv hreports => hnone ?_) rfl rfl)
    obtain ⟨line, hline, hevent⟩ := List.mem_filterMap.mp hv
    exact ⟨line, hline, ClaudeAdaptor.reports_iff.mpr ⟨v, hevent, hreports⟩⟩

end Chennix
