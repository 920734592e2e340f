import Chennix.Core.Executor
import Chennix.Translator.Conversation

/-!
# What an upstream is asked for

The body of a request on its way to an upstream is the client's own, or translated. Two things in it
have to be what the server acts on: the limit of the completion, by which a request is charged in
advance, and the flag that the response is to be streamed.

## Main definitions

* `completionLimit`, `CapSent` — the limit an upstream is given, and that it is the billed one
* `streamBody`, `Streamed` — the body an adaptor posts, and that it asks for a stream
* `CapAgrees` — the requests whose limit is written where the translation reads it

## Main results

* `capSent_iff` — the billed limit is sent exactly if it is written so
* `streamed_iff` — streaming requests are streamed but for OpenAI clients of Claude channels
-/

namespace Chennix

open Foundations Json

/-- The limit of the completion an upstream is given. -/
def completionLimit (out : Json) : Option Json :=
  (out.get "max_completion_tokens").or (out.get "max_tokens")

/-- The members that limit the completion. -/
def limitFields : EntryFormat → List String
  | .openAI => ["max_completion_tokens", "max_tokens"]
  | .claude => ["max_tokens"]

/-- A member is a positive integer. -/
def Positive (body : Json) (field : String) : Prop := ∃ n, body.getU64 field = some n ∧ 0 < n

/-- The limit that is billed is the one that is sent, and there is one if the client sets one. -/
structure CapSent (codec : Codec) (entryFormat : EntryFormat) (body : Json)
    (channel : ChannelConfig) (upstreamModelName : String) : Prop where
  sent : ∀ n, extractMaxTokens body entryFormat = some n →
    ∃ out, prepareRequest codec entryFormat body channel upstreamModelName =
      .ok (out, channel.provider) ∧ completionLimit out = some (ofU64 n)
  read : (∃ field ∈ limitFields entryFormat, Positive body field) →
    extractMaxTokens body entryFormat ≠ none

/-- What the client has written is what the translation reads. A newer name of the limit hides the
older one even if it holds no limit, and is not translated. -/
def CapAgrees (body : Json) : EntryFormat → ChannelProvider → Prop
  | .openAI, .openaiCompatible =>
    body.get "max_completion_tokens" ≠ none → ¬ Positive body "max_completion_tokens" →
      ¬ Positive body "max_tokens"
  | .openAI, .anthropic =>
    (body.get "max_completion_tokens" ≠ none → ¬ Positive body "max_completion_tokens" →
      ¬ Positive body "max_tokens") ∧
    ∀ n, body.getU64 "max_completion_tokens" = some n → 0 < n →
      (body.getU64 "max_tokens").getD 4096 = n
  | .claude, .anthropic =>
    ∀ n, body.getU64 "max_tokens" = some n → 0 < n →
      ∀ v ∈ body.get "max_completion_tokens", v = ofU64 n
  | .claude, .openaiCompatible => True

/-- The body that `execute_stream` posts: for OpenAI-compatible upstreams usage is asked for. -/
def streamBody : ChannelProvider → Json → Json
  | .openaiCompatible, body =>
    if (body.get "stream").bind asBool = some true then
      match body with
      | .object members =>
        .object (insertMember "stream_options" (ofMembers [("include_usage", .bool true)]) members)
      | other => other
    else body
  | .anthropic, body => body

/-- The upstream is asked for a stream of its own model. -/
structure StreamRequest (provider : ChannelProvider) (upstreamModelName : String)
    (posted : Json) : Prop where
  object : ∃ members, posted = .object members
  stream : posted.get "stream" = some (.bool true)
  model : posted.get "model" = some (.string upstreamModelName)
  usage : provider = .openaiCompatible →
    (posted.get "stream_options").bind (·.get "include_usage") = some (.bool true)

/-- What is posted is a request for a stream. -/
def Streamed (codec : Codec) (entryFormat : EntryFormat) (body : Json) (channel : ChannelConfig)
    (upstreamModelName : String) : Prop :=
  ∃ out provider, prepareRequest codec entryFormat body channel upstreamModelName =
      .ok (out, provider) ∧
    StreamRequest channel.provider upstreamModelName (streamBody provider out)

variable {codec : Codec} {body out : Json} {entryFormat : EntryFormat} {channel : ChannelConfig}
  {upstreamModelName : String}

/-! ### Members of the outgoing body -/

theorem get_swapModel {k : String} (hk : k ≠ "model") :
    (swapModel body upstreamModelName).get k = body.get k := by
  cases body with
  | object members => rw [swapModel, get_insertMember, if_neg hk.symm]
  | _ => rfl

theorem get_model_swapModel (h : ∃ members, body = .object members) :
    (swapModel body upstreamModelName).get "model" = some (.string upstreamModelName) := by
  obtain ⟨members, rfl⟩ := h
  rw [swapModel, get_insertMember, if_pos rfl]

/-! ### The limit of the completion -/

theorem completionLimit_swapModel :
    completionLimit (swapModel body upstreamModelName) = completionLimit body := by
  rw [completionLimit, get_swapModel (by decide), get_swapModel (by decide), completionLimit]

theorem extractMaxTokens_claude {n : UInt64} :
    extractMaxTokens body .claude = some n ↔ body.getU64 "max_tokens" = some n ∧ 0 < n := by
  show Option.filter _ (body.getU64 "max_tokens") = some n ↔ _
  rw [Option.filter_eq_some_iff, decide_eq_true_iff]

/-- The older name is read where the newer one does not occur. -/
theorem extractMaxTokens_openAI {n : UInt64} :
    extractMaxTokens body .openAI = some n ↔
      (body.getU64 "max_completion_tokens" = some n ∨
        body.get "max_completion_tokens" = none ∧ body.getU64 "max_tokens" = some n) ∧ 0 < n := by
  show Option.filter _ (((body.get "max_completion_tokens").or _).bind asU64) = some n ↔ _
  rw [Option.filter_eq_some_iff, decide_eq_true_iff, getU64]
  refine and_congr_left fun _ => ?_
  cases hnew : body.get "max_completion_tokens" with
  | none => simp [getU64]
  | some v => simp

/-- A newer name that holds no limit hides the older one. -/
theorem read_openAI :
    ((∃ field ∈ limitFields .openAI, Positive body field) → extractMaxTokens body .openAI ≠ none) ↔
      (body.get "max_completion_tokens" ≠ none → ¬ Positive body "max_completion_tokens" →
        ¬ Positive body "max_tokens") := by
  constructor
  · rintro h hnew hpositive ⟨n, hn, hlt⟩
    obtain ⟨m, hm⟩ := Option.ne_none_iff_exists'.mp (h ⟨"max_tokens", by decide, n, hn, hlt⟩)
    obtain ⟨hm | ⟨hnone, _⟩, hlt⟩ := extractMaxTokens_openAI.mp hm
    · exact hpositive ⟨m, hm, hlt⟩
    · exact hnew hnone
  · rintro h ⟨field, hfield, n, hn, hlt⟩
    by_cases hpositive : Positive body "max_completion_tokens"
    · obtain ⟨m, hm, hlt⟩ := hpositive
      exact Option.ne_none_iff_exists'.mpr ⟨m, extractMaxTokens_openAI.mpr ⟨.inl hm, hlt⟩⟩
    · simp only [limitFields, List.mem_cons, List.not_mem_nil, or_false] at hfield
      rcases hfield with rfl | rfl
      · exact absurd ⟨n, hn, hlt⟩ hpositive
      · have hnone : body.get "max_completion_tokens" = none :=
          not_not.mp fun hnew => h hnew hpositive ⟨n, hn, hlt⟩
        exact Option.ne_none_iff_exists'.mpr
          ⟨n, extractMaxTokens_openAI.mpr ⟨.inr ⟨hnone, hn⟩, hlt⟩⟩

theorem read_claude (h : ∃ field ∈ limitFields .claude, Positive body field) :
    extractMaxTokens body .claude ≠ none := by
  obtain ⟨field, hfield, n, hn, hlt⟩ := h
  rw [List.mem_singleton.mp hfield] at hn
  exact Option.ne_none_iff_exists'.mpr ⟨n, extractMaxTokens_claude.mpr ⟨hn, hlt⟩⟩

/-- What is sent is what is translated, under another model's name. -/
theorem sent_iff {n : UInt64} {translated : Json}
    (h : prepareRequest codec entryFormat body channel upstreamModelName =
      .ok (swapModel translated upstreamModelName, channel.provider)) :
    (∃ out, prepareRequest codec entryFormat body channel upstreamModelName =
      .ok (out, channel.provider) ∧ completionLimit out = some (ofU64 n)) ↔
      completionLimit translated = some (ofU64 n) := by
  rw [h]
  constructor
  · rintro ⟨out, hout, hlimit⟩
    cases hout
    rwa [completionLimit_swapModel] at hlimit
  · exact fun hlimit => ⟨_, rfl, completionLimit_swapModel.trans hlimit⟩

/-- An unchanged body of an OpenAI client limits the completion as it is read. -/
theorem completionLimit_openAI {n : UInt64} (h : extractMaxTokens body .openAI = some n) :
    completionLimit body = some (ofU64 n) := by
  obtain ⟨hnew | ⟨hnone, hold⟩, _⟩ := extractMaxTokens_openAI.mp h
  · rw [completionLimit, getU64_eq_some.mp hnew, Option.some_or]
  · rw [completionLimit, hnone, Option.none_or, getU64_eq_some.mp hold]

section Prepared

variable (codec body upstreamModelName)

theorem prepareRequest_same (h : channel.provider = entryFormat.provider) :
    prepareRequest codec entryFormat body channel upstreamModelName =
      .ok (swapModel body upstreamModelName, channel.provider) := by
  obtain ⟨_, _, provider, _, _⟩ := channel
  obtain rfl : provider = entryFormat.provider := h
  cases entryFormat <;> rfl

theorem prepareRequest_o2c (h : channel.provider = .anthropic) :
    ∃ out, O2C.openaiToClaudeRequest codec body = .ok out ∧
      prepareRequest codec .openAI body channel upstreamModelName =
        .ok (swapModel out upstreamModelName, channel.provider) := by
  obtain ⟨_, _, provider, _, _⟩ := channel
  obtain rfl : provider = .anthropic := h
  exact ⟨_, rfl, rfl⟩

theorem prepareRequest_c2o (h : channel.provider = .openaiCompatible) :
    ∃ out, C2O.claudeToOpenaiRequest codec body = .ok out ∧
      prepareRequest codec .claude body channel upstreamModelName =
        .ok (swapModel out upstreamModelName, channel.provider) := by
  obtain ⟨_, _, provider, _, _⟩ := channel
  obtain rfl : provider = .openaiCompatible := h
  exact ⟨_, rfl, rfl⟩

end Prepared

/-- The translation for Claude channels reads the older name alone. -/
theorem sent_o2c_iff (h : O2C.openaiToClaudeRequest codec body = .ok out) :
    (∀ n, extractMaxTokens body .openAI = some n → completionLimit out = some (ofU64 n)) ↔
      ∀ n, body.getU64 "max_completion_tokens" = some n → 0 < n →
        (body.getU64 "max_tokens").getD 4096 = n := by
  have hmembers := O2C.openaiToClaudeRequest_members h
  have hlimit (n : UInt64) : completionLimit out = some (ofU64 n) ↔
      (body.getU64 "max_tokens").getD 4096 = n := by
    rw [completionLimit, hmembers.newerLimit, hmembers.maxTokens, Option.none_or, Option.some_inj,
      ofU64, ofU64, number.injEq, Number.posInt.injEq]
  constructor
  · intro h n hn hlt
    exact (hlimit n).mp (h n (extractMaxTokens_openAI.mpr ⟨.inl hn, hlt⟩))
  · intro h n hn
    refine (hlimit n).mpr ?_
    obtain ⟨hn | ⟨_, hn⟩, hlt⟩ := extractMaxTokens_openAI.mp hn
    · exact h n hn hlt
    · rw [hn, Option.getD_some]

/-- For Claude's own clients the newer name has no meaning, but it is passed on. -/
theorem sent_claude_iff :
    (∀ n, extractMaxTokens body .claude = some n → completionLimit body = some (ofU64 n)) ↔
      ∀ n, body.getU64 "max_tokens" = some n → 0 < n →
        ∀ v ∈ body.get "max_completion_tokens", v = ofU64 n := by
  refine forall_congr' fun n => ?_
  rw [extractMaxTokens_claude, and_imp]
  refine forall₂_congr fun hn _ => ?_
  rw [completionLimit, getU64_eq_some.mp hn]
  cases body.get "max_completion_tokens" <;> simp

/-- **The billed limit** is the one that is sent exactly if it is written where the translation
reads it. -/
theorem capSent_iff :
    CapSent codec entryFormat body channel upstreamModelName ↔
      CapAgrees body entryFormat channel.provider := by
  cases entryFormat with
  | openAI =>
    cases hprovider : channel.provider with
    | openaiCompatible =>
      have hsame : channel.provider = EntryFormat.openAI.provider := hprovider
      have hsent {n : UInt64} := sent_iff (n := n)
        (prepareRequest_same codec body upstreamModelName hsame)
      constructor
      · exact fun h => read_openAI.mp h.read
      · exact fun h => ⟨fun n hn => hsent.mpr (completionLimit_openAI hn), read_openAI.mpr h⟩
    | anthropic =>
      obtain ⟨out, hout, hprepare⟩ := prepareRequest_o2c codec body upstreamModelName hprovider
      constructor
      · intro h
        exact ⟨read_openAI.mp h.read,
          (sent_o2c_iff hout).mp fun n hn => (sent_iff hprepare).mp (h.sent n hn)⟩
      · rintro ⟨hread, hsent⟩
        exact ⟨fun n hn => (sent_iff hprepare).mpr ((sent_o2c_iff hout).mpr hsent n hn),
          read_openAI.mpr hread⟩
  | claude =>
    cases hprovider : channel.provider with
    | openaiCompatible =>
      obtain ⟨out, hout, hprepare⟩ := prepareRequest_c2o codec body upstreamModelName hprovider
      have hmembers := C2O.claudeToOpenaiRequest_members hout
      refine iff_true_intro ⟨fun n hn => (sent_iff hprepare).mpr ?_, read_claude⟩
      rw [completionLimit, hmembers.newerLimit, hmembers.maxTokens, Option.none_or,
        getU64_eq_some.mp (extractMaxTokens_claude.mp hn).1]
    | anthropic =>
      have hsame : channel.provider = EntryFormat.claude.provider := hprovider
      have hsent {n : UInt64} := sent_iff (n := n)
        (prepareRequest_same codec body upstreamModelName hsame)
      constructor
      · exact fun h => sent_claude_iff.mp fun n hn => hsent.mp (h.sent n hn)
      · exact fun h => ⟨fun n hn => hsent.mpr (sent_claude_iff.mpr h n hn), read_claude⟩

/-- A limit under its newer name. -/
def newerLimit : Json :=
  ofMembers [("model", .string "claude"), ("messages", .array []),
    ("max_completion_tokens", ofU64 100)]

def claudeChannel : ChannelConfig := ⟨1, "claude", .anthropic, "https://claude", "default"⟩

/-- A completion of 100 tokens is billed in advance, one of 4096 is asked for. -/
theorem not_capSent :
    ¬ CapSent O2C.objectCodec .openAI newerLimit claudeChannel "claude-upstream" := by
  intro h
  obtain ⟨out, hout, hlimit⟩ := h.sent 100 (by decide +kernel)
  cases hout
  have hdefault := congrArg (Option.bind · asU64) hlimit
  exact absurd hdefault (by decide +kernel)

/-! ### The flag of a stream -/

/-- Asking for usage leaves the other members as they are. -/
theorem streamRequest_streamBody {provider : ChannelProvider}
    (hstream : out.get "stream" = some (.bool true))
    (hmodel : out.get "model" = some (.string upstreamModelName)) :
    StreamRequest provider upstreamModelName (streamBody provider out) := by
  obtain ⟨members, rfl⟩ := exists_object hstream
  cases provider with
  | anthropic => exact ⟨⟨members, rfl⟩, hstream, hmodel, nofun⟩
  | openaiCompatible =>
    have hposted : streamBody .openaiCompatible (.object members) = .object
        (insertMember "stream_options" (ofMembers [("include_usage", .bool true)]) members) := by
      rw [streamBody, hstream]
      rfl
    rw [hposted]
    refine ⟨⟨_, rfl⟩, ?_, ?_, fun _ => ?_⟩
    · rw [get_insertMember, if_neg (by decide), hstream]
    · rw [get_insertMember, if_neg (by decide), hmodel]
    · rw [get_insertMember, if_pos rfl]
      rfl

/-- A body that keeps the flag is posted as a request for a stream. -/
theorem streamed_of_prepared
    (hprepare : prepareRequest codec entryFormat body channel upstreamModelName =
      .ok (swapModel out upstreamModelName, channel.provider))
    (hstream : out.get "stream" = some (.bool true)) :
    Streamed codec entryFormat body channel upstreamModelName := by
  refine ⟨_, _, hprepare, streamRequest_streamBody ?_ ?_⟩
  · rw [get_swapModel (by decide), hstream]
  · exact get_model_swapModel (exists_object hstream)

/-- **Streaming requests** are streamed but for the OpenAI clients of Claude channels. -/
theorem streamed_iff (h : body.get "stream" = some (.bool true)) :
    Streamed codec entryFormat body channel upstreamModelName ↔
      ¬ (entryFormat = .openAI ∧ channel.provider = .anthropic) := by
  constructor
  · rintro ⟨out, provider, hprepare, hposted⟩ ⟨rfl, hprovider⟩
    obtain ⟨translated, htranslated, hprepare'⟩ :=
      prepareRequest_o2c codec body upstreamModelName hprovider
    rw [hprepare', hprovider] at hprepare
    cases hprepare
    have hstream := hposted.stream
    rw [streamBody, get_swapModel (by decide),
      (O2C.openaiToClaudeRequest_members htranslated).stream] at hstream
    cases hstream
  · intro hpair
    cases entryFormat with
    | openAI =>
      cases hprovider : channel.provider with
      | openaiCompatible =>
        exact streamed_of_prepared (prepareRequest_same codec body upstreamModelName hprovider) h
      | anthropic => exact absurd ⟨rfl, hprovider⟩ hpair
    | claude =>
      cases hprovider : channel.provider with
      | openaiCompatible =>
        obtain ⟨out, hout, hprepare⟩ := prepareRequest_c2o codec body upstreamModelName hprovider
        refine streamed_of_prepared hprepare ?_
        rw [(C2O.claudeToOpenaiRequest_members hout).stream, h]
      | anthropic =>
        exact streamed_of_prepared (prepareRequest_same codec body upstreamModelName hprovider) h

def streamingRequest : Json :=
  ofMembers [("model", .string "claude"), ("messages", .array []), ("stream", .bool true)]

theorem get_streamingRequest : streamingRequest.get "stream" = some (.bool true) := by
  simp [streamingRequest, get_ofMembers]

theorem streamed_streamingRequest :
    Streamed O2C.objectCodec .claude streamingRequest claudeChannel "claude-upstream" :=
  (streamed_iff get_streamingRequest).mpr (by decide)

/-- The flag is lost in translation, and the adaptor does not set it. -/
theorem not_streamed :
    streamingRequest.get "stream" = some (.bool true) ∧
      ¬ Streamed O2C.objectCodec .openAI streamingRequest claudeChannel "claude-upstream" := by
  refine ⟨get_streamingRequest, ?_⟩
  rintro ⟨out, provider, hprepare, hposted⟩
  cases hprepare
  have hstream := congrArg (Option.bind · asBool) hposted.stream
  exact absurd hstream (by decide +kernel)

end Chennix
