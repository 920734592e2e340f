import Chennix.Server.StreamResponse

/-!
# Billed usage and the cuts of the network

The usage of a stream is added up from its chunks, each read for itself. A data line that is cut in
two is read in neither chunk, so a stream can be cut until nothing is counted. The usage does not
depend on the cuts only where nothing can be counted however the stream is cut.

## Main definitions

* `MeteredAlike` — the usage, and with it the cost, does not depend on the cuts
* `Unreported` — no stretch of the stream reads as a data line that reports tokens

## Main results

* `meteredAlike_iff` — the usage depends on the cuts just if some stretch reports tokens
* `not_meteredAlike` — a usage that is lost
-/

namespace Chennix

open Foundations Json

/-- `usage_acc` at the end of the stream. -/
def streamUsage (codec : Codec) (entryFormat : EntryFormat) (adaptorProvider : ChannelProvider)
    (created : UInt64) (chunks : List Bytes) : Usage :=
  (streamSseResponse codec entryFormat adaptorProvider created chunks).2

/-- However the stream is cut, the usage at its end is the same, and so is the cost. -/
def MeteredAlike (codec : Codec) (evaluator : BillingExpr.Evaluator) (entryFormat : EntryFormat)
    (adaptorProvider : ChannelProvider) (created : UInt64) (stream : Bytes) : Prop :=
  ∀ chunks chunks' : List Bytes, chunks.flatten = stream → chunks'.flatten = stream →
    streamUsage codec entryFormat adaptorProvider created chunks =
      streamUsage codec entryFormat adaptorProvider created chunks' ∧
    ∀ pricing,
      actualCost evaluator (streamUsage codec entryFormat adaptorProvider created chunks) pricing =
        actualCost evaluator (streamUsage codec entryFormat adaptorProvider created chunks') pricing

/-- The translation reads on behind these bytes: it fails at what is no UTF-8, but what stands
behind a line feed may arrive with what stands before it. -/
def ReadOn (entryFormat : EntryFormat) (adaptorProvider : ChannelProvider) (front : Bytes) : Prop :=
  entryFormat = .openAI → adaptorProvider = .anthropic →
    Utf8.isValid front ∨ Utf8.LineStart front

/-- No stretch without a line feed reads as a data line that reports tokens. -/
def Unreported (codec : Codec) (entryFormat : EntryFormat) (adaptorProvider : ChannelProvider)
    (stream : Bytes) : Prop :=
  ∀ front line back, stream = front ++ line ++ back → 10 ∉ line →
    ReadOn entryFormat adaptorProvider front → ¬ Reports codec adaptorProvider (Utf8.lossy line)

variable {codec : Codec} {provider : ChannelProvider} {chunk : Bytes} {chunks : List Bytes}
  {t : StreamTranslation}

/-! ### Chunks too small for a data line -/

/-- The chunk lacks a letter of `data`. -/
def Quiet (chunk : Bytes) : Prop := 100 ∉ chunk ∨ 97 ∉ chunk

/-- What follows a prefix that is met stands behind its characters. -/
theorem mem_of_stripPrefix {pre line s : String} (h : Text.stripPrefix pre line = some s) {c : Char}
    (hc : c ∈ pre.toList) : c ∈ line.toList := by
  rw [Text.eq_append_of_stripPrefix h, String.toList_append]
  exact List.mem_append_left _ hc

theorem exists_dataText_of_reports {line : String} (h : Reports codec provider line) :
    ∃ s, dataText line = some s := by
  cases provider with
  | openaiCompatible =>
    obtain ⟨s, v, hs, _⟩ := h
    exact ⟨s, hs⟩
  | anthropic =>
    obtain ⟨s, v, hs, _⟩ := h
    exact ⟨s, hs⟩

/-- A data line has the letters of `data`. -/
theorem not_quiet_of_reports (h : Reports codec provider (Utf8.lossy chunk)) : ¬ Quiet chunk := by
  obtain ⟨s, hs⟩ := exists_dataText_of_reports h
  rintro (hquiet | hquiet)
  · exact hquiet (Utf8.mem_of_mem_lossy (c := 'd') (by decide) (by decide)
      (mem_of_stripPrefix hs (by decide)))
  · exact hquiet (Utf8.mem_of_mem_lossy (c := 'a') (by decide) (by decide)
      (mem_of_stripPrefix hs (by decide)))

theorem addUsage_eq (usageAcc : Usage) :
    addUsage codec provider usageAcc chunk =
      usageAcc.add ((extractUsage codec provider chunk).getD .zero) := by
  rw [addUsage]
  cases extractUsage codec provider chunk with
  | none => exact (Usage.add_zero usageAcc).symm
  | some usage => rfl

/-- A line that reports tokens stands in the chunk. -/
theorem exists_stretch (h : (extractUsage codec provider chunk).getD .zero ≠ .zero) :
    ∃ front line back, chunk = front ++ line ++ back ∧ Utf8.LineStart front ∧ 10 ∉ line ∧
      Reports codec provider (Utf8.lossy line) := by
  obtain ⟨text, htext, hreports⟩ := exists_reports_of_extractUsage h
  obtain ⟨front, line, back, hchunk, hstart, hline, rfl⟩ := Utf8.exists_of_mem_lines htext
  exact ⟨front, line, back, hchunk, hstart, hline, hreports⟩

theorem addUsage_quiet (h : Quiet chunk) (usageAcc : Usage) :
    addUsage codec provider usageAcc chunk = usageAcc := by
  have hzero : (extractUsage codec provider chunk).getD .zero = .zero := by
    by_contra hne
    obtain ⟨front, line, back, hchunk, _, _, hreports⟩ := exists_stretch hne
    refine not_quiet_of_reports hreports ?_
    rw [hchunk] at h
    rcases h with h | h
    · exact .inl fun hmem => h (by simp [hmem])
    · exact .inr fun hmem => h (by simp [hmem])
  rw [addUsage_eq, hzero, Usage.add_zero]

theorem mem_encode {text : String} {c : Char} {x : UInt8}
    (hx : Utf8.encode (.singleton c) = [x]) (h : c ∈ text.toList) : x ∈ Utf8.encode text := by
  obtain ⟨p, q, hsplit⟩ := List.append_of_mem h
  have htext : text = .ofList p ++ .singleton c ++ .ofList q := by
    apply String.toList_injective
    simp [hsplit]
  rw [htext, Utf8.encode_append, Utf8.encode_append, hx]
  simp

/-- A line that is translated has the letters of `data`. -/
theorem mem_of_payload {line data : String}
    (h : OpenaiToClaudeStreamState.payload line = some data) :
    'd' ∈ line.toList ∧ 'a' ∈ line.toList := by
  obtain ⟨r, hr, _⟩ := Option.map_eq_some_iff.mp h
  rw [← String.ofList_toList (s := line)] at hr
  obtain ⟨w, m, _, hsplit⟩ := Text.exists_of_stripPrefix_trim hr
  rw [hsplit]
  constructor <;> exact List.mem_append_left _ (List.mem_append_right _ (by decide))

/-- Without the letters there is no data line to translate. -/
theorem processChunk_quiet (hvalid : Utf8.isValid chunk) (h : Quiet chunk)
    (s : OpenaiToClaudeStreamState) :
    OpenaiToClaudeStreamState.processChunk codec chunk s = (.ok [], s) := by
  obtain ⟨text, htext⟩ := Option.isSome_iff_exists.mp hvalid
  have hpayloads : (Text.lines text).filterMap OpenaiToClaudeStreamState.payload = [] := by
    rw [List.filterMap_eq_nil_iff]
    intro line hline
    by_contra hpayload
    obtain ⟨data, hdata⟩ := Option.ne_none_iff_exists'.mp hpayload
    obtain ⟨hd, ha⟩ := mem_of_payload hdata
    rw [← Utf8.decode_eq_some.mp htext] at h
    rcases h with h | h
    · exact h (mem_encode (by decide) (Text.mem_of_mem_lines hline hd))
    · exact h (mem_encode (by decide) (Text.mem_of_mem_lines hline ha))
  rw [OpenaiToClaudeStreamState.processChunk, htext]
  show OpenaiToClaudeStreamState.processPayloads codec
    ((Text.lines text).filterMap OpenaiToClaudeStreamState.payload) s = _
  rw [hpayloads]
  rfl

theorem quiet_singleton (b : UInt8) : Quiet [b] := by
  by_cases h : b = 100
  · exact .inr (by rw [h]; decide)
  · exact .inl fun hmem => h (List.mem_singleton.mp hmem).symm

theorem quiet_encode_singleton (c : Char) : Quiet (Utf8.encode (.singleton c)) := by
  by_cases h : (100 : UInt8) ∈ Utf8.encode (.singleton c)
  · rw [Utf8.encode_singleton_of_mem (by decide) h]
    exact quiet_singleton 100
  · exact .inl h

/-! ### Runs over chunks -/

/-- The stream is translated by the machine that fails. -/
def StreamTranslation.IsO2c : StreamTranslation → Prop
  | .o2c _ => True
  | _ => False

theorem isO2c_pick (entryFormat : EntryFormat) (created : UInt64) :
    (StreamTranslation.pick entryFormat provider created).IsO2c ↔
      entryFormat = .openAI ∧ provider = .anthropic := by
  cases entryFormat <;> cases provider <;>
    simp [StreamTranslation.pick, StreamTranslation.IsO2c]

/-- The stream goes on unless the machine fails, and the machine stays. -/
theorem relay_goesOn (codec : Codec) (h : t.IsO2c → Utf8.isValid chunk ∧ Quiet chunk) :
    ∃ sent t', t.relay codec chunk = (sent, t', true) ∧ (t'.IsO2c ↔ t.IsO2c) := by
  cases t with
  | passthrough => exact ⟨_, _, rfl, Iff.rfl⟩
  | c2o parser s => exact ⟨_, _, rfl, Iff.rfl⟩
  | o2c s =>
    obtain ⟨hvalid, hquiet⟩ := h trivial
    refine ⟨[], .o2c s, ?_, Iff.rfl⟩
    rw [StreamTranslation.relay, processChunk_quiet hvalid hquiet]
    rfl

/-- Where the stream goes on, the machine stays and has read a text. -/
theorem of_relay_goesOn {sent : List (ProxyResult Bytes)} {t' : StreamTranslation}
    (h : t.relay codec chunk = (sent, t', true)) (ho2c : t.IsO2c) :
    t'.IsO2c ∧ Utf8.isValid chunk := by
  cases t with
  | passthrough => cases ho2c
  | c2o parser s => cases ho2c
  | o2c s =>
    rw [StreamTranslation.relay] at h
    split at h
    · rename_i events s' hprocess
      cases h
      refine ⟨trivial, ?_⟩
      rw [OpenaiToClaudeStreamState.processChunk] at hprocess
      rw [Utf8.isValid]
      cases hdecode : Utf8.decode chunk with
      | none =>
        rw [hdecode] at hprocess
        cases hprocess
      | some text => rfl
    · cases h

/-- Quiet chunks add nothing, whether they are all read or not. -/
theorem relayChunks_quiet (h : ∀ chunk ∈ chunks, Quiet chunk) (usageAcc : Usage)
    (t : StreamTranslation) : (relayChunks codec provider chunks usageAcc t).2 = usageAcc := by
  induction chunks generalizing t with
  | nil => rfl
  | cons chunk chunks ih =>
    have hrest := ih fun chunk' hchunk' => h chunk' (List.mem_cons_of_mem _ hchunk')
    rw [relayChunks, addUsage_quiet (h chunk List.mem_cons_self)]
    dsimp only
    split
    · exact hrest _
    · rfl

/-- Quiet chunks that the machine reads are followed by the others. -/
theorem relayChunks_append (codec : Codec) (provider : ChannelProvider) {before : List Bytes}
    (h : ∀ chunk ∈ before, Quiet chunk) (hvalid : t.IsO2c → ∀ chunk ∈ before, Utf8.isValid chunk)
    (chunks : List Bytes) (usageAcc : Usage) :
    ∃ t', (relayChunks codec provider (before ++ chunks) usageAcc t).2 =
      (relayChunks codec provider chunks usageAcc t').2 := by
  induction before generalizing t with
  | nil => exact ⟨t, rfl⟩
  | cons chunk before ih =>
    obtain ⟨sent, t₁, hrelay, ho2c⟩ := relay_goesOn codec
      fun ht => ⟨hvalid ht chunk List.mem_cons_self, h chunk List.mem_cons_self⟩
    have hquiet := fun chunk' hchunk' => h chunk' (List.mem_cons_of_mem _ hchunk')
    have hvalid' : t₁.IsO2c → ∀ chunk' ∈ before, Utf8.isValid chunk' := fun ht chunk' hchunk' =>
      hvalid (ho2c.mp ht) chunk' (List.mem_cons_of_mem _ hchunk')
    obtain ⟨t', ht'⟩ := ih hquiet hvalid'
    refine ⟨t', ?_⟩
    rw [List.cons_append, relayChunks, addUsage_quiet (h chunk List.mem_cons_self), hrelay]
    exact ht'

/-- A chunk before quiet ones is counted. -/
theorem relayChunks_cons (h : ∀ chunk ∈ chunks, Quiet chunk) (usageAcc : Usage)
    (t : StreamTranslation) :
    (relayChunks codec provider (chunk :: chunks) usageAcc t).2 =
      addUsage codec provider usageAcc chunk := by
  rw [relayChunks]
  dsimp only
  split
  · exact relayChunks_quiet h _ _
  · rfl

/-! ### The usage and the cuts -/

variable {entryFormat : EntryFormat} {created : UInt64} {stream : Bytes}

theorem flatten_singletons (bytes : Bytes) : (bytes.map fun b => [b]).flatten = bytes := by
  rw [← List.flatMap_def]
  exact List.flatMap_singleton' bytes

theorem quiet_singletons (bytes : Bytes) : ∀ chunk ∈ bytes.map fun b => [b], Quiet chunk :=
  List.forall_mem_map.mpr fun b _ => quiet_singleton b

/-- Byte by byte nothing is counted. -/
theorem streamUsage_singletons :
    streamUsage codec entryFormat provider created (stream.map fun b => [b]) = .zero :=
  relayChunks_quiet (quiet_singletons stream) _ _

theorem flatten_encode (text : String) :
    (text.toList.map fun c => Utf8.encode (.singleton c)).flatten = Utf8.encode text := by
  rw [← String.ofList_toList (s := text), String.toList_ofList]
  induction text.toList with
  | nil => rfl
  | cons c l ih =>
    have hcons : String.ofList (c :: l) = .singleton c ++ .ofList l := by
      apply String.toList_injective
      simp
    rw [List.map_cons, List.flatten_cons, ih, hcons, Utf8.encode_append]

/-- What stands before a line can be cut so that nothing of it is counted and the machine reads it,
but for the lines that arrive together with the line. -/
theorem exists_cut_before (created : UInt64) {front line : Bytes} (hline : 10 ∉ line)
    (hne : Utf8.lossy line ≠ "")
    (hread : ReadOn entryFormat provider front) :
    ∃ (before : List Bytes) (chunk : Bytes) (lines : List String),
      before.flatten ++ chunk = front ++ line ∧
      (∀ chunk ∈ before, Quiet chunk) ∧
      ((StreamTranslation.pick entryFormat provider created).IsO2c →
        ∀ chunk ∈ before, Utf8.isValid chunk) ∧
      Text.lines (Utf8.lossy chunk) = lines ++ [Utf8.lossy line] := by
  obtain ⟨lines, hlines⟩ := Utf8.exists_lines_append (.inl rfl) hline hne
  by_cases ho2c : entryFormat = .openAI ∧ provider = .anthropic
  · rcases hread ho2c.1 ho2c.2 with hvalid | hstart
    · obtain ⟨text, htext⟩ := Option.isSome_iff_exists.mp hvalid
      refine ⟨text.toList.map fun c => Utf8.encode (.singleton c), line, lines, ?_, ?_, ?_, hlines⟩
      · rw [flatten_encode, Utf8.decode_eq_some.mp htext]
      · exact List.forall_mem_map.mpr fun c _ => quiet_encode_singleton c
      · intro _
        refine List.forall_mem_map.mpr fun c _ => ?_
        rw [Utf8.isValid, Utf8.decode_encode]
        rfl
    · obtain ⟨lines, hlines⟩ := Utf8.exists_lines_append hstart hline hne
      exact ⟨[], front ++ line, lines, rfl, List.forall_mem_nil _,
        fun _ => List.forall_mem_nil _, hlines⟩
  · refine ⟨front.map fun b => [b], line, lines, ?_, quiet_singletons front, ?_, hlines⟩
    · rw [flatten_singletons]
    · exact fun hpick => absurd ((isO2c_pick entryFormat created).mp hpick) ho2c

/-- A stretch that reports tokens can be cut out. -/
theorem exists_counted (created : UInt64) {front line back : Bytes}
    (hstream : stream = front ++ line ++ back)
    (hline : 10 ∉ line) (hread : ReadOn entryFormat provider front)
    (hreports : Reports codec provider (Utf8.lossy line)) :
    ∃ chunks, chunks.flatten = stream ∧
      streamUsage codec entryFormat provider created chunks ≠ .zero := by
  have hne : Utf8.lossy line ≠ "" := by
    intro hempty
    obtain ⟨s, hs⟩ := exists_dataText_of_reports hreports
    rw [hempty] at hs
    cases hs
  obtain ⟨before, chunk, lines, hcut, hquiet, hvalid, hlines⟩ :=
    exists_cut_before created hline hne hread
  refine ⟨before ++ chunk :: back.map fun b => [b], ?_, ?_⟩
  · rw [List.flatten_append, List.flatten_cons, flatten_singletons, ← List.append_assoc, hcut,
      hstream]
  · obtain ⟨t', ht'⟩ := relayChunks_append codec provider hquiet hvalid
      (chunk :: back.map fun b => [b]) .zero
    rw [streamUsage, streamSseResponse, ht', relayChunks_cons (quiet_singletons back), addUsage_eq,
      Usage.zero_add]
    exact extractUsage_of_last hlines hreports

/-- Nothing is counted of a stream that reports nothing. -/
theorem relayChunks_unreported (h : Unreported codec entryFormat provider stream) (done : Bytes)
    (hstream : stream = done ++ chunks.flatten)
    (ht : entryFormat = .openAI → provider = .anthropic → t.IsO2c ∧ Utf8.isValid done) :
    (relayChunks codec provider chunks .zero t).2 = .zero := by
  induction chunks generalizing done t with
  | nil => rfl
  | cons chunk chunks ih =>
    have hzero : addUsage codec provider .zero chunk = .zero := by
      rw [addUsage_eq, Usage.zero_add]
      by_contra hne
      obtain ⟨front, line, back, hchunk, hstart, hline, hreports⟩ := exists_stretch hne
      refine h (done ++ front) line (back ++ chunks.flatten) ?_ hline ?_ hreports
      · rw [hstream, List.flatten_cons, hchunk]
        simp
      · intro hentry hprovider
        rcases hstart with rfl | ⟨before, rfl⟩
        · rw [List.append_nil]
          exact .inl (ht hentry hprovider).2
        · exact .inr (.inr ⟨done ++ before, (List.append_assoc _ _ _).symm⟩)
    rw [relayChunks, hzero]
    dsimp only
    split
    · rename_i sent t' hrelay
      refine ih (done ++ chunk) ?_ fun hentry hprovider => ?_
      · rw [hstream, List.flatten_cons, List.append_assoc]
      · obtain ⟨ho2c, hdone⟩ := ht hentry hprovider
        obtain ⟨ho2c', hvalid⟩ := of_relay_goesOn hrelay ho2c
        obtain ⟨s, hs⟩ := Option.isSome_iff_exists.mp hdone
        obtain ⟨s', hs'⟩ := Option.isSome_iff_exists.mp hvalid
        exact ⟨ho2c', Option.isSome_iff_exists.mpr ⟨_, Utf8.decode_append hs hs'⟩⟩
    · rfl

/-- **The usage** depends on the cuts just if some stretch of the stream reports tokens. -/
theorem meteredAlike_iff (evaluator : BillingExpr.Evaluator) :
    MeteredAlike codec evaluator entryFormat provider created stream ↔
      Unreported codec entryFormat provider stream := by
  constructor
  · intro h front line back hstream hline hread hreports
    obtain ⟨chunks, hchunks, hne⟩ := exists_counted created hstream hline hread hreports
    refine hne ?_
    rw [(h chunks _ hchunks (flatten_singletons stream)).1, streamUsage_singletons]
  · intro h chunks chunks' hchunks hchunks'
    have hzero {chunks : List Bytes} (hchunks : chunks.flatten = stream) :
        streamUsage codec entryFormat provider created chunks = .zero := by
      refine relayChunks_unreported h [] hchunks.symm fun hentry hprovider => ?_
      exact ⟨(isO2c_pick entryFormat created).mpr ⟨hentry, hprovider⟩, rfl⟩
    rw [hzero hchunks, hzero hchunks']
    exact ⟨rfl, fun _ => rfl⟩

/-- A codec that reads a usage of three tokens. -/
def usageCodec : Codec where
  fromSlice _ := .error "no usage"
  fromStr s :=
    if s = "\x7b\"usage\":\x7b\"completion_tokens\":3\x7d\x7d" then
      .ok (ofMembers [("usage", ofMembers [("completion_tokens", ofU64 3)])])
    else .error "no usage"
  toStr _ := .ok "3"
  toVec _ := .ok [0x33]
  display _ := "3"
  toVec_ok _ := ⟨[0x33], rfl⟩

def usageStream : Bytes := Utf8.encode "data: \x7b\"usage\":\x7b\"completion_tokens\":3\x7d\x7d\n\n"

/-- The three tokens are counted where the line arrives whole, and not where it is cut in two. -/
theorem not_meteredAlike :
    ¬ MeteredAlike usageCodec (fun _ _ => .ok (.int 0)) .openAI .openaiCompatible 0
      usageStream := by
  intro h
  have hcut := (h [usageStream] [usageStream.take 20, usageStream.drop 20] (by simp) (by simp)).1
  have hwhole : streamUsage usageCodec .openAI .openaiCompatible 0 [usageStream] = ⟨0, 3, 0⟩ := by
    decide +kernel
  have hlost : streamUsage usageCodec .openAI .openaiCompatible 0
      [usageStream.take 20, usageStream.drop 20] = .zero := by decide +kernel
  rw [hwhole, hlost] at hcut
  cases hcut

end Chennix
