import Chennix.Adaptor.Usage
import Chennix.Core.Pricing
import Chennix.Server.SseFrameParser
import Chennix.Translator.ClaudeToOpenaiStream

/-!
# Streaming responses

What `stream_sse_response` does with the chunks of an upstream, for a client that stays: it counts
the usage in each chunk and sends on the chunk, or what a state machine makes of it.

## Main definitions

* `StreamTranslation` — the state machine that was picked for the two formats
* `StreamTranslation.relay` — what is sent on for a chunk
* `streamSseResponse` — all that is sent, and the usage that is billed
-/

namespace Chennix

open Foundations Json

/-- `o2c_state`, `c2o_state` and `claude_parser`. -/
inductive StreamTranslation
  | passthrough
  | o2c (state : OpenaiToClaudeStreamState)
  | c2o (parser : SseFrameParser) (state : ClaudeToOpenaiStreamState)

namespace StreamTranslation

/-- The machines as they are picked at a time in seconds since the epoch. -/
def pick (entryFormat : EntryFormat) (adaptorProvider : ChannelProvider) (created : UInt64) :
    StreamTranslation :=
  match entryFormat, adaptorProvider with
  | .openAI, .anthropic => .o2c .new
  | .claude, .openaiCompatible => .c2o .new (.new created)
  | .openAI, .openaiCompatible => .passthrough
  | .claude, .anthropic => .passthrough

variable (codec : Codec)

/-- Frames one after another, up to one that fails. -/
def relayFrames : List (String × Bytes) → ClaudeToOpenaiStreamState →
    List (ProxyResult Bytes) × ClaudeToOpenaiStreamState
  | [], s => ([], s)
  | frame :: frames, s =>
    match ClaudeToOpenaiStreamState.processEvent codec frame s with
    | (.error e, s') => ([.error e], s')
    | (.ok events, s') =>
      let (sent, s'') := relayFrames frames s'
      (events.map (fun event => .ok (event.bytes codec)) ++ sent, s'')

/-- What is sent for a chunk, and whether the stream goes on. A failure of the second machine ends
only the frames of the chunk. -/
def relay (chunk : Bytes) : StreamTranslation → List (ProxyResult Bytes) × StreamTranslation × Bool
  | .passthrough => ([.ok chunk], .passthrough, true)
  | .o2c s =>
    match OpenaiToClaudeStreamState.processChunk codec chunk s with
    | (.ok events, s') => (events.map fun event => .ok (event.bytes codec), .o2c s', true)
    | (.error e, s') => ([.error e], .o2c s', false)
  | .c2o parser s =>
    let (frames, parser') := SseFrameParser.feed chunk parser
    let (sent, s') := relayFrames codec frames s
    (sent, .c2o parser' s', true)

end StreamTranslation

variable (codec : Codec)

/-- The usage with what a chunk reports. -/
def addUsage (provider : ChannelProvider) (usageAcc : Usage) (chunk : Bytes) : Usage :=
  match extractUsage codec provider chunk with
  | some usage => usageAcc.add usage
  | none => usageAcc

/-- The loop over the chunks: what is sent, and the usage at the end. -/
def relayChunks (provider : ChannelProvider) : List Bytes → Usage → StreamTranslation →
    List (ProxyResult Bytes) × Usage
  | [], usageAcc, _ => ([], usageAcc)
  | chunk :: chunks, usageAcc, t =>
    let usageAcc := addUsage codec provider usageAcc chunk
    match t.relay codec chunk with
    | (sent, t', true) =>
      let (sent', usageAcc') := relayChunks provider chunks usageAcc t'
      (sent ++ sent', usageAcc')
    | (sent, _, false) => (sent, usageAcc)

/-- `stream_sse_response`, at a time in seconds since the epoch. -/
def streamSseResponse (entryFormat : EntryFormat) (adaptorProvider : ChannelProvider)
    (created : UInt64) (chunks : List Bytes) : List (ProxyResult Bytes) × Usage :=
  relayChunks codec adaptorProvider chunks .zero (.pick entryFormat adaptorProvider created)

end Chennix
