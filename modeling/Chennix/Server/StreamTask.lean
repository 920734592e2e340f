import Chennix.Common.Display
import Chennix.Server.StreamResponse

/-!
# Streaming to a client that may leave

The loop of the task that `stream_sse_response` spawns. It puts what it sends into a channel whose
receiving end is dropped when the client leaves; from then on nothing can be sent. The upstream may
break off as well.

A send that fails ends the loop it stands in, and these are different loops: for a chunk that is
passed through it is the loop over the chunks, for what a state machine makes of a chunk it is the
loop over the events of one step.

## Main definitions

* `Receiver`, `send`, `sendUntilGone` — the channel, as far as its sender can tell
* `StreamTranslation.forward` — one chunk, for a client that may have left
* `pump`, `deliver` — the loop over the chunks
-/

namespace Chennix

open Foundations Json

/-- How many more items the client takes before it leaves, if it leaves at all. -/
abbrev Receiver : Type := Option ℕ

/-- An item for the client: bytes, or the text of an error, which ends its connection. -/
abbrev Sent : Type := Except String Bytes

/-- `tx.send(item).await`: the channel afterwards, `none` if the client has left. -/
def send : Receiver → Option Receiver
  | none => some none
  | some 0 => none
  | some (room + 1) => some (some room)

/-- Send one item after another and break at the first that fails: what has been taken, and the
channel afterwards. -/
def sendUntilGone {α : Type} : List α → Receiver → List α × Receiver
  | [], c => ([], c)
  | item :: items, c =>
    match send c with
    | none => ([], c)
    | some c =>
      let (taken, c) := sendUntilGone items c
      (item :: taken, c)

/-- What a chunk leads to: what the client has taken, the machine and the channel afterwards, and
whether the loop over the chunks goes on. -/
structure Forwarded where
  taken : List Sent
  machine : StreamTranslation
  receiver : Receiver
  goesOn : Bool

namespace StreamTranslation

variable (codec : Codec)

/-- The frames of a chunk. A send that fails ends the events of its frame, a translation that fails
the frames. -/
def forwardFrames : List (String × Bytes) → ClaudeToOpenaiStreamState → Receiver →
    List Sent × ClaudeToOpenaiStreamState × Receiver
  | [], s, c => ([], s, c)
  | frame :: frames, s, c =>
    match ClaudeToOpenaiStreamState.processEvent codec frame s with
    | (.error e, s') =>
      let (taken, c) := sendUntilGone [.error e.display] c
      (taken, s', c)
    | (.ok events, s') =>
      let (taken, c) := sendUntilGone (events.map fun event => .ok (event.bytes codec)) c
      let (rest, s'', c) := forwardFrames frames s' c
      (taken ++ rest, s'', c)

/-- The branches of the loop body on a chunk. -/
def forward (chunk : Bytes) (c : Receiver) : StreamTranslation → Forwarded
  | .passthrough =>
    match send c with
    | none => ⟨[], .passthrough, c, false⟩
    | some c => ⟨[.ok chunk], .passthrough, c, true⟩
  | .o2c s =>
    match OpenaiToClaudeStreamState.processChunk codec chunk s with
    | (.ok events, s') =>
      let (taken, c) := sendUntilGone (events.map fun event => .ok (event.bytes codec)) c
      ⟨taken, .o2c s', c, true⟩
    | (.error e, s') =>
      let (taken, c) := sendUntilGone [.error e.display] c
      ⟨taken, .o2c s', c, false⟩
  | .c2o parser s =>
    let (frames, parser') := SseFrameParser.feed chunk parser
    let (taken, s', c) := forwardFrames codec frames s c
    ⟨taken, .c2o parser' s', c, true⟩

end StreamTranslation

variable (codec : Codec)

/-- The loop over the chunks: what the client has taken, and the usage at the end. -/
def pump (provider : ChannelProvider) : List (Except String Bytes) → Usage → StreamTranslation →
    Receiver → List Sent × Usage
  | [], usageAcc, _, _ => ([], usageAcc)
  | .error e :: _, usageAcc, _, c => ((sendUntilGone [.error e] c).1, usageAcc)
  | .ok chunk :: chunks, usageAcc, machine, c =>
    let usageAcc := addUsage codec provider usageAcc chunk
    let f := machine.forward codec chunk c
    if f.goesOn then
      let (taken, usageAcc) := pump provider chunks usageAcc f.machine f.receiver
      (f.taken ++ taken, usageAcc)
    else (f.taken, usageAcc)

/-- The stream of a response, at a time in seconds since the epoch. -/
def deliver (entryFormat : EntryFormat) (adaptorProvider : ChannelProvider) (created : UInt64)
    (chunks : List (Except String Bytes)) (c : Receiver) : List Sent × Usage :=
  pump codec adaptorProvider chunks .zero (.pick entryFormat adaptorProvider created) c

end Chennix
