import Chennix.Foundations.Emitter
import Chennix.Foundations.Framing
import Chennix.Foundations.Lines
import Chennix.Foundations.Utf8

/-!
# Frames of server-sent events

The parser that puts the frames of an upstream's stream together from the chunks of the network.

## Main definitions

* `SseFrameParser.feed` — the frames that a chunk completes
* `SseFrameParser.readFrame` — the event type and the data of a frame
-/

namespace Chennix

open Foundations

/-- The text that is not a complete frame yet. -/
structure SseFrameParser where
  buffer : String
  deriving DecidableEq, Repr

namespace SseFrameParser

def new : SseFrameParser := ⟨""⟩

/-- The event type and the data of a frame, unless it has no data. -/
def readFrame (frame : List Char) : Option (String × Bytes) :=
  let lines := Text.lines (.ofList frame)
  let eventType := (((lines.filterMap (Text.stripPrefix "event:")).map Text.trim).getLast?).getD ""
  let dataLines := (lines.filterMap (Text.stripPrefix "data:")).map Text.trim
  if dataLines.isEmpty then none
  else some (if eventType = "" then "message" else eventType,
    Utf8.encode ("\n".intercalate dataLines))

/-- Frames end at a blank line. -/
def framing : Framing Char (List Char) := .atDouble '\n'

/-- `feed`. A chunk that is no UTF-8 is dropped. -/
def feed (chunk : Bytes) : Emitter SseFrameParser (String × Bytes) := fun p =>
  match Utf8.decode chunk with
  | none => ([], p)
  | some text =>
    let frames := framing.frames (p.buffer ++ text).toList
    (frames.1.filterMap readFrame, ⟨.ofList frames.2⟩)

/-- A frame as Claude sends it. -/
example : (feed (Utf8.encode "event: ping\ndata: \x7b\x7d\n\nevent") new) =
    ([("ping", Utf8.encode "\x7b\x7d")], ⟨"event"⟩) := by decide

end SseFrameParser

end Chennix
