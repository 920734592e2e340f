import Chennix.Server.StreamTask

/-!
# Clients that leave a stream

What a client has taken of a stream when it leaves is a beginning of the whole. What it pays for is
not always the same beginning: the loop over the chunks stops at a send that fails only where
chunks are passed through. Where a state machine stands between, the upstream is read to its end and
all of it is billed.

## Main definitions

* `Receiver.take`, `Receiver.after` — what a client takes of a list, and the channel afterwards

## Main results

* `pump_taken` — the client has taken a beginning of what it would have been sent
* `pump_usage_translated`, `pump_usage_passthrough` — what is billed
* `deliver_departure` — both, for the stream of a response
-/

namespace Chennix

open Foundations Json

/-! ### The channel -/

namespace Receiver

/-- What is taken of the items of a list. -/
def take {α : Type} : Receiver → List α → List α
  | none, items => items
  | some room, items => items.take room

/-- The channel after a number of items. -/
def after (c : Receiver) (n : ℕ) : Receiver := Option.map (· - n) c

variable {α : Type} {c : Receiver} {items items' : List α}

@[simp] theorem take_none (items : List α) : take none items = items := rfl

@[simp] theorem after_none (n : ℕ) : after none n = none := rfl

@[simp] theorem take_nil (c : Receiver) : c.take ([] : List α) = [] := by
  cases c with
  | none => rfl
  | some room => exact List.take_nil

theorem take_append :
    c.take (items ++ items') = c.take items ++ (c.after items.length).take items' := by
  cases c with
  | none => rfl
  | some room => exact List.take_append

theorem after_add (n m : ℕ) : (c.after n).after m = c.after (n + m) := by
  cases c with
  | none => rfl
  | some room => exact congrArg some (Nat.sub_sub room n m)

end Receiver

theorem sendUntilGone_eq {α : Type} (items : List α) (c : Receiver) :
    sendUntilGone items c = (c.take items, c.after items.length) := by
  induction items generalizing c with
  | nil => cases c <;> simp [sendUntilGone, Receiver.after]
  | cons item items ih =>
    match c with
    | none => simp [sendUntilGone, send, ih]
    | some 0 => simp [sendUntilGone, send, Receiver.take, Receiver.after]
    | some (room + 1) => simp [sendUntilGone, send, ih, Receiver.take, Receiver.after]

/-! ### One chunk -/

/-- What is sent on, as the client sees it. -/
def sentOf : ProxyResult Bytes → Sent := Except.mapError ProxyError.display

namespace StreamTranslation

variable (codec : Codec)

theorem forwardFrames_eq (frames : List (String × Bytes)) (s : ClaudeToOpenaiStreamState)
    (c : Receiver) :
    forwardFrames codec frames s c =
      (c.take ((relayFrames codec frames s).1.map sentOf), (relayFrames codec frames s).2,
        c.after (relayFrames codec frames s).1.length) := by
  induction frames generalizing s c with
  | nil =>
    cases c <;> simp [forwardFrames, relayFrames, Receiver.after]
  | cons frame frames ih =>
    rw [forwardFrames, relayFrames]
    rcases ClaudeToOpenaiStreamState.processEvent codec frame s with ⟨e | events, s'⟩
    · simp only [sendUntilGone_eq]
      rfl
    · simp only [sendUntilGone_eq, ih, List.map_append, List.map_map, List.length_append,
        List.length_map, Receiver.take_append, Receiver.after_add]
      rfl

/-- The machine is not there, and chunks are passed through. -/
def isPassthrough : StreamTranslation → Bool
  | .passthrough => true
  | _ => false

/-- **One chunk through a machine** is what a client that stays is sent, as far as this one takes
it. That the client has left does not show. -/
theorem forward_translated (chunk : Bytes) {machine : StreamTranslation}
    (h : machine.isPassthrough = false) (c : Receiver) :
    machine.forward codec chunk c =
      ⟨c.take ((machine.relay codec chunk).1.map sentOf), (machine.relay codec chunk).2.1,
        c.after (machine.relay codec chunk).1.length, (machine.relay codec chunk).2.2⟩ ∧
      (machine.relay codec chunk).2.1.isPassthrough = false := by
  cases machine with
  | passthrough => cases h
  | o2c s =>
    rw [forward, relay]
    rcases OpenaiToClaudeStreamState.processChunk codec chunk s with ⟨e | events, s'⟩
    · exact ⟨by simp only [sendUntilGone_eq]; rfl, rfl⟩
    · refine ⟨?_, rfl⟩
      simp only [sendUntilGone_eq, List.map_map, List.length_map]
      rfl
  | c2o parser s =>
    rw [forward, relay]
    exact ⟨by simp only [forwardFrames_eq], rfl⟩

end StreamTranslation

/-! ### The loop over the chunks -/

section Pump

variable (codec : Codec) (provider : ChannelProvider)

theorem pump_translated {chunk : Bytes} {chunks : List (Except String Bytes)} {usage : Usage}
    {machine : StreamTranslation} (h : machine.isPassthrough = false) (c : Receiver) :
    pump codec provider (.ok chunk :: chunks) usage machine c =
      let (sent, machine', goesOn) := machine.relay codec chunk
      let usage' := addUsage codec provider usage chunk
      if goesOn then
        let (taken, usage') := pump codec provider chunks usage' machine' (c.after sent.length)
        (c.take (sent.map sentOf) ++ taken, usage')
      else (c.take (sent.map sentOf), usage') := by
  rw [pump, (StreamTranslation.forward_translated codec chunk h c).1]

/-- **What has been taken** is a beginning of what a client that stays is sent. -/
theorem pump_taken (chunks : List (Except String Bytes)) (usage : Usage)
    (machine : StreamTranslation) (c : Receiver) :
    (pump codec provider chunks usage machine c).1 =
      c.take (pump codec provider chunks usage machine none).1 := by
  induction chunks generalizing usage machine c with
  | nil => simp [pump]
  | cons chunk chunks ih =>
    rcases chunk with e | chunk
    · simp [pump, sendUntilGone_eq]
    rcases hmachine : machine.isPassthrough with _ | _
    · rw [pump_translated codec provider hmachine, pump_translated codec provider hmachine]
      rcases machine.relay codec chunk with ⟨sent, machine', _ | _⟩
      · rfl
      · simp only [if_true, Receiver.take_none, Receiver.after_none]
        rw [Receiver.take_append, List.length_map, ih]
    · cases machine with
      | passthrough =>
        match c with
        | none => rfl
        | some 0 => simp [pump, StreamTranslation.forward, send, Receiver.take]
        | some (room + 1) =>
          simp only [pump, StreamTranslation.forward, send, if_true]
          rw [ih]
          rfl
      | o2c s => cases hmachine
      | c2o parser s => cases hmachine

/-- **Through a machine** everything is billed, whether the client is there or not. -/
theorem pump_usage_translated (chunks : List (Except String Bytes)) (usage : Usage)
    {machine : StreamTranslation} (h : machine.isPassthrough = false) (c : Receiver) :
    (pump codec provider chunks usage machine c).2 =
      (pump codec provider chunks usage machine none).2 := by
  induction chunks generalizing usage machine c with
  | nil => rfl
  | cons chunk chunks ih =>
    rcases chunk with e | chunk
    · rfl
    rw [pump_translated codec provider h, pump_translated codec provider h]
    have hnext := (StreamTranslation.forward_translated codec chunk h none).2
    rcases hrelay : machine.relay codec chunk with ⟨sent, machine', _ | _⟩
    · rfl
    · rw [hrelay] at hnext
      exact ih _ hnext _

/-- **Without a machine** the chunks are billed that have been taken, and the one that showed that
the client had left. -/
theorem pump_usage_passthrough (chunks : List (Except String Bytes)) (usage : Usage) (room : ℕ) :
    (pump codec provider chunks usage .passthrough (some room)).2 =
      (pump codec provider (chunks.take (room + 1)) usage .passthrough none).2 := by
  induction chunks generalizing usage room with
  | nil => rfl
  | cons chunk chunks ih =>
    rw [List.take_succ_cons]
    rcases chunk with e | chunk
    · rfl
    cases room with
    | zero => rfl
    | succ room => exact ih _ room

end Pump

/-! ### The stream of a response -/

section Deliver

variable (codec : Codec) (entryFormat : EntryFormat) (adaptorProvider : ChannelProvider)
  (created : UInt64)

theorem isPassthrough_pick :
    (StreamTranslation.pick entryFormat adaptorProvider created).isPassthrough =
      decide (entryFormat.provider = adaptorProvider) := by
  cases entryFormat <;> cases adaptorProvider <;> rfl

/-- A client that stays is sent what the machine relays, and billed for it, unless the upstream
breaks off. -/
theorem deliver_stays (chunks : List Bytes) :
    deliver codec entryFormat adaptorProvider created (chunks.map .ok) none =
      ((streamSseResponse codec entryFormat adaptorProvider created chunks).1.map sentOf,
        (streamSseResponse codec entryFormat adaptorProvider created chunks).2) := by
  unfold deliver streamSseResponse
  generalize StreamTranslation.pick entryFormat adaptorProvider created = machine
  generalize Usage.zero = usage
  induction chunks generalizing usage machine with
  | nil => rfl
  | cons chunk chunks ih =>
    rw [List.map_cons, relayChunks]
    rcases hmachine : machine.isPassthrough with _ | _
    · rw [pump_translated codec adaptorProvider hmachine]
      rcases machine.relay codec chunk with ⟨sent, machine', _ | _⟩
      · rfl
      · simp [ih]
    · cases machine with
      | passthrough =>
        simp only [pump, StreamTranslation.forward, send, StreamTranslation.relay, ih, if_true]
        rfl
      | o2c s => cases hmachine
      | c2o parser s => cases hmachine

/-- **A client that leaves** has taken a beginning of the stream. It is billed for the whole of it
where the formats differ, and otherwise for the chunks it has taken and one more. -/
theorem deliver_departure (chunks : List (Except String Bytes)) (room : ℕ) :
    (deliver codec entryFormat adaptorProvider created chunks (some room)).1 =
        (deliver codec entryFormat adaptorProvider created chunks none).1.take room ∧
      (deliver codec entryFormat adaptorProvider created chunks (some room)).2 =
        (deliver codec entryFormat adaptorProvider created
          (if entryFormat.provider = adaptorProvider then chunks.take (room + 1) else chunks)
          none).2 := by
  refine ⟨pump_taken codec adaptorProvider chunks _ _ (some room), ?_⟩
  have hpick := isPassthrough_pick entryFormat adaptorProvider created
  by_cases hsame : entryFormat.provider = adaptorProvider
  · rw [if_pos hsame]
    rw [decide_eq_true hsame] at hpick
    rcases hmachine : StreamTranslation.pick entryFormat adaptorProvider created with _ | s | _
    · rw [deliver, deliver, hmachine]
      exact pump_usage_passthrough codec adaptorProvider chunks _ room
    · rw [hmachine] at hpick
      cases hpick
    · rw [hmachine] at hpick
      cases hpick
  · rw [if_neg hsame]
    rw [decide_eq_false hsame] at hpick
    exact pump_usage_translated codec adaptorProvider chunks _ hpick (some room)

end Deliver

end Chennix
