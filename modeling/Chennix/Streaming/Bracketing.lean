import Chennix.Translator.OpenaiToClaudeStream

/-!
# The bracketing of converted streams

A reader of Claude's events refuses an event that is out of place: one before the message has
started, a block that is not the next one or that starts inside another, a delta or a stop that
does not name the block that is open, a delta that is not of its type. The events the machine
emits are accepted as long as it places every fragment well. It does not when a tool call resumes
after its block was closed: no block is started for it, and its arguments go to whatever block is
open by then.

## Main definitions

* `ClaudeReader`, `Bracketed` — the reader, and what it accepts
* `OpenaiToClaudeStreamState.Placed` — an action that finds the right block open, or can start it

## Main results

* `OpenaiToClaudeStreamState.bracketed_iff` — the events are well bracketed just where every action
  is well placed
* `OpenaiToClaudeStreamState.resumed_tool` — a tool call that goes on after text
-/

namespace Chennix

open Foundations

/-- What a reader of Claude's events has seen. -/
structure ClaudeReader where
  begun : Bool
  /-- So many blocks have started; they are numbered from 0. -/
  blocks : ℕ
  /-- The type of the block that is open, which is the last one. -/
  opened : Option BlockType
  deriving DecidableEq, Repr

namespace ClaudeReader

def init : ClaudeReader := ⟨false, 0, none⟩

/-- Read an event, or refuse it. -/
def next (r : ClaudeReader) : ClaudeEvent → Option ClaudeReader
  | .messageStart _ _ => if r.begun then none else some { r with begun := true }
  | .contentBlockStart index block =>
    if r.begun ∧ r.opened = none ∧ index.toInt = r.blocks then
      some { r with blocks := r.blocks + 1, opened := some block.type }
    else none
  | .contentBlockDelta index delta =>
    if r.opened = some delta.type ∧ index.toInt + 1 = r.blocks then some r else none
  | .contentBlockStop index =>
    if r.opened.isSome ∧ index.toInt + 1 = r.blocks then some { r with opened := none } else none
  | .messageDelta _ _ => if r.begun then some r else none
  | .messageStop => if r.begun then some r else none

end ClaudeReader

/-- The events are well bracketed: the reader accepts all of them. -/
def Bracketed (events : List ClaudeEvent) : Prop :=
  (Emitter.accepts ClaudeReader.next ClaudeReader.init events).isSome

instance (events : List ClaudeEvent) : Decidable (Bracketed events) :=
  inferInstanceAs (Decidable (_ = true))

namespace OpenaiToClaudeStreamState

/-- The index the next block gets. -/
def nextIndex (s : OpenaiToClaudeStreamState) : Int32 :=
  if s.currentBlockType.isSome then s.contentBlockIndex + 1 else s.contentBlockIndex

/-- The action finds the block it needs open, or starts one; the indices have not run out. -/
def Placed (s : OpenaiToClaudeStreamState) : Action → Prop
  | .reasoning text => text = "" ∨ s.currentBlockType = some .thinking ∨ 0 ≤ s.nextIndex
  | .text text => text = "" ∨ s.currentBlockType = some .text ∨ 0 ≤ s.nextIndex
  | .toolCall tc =>
    if tc.index = s.currentOaiToolIndex then
      tc.arguments = "" ∨ s.currentBlockType = some .toolUse
    else 0 ≤ s.nextIndex
  | _ => True

/-! ### Block indices -/

theorem ofNat_nonneg {n : ℕ} (h : n ≤ 2 ^ 31) : 0 ≤ Int32.ofNat n ↔ n < 2 ^ 31 := by
  constructor
  · intro hn
    rcases Nat.lt_or_eq_of_le h with hlt | rfl
    · exact hlt
    · exact absurd hn (by decide)
  · intro hlt
    rw [Int32.le_iff_toInt_le, Int32.toInt_ofNat_of_lt hlt]
    exact Int.natCast_nonneg n

theorem toInt_ofNat_iff {n : ℕ} (h : n ≤ 2 ^ 31) :
    (Int32.ofNat n).toInt = n ↔ 0 ≤ Int32.ofNat n := by
  rw [ofNat_nonneg h]
  constructor
  · intro heq
    rcases Nat.lt_or_eq_of_le h with hlt | rfl
    · exact hlt
    · exact absurd heq (by decide)
  · exact fun hlt => Int32.toInt_ofNat_of_lt hlt

/-! ### What the reader knows of the machine -/

/-- The reader has seen what the machine remembers. -/
structure Reads (s : OpenaiToClaudeStreamState) (r : ClaudeReader) : Prop where
  begun : r.begun = s.started
  opened : r.opened = s.currentBlockType
  closed : s.currentBlockType = none → s.contentBlockIndex = Int32.ofNat r.blocks
  current : s.currentBlockType.isSome →
    ∃ k, r.blocks = k + 1 ∧ s.contentBlockIndex = Int32.ofNat k
  bound : r.blocks ≤ 2 ^ 31
  fresh : s.started = false → s.currentBlockType = none ∧ r.blocks = 0

/-- A step is accepted just where the condition holds. -/
abbrev Accepted (C : OpenaiToClaudeStreamState → Prop) (f : Step) : Prop :=
  Emitter.Exact ClaudeReader.next Reads C f

theorem accepts_singleton (r : ClaudeReader) (e : ClaudeEvent) :
    Emitter.accepts ClaudeReader.next r [e] = r.next e := by
  rw [Emitter.accepts, List.foldlM_cons]
  cases r.next e <;> rfl

theorem accepts_pair (r : ClaudeReader) (e e' : ClaudeEvent) :
    Emitter.accepts ClaudeReader.next r [e, e'] = (r.next e).bind (·.next e') := by
  rw [Emitter.accepts, List.foldlM_cons]
  cases r.next e with
  | none => rfl
  | some r' => exact accepts_singleton r' e'

/-- What the reader knows depends on three fields. -/
theorem Reads.congr {s s' : OpenaiToClaudeStreamState} {r : ClaudeReader} (h : Reads s r)
    (hstarted : s'.started = s.started) (htype : s'.currentBlockType = s.currentBlockType)
    (hindex : s'.contentBlockIndex = s.contentBlockIndex) : Reads s' r where
  begun := hstarted ▸ h.begun
  opened := htype ▸ h.opened
  closed := by
    rw [htype, hindex]
    exact h.closed
  current := by
    rw [htype, hindex]
    exact h.current
  bound := h.bound
  fresh := by
    rw [hstarted, htype]
    exact h.fresh

/-! ### Steps without conditions -/

theorem noteHeader_accepted (id model : Option String) :
    Accepted (fun _ => True) (noteHeader id model) := by
  refine Emitter.Exact.quiet (fun s => ?_) fun s r h => ?_ <;> rw [noteHeader] <;> split
  · rfl
  · rfl
  · exact h
  · exact h.congr rfl rfl rfl

theorem noteUsage_accepted (usage : Usage) : Accepted (fun _ => True) (noteUsage usage) :=
  Emitter.Exact.quiet (fun _ => rfl) fun _ _ h => h.congr rfl rfl rfl

theorem noteTool_accepted (tc : ToolFragment) : Accepted (fun _ => True) (noteTool tc) :=
  Emitter.Exact.quiet (fun _ => rfl) fun _ _ h => h.congr rfl rfl rfl

theorem noteFinish_accepted (reason : String) : Accepted (fun _ => True) (noteFinish reason) :=
  Emitter.Exact.quiet (fun _ => rfl) fun _ _ h => h.congr rfl rfl rfl

/-- A message starts only once. -/
theorem startMessage_accepted : Accepted (fun _ => True) startMessage := by
  intro s r h
  refine ⟨fun _ => ?_, fun hn => absurd trivial hn⟩
  rw [startMessage]
  split
  · exact ⟨r, rfl, h⟩
  · next hs =>
    have hs : s.started = false := Bool.eq_false_iff.mpr hs
    obtain ⟨htype, hblocks⟩ := h.fresh hs
    refine ⟨{ r with begun := true }, ?_, ⟨rfl, h.opened, fun _ => ?_, fun hopen => ?_, h.bound,
      fun hn => absurd hn Bool.true_eq_false.mp⟩⟩
    · rw [accepts_singleton, ClaudeReader.next, h.begun, hs]
      rfl
    · show (0 : Int32) = Int32.ofNat r.blocks
      rw [hblocks]
      rfl
    · rw [show s.currentBlockType = none from htype] at hopen
      cases hopen

/-- The block that is open may be closed. -/
theorem closeCurrentBlock_accepted : Accepted (fun _ => True) closeCurrentBlock := by
  intro s r h
  refine ⟨fun _ => ?_, fun hn => absurd trivial hn⟩
  rw [closeCurrentBlock]
  split
  · next hopen =>
    obtain ⟨k, hk, hindex⟩ := h.current hopen
    have hlt : k < 2 ^ 31 := by
      have := h.bound
      omega
    refine ⟨{ r with opened := none }, ?_, ⟨h.begun, rfl, fun _ => ?_, fun hn => (by cases hn),
      h.bound, fun hs => ⟨rfl, (h.fresh hs).2⟩⟩⟩
    · rw [accepts_singleton, ClaudeReader.next, if_pos]
      refine ⟨h.opened ▸ hopen, ?_⟩
      rw [hindex, Int32.toInt_ofNat_of_lt hlt, hk]
      rfl
    · show s.contentBlockIndex + 1 = Int32.ofNat r.blocks
      rw [hindex, hk, Int32.ofNat_add]
      rfl
  · exact ⟨r, rfl, h⟩

/-! ### Steps with conditions -/

/-- A block starts in a message, outside of other blocks, as long as there are indices. -/
theorem openBlock_accepted (block : ContentBlock) :
    Accepted (fun s => s.started ∧ s.currentBlockType = none ∧ 0 ≤ s.contentBlockIndex)
      (openBlock block) := by
  intro s r h
  have hnext : Emitter.accepts ClaudeReader.next r (openBlock block s).1 =
      r.next (.contentBlockStart s.contentBlockIndex block) := accepts_singleton _ _
  rw [hnext, ClaudeReader.next]
  constructor
  · rintro ⟨hs, htype, hindex⟩
    have hk := h.closed htype
    have hlt : r.blocks < 2 ^ 31 := (ofNat_nonneg h.bound).mp (hk ▸ hindex)
    have hwhere : r.begun ∧ r.opened = none ∧ s.contentBlockIndex.toInt = r.blocks := by
      refine ⟨h.begun.trans hs, h.opened.trans htype, ?_⟩
      rw [hk, Int32.toInt_ofNat_of_lt hlt]
    refine ⟨{ r with blocks := r.blocks + 1, opened := some block.type }, if_pos hwhere,
      ⟨h.begun, rfl, fun hn => (by cases hn), fun _ => ⟨r.blocks, rfl, hk⟩, hlt, fun hn => ?_⟩⟩
    exact absurd (hs.symm.trans hn) Bool.true_eq_false.mp
  · intro hn
    refine if_neg ?_
    rintro ⟨hbegun, hopen, hindex⟩
    have htype : s.currentBlockType = none := h.opened.symm.trans hopen
    refine hn ⟨h.begun.symm.trans hbegun, htype, ?_⟩
    rw [h.closed htype] at hindex ⊢
    exact (toInt_ofNat_iff h.bound).mp hindex

/-- A delta goes to an open block of its type. -/
theorem emitDelta_accepted (delta : BlockDelta) :
    Accepted (fun s => s.currentBlockType = some delta.type) (emitDelta delta) := by
  intro s r h
  have hnext : Emitter.accepts ClaudeReader.next r (emitDelta delta s).1 =
      r.next (.contentBlockDelta s.contentBlockIndex delta) := accepts_singleton _ _
  rw [hnext, ClaudeReader.next]
  constructor
  · intro htype
    obtain ⟨k, hk, hindex⟩ := h.current (by rw [htype]; rfl)
    have hlt : k < 2 ^ 31 := by
      have := h.bound
      omega
    refine ⟨r, if_pos ⟨h.opened.trans htype, ?_⟩, h⟩
    rw [hindex, Int32.toInt_ofNat_of_lt hlt, hk]
    rfl
  · exact fun hn => if_neg fun hopen => hn (h.opened.symm.trans hopen.1)

/-- The end of a message comes after its start. -/
theorem ending_accepted {p : OpenaiToClaudeStreamState → Prop} [DecidablePred p] :
    Accepted (fun s => p s → s.started) fun s =>
      if p s then ([s.messageDelta, .messageStop], { s with messageStopped := true })
      else ([], s) := by
  have hend : Accepted (fun s => s.started) fun s =>
      ([s.messageDelta, .messageStop], { s with messageStopped := true }) := by
    intro s r h
    have hnext : ∀ b, r.begun = b → r.next s.messageDelta = if b then some r else none := by
      rintro b rfl
      rfl
    rw [accepts_pair]
    constructor
    · intro hs
      have hbegun := h.begun.trans hs
      refine ⟨r, ?_, h.congr rfl rfl rfl⟩
      rw [hnext true hbegun]
      exact if_pos hbegun
    · intro hs
      rw [hnext false (h.begun.trans (Bool.eq_false_iff.mpr hs))]
      rfl
  refine (hend.ite (p := p) Emitter.Exact.skip).congr fun s r _ => ?_
  by_cases hp : p s
  · rw [if_pos hp]
    exact ⟨fun hs _ => hs, fun hs => hs hp⟩
  · rw [if_neg hp]
    exact iff_of_true trivial fun h => absurd h hp

theorem flush_accepted :
    Accepted (fun s => s.finished && !s.messageStopped → s.started) flush := ending_accepted

theorem stopIfUsage_accepted :
    Accepted (fun s => s.deferredUsage.isSome → s.started) stopIfUsage := ending_accepted

/-! ### Blocks -/

@[simp] theorem currentBlockType_closeCurrentBlock (s : OpenaiToClaudeStreamState) :
    (closeCurrentBlock s).2.currentBlockType = none := by
  rw [closeCurrentBlock]
  split
  · rfl
  · next hn => exact Option.not_isSome_iff_eq_none.mp hn

@[simp] theorem started_closeCurrentBlock (s : OpenaiToClaudeStreamState) :
    (closeCurrentBlock s).2.started = s.started := by
  rw [closeCurrentBlock]
  split <;> rfl

@[simp] theorem contentBlockIndex_closeCurrentBlock (s : OpenaiToClaudeStreamState) :
    (closeCurrentBlock s).2.contentBlockIndex = s.nextIndex := by
  rw [closeCurrentBlock, nextIndex]
  split <;> rfl

/-- Another block takes the place of the open one as long as there are indices. -/
theorem reopen_accepted (block : ContentBlock) :
    Accepted (fun s => s.started ∧ 0 ≤ s.nextIndex)
      (closeCurrentBlock.andThen (openBlock block)) := by
  refine (closeCurrentBlock_accepted.andThen (openBlock_accepted block)).congr fun s r _ => ?_
  rw [currentBlockType_closeCurrentBlock, started_closeCurrentBlock,
    contentBlockIndex_closeCurrentBlock]
  exact ⟨fun h => ⟨h.2.1, h.2.2.2⟩, fun h => ⟨trivial, h.1, rfl, h.2⟩⟩

theorem ensureBlock_accepted (block : ContentBlock) :
    Accepted (fun s => s.currentBlockType = some block.type ∨ s.started ∧ 0 ≤ s.nextIndex)
      (ensureBlock block) := by
  refine ((Emitter.Exact.skip).ite (p := fun s => s.currentBlockType = some block.type)
    (reopen_accepted block)).congr fun s r _ => ?_
  split
  · next h => exact iff_of_true trivial (.inl h)
  · next h => exact (or_iff_right h).symm

/-- After it the block that is open is of the type. -/
theorem currentBlockType_ensureBlock (block : ContentBlock) (s : OpenaiToClaudeStreamState) :
    (ensureBlock block s).2.currentBlockType = some block.type := by
  rw [ensureBlock]
  split
  · next h => exact h
  · rfl

/-- A delta of a text or of a reasoning, which has a block of its type. -/
theorem addDelta_accepted {text : String} {block : ContentBlock} {delta : BlockDelta}
    (htype : delta.type = block.type) :
    Accepted (fun s => text = "" ∨ s.currentBlockType = some block.type ∨
        s.started ∧ 0 ≤ s.nextIndex)
      (if text = "" then .skip else (ensureBlock block).andThen (emitDelta delta)) := by
  split
  · next h => exact Emitter.Exact.skip.congr fun s r _ => iff_of_true trivial (.inl h)
  · next h =>
    refine ((ensureBlock_accepted block).andThen (emitDelta_accepted delta)).congr fun s r _ => ?_
    rw [currentBlockType_ensureBlock, htype, or_iff_right h]
    exact and_iff_left rfl

/-- A fragment of a tool call that goes on needs a tool's block open; another tool call starts its
block. -/
theorem addToolCall_accepted (tc : ToolFragment) :
    Accepted (fun s => if tc.index = s.currentOaiToolIndex then
        tc.arguments = "" ∨ s.currentBlockType = some .toolUse
      else s.started ∧ 0 ≤ s.nextIndex) (addToolCall tc) := by
  have harguments : Accepted (fun s => tc.arguments = "" ∨ s.currentBlockType = some .toolUse)
      (if tc.arguments = "" then .skip else emitDelta (.inputJson tc.arguments)) := by
    split
    · next h => exact Emitter.Exact.skip.congr fun s r _ => iff_of_true trivial (.inl h)
    · next h => exact (emitDelta_accepted (.inputJson tc.arguments)).congr fun s r _ =>
        (or_iff_right h).symm
  have hother : Accepted (fun s => s.started ∧ 0 ≤ s.nextIndex)
      (closeCurrentBlock.andThen ((openBlock (.toolUse tc.id tc.name)).andThen (noteTool tc))) := by
    rw [← Emitter.andThen_assoc]
    exact ((reopen_accepted (.toolUse tc.id tc.name)).andThen (noteTool_accepted tc)).congr
      fun s r _ => and_iff_left trivial
  have htool : Accepted (fun s => tc.index = s.currentOaiToolIndex ∨ s.started ∧ 0 ≤ s.nextIndex)
      (ensureTool tc) := by
    refine ((Emitter.Exact.skip).ite (p := fun s => tc.index = s.currentOaiToolIndex)
      hother).congr fun s r _ => ?_
    split
    · next h => exact iff_of_true trivial (.inl h)
    · next h => exact (or_iff_right h).symm
  refine (htool.andThen harguments).congr fun s r _ => ?_
  rw [ensureTool]
  split
  · next h => exact and_iff_right (.inl h)
  · next h =>
    rw [or_iff_right h]
    exact and_iff_left (.inr rfl)

/-! ### Whole streams -/

/-- What an action finds: a started message, if it has content for it or ends it. -/
def Known (s : OpenaiToClaudeStreamState) : Action → Prop
  | .reasoning _ => s.started
  | .toolCall _ => s.started
  | .text _ => s.started
  | .finish _ => s.started
  | .flush => s.finished → s.started
  | _ => True

/-- An action is accepted where it is well placed, as long as the message has started. -/
theorem act_accepted (a : Action) : ∃ C, Accepted C (act a) ∧
    ∀ s, s.Known a → (C s ↔ s.Placed a) := by
  have hroom : ∀ s : OpenaiToClaudeStreamState, s.started →
      (s.started ∧ 0 ≤ s.nextIndex ↔ 0 ≤ s.nextIndex) := fun s hs => and_iff_right hs
  cases a with
  | header id model => exact ⟨_, noteHeader_accepted id model, fun _ _ => Iff.rfl⟩
  | usage usage => exact ⟨_, noteUsage_accepted usage, fun _ _ => Iff.rfl⟩
  | start => exact ⟨_, startMessage_accepted, fun _ _ => Iff.rfl⟩
  | flush =>
    refine ⟨_, flush_accepted, fun s hs => iff_of_true (fun hf => ?_) trivial⟩
    exact hs (Bool.and_eq_true_iff.mp hf).1
  | reasoning text =>
    refine ⟨_, addDelta_accepted rfl, fun s hs => ?_⟩
    rw [hroom s hs]
    rfl
  | text text =>
    refine ⟨_, addDelta_accepted rfl, fun s hs => ?_⟩
    rw [hroom s hs]
    rfl
  | toolCall tc =>
    refine ⟨_, addToolCall_accepted tc, fun s hs => ?_⟩
    rw [hroom s hs]
    rfl
  | finish reason =>
    have hfinish := closeCurrentBlock_accepted.andThen
      ((noteFinish_accepted reason).andThen stopIfUsage_accepted)
    refine ⟨_, hfinish, fun s hs => iff_of_true ⟨trivial, trivial, fun _ => ?_⟩ trivial⟩
    exact (started_closeCurrentBlock s).trans hs

/-- A message that has started stays so. -/
theorem started_act {s : OpenaiToClaudeStreamState} (hs : s.started) (a : Action) :
    (act a s).2.started := by
  have hblock : ∀ block, (ensureBlock block s).2.started := by
    intro block
    rw [ensureBlock]
    split
    · exact hs
    · exact (started_closeCurrentBlock s).trans hs
  have hdelta : ∀ (text : String) (block : ContentBlock) (delta : BlockDelta),
      ((if text = "" then (Emitter.skip : Step)
        else (ensureBlock block).andThen (emitDelta delta)) s).2.started := by
    intro text block delta
    split
    · exact hs
    · exact hblock block
  have hstopped : ∀ t : OpenaiToClaudeStreamState, t.started → (stopIfUsage t).2.started := by
    intro t ht
    rw [stopIfUsage]
    split <;> exact ht
  cases a with
  | header id model =>
    show (noteHeader id model s).2.started
    rw [noteHeader, if_pos hs]
    exact hs
  | usage usage => exact hs
  | flush =>
    show (flush s).2.started
    rw [flush]
    split <;> exact hs
  | start =>
    show (startMessage s).2.started
    rw [startMessage, if_pos hs]
    exact hs
  | reasoning text => exact hdelta text .thinking _
  | text text => exact hdelta text .text _
  | toolCall tc =>
    have htool : (ensureTool tc s).2.started := by
      rw [ensureTool]
      split
      · exact hs
      · exact (started_closeCurrentBlock s).trans hs
    show ((if tc.arguments = "" then (Emitter.skip : Step)
      else emitDelta (.inputJson tc.arguments)) (ensureTool tc s).2).2.started
    split <;> exact htool
  | finish reason => exact hstopped _ ((started_closeCurrentBlock s).trans hs)

/-- In a message that has started everything is known. -/
theorem known_of_started {s : OpenaiToClaudeStreamState} (hs : s.started) (as : List Action) :
    Emitter.Along act Known s as := by
  induction as generalizing s with
  | nil => trivial
  | cons a as ih =>
    refine ⟨?_, ih (started_act hs a)⟩
    cases a with
    | flush => exact fun _ => hs
    | header => trivial
    | usage => trivial
    | start => trivial
    | _ => exact hs

/-- What is known of the actions of a list, and that afterwards a message that has finished has
started. -/
structure Sound (s : OpenaiToClaudeStreamState) (as : List Action) : Prop where
  known : Emitter.Along act Known s as
  finished : (Emitter.forEach act as s).2.finished → (Emitter.forEach act as s).2.started

theorem Sound.append {s : OpenaiToClaudeStreamState} {as bs : List Action} (has : Sound s as)
    (hbs : Sound (Emitter.forEach act as s).2 bs) : Sound s (as ++ bs) := by
  refine ⟨Emitter.along_append.mpr ⟨has.known, hbs.known⟩, ?_⟩
  rw [Emitter.forEach_append]
  exact hbs.finished

theorem Sound.of_started {s : OpenaiToClaudeStreamState} (hs : s.started) (as : List Action) :
    Sound s as :=
  ⟨known_of_started hs as, fun _ => Emitter.forEach_invariant
    (I := fun _ (t : OpenaiToClaudeStreamState) => t.started = true)
    (fun a _ _ _ ht => started_act ht a) [] hs⟩

/-- A single action that finds a message that has started if it has finished. -/
theorem Sound.single {s : OpenaiToClaudeStreamState} (hs : s.finished → s.started) {a : Action}
    (hknown : Known s a) (ha : ∀ reason, a ≠ .finish reason) : Sound s [a] := by
  by_cases hstarted : s.started
  · exact .of_started hstarted _
  · refine ⟨⟨hknown, trivial⟩, ?_⟩
    rw [Emitter.forEach_singleton]
    have hfresh : ¬s.finished := fun hf => hstarted (hs hf)
    cases a with
    | header id model =>
      show (noteHeader id model s).2.finished → _
      rw [noteHeader, if_neg hstarted]
      exact fun hf => absurd hf hfresh
    | usage usage => exact fun hf => absurd hf hfresh
    | flush =>
      show (flush s).2.finished → _
      rw [flush, if_neg (fun hf => hfresh (Bool.and_eq_true_iff.mp hf).1)]
      exact fun hf => absurd hf hfresh
    | start =>
      intro _
      show (startMessage s).2.started
      rw [startMessage, if_neg hstarted]
    | finish reason => exact absurd rfl (ha reason)
    | _ => exact absurd hknown hstarted

/-- A message that has finished has started; a line keeps it so. -/
theorem sound_line {s : OpenaiToClaudeStreamState} (hs : s.finished → s.started)
    (line : DataLine) : Sound s line.actions := by
  cases line with
  | done => exact .single hs hs (fun _ h => by cases h)
  | json v =>
    have hhead : Sound s ([.header (v.getStr "id") (v.getStr "model")] ++
        (reportedUsage v).toList.map .usage) := by
      have hheader : Sound s [.header (v.getStr "id") (v.getStr "model")] :=
        .single hs trivial (fun _ h => by cases h)
      refine hheader.append ?_
      cases reportedUsage v with
      | none => exact ⟨trivial, hheader.finished⟩
      | some usage => exact .single hheader.finished trivial (fun _ h => by cases h)
    show Sound s (chunkActions v)
    rw [chunkActions]
    refine hhead.append ?_
    split
    · next choice _ _ =>
      have hstart : Sound _ [Action.start] := .single hhead.finished trivial (fun _ h => by cases h)
      rw [choiceActions, List.append_assoc, List.append_assoc, List.append_assoc]
      refine hstart.append (.of_started ?_ _)
      rw [Emitter.forEach_singleton]
      show (startMessage _).2.started
      rw [startMessage]
      split
      · next h => exact h
      · rfl
    · exact .single hhead.finished hhead.finished (fun _ h => by cases h)

theorem known_lines {s : OpenaiToClaudeStreamState} (hs : s.finished → s.started)
    (lines : List DataLine) :
    Emitter.Along act Known s (lines.flatMap DataLine.actions) := by
  induction lines generalizing s with
  | nil => trivial
  | cons line lines ih =>
    rw [List.flatMap_cons, Emitter.along_append]
    exact ⟨(sound_line hs line).known, ih (sound_line hs line).finished⟩

theorem reads_new : Reads new .init where
  begun := rfl
  opened := rfl
  closed := fun _ => rfl
  current := fun h => by cases h
  bound := Nat.zero_le _
  fresh := fun _ => ⟨rfl, rfl⟩

/-- **The events are well bracketed just where every action is well placed**: no tool call goes on
after its block was closed, and the block indices do not run out. -/
theorem bracketed_iff (lines : List DataLine) :
    Bracketed (Emitter.forEach processLine lines new).1 ↔
      Emitter.Along act Placed new (lines.flatMap DataLine.actions) := by
  choose C haccepted hplaced using act_accepted
  rw [forEach_processLine]
  calc Bracketed (Emitter.forEach act (lines.flatMap DataLine.actions) new).1
      ↔ Emitter.Along act (fun s a => C a s) new (lines.flatMap DataLine.actions) :=
        (Emitter.Exact.forEach haccepted _).accepts_iff reads_new
    _ ↔ Emitter.Along act Placed new (lines.flatMap DataLine.actions) :=
        Emitter.along_congr (fun s a => hplaced a s) (known_lines (fun h => by cases h) lines)

/-! ### A resumed tool call -/

/-- A chunk with one choice. -/
def deltaLine (delta : List (String × Json)) : DataLine :=
  .json (Json.ofMembers [("choices",
    .array [Json.ofMembers [("delta", Json.ofMembers delta), ("finish_reason", .null)]])])

/-- A piece of the arguments of tool call 0. -/
def toolLine (arguments : String) : DataLine :=
  deltaLine [("tool_calls", .array [Json.ofMembers [("index", Json.ofU64 0),
    ("id", .string "call_1"), ("function", Json.ofMembers [("name", .string "f"),
      ("arguments", .string arguments)])]])]

def textLine (content : String) : DataLine := deltaLine [("content", .string content)]

/-- The second half of the arguments comes after a text, and goes to the block of the text. -/
theorem resumed_tool : ¬∀ lines : List DataLine,
    Bracketed (Emitter.forEach processLine lines new).1 := by
  intro h
  exact absurd (h [toolLine "[", textLine "x", toolLine "]"]) (by decide)

end OpenaiToClaudeStreamState

end Chennix
