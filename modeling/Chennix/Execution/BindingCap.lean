import Chennix.Execution.Retries

/-!
# What the binding cap counts

The loop visits three bindings. It should thereby try three of them: give up either when no
candidate is left that is available, or when three bindings have been asked. But a binding whose
keys have all become unavailable since routing is visited too, and takes up a place, though nobody
is asked.

## Main definitions

* `CapCountsAttempts` — the loop gave up for a good reason

## Main results

* `Executor.capCountsAttempts_iff` — it did exactly if no key was left after the third binding, or
  each of the first three had one
-/

namespace Chennix

open Foundations Program

/-- The loop found the key available when its turn came. -/
def FoundAvailable (t : List ExecCall) (rk : RoutedKey) : Prop :=
  .checks rk.key.id rk.upstreamModelName true ∈ story t

instance (t : List ExecCall) (rk : RoutedKey) : Decidable (FoundAvailable t rk) :=
  inferInstanceAs (Decidable (_ ∈ _))

/-- The key is available in a situation. -/
def Situation.available (env : Surroundings) (s : Situation) (rk : RoutedKey) : Bool :=
  s.health.isAvailable (env.clock s.readings) rk.key.id rk.upstreamModelName

/-- The key was available when the loop could reach it: when its turn came or, if it never came, in
the end. -/
def AvailableInTime (env : Surroundings) (t : List ExecCall) (last : Situation) (rk : RoutedKey) :
    Prop :=
  FoundAvailable t rk ∨
    (∀ available, .checks rk.key.id rk.upstreamModelName available ∉ story t) ∧
      last.available env rk = true

/-- The binding received an upstream call. -/
def Called (t : List ExecCall) (b : Bucket) : Prop := ∃ a ∈ attemptsOf t, a.rk ∈ b.keys

instance (t : List ExecCall) (b : Bucket) : Decidable (Called t b) :=
  inferInstanceAs (Decidable (∃ a ∈ attemptsOf t, a.rk ∈ b.keys))

/-- The binding was left because it does not serve the request. -/
def LeftBySkip (t : List ExecCall) (b : Bucket) : Prop :=
  ∃ a ∈ attemptsOf t, a.rk ∈ b.keys ∧ a.way = .skip

instance (t : List ExecCall) (b : Bucket) : Decidable (LeftBySkip t b) :=
  inferInstanceAs (Decidable (∃ a ∈ attemptsOf t, a.rk ∈ b.keys ∧ a.way = .skip))

/-- All keys that were available in time were tried, bindings that do not serve the request apart,
or as many bindings as the cap allows received a call. -/
def CapCountsAttempts (env : Surroundings) (candidates : List Bucket) (t : List ExecCall)
    (last : Situation) : Prop :=
  (∀ b ∈ candidates, ∀ rk ∈ b.keys, AvailableInTime env t last rk →
    (∃ a ∈ attemptsOf t, a.rk = rk) ∨ LeftBySkip t b) ∨
  ∃ called : List Bucket, called.Sublist candidates ∧ maxBindingAttempts ≤ called.length ∧
    ∀ b ∈ called, Called t b

/-! ### The turns of a loop that comes to its end -/

section Turns

variable {ctx : ExecutionContext} {rks : List RoutedKey} {turns : List Turn} {way : Way}
  {bs : List Bucket} {all : List (List Turn)}

/-- Every key of a binding has its turn, unless the binding is skipped. -/
theorem Plays.reaches (h : Plays rks turns way) (hway : way ≠ .leave) {rk : RoutedKey}
    (hrk : rk ∈ rks) : (∃ turn ∈ turns, turn.rk = rk) ∨ ∃ turn ∈ turns, turn.way = .skip := by
  induction h with
  | nil => cases hrk
  | @next turn rks turns way _ _ ih =>
    rcases List.mem_cons.mp hrk with rfl | hrk
    · exact .inl ⟨turn, List.mem_cons_self, rfl⟩
    · refine (ih hway hrk).imp ?_ ?_
      · exact fun ⟨turn', hmem, h⟩ => ⟨turn', List.mem_cons_of_mem _ hmem, h⟩
      · exact fun ⟨turn', hmem, h⟩ => ⟨turn', List.mem_cons_of_mem _ hmem, h⟩
  | @last turn rks hnext =>
    refine .inr ⟨turn, List.mem_cons_self, ?_⟩
    cases hturn : turn.way with
    | next => exact absurd hturn hnext
    | skip => rfl
    | leave => exact absurd hturn hway

theorem PlaysAll.reaches (h : PlaysAll bs all way) (hway : way = .next) {b : Bucket} (hb : b ∈ bs)
    {rk : RoutedKey} (hrk : rk ∈ b.keys) :
    (∃ turn ∈ all.flatten, turn.rk = rk) ∨
      ∃ turn ∈ all.flatten, turn.rk ∈ b.keys ∧ turn.way = .skip := by
  induction h with
  | nil => cases hb
  | next h hleave _ ih =>
    rw [List.flatten_cons]
    rcases List.mem_cons.mp hb with rfl | hb
    · refine (h.reaches hleave hrk).imp ?_ ?_
      · exact fun ⟨turn, hmem, hturn⟩ => ⟨turn, List.mem_append_left _ hmem, hturn⟩
      · exact fun ⟨turn, hmem, hturn⟩ => ⟨turn, List.mem_append_left _ hmem, h.mem turn hmem, hturn⟩
    · refine (ih hway hb).imp ?_ ?_
      · exact fun ⟨turn, hmem, hturn⟩ => ⟨turn, List.mem_append_right _ hmem, hturn⟩
      · exact fun ⟨turn, hmem, hturn⟩ => ⟨turn, List.mem_append_right _ hmem, hturn⟩
  | last h => cases hway

/-- A key that is found available is tried at once. -/
theorem mem_story_checks {k : ℤ} {upstream : String} {available : Bool}
    (h : .checks k upstream available ∈ turns.flatMap (Turn.story ctx)) :
    ∃ turn ∈ turns, turn.rk.pair = (k, upstream) ∧ turn.attempt?.isSome = available := by
  obtain ⟨turn, hturn, hmem⟩ := List.mem_flatMap.mp h
  refine ⟨turn, hturn, ?_⟩
  cases turn with
  | passes rk =>
    obtain ⟨rfl, rfl, rfl⟩ := Happening.checks.inj (List.mem_singleton.mp hmem)
    exact ⟨rfl, rfl⟩
  | tries a =>
    rcases a.mark_cases with hmark | hmark | hmark <;>
      simp only [Turn.story, hmark, Option.toList, List.mem_cons, Happening.checks.injEq,
        List.not_mem_nil, reduceCtorEq, or_false] at hmem <;>
      exact ⟨Prod.ext hmem.1.symm hmem.2.1.symm, hmem.2.2.symm⟩

theorem story_checks_mem (ctx : ExecutionContext) {turn : Turn} (h : turn ∈ turns) :
    .checks turn.rk.key.id turn.rk.upstreamModelName turn.attempt?.isSome ∈
      turns.flatMap (Turn.story ctx) := by
  refine List.mem_flatMap.mpr ⟨turn, h, ?_⟩
  cases turn with
  | passes rk => exact List.mem_cons_self
  | tries a => exact List.mem_cons_self

end Turns

section Loop

variable {ctx : ExecutionContext} {candidates : List Bucket} {t : List ExecCall}
  {all : List (List Turn)} {rk : RoutedKey}

theorem mem_attemptsOf (hstory : story t = all.flatten.flatMap (Turn.story ctx)) {a : Attempt} :
    a ∈ attemptsOf t ↔ .tries a ∈ all.flatten := by
  rw [attemptsOf, hstory, (story_reading _ _).1, attemptsIn, List.mem_filterMap]
  constructor
  · rintro ⟨turn, hturn, ha⟩
    rwa [Turn.attempt?_eq_some ha] at hturn
  · exact fun h => ⟨_, h, rfl⟩

theorem foundAvailable_iff (hstory : story t = all.flatten.flatMap (Turn.story ctx)) :
    FoundAvailable t rk ↔ ∃ a ∈ attemptsOf t, a.rk.pair = rk.pair := by
  simp only [mem_attemptsOf hstory]
  rw [FoundAvailable, hstory]
  constructor
  · intro h
    obtain ⟨turn, hturn, hpair, hsome⟩ := mem_story_checks h
    obtain ⟨a, ha⟩ := Option.isSome_iff_exists.mp hsome
    obtain rfl := Turn.attempt?_eq_some ha
    exact ⟨a, hturn, hpair⟩
  · rintro ⟨a, ha, hpair⟩
    obtain ⟨hid, hup⟩ := Prod.ext_iff.mp hpair
    have hmem := story_checks_mem ctx ha
    rwa [show (Turn.tries a).rk.key.id = rk.key.id from hid,
      show (Turn.tries a).rk.upstreamModelName = rk.upstreamModelName from hup] at hmem

/-- Candidates of the bindings the loop visits and of the others are different. -/
theorem apart (hdistinct : Router.Distinct candidates) {b b' : Bucket}
    (hb : b ∈ candidates.take maxBindingAttempts) (hb' : b' ∈ candidates.drop maxBindingAttempts)
    {r r' : RoutedKey} (hr : r ∈ b.keys) (hr' : r' ∈ b'.keys) : r.pair ≠ r'.pair := by
  have hacross := hdistinct.across
  rw [← List.take_append_drop maxBindingAttempts candidates, List.pairwise_append] at hacross
  exact (hacross.2.2 b hb b' hb' r hr r' hr').2

theorem eq_of_pair (hdistinct : Router.Distinct candidates) {b b' : Bucket} (hb : b ∈ candidates)
    (hb' : b' ∈ candidates) {r r' : RoutedKey} (hr : r ∈ b.keys) (hr' : r' ∈ b'.keys)
    (h : r.pair = r'.pair) : r = r' :=
  List.inj_on_of_nodup_map hdistinct.pairs (List.mem_flatMap.mpr ⟨b, hb, hr⟩)
    (List.mem_flatMap.mpr ⟨b', hb', hr'⟩) h

variable {env : Surroundings} {last : Situation} (hdistinct : Router.Distinct candidates)
  (hplays : PlaysAll (candidates.take maxBindingAttempts) all .next)
  (hstory : story t = all.flatten.flatMap (Turn.story ctx))

include hplays hstory

theorem visited : ∀ a ∈ attemptsOf t, ∃ b ∈ candidates.take maxBindingAttempts, a.rk ∈ b.keys :=
  fun _ ha => hplays.mem _ ((mem_attemptsOf hstory).mp ha)

include hdistinct

/-- No binding after the cap is called. -/
theorem uncalled {b : Bucket} (hb : b ∈ candidates.drop maxBindingAttempts) {a : Attempt}
    (ha : a ∈ attemptsOf t) (hrk : rk ∈ b.keys) : a.rk.pair ≠ rk.pair := by
  obtain ⟨b', hb', hmem⟩ := visited hplays hstory a ha
  exact apart hdistinct hb' hb hmem hrk

/-- Nor are its keys checked. -/
theorem unchecked {b : Bucket} (hb : b ∈ candidates.drop maxBindingAttempts) (hrk : rk ∈ b.keys)
    (available : Bool) : .checks rk.key.id rk.upstreamModelName available ∉ story t := by
  intro hcheck
  rw [hstory] at hcheck
  obtain ⟨turn, hturn, hpair, -⟩ := mem_story_checks hcheck
  obtain ⟨b', hb', hmem⟩ := hplays.mem turn hturn
  exact apart hdistinct hb' hb hmem hrk hpair

/-- Of the bindings that the loop visits, it tries what it finds available. -/
theorem tried {b : Bucket} (hb : b ∈ candidates) (hrk : rk ∈ b.keys)
    (hfound : FoundAvailable t rk) :
    ∃ a ∈ attemptsOf t, a.rk = rk := by
  obtain ⟨a, ha, hpair⟩ := (foundAvailable_iff hstory).mp hfound
  obtain ⟨b', hb', hmem⟩ := visited hplays hstory a ha
  exact ⟨a, ha, eq_of_pair hdistinct (List.mem_of_mem_take hb') hb hmem hrk hpair⟩

/-- If nothing is left to be tried, no key after the cap is available. -/
theorem none_left (hall : ∀ b ∈ candidates, ∀ rk ∈ b.keys, AvailableInTime env t last rk →
      (∃ a ∈ attemptsOf t, a.rk = rk) ∨ LeftBySkip t b) :
    ∀ b ∈ candidates.drop maxBindingAttempts, ∀ rk ∈ b.keys, last.available env rk = false := by
  refine fun b hb rk hrk => Bool.eq_false_iff.mpr fun havailable => ?_
  have hintime : AvailableInTime env t last rk :=
    .inr ⟨unchecked hdistinct hplays hstory hb hrk, havailable⟩
  rcases hall b (List.mem_of_mem_drop hb) rk hrk hintime with ⟨a, ha, rfl⟩ | ⟨a, ha, hmem, -⟩
  · exact uncalled hdistinct hplays hstory hb ha hrk rfl
  · exact uncalled hdistinct hplays hstory hb ha hmem rfl

theorem all_tried (hnone : ∀ b ∈ candidates.drop maxBindingAttempts, ∀ rk ∈ b.keys,
      last.available env rk = false) :
    ∀ b ∈ candidates, ∀ rk ∈ b.keys, AvailableInTime env t last rk →
      (∃ a ∈ attemptsOf t, a.rk = rk) ∨ LeftBySkip t b := by
  intro b hb rk hrk hintime
  rcases hintime with hfound | ⟨hunchecked, hlast⟩
  · exact .inl (tried hdistinct hplays hstory hb hrk hfound)
  · rw [← List.take_append_drop maxBindingAttempts candidates, List.mem_append] at hb
    rcases hb with hb | hb
    · rcases hplays.reaches rfl hb hrk with ⟨turn, hturn, rfl⟩ | ⟨turn, hturn, hmem, hskip⟩
      · refine absurd ?_ (hunchecked turn.attempt?.isSome)
        rw [hstory]
        exact story_checks_mem ctx hturn
      · cases turn with
        | passes rk => cases hskip
        | tries a => exact .inr ⟨a, (mem_attemptsOf hstory).mpr hturn, hmem, hskip⟩
    · rw [hnone b hb rk hrk] at hlast
      exact absurd hlast Bool.false_ne_true

/-- Bindings that were called and are as many as the cap allows are the first ones. -/
theorem available_of_called {called : List Bucket} (hsub : called.Sublist candidates)
    (hlen : maxBindingAttempts ≤ called.length) (hcalled : ∀ b ∈ called, Called t b) :
    ∀ b ∈ candidates.take maxBindingAttempts, ∃ rk ∈ b.keys, FoundAvailable t rk := by
  intro b hb
  rw [← List.take_append_drop maxBindingAttempts candidates, List.sublist_append_iff] at hsub
  obtain ⟨first, rest, rfl, hfirst, hrest⟩ := hsub
  have hnone : rest = [] := by
    refine List.eq_nil_iff_forall_not_mem.mpr fun b' hb' => ?_
    obtain ⟨a, ha, hmem⟩ := hcalled b' (List.mem_append_right _ hb')
    exact uncalled hdistinct hplays hstory (hrest.subset hb') ha hmem rfl
  rw [hnone, List.append_nil] at hlen hcalled
  have hfull : first = candidates.take maxBindingAttempts :=
    hfirst.eq_of_length_le ((List.length_take_le _ _).trans hlen)
  obtain ⟨a, ha, hmem⟩ := hcalled b (hfull ▸ hb)
  exact ⟨a.rk, hmem, (foundAvailable_iff hstory).mpr ⟨a, ha, rfl⟩⟩

/-- **The cap**, for a loop that has come to its end. -/
theorem capCountsAttempts_of_turns :
    CapCountsAttempts env candidates t last ↔
      (∀ b ∈ candidates.drop maxBindingAttempts, ∀ rk ∈ b.keys, last.available env rk = false) ∨
        ∀ b ∈ candidates.take maxBindingAttempts, ∃ rk ∈ b.keys, FoundAvailable t rk := by
  constructor
  · rintro (hall | ⟨called, hsub, hlen, hcalled⟩)
    · exact .inl (none_left hdistinct hplays hstory hall)
    · exact .inr (available_of_called hdistinct hplays hstory hsub hlen hcalled)
  · rintro (hnone | havailable)
    · exact .inl (all_tried hdistinct hplays hstory hnone)
    · rcases Nat.lt_or_ge candidates.length maxBindingAttempts with hfew | hmany
      · -- Fewer bindings than the cap allows: none is left.
        have hnil := List.drop_eq_nil_iff.mpr hfew.le
        refine .inl (all_tried hdistinct hplays hstory fun b hb => ?_)
        rw [hnil] at hb
        exact absurd hb List.not_mem_nil
      · refine .inr ⟨candidates.take maxBindingAttempts, List.take_sublist .., ?_, fun b hb => ?_⟩
        · rw [List.length_take, Nat.min_eq_left hmany]
        · obtain ⟨rk, hrk, hfound⟩ := havailable b hb
          obtain ⟨a, ha, rfl⟩ := tried hdistinct hplays hstory (List.mem_of_mem_take hb) hrk hfound
          exact ⟨a, ha, hrk⟩

end Loop

namespace Executor

variable {ctx : ExecutionContext}

/-- **What the cap counts.** An execution that ends with all keys exhausted has tried what it could
or called as many bindings as the cap allows, exactly if no key after the cap is available in the
end, or each binding before it had a key that was available when its turn came. -/
theorem capCountsAttempts_iff (self : Executor) (entryFormat : EntryFormat) (body : Json)
    {env : Surroundings} (hserver : env.OfServer ctx) {candidates : List Bucket}
    (hcandidates : env.candidates = .ok candidates) (health : HealthManager) :
    let run := (self.execute ctx entryFormat body).run env.answer (Surroundings.start health)
    (∃ failure, run.answer = .error failure ∧ failure.error.Exhausted) →
    (CapCountsAttempts env candidates run.trace run.state ↔
      (∀ b ∈ candidates.drop maxBindingAttempts, ∀ rk ∈ b.keys,
        run.state.available env rk = false) ∨
      ∀ b ∈ candidates.take maxBindingAttempts, ∃ rk ∈ b.keys, FoundAvailable run.trace rk) := by
  intro run hexhausted
  obtain ⟨failure, hfailure, hexhausted⟩ := hexhausted
  have hgoes : Goes ctx candidates (story run.trace) run.answer :=
    self.execute_shows entryFormat body hserver.plain hcandidates _
  generalize hstory : story run.trace = l at hgoes
  rw [hfailure] at hgoes
  cases hgoes with
  | early hr =>
    obtain ⟨rfl, -⟩ := hr failure rfl hexhausted
    exact iff_of_true (.inl fun _ h => absurd h List.not_mem_nil)
      (.inl fun _ h => absurd h List.not_mem_nil)
  | left hplays hr => exact absurd hexhausted (hr failure rfl)
  | exhausted hplays hlabels herror =>
    exact capCountsAttempts_of_turns (hserver.distinct hcandidates) hplays hstory

/-- Three bindings are called in vain. -/
theorem capCountsAttempts_sample :
    let run := sampleExecution (fun _ => .timeout) .new
    CapCountsAttempts (.sample fun _ => .timeout) fourCandidates run.trace run.state := by
  intro run
  have hanswer : run.answer = .error ⟨some "ch-3", none, ["key-10", "spare", "key-30"], none,
      some "up", .allKeysExhausted "model-7" ["key-10", "spare", "key-30"]
        (some (ProxyError.upstreamTimeout 60).display)⟩ := by decide +kernel
  refine (capCountsAttempts_iff sample .openAI (.object [])
    (Surroundings.sample_ofServer _) rfl .new
    ⟨_, hanswer, _, _, _, rfl⟩).mpr (.inr ?_)
  decide +kernel

/-- The key of the first binding has been disabled since routing: only two bindings are called, and
the key of the fourth is left. -/
theorem not_capCountsAttempts :
    let run := sampleExecution (fun _ => .timeout) (HealthManager.new.markDisabled 10)
    (∃ failure, run.answer = .error failure ∧ failure.error.Exhausted) ∧
      ¬CapCountsAttempts (.sample fun _ => .timeout) fourCandidates run.trace run.state := by
  intro run
  have hanswer : run.answer = .error ⟨some "ch-3", none, ["spare", "key-30"], none,
      some "up", .allKeysExhausted "model-7" ["spare", "key-30"]
        (some (ProxyError.upstreamTimeout 60).display)⟩ := by decide +kernel
  refine ⟨⟨_, hanswer, _, _, _, rfl⟩, ?_⟩
  rintro (hall | ⟨called, hsub, hlen, hcalled⟩)
  · have hleft : ∃ b ∈ fourCandidates, ∃ rk ∈ b.keys,
        ((∀ available, .checks rk.key.id rk.upstreamModelName available ∉ story run.trace) ∧
          run.state.available (.sample fun _ => .timeout) rk = true) ∧
        (∀ a ∈ attemptsOf run.trace, a.rk ≠ rk) ∧ ¬LeftBySkip run.trace b := by decide +kernel
    obtain ⟨b, hb, rk, hrk, hintime, huntried, hunskipped⟩ := hleft
    rcases hall b hb rk hrk (.inr hintime) with ⟨a, ha, h⟩ | h
    · exact huntried a ha h
    · exact hunskipped h
  · have hcount : fourCandidates.countP (fun b => decide (Called run.trace b)) = 2 := by
      decide +kernel
    have hle := hsub.countP_le (p := fun b => decide (Called run.trace b))
    rw [hcount, List.countP_eq_length.mpr fun b hb => decide_eq_true (hcalled b hb)] at hle
    exact absurd (hlen.trans hle) (by decide)

end Executor

end Chennix
