import Mathlib.Data.List.Basic
import Mathlib.Tactic.Common

/-!
# State machines that emit

An emitter takes a state to some outputs and the next state. Emitters run one after another, and a
list of inputs runs an emitter for each of them.

What reads the outputs is a recognizer: a partial step function that refuses an output out of
place. A machine whose every step is accepted in one condition and refused outside of it is
accepted on exactly the inputs that meet the condition all along.

## Main definitions

* `Emitter`, `Emitter.andThen`, `Emitter.forEach` — one step, two steps, a step for each input
* `Emitter.Along` — every input meets a condition in the state it finds
* `Emitter.tryEach` — steps up to one that fails
* `Emitter.accepts` — a recognizer reads a list of outputs
* `Emitter.Exact` — when what is emitted is accepted

## Main results

* `Emitter.forEach_append`, `Emitter.forEach_flatMap` — inputs one after another, inputs in parts
* `Emitter.forEach_invariant` — what every step keeps holds after all of them
* `Emitter.Exact.andThen`, `Emitter.Exact.forEach` — acceptance of the outputs is a condition along
  the inputs
-/

namespace Foundations

/-- Outputs and the next state. -/
abbrev Emitter (σ ω : Type) : Type := σ → List ω × σ

namespace Emitter

variable {σ ω ι κ ρ : Type}

/-- No output, the same state. -/
def skip : Emitter σ ω := fun s => ([], s)

def andThen (f g : Emitter σ ω) : Emitter σ ω := fun s => ((f s).1 ++ (g (f s).2).1, (g (f s).2).2)

/-- One emitter for each input, one after another. -/
def forEach (f : ι → Emitter σ ω) : List ι → Emitter σ ω
  | [] => skip
  | i :: is => (f i).andThen (forEach f is)

@[simp] theorem skip_andThen (f : Emitter σ ω) : skip.andThen f = f := rfl

@[simp] theorem andThen_skip (f : Emitter σ ω) : f.andThen skip = f := by
  funext s
  simp [andThen, skip]

theorem andThen_assoc (f g h : Emitter σ ω) :
    (f.andThen g).andThen h = f.andThen (g.andThen h) := by
  funext s
  simp [andThen]

@[simp] theorem forEach_nil (f : ι → Emitter σ ω) : forEach f [] = skip := rfl

@[simp] theorem forEach_cons (f : ι → Emitter σ ω) (i : ι) (is : List ι) :
    forEach f (i :: is) = (f i).andThen (forEach f is) := rfl

theorem forEach_singleton (f : ι → Emitter σ ω) (i : ι) : forEach f [i] = f i :=
  andThen_skip (f i)

theorem forEach_append (f : ι → Emitter σ ω) (is js : List ι) :
    forEach f (is ++ js) = (forEach f is).andThen (forEach f js) := by
  induction is with
  | nil => rfl
  | cons i is ih => rw [List.cons_append, forEach_cons, forEach_cons, ih, andThen_assoc]

theorem forEach_congr {f g : ι → Emitter σ ω} {is : List ι} (h : ∀ i ∈ is, f i = g i) :
    forEach f is = forEach g is := by
  induction is with
  | nil => rfl
  | cons i is ih =>
    rw [forEach_cons, forEach_cons, h i List.mem_cons_self,
      ih fun j hj => h j (List.mem_cons_of_mem i hj)]

theorem forEach_map (f : κ → Emitter σ ω) (g : ι → κ) (is : List ι) :
    forEach f (is.map g) = forEach (fun i => f (g i)) is := by
  induction is with
  | nil => rfl
  | cons i is ih => rw [List.map_cons, forEach_cons, forEach_cons, ih]

/-- Where the emitter of an input is the emitters of its parts, a list of inputs is the list of
all parts. -/
theorem forEach_flatMap {f : ι → Emitter σ ω} {g : κ → Emitter σ ω} {parts : ι → List κ}
    (h : ∀ i, f i = forEach g (parts i)) (is : List ι) :
    forEach f is = forEach g (is.flatMap parts) := by
  induction is with
  | nil => rfl
  | cons i is ih => rw [forEach_cons, List.flatMap_cons, forEach_append, ← h i, ih]

/-- Inputs for which nothing happens do not count. -/
theorem forEach_filter {f : ι → Emitter σ ω} {p : ι → Bool} (h : ∀ i, p i = false → f i = skip)
    (is : List ι) : forEach f (is.filter p) = forEach f is := by
  induction is with
  | nil => rfl
  | cons i is ih =>
    by_cases hp : p i
    · rw [List.filter_cons_of_pos hp, forEach_cons, forEach_cons, ih]
    · rw [List.filter_cons_of_neg hp, forEach_cons, ih, h i (Bool.not_eq_true _ ▸ hp), skip_andThen]

/-! ### Steps that fail -/

/-- One step for each input, up to one that fails. What was emitted before it is lost. -/
def tryEach {ε : Type} (f : ι → σ → Except ε (List ω) × σ) : List ι → σ → Except ε (List ω) × σ
  | [], s => (.ok [], s)
  | i :: is, s =>
    match f i s with
    | (.error e, s') => (.error e, s')
    | (.ok out, s') =>
      let (result, s'') := tryEach f is s'
      (result.map (out ++ ·), s'')

/-- Where every input can be read, and a step is the emitter of what is read, nothing fails. -/
theorem tryEach_ok {ε : Type} {f : ι → σ → Except ε (List ω) × σ} {read : ι → Except ε κ}
    {g : κ → Emitter σ ω}
    (hf : ∀ i k, read i = .ok k → ∀ s, f i s = (.ok (g k s).1, (g k s).2)) {is : List ι}
    {ks : List κ} (h : is.mapM read = .ok ks) (s : σ) :
    tryEach f is s = (.ok (forEach g ks s).1, (forEach g ks s).2) := by
  induction is generalizing ks s with
  | nil =>
    cases h
    rfl
  | cons i is ih =>
    rw [List.mapM_cons] at h
    cases hi : read i with
    | error e =>
      rw [hi] at h
      cases h
    | ok k =>
      rw [hi] at h
      cases his : is.mapM read with
      | error e =>
        rw [his] at h
        cases h
      | ok ks' =>
        rw [his] at h
        cases h
        rw [tryEach, hf i k hi]
        simp only [ih his, Except.map]
        rfl

/-! ### Invariants -/

/-- What every step keeps, of the outputs so far and the state, holds after all of them. -/
theorem forEach_invariant {f : ι → Emitter σ ω} {I : List ω → σ → Prop} {is : List ι}
    (hstep : ∀ i ∈ is, ∀ out s, I out s → I (out ++ (f i s).1) (f i s).2) (out : List ω) {s : σ}
    (h : I out s) : I (out ++ (forEach f is s).1) (forEach f is s).2 := by
  induction is generalizing out s with
  | nil =>
    show I (out ++ []) s
    rwa [List.append_nil]
  | cons i is ih =>
    have hnext := ih (fun j hj => hstep j (List.mem_cons_of_mem i hj)) _
      (hstep i List.mem_cons_self out s h)
    rwa [List.append_assoc] at hnext

/-! ### Conditions along the inputs -/

/-- Every input meets `C` in the state it finds. -/
def Along (f : ι → Emitter σ ω) (C : σ → ι → Prop) : σ → List ι → Prop
  | _, [] => True
  | s, i :: is => C s i ∧ Along f C (f i s).2 is

theorem along_append {f : ι → Emitter σ ω} {C : σ → ι → Prop} {s : σ} {is js : List ι} :
    Along f C s (is ++ js) ↔ Along f C s is ∧ Along f C (forEach f is s).2 js := by
  induction is generalizing s with
  | nil => exact (and_iff_right trivial).symm
  | cons i is ih =>
    show C s i ∧ Along f C (f i s).2 (is ++ js) ↔ _
    rw [ih, ← and_assoc]
    rfl

theorem Along.and {f : ι → Emitter σ ω} {C D : σ → ι → Prop} {s : σ} {is : List ι}
    (hc : Along f C s is) (hd : Along f D s is) : Along f (fun s i => C s i ∧ D s i) s is := by
  induction is generalizing s with
  | nil => trivial
  | cons i is ih => exact ⟨⟨hc.1, hd.1⟩, ih hc.2 hd.2⟩

/-- What every step that meets the condition keeps holds after all of them. -/
theorem Along.invariant {f : ι → Emitter σ ω} {C : σ → ι → Prop} {I : List ω → σ → Prop}
    (hstep : ∀ i out s, C s i → I out s → I (out ++ (f i s).1) (f i s).2) {s : σ} {is : List ι}
    (halong : Along f C s is) (out : List ω) (h : I out s) :
    I (out ++ (forEach f is s).1) (forEach f is s).2 := by
  induction is generalizing out s with
  | nil =>
    show I (out ++ []) s
    rwa [List.append_nil]
  | cons i is ih =>
    have hnext := ih halong.2 _ (hstep i out s halong.1 h)
    rwa [List.append_assoc] at hnext

/-- Where the condition does not hold along, there is a first input that does not meet it. -/
theorem exists_not_along {f : ι → Emitter σ ω} {C : σ → ι → Prop} {s : σ} {is : List ι}
    (h : ¬Along f C s is) : ∃ pre i post, is = pre ++ i :: post ∧ Along f C s pre ∧
      ¬C (forEach f pre s).2 i := by
  induction is generalizing s with
  | nil => exact absurd trivial h
  | cons i is ih =>
    by_cases hc : C s i
    · obtain ⟨pre, j, post, rfl, hpre, hj⟩ := ih fun hrest => h ⟨hc, hrest⟩
      exact ⟨i :: pre, j, post, rfl, ⟨hc, hpre⟩, hj⟩
    · exact ⟨[], i, is, rfl, trivial, hc⟩

/-- Conditions that agree where something known holds. -/
theorem along_congr {f : ι → Emitter σ ω} {K C D : σ → ι → Prop}
    (h : ∀ s i, K s i → (C s i ↔ D s i)) {s : σ} {is : List ι} (hknown : Along f K s is) :
    Along f C s is ↔ Along f D s is := by
  induction is generalizing s with
  | nil => exact Iff.rfl
  | cons i is ih => exact and_congr (h s i hknown.1) (ih hknown.2)

/-! ### Recognizers -/

/-- The state of a recognizer after some outputs, if it refuses none of them. -/
def accepts (step : ρ → ω → Option ρ) (r : ρ) (out : List ω) : Option ρ := out.foldlM step r

theorem accepts_append {step : ρ → ω → Option ρ} {r : ρ} (out out' : List ω) :
    accepts step r (out ++ out') = (accepts step r out).bind fun r' => accepts step r' out' :=
  List.foldlM_append

/-- In states related to the recognizer's, what the emitter emits is accepted just where the
condition holds, and then the states stay related. -/
def Exact (step : ρ → ω → Option ρ) (R : σ → ρ → Prop) (C : σ → Prop) (f : Emitter σ ω) : Prop :=
  ∀ s r, R s r → (C s → ∃ r', accepts step r (f s).1 = some r' ∧ R (f s).2 r') ∧
    (¬C s → accepts step r (f s).1 = none)

variable {step : ρ → ω → Option ρ} {R : σ → ρ → Prop} {C D : σ → Prop} {f g : Emitter σ ω}

theorem Exact.congr (h : Exact step R C f) (hcd : ∀ s r, R s r → (C s ↔ D s)) :
    Exact step R D f := by
  intro s r hr
  rw [← hcd s r hr]
  exact h s r hr

/-- What emits nothing and keeps the states related is accepted anyway. -/
theorem Exact.quiet (hout : ∀ s, (f s).1 = []) (hkeep : ∀ s r, R s r → R (f s).2 r) :
    Exact step R (fun _ => True) f := by
  intro s r hr
  refine ⟨fun _ => ⟨r, ?_, hkeep s r hr⟩, fun h => absurd trivial h⟩
  rw [hout]
  rfl

theorem Exact.skip : Exact step R (fun _ => True) (skip : Emitter σ ω) :=
  Exact.quiet (fun _ => rfl) fun _ _ h => h

/-- One after the other: the second is asked in the state the first leaves. -/
theorem Exact.andThen (hf : Exact step R C f) (hg : Exact step R D g) :
    Exact step R (fun s => C s ∧ D (f s).2) (f.andThen g) := by
  intro s r hr
  have hsplit : accepts step r (f.andThen g s).1 =
      (accepts step r (f s).1).bind fun r' => accepts step r' (g (f s).2).1 := accepts_append _ _
  rw [hsplit]
  by_cases hc : C s
  · obtain ⟨r₁, hacc, hr₁⟩ := (hf s r hr).1 hc
    rw [hacc, Option.bind_some]
    exact ⟨fun h => (hg _ r₁ hr₁).1 h.2, fun h => (hg _ r₁ hr₁).2 fun hd => h ⟨hc, hd⟩⟩
  · rw [(hf s r hr).2 hc]
    exact ⟨fun h => absurd h.1 hc, fun _ => rfl⟩

/-- One or the other. -/
theorem Exact.ite {p : σ → Prop} [DecidablePred p] (hf : Exact step R C f)
    (hg : Exact step R D g) :
    Exact step R (fun s => if p s then C s else D s) fun s => if p s then f s else g s := by
  intro s r hr
  by_cases hp : p s
  · simp only [if_pos hp]
    exact hf s r hr
  · simp only [if_neg hp]
    exact hg s r hr

/-- **A list of inputs is accepted just where every input is accepted in the state it finds.** -/
theorem Exact.forEach {f : ι → Emitter σ ω} {C : σ → ι → Prop}
    (h : ∀ i, Exact step R (fun s => C s i) (f i)) (is : List ι) :
    Exact step R (fun s => Along f C s is) (Emitter.forEach f is) := by
  induction is with
  | nil => exact Exact.skip
  | cons i is ih => exact (h i).andThen ih

theorem Exact.accepts_iff (h : Exact step R C f) {s : σ} {r : ρ} (hr : R s r) :
    (accepts step r (f s).1).isSome ↔ C s := by
  by_cases hc : C s
  · obtain ⟨r', hacc, _⟩ := (h s r hr).1 hc
    rw [hacc]
    exact iff_of_true rfl hc
  · rw [(h s r hr).2 hc]
    exact iff_of_false Bool.false_ne_true hc

end Emitter

end Foundations
