import Chennix.Foundations.Transaction

/-!
# Transactions that are rolled back

The statements of a transaction work on a copy of the state. When the transaction is committed the
copy takes the place of the state, and when it is dropped without that, the state is as it was: so
it is after any error. A statement may fail by itself, or because the engine fails.

What a program does between its statements is its own affair; it is compared with the sequence of
statements that it follows, which is a program without a transaction.

## Main definitions

* `Tx`, `TxM` — an open transaction, and the programs inside of one
* `statement` — a statement, given what fails in the engine
* `transaction` — begin, a program, and the commit
* `Follows` — what the program does is a sequence of statements

## Main results

* `Follows.transaction_ok`, `Follows.transaction_error` — all of it, or nothing
* `Follows.transaction_succeeds` — an engine that does not fail does all of it
-/

namespace Foundations

/-- An open transaction. -/
structure Tx (σ : Type) where
  /-- The state it began with. -/
  committed : σ
  /-- The state its statements see. -/
  working : σ
  /-- How often the engine was called. -/
  executed : ℕ

/-- A program inside a transaction. What it has written is there when it fails, too. -/
abbrev TxM (σ ε α : Type) : Type := ExceptT ε (StateM (Tx σ)) α

variable {σ ε α β : Type}

/-- A statement that reads. -/
def query (f : σ → α) : StateT σ (Except ε) α := fun s => .ok (f s, s)

section Engine

-- Which calls of the engine fail, and with what error.
variable (faults : ℕ → Option ε)

/-- A statement that fails writes nothing. -/
def statement (stmt : StateT σ (Except ε) α) : TxM σ ε α := fun t =>
  let t' := { t with executed := t.executed + 1 }
  match faults t.executed with
  | some e => (.error e, t')
  | none =>
    match stmt t.working with
    | .error e => (.error e, t')
    | .ok (a, s) => (.ok a, { t' with working := s })

/-- Begin a transaction, run the program, and commit. A transaction that is not committed is rolled
back when it is dropped. -/
def transaction (body : TxM σ ε α) (s : σ) : Except ε α × σ :=
  match faults 0 with
  | some e => (.error e, s)
  | none =>
    match body ⟨s, s, 1⟩ with
    | (.error e, t) => (.error e, t.committed)
    | (.ok a, t) =>
      match faults t.executed with
      | some e => (.error e, t.committed)
      | none => (.ok a, t.working)

/-- A program inside a transaction follows a sequence of statements: it leaves alone what is
committed, and where it succeeds it has done what they do. If the engine does not fail it succeeds
where they do. -/
structure Follows (x : TxM σ ε α) (y : StateT σ (Except ε) α) : Prop where
  committed : ∀ t, (x t).2.committed = t.committed
  ok : ∀ t a, (x t).1 = .ok a → y t.working = .ok (a, (x t).2.working)
  succeeds : (∀ n, faults n = none) → ∀ t a s, y t.working = .ok (a, s) → (x t).1 = .ok a

/-- A transaction fails without having begun, or drops what was written, or takes it over. -/
theorem transaction_cases (x : TxM σ ε α) (s : σ) :
    (∃ e, transaction faults x s = (.error e, s) ∨
      transaction faults x s = (.error e, (x ⟨s, s, 1⟩).2.committed)) ∨
    ∃ a t, x ⟨s, s, 1⟩ = (.ok a, t) ∧ transaction faults x s = (.ok a, t.working) := by
  unfold transaction
  cases faults 0 with
  | some e => exact .inl ⟨e, .inl rfl⟩
  | none =>
    rcases x ⟨s, s, 1⟩ with ⟨e | a, t⟩
    · exact .inl ⟨e, .inr rfl⟩
    · simp only
      cases faults t.executed with
      | some e => exact .inl ⟨e, .inr rfl⟩
      | none => exact .inr ⟨a, t, rfl, rfl⟩

end Engine

namespace Follows

variable {faults : ℕ → Option ε}

theorem pure (a : α) : Follows faults (pure a : TxM σ ε α) (pure a) where
  committed _ := rfl
  ok t b h := by
    cases h
    rfl
  succeeds _ t b s h := by
    cases h
    rfl

theorem throw (e : ε) : Follows faults (throw e : TxM σ ε α) (throw e) where
  committed _ := rfl
  ok _ _ h := by cases h
  succeeds _ _ _ _ h := by cases h

theorem run_bind (x : TxM σ ε α) (f : α → TxM σ ε β) (t : Tx σ) :
    (x >>= f) t =
      match x t with
      | (.ok a, t') => f a t'
      | (.error e, t') => (.error e, t') := by
  show ExceptT.bindCont f (x t).1 (x t).2 = _
  rcases x t with ⟨_ | _, t'⟩ <;> rfl

theorem bind {x : TxM σ ε α} {y : StateT σ (Except ε) α} {f : α → TxM σ ε β}
    {g : α → StateT σ (Except ε) β} (hx : Follows faults x y)
    (hf : ∀ a, Follows faults (f a) (g a)) : Follows faults (x >>= f) (y >>= g) where
  committed t := by
    have hfirst := hx.committed t
    rw [run_bind]
    rcases hrun : x t with ⟨e | a, t'⟩
    · rw [hrun] at hfirst
      exact hfirst
    · rw [hrun] at hfirst
      exact ((hf a).committed t').trans hfirst
  ok t b h := by
    have hfirst := hx.ok t
    rw [run_bind] at h ⊢
    rcases hrun : x t with ⟨e | a, t'⟩
    · rw [hrun] at h
      cases h
    · rw [hrun] at h hfirst
      exact Transaction.bind_ok.mpr ⟨a, _, hfirst a rfl, (hf a).ok t' b h⟩
  succeeds hengine t b s h := by
    obtain ⟨a, s₁, h₁, h₂⟩ := Transaction.bind_ok.mp h
    have hfirst := hx.succeeds hengine t a s₁ h₁
    have hworking := hx.ok t a hfirst
    rw [run_bind]
    rcases hrun : x t with ⟨e | a', t'⟩
    · rw [hrun] at hfirst
      cases hfirst
    · rw [hrun] at hfirst hworking
      cases hfirst
      rw [h₁] at hworking
      cases hworking
      exact (hf a).succeeds hengine t' b s h₂

theorem forM {f : β → TxM σ ε PUnit} {g : β → StateT σ (Except ε) PUnit}
    (h : ∀ b, Follows faults (f b) (g b)) (bs : List β) :
    Follows faults (bs.forM f) (bs.forM g) := by
  induction bs with
  | nil => exact pure PUnit.unit
  | cons b bs ih => exact (h b).bind fun _ => ih

/-- A statement follows itself. -/
theorem statement (stmt : StateT σ (Except ε) α) :
    Follows faults (Foundations.statement faults stmt) stmt where
  committed t := by
    unfold Foundations.statement
    cases faults t.executed with
    | some e => rfl
    | none => cases stmt t.working <;> rfl
  ok t a h := by
    unfold Foundations.statement at h ⊢
    cases hfault : faults t.executed with
    | some e =>
      rw [hfault] at h
      cases h
    | none =>
      rw [hfault] at h
      cases hstmt : stmt t.working with
      | error e =>
        rw [hstmt] at h
        cases h
      | ok r =>
        rw [hstmt] at h
        cases h
        rfl
  succeeds hengine t a s h := by
    unfold Foundations.statement
    rw [hengine, h]

theorem run_query (q : σ → α) (f : α → TxM σ ε β) (t : Tx σ) :
    (Foundations.statement faults (Foundations.query q) >>= f) t =
      match faults t.executed with
      | some e => (.error e, { t with executed := t.executed + 1 })
      | none => f (q t.working) { t with executed := t.executed + 1 } := by
  rw [run_bind, Foundations.statement]
  cases faults t.executed <;> rfl

/-- A query sees the state that the sequence sees. -/
theorem query {q : σ → α} {f : α → TxM σ ε β} {g : σ → StateT σ (Except ε) β}
    (h : ∀ s, Follows faults (f (q s)) (g s)) :
    Follows faults (Foundations.statement faults (Foundations.query q) >>= f) (get >>= g) where
  committed t := by
    rw [run_query]
    cases faults t.executed with
    | some e => rfl
    | none => exact (h t.working).committed _
  ok t b hok := by
    rw [run_query] at hok ⊢
    cases hfault : faults t.executed with
    | some e =>
      rw [hfault] at hok
      cases hok
    | none =>
      rw [hfault] at hok
      exact (h t.working).ok _ b hok
  succeeds hengine t b s hs := by
    rw [run_query, hengine]
    exact (h t.working).succeeds hengine _ b s hs

variable {x : TxM σ ε α} {y : StateT σ (Except ε) α} {s s' : σ} {a : α}

/-- **All of it**: a transaction that succeeds has done what its statements do. -/
theorem transaction_ok (h : Follows faults x y) (hrun : transaction faults x s = (.ok a, s')) :
    y s = .ok (a, s') := by
  rcases transaction_cases faults x s with ⟨e, hfailed | hfailed⟩ | ⟨b, t, hx, hdone⟩
  · rw [hfailed] at hrun
    cases hrun
  · rw [hfailed] at hrun
    cases hrun
  · have hstatements := h.ok ⟨s, s, 1⟩ b
    rw [hx] at hstatements
    rw [hdone] at hrun
    cases hrun
    exact hstatements rfl

/-- **Or nothing**: a transaction that fails, wherever it does, leaves the state as it was. -/
theorem transaction_error {e : ε} (h : Follows faults x y)
    (hrun : transaction faults x s = (.error e, s')) : s' = s := by
  rcases transaction_cases faults x s with ⟨e', hfailed | hfailed⟩ | ⟨b, t, _, hdone⟩
  · rw [hfailed] at hrun
    cases hrun
    rfl
  · rw [hfailed] at hrun
    cases hrun
    exact h.committed ⟨s, s, 1⟩
  · rw [hdone] at hrun
    cases hrun

/-- Where the engine does not fail, a transaction succeeds if its statements do. -/
theorem transaction_succeeds (h : Follows faults x y) (hengine : ∀ n, faults n = none)
    (hstatements : y s = .ok (a, s')) : transaction faults x s = (.ok a, s') := by
  have hok := h.succeeds hengine ⟨s, s, 1⟩ a s' hstatements
  have hworking := h.ok ⟨s, s, 1⟩ a hok
  unfold transaction
  rw [hengine]
  rcases hx : x ⟨s, s, 1⟩ with ⟨e | b, t⟩
  · rw [hx] at hok
    cases hok
  · rw [hx] at hok hworking
    cases hok
    rw [hstatements] at hworking
    cases hworking
    simp only [hengine]

end Follows

end Foundations
