import Chennix.Config.Coherence

/-!
# Invalidation under concurrency

Reading the snapshot is not one step: a reader that finds none loads the snapshot, then the names,
hands the names to the normalizer and only then stores the snapshot. Between any two of these steps
other readers and administrators may come. What a reader loaded before an update may so be stored
after the invalidation that was to discard it.

Each update remembers how many databases there had been when it had written. The databases since
then are those that reflect its write, and what was loaded from one of them reflects it too. These
numbers are not part of the program; they are what the claims about it are stated with.

## Main definitions

* `ReaderPhase`, `UpdatePhase`, `Race` — readers, updates, the whole system
* `Race.step` — one step of one of them
* `Race.SnapshotSince`, `Race.NamesSince` — what reflects a write
* `Race.Label.Settled` — no reader is about to store what an invalidation is to discard

## Main results

* `Race.reader_alone` — a reader that is not interrupted does what `ConfigCache.get` says
* `Race.no_lost_invalidation` — later readers see the update
* `Race.outdated_store` — a reader that stores an old snapshot after the invalidation
-/

namespace Chennix

open Foundations StorageAdapter

/-- Where a call of `ConfigCache::get` stands. -/
inductive ReaderPhase
  /-- About to look at the cached slot. -/
  | reading
  /-- The slot was empty. -/
  | loading
  /-- The snapshot is loaded. -/
  | aliasing (d : CacheData)
  /-- The names are loaded. -/
  | reloading (d : CacheData) (mapping : AliasMapping)
  /-- The normalizer has the names. -/
  | storing (d : CacheData)
  | returned (d : CacheData)

/-- Where an update of the administration stands. -/
inductive UpdatePhase
  | writing (write : Db → Db)
  /-- Written, when there had been so many databases before. -/
  | invalidating (since : ℕ)
  | done (since : ℕ)

/-- The server with its readers and updates. -/
structure Race where
  /-- The databases there have been before, the oldest first. -/
  past : List Db
  db : Db
  cache : Option CacheData
  normalizer : Map String (ℤ × String)
  readers : List ReaderPhase
  updates : List UpdatePhase

namespace Race

/-- The steps. -/
inductive Label
  /-- A request calls `get`. -/
  | arrive
  /-- A reader goes on; a hash map gives its names out in some order. -/
  | read (i : ℕ) (rank : String → ℕ)
  /-- An administrator starts an update. -/
  | submit (write : Db → Db)
  /-- An update goes on. -/
  | update (j : ℕ)

variable (lower : String → String)

def setReader (s : Race) (i : ℕ) (p : ReaderPhase) : Race :=
  { s with readers := s.readers.set i p }

/-- The next step of reader `i`, which stands at a phase. -/
def advance (s : Race) (i : ℕ) (rank : String → ℕ) : ReaderPhase → Option Race
  | .reading =>
    match s.cache with
    | some d => some (s.setReader i (.returned d))
    | none => some (s.setReader i .loading)
  | .loading => some (s.setReader i (.aliasing (loadAll s.db)))
  | .aliasing d => some (s.setReader i (.reloading d (loadAliasMapping s.db)))
  | .reloading d mapping =>
    some { s.setReader i (.storing d) with normalizer := Normalizer.reload lower rank mapping }
  | .storing d => some { s.setReader i (.returned d) with cache := some d }
  | .returned _ => none

/-- One step. -/
def step (s : Race) : Label → Option Race
  | .arrive => some { s with readers := s.readers ++ [.reading] }
  | .read i rank => s.readers[i]?.bind (s.advance lower i rank)
  | .submit write => some { s with updates := s.updates ++ [.writing write] }
  | .update j =>
    match s.updates[j]? with
    | some (.writing write) => some { s with
        past := s.past ++ [s.db]
        db := write s.db
        updates := s.updates.set j (.invalidating (s.past.length + 1)) }
    | some (.invalidating n) => some { s with
        cache := none
        updates := s.updates.set j (.done n) }
    | _ => none

/-! ### What reflects a write -/

/-- The databases since there had been `n`. -/
def since (s : Race) (n : ℕ) : List Db := (s.past ++ [s.db]).drop n

/-- The snapshot is what `load_all` gives for a database since then. -/
def SnapshotSince (s : Race) (n : ℕ) (d : CacheData) : Prop := ∃ db ∈ s.since n, d = loadAll db

/-- The mapping is what `load_alias_mapping` gives for a database since then. -/
def MappingSince (s : Race) (n : ℕ) (mapping : AliasMapping) : Prop :=
  ∃ db ∈ s.since n, mapping = loadAliasMapping db

/-- The normalizer was last reloaded with the names of a database since then. -/
def NamesSince (s : Race) (n : ℕ) : Prop :=
  ∃ mapping rank, s.MappingSince n mapping ∧ s.normalizer = Normalizer.reload lower rank mapping

/-- What a reader has in hand is from a database since then; one that has still to store its
snapshot has left the normalizer with names since then. -/
def PhaseSince (s : Race) (n : ℕ) : ReaderPhase → Prop
  | .reading => True
  | .loading => True
  | .aliasing d => s.SnapshotSince n d
  | .reloading d mapping => s.SnapshotSince n d ∧ s.MappingSince n mapping
  | .storing d => s.SnapshotSince n d ∧ s.NamesSince lower n
  | .returned _ => True

/-- When an update invalidates, no reader has in hand what it loaded before the update's write. -/
def Label.Settled (s : Race) : Label → Prop
  | .update j => ∀ n, s.updates[j]? = some (.invalidating n) →
    ∀ p ∈ s.readers, s.PhaseSince lower n p
  | _ => True

/-! ### Facts that last -/

variable {lower} {s s' : Race} {n k : ℕ}

/-- The databases since then are still among those since then, and names since then stay such. -/
structure Later (lower : String → String) (n : ℕ) (s s' : Race) : Prop where
  databases : ∀ db ∈ s.since n, db ∈ s'.since n
  names : s.NamesSince lower n → s'.NamesSince lower n

theorem SnapshotSince.later {d : CacheData} (h : s.SnapshotSince n d) (hs : Later lower n s s') :
    s'.SnapshotSince n d := by
  obtain ⟨db, hdb, hd⟩ := h
  exact ⟨db, hs.databases db hdb, hd⟩

theorem MappingSince.later {mapping : AliasMapping} (h : s.MappingSince n mapping)
    (hs : Later lower n s s') : s'.MappingSince n mapping := by
  obtain ⟨db, hdb, hm⟩ := h
  exact ⟨db, hs.databases db hdb, hm⟩

theorem PhaseSince.later {p : ReaderPhase} (h : s.PhaseSince lower n p)
    (hs : Later lower n s s') : s'.PhaseSince lower n p := by
  cases p with
  | reading => trivial
  | loading => trivial
  | aliasing d => exact SnapshotSince.later h hs
  | reloading d mapping => exact ⟨h.1.later hs, h.2.later hs⟩
  | storing d => exact ⟨h.1.later hs, hs.names h.2⟩
  | returned d => trivial

/-- A step that leaves the databases and the normalizer alone. -/
theorem later_of_same (hpast : s'.past = s.past) (hdb : s'.db = s.db)
    (hnames : s'.normalizer = s.normalizer) : Later lower n s s' := by
  have hsince : s'.since n = s.since n := by rw [since, hpast, hdb, since]
  refine ⟨fun db h => hsince ▸ h, ?_⟩
  rintro ⟨mapping, rank, ⟨db, hmem, hm⟩, hn⟩
  exact ⟨mapping, rank, ⟨db, hsince ▸ hmem, hm⟩, hnames.trans hn⟩

/-- A write: the databases since then are one more. -/
theorem later_of_write {write : Db → Db} (hpast : s'.past = s.past ++ [s.db])
    (hnames : s'.normalizer = s.normalizer) (hdb : s'.db = write s.db) : Later lower n s s' := by
  have hgrow : ∀ db ∈ s.since n, db ∈ s'.since n := by
    intro db h
    rw [since, hpast, hdb, List.drop_append]
    exact List.mem_append_left _ h
  refine ⟨hgrow, ?_⟩
  rintro ⟨mapping, rank, ⟨db, hmem, hm⟩, hn⟩
  exact ⟨mapping, rank, ⟨db, hgrow db hmem, hm⟩, hnames.trans hn⟩

/-- The database of this moment is one of those since then, if there have been as many. -/
theorem db_mem_since (h : n ≤ s.past.length) : s.db ∈ s.since n := by
  rw [since, List.drop_append_of_le_length h]
  exact List.mem_append_right _ List.mem_cons_self

/-! ### The invariant -/

/-- An update that had written when there had been `n` databases is past its invalidation, and
readers from `k` on have come after it. -/
structure UpToDate (lower : String → String) (n k : ℕ) (s : Race) : Prop where
  written : n ≤ s.past.length
  cached : ∀ d, s.cache = some d → s.SnapshotSince n d ∧ s.NamesSince lower n
  inHand : ∀ p ∈ s.readers, s.PhaseSince lower n p
  returned : ∀ i d, k ≤ i → s.readers[i]? = some (.returned d) →
    s.SnapshotSince n d ∧ s.NamesSince lower n

/-- A reader is replaced, and what it returns, if it has returned, is up to date. -/
theorem UpToDate.setReader (h : UpToDate lower n k s) {i : ℕ} {q : ReaderPhase} {t : Race}
    (hpast : t.past = s.past) (hreaders : t.readers = s.readers.set i q)
    (hlater : Later lower n s t)
    (hcached : ∀ d, t.cache = some d → t.SnapshotSince n d ∧ t.NamesSince lower n)
    (hq : t.PhaseSince lower n q)
    (hreturned : ∀ d, q = .returned d → t.SnapshotSince n d ∧ t.NamesSince lower n) :
    UpToDate lower n k t where
  written := hpast ▸ h.written
  cached := hcached
  inHand := by
    intro p hp
    rw [hreaders] at hp
    rcases List.mem_or_eq_of_mem_set hp with hp | rfl
    · exact (h.inHand p hp).later hlater
    · exact hq
  returned := by
    intro j d hj hd
    rw [hreaders, List.getElem?_set] at hd
    split at hd
    · split at hd
      · exact hreturned d (Option.some.inj hd)
      · cases hd
    · obtain ⟨hs, hn⟩ := h.returned j d hj hd
      exact ⟨hs.later hlater, hlater.names hn⟩

/-- A reader's step keeps the invariant. -/
theorem UpToDate.advance (h : UpToDate lower n k s) {i : ℕ} {rank : String → ℕ} {p : ReaderPhase}
    (hp : s.readers[i]? = some p) (hstep : s.advance lower i rank p = some s') :
    UpToDate lower n k s' := by
  have hhand := h.inHand p (List.mem_of_getElem? hp)
  have hsame : ∀ q, Later lower n s (s.setReader i q) := fun q => later_of_same rfl rfl rfl
  have hcached : ∀ q d, s.cache = some d →
      (s.setReader i q).SnapshotSince n d ∧ (s.setReader i q).NamesSince lower n := by
    intro q d hd
    obtain ⟨hs, hn⟩ := h.cached d hd
    exact ⟨hs.later (hsame q), (hsame q).names hn⟩
  have hnow : s.db ∈ s.since n := db_mem_since h.written
  cases p with
  | reading =>
    rw [Race.advance] at hstep
    cases hc : s.cache with
    | none =>
      rw [hc] at hstep
      cases hstep
      exact h.setReader rfl rfl (hsame _) (hcached _) trivial fun d hd => by cases hd
    | some d =>
      rw [hc] at hstep
      cases hstep
      refine h.setReader rfl rfl (hsame _) (hcached _) trivial fun d' hd' => ?_
      cases hd'
      exact hcached _ d hc
  | loading =>
    cases hstep
    exact h.setReader rfl rfl (hsame _) (hcached _) ⟨s.db, hnow, rfl⟩ fun d hd => by cases hd
  | aliasing d =>
    cases hstep
    have hd : (s.setReader i (.reloading d (loadAliasMapping s.db))).SnapshotSince n d :=
      SnapshotSince.later hhand (hsame _)
    exact h.setReader rfl rfl (hsame _) (hcached _) ⟨hd, s.db, hnow, rfl⟩ fun d hd => by cases hd
  | reloading d mapping =>
    cases hstep
    -- Whatever names the normalizer had, it now has some since then.
    have hnames : NamesSince lower { s.setReader i (.storing d) with
        normalizer := Normalizer.reload lower rank mapping } n := ⟨mapping, rank, hhand.2, rfl⟩
    have hlater : Later lower n s { s.setReader i (.storing d) with
        normalizer := Normalizer.reload lower rank mapping } := ⟨fun db hdb => hdb, fun _ => hnames⟩
    refine h.setReader rfl rfl hlater ?_ ⟨hhand.1.later hlater, hnames⟩ fun d hd => by cases hd
    intro d' hd'
    exact ⟨(h.cached d' hd').1.later hlater, hnames⟩
  | storing d =>
    cases hstep
    have hlater : Later lower n s { s.setReader i (.returned d) with cache := some d } :=
      later_of_same rfl rfl rfl
    have hd : SnapshotSince { s.setReader i (.returned d) with cache := some d } n d ∧
        NamesSince lower { s.setReader i (.returned d) with cache := some d } n :=
      ⟨hhand.1.later hlater, hlater.names hhand.2⟩
    refine h.setReader rfl rfl hlater ?_ trivial fun d' hd' => ?_
    · intro d' hd'
      cases hd'
      exact hd
    · cases hd'
      exact hd
  | returned d => cases hstep

/-- Nothing changes what readers see but the readers themselves. -/
theorem UpToDate.keep (h : UpToDate lower n k s) {t : Race} (hlater : Later lower n s t)
    (hwritten : s.past.length ≤ t.past.length) (hreaders : t.readers = s.readers)
    (hcache : t.cache = s.cache ∨ t.cache = none) : UpToDate lower n k t where
  written := h.written.trans hwritten
  cached := by
    intro d hd
    rcases hcache with hc | hc
    · obtain ⟨hs, hn⟩ := h.cached d (hc ▸ hd)
      exact ⟨hs.later hlater, hlater.names hn⟩
    · rw [hc] at hd
      cases hd
  inHand := fun p hp => (h.inHand p (hreaders ▸ hp)).later hlater
  returned := by
    intro i d hi hd
    obtain ⟨hs, hn⟩ := h.returned i d hi (hreaders ▸ hd)
    exact ⟨hs.later hlater, hlater.names hn⟩

/-- **One step** keeps the invariant, whoever takes it. -/
theorem UpToDate.step {l : Label} (h : UpToDate lower n k s) (hstep : s.step lower l = some s') :
    UpToDate lower n k s' := by
  cases l with
  | arrive =>
    cases hstep
    have hlater : Later lower n s { s with readers := s.readers ++ [.reading] } :=
      later_of_same rfl rfl rfl
    refine ⟨h.written, fun d hd => ?_, fun p hp => ?_, fun i d hi hd => ?_⟩
    · obtain ⟨hs, hn⟩ := h.cached d hd
      exact ⟨hs.later hlater, hlater.names hn⟩
    · rcases List.mem_append.mp hp with hp | hp
      · exact (h.inHand p hp).later hlater
      · rw [List.mem_singleton.mp hp]
        trivial
    · have hd' : (s.readers ++ [.reading])[i]? = some (.returned d) := hd
      rw [List.getElem?_append] at hd'
      split at hd'
      · obtain ⟨hs, hn⟩ := h.returned i d hi hd'
        exact ⟨hs.later hlater, hlater.names hn⟩
      · have := List.mem_of_getElem? hd'
        cases List.mem_singleton.mp this
  | read i rank =>
    obtain ⟨p, hp, hadv⟩ := Option.bind_eq_some_iff.mp hstep
    exact h.advance hp hadv
  | submit write =>
    cases hstep
    exact h.keep (later_of_same rfl rfl rfl) (Nat.le_refl _) rfl (.inl rfl)
  | update j =>
    rw [Race.step] at hstep
    split at hstep
    · cases hstep
      refine h.keep (later_of_write rfl rfl rfl) ?_ rfl (.inl rfl)
      show s.past.length ≤ (s.past ++ [s.db]).length
      rw [List.length_append]
      omega
    · cases hstep
      exact h.keep (later_of_same rfl rfl rfl) (Nat.le_refl _) rfl (.inr rfl)
    · cases hstep

/-! ### Whole runs -/

/-- The server before any reader or update has come. -/
def init (db : Db) (cache : Option CacheData) (normalizer : Map String (ℤ × String)) : Race where
  past := []
  db := db
  cache := cache
  normalizer := normalizer
  readers := []
  updates := []

/-- Updates remember numbers of databases there have been. -/
def Numbered (s : Race) : Prop := ∀ n, .invalidating n ∈ s.updates → n ≤ s.past.length

theorem numbered_step {l : Label} (h : s.Numbered) (hstep : s.step lower l = some s') :
    s'.Numbered := by
  cases l with
  | arrive =>
    cases hstep
    exact h
  | read i rank =>
    obtain ⟨p, _, hadv⟩ := Option.bind_eq_some_iff.mp hstep
    have hsame : s'.updates = s.updates ∧ s'.past = s.past := by
      cases p with
      | reading =>
        rw [advance] at hadv
        cases hc : s.cache <;> rw [hc] at hadv <;> cases hadv <;> exact ⟨rfl, rfl⟩
      | returned d => cases hadv
      | _ => cases hadv; exact ⟨rfl, rfl⟩
    intro n hn
    rw [hsame.2]
    exact h n (hsame.1 ▸ hn)
  | submit write =>
    cases hstep
    intro n hn
    rcases List.mem_append.mp hn with hn | hn
    · exact h n hn
    · cases List.mem_singleton.mp hn
  | update j =>
    rw [step] at hstep
    split at hstep
    · cases hstep
      intro n hn
      show n ≤ (s.past ++ [s.db]).length
      rw [List.length_append, List.length_singleton]
      rcases List.mem_or_eq_of_mem_set hn with hn | hn
      · exact Nat.le_succ_of_le (h n hn)
      · rw [UpdatePhase.invalidating.injEq] at hn
        omega
    · cases hstep
      intro n hn
      rcases List.mem_or_eq_of_mem_set hn with hn | hn
      · exact h n hn
      · cases hn
    · cases hstep

/-- **No lost invalidation**: where no invalidation comes while a reader has older data in hand,
whoever reads after the invalidation of an update gets a snapshot that reflects its write, and the
normalizer has names that reflect it. -/
theorem no_lost_invalidation {db : Db} {cache : Option CacheData}
    {normalizer : Map String (ℤ × String)} {ls ls' : List Label} {s₁ s₂ s₃ : Race} {j n : ℕ}
    (hrun : Machine.run (step lower) (init db cache normalizer) ls = some s₁)
    (hupdate : s₁.updates[j]? = some (.invalidating n))
    (hinvalidate : s₁.step lower (.update j) = some s₂)
    (hrun' : Machine.run (step lower) s₂ ls' = some s₃)
    (halong : Machine.Along (step lower) (fun s l => l.Settled lower s) (init db cache normalizer)
      (ls ++ .update j :: ls'))
    {i : ℕ} {d : CacheData} (hlater : s₂.readers.length ≤ i)
    (hreturned : s₃.readers[i]? = some (.returned d)) :
    s₃.SnapshotSince n d ∧ s₃.NamesSince lower n := by
  have hnumbered : s₁.Numbered :=
    Machine.run_invariant' (fun _ _ _ h hstep => numbered_step h hstep) hrun
      fun n hn => absurd hn List.not_mem_nil
  have hsettled : ∀ p ∈ s₁.readers, s₁.PhaseSince lower n p :=
    (halong.append hrun).2.1 n hupdate
  have hs₂ : s₂ = { s₁ with cache := none, updates := s₁.updates.set j (.done n) } := by
    rw [step, hupdate] at hinvalidate
    exact (Option.some.inj hinvalidate).symm
  have hstart : UpToDate lower n s₂.readers.length s₂ := by
    subst hs₂
    refine ⟨hnumbered n (List.mem_of_getElem? hupdate), (fun d hd => by cases hd),
      fun p hp => (hsettled p hp).later (later_of_same rfl rfl rfl), fun i d hi hd => ?_⟩
    rw [List.getElem?_eq_none hi] at hd
    cases hd
  have hend : UpToDate lower n s₂.readers.length s₃ :=
    Machine.run_invariant' (fun _ _ _ h hstep => h.step hstep) hrun' hstart
  exact hend.returned i d hlater hreturned

/-! ### A reader alone -/

/-- The server with one reader, which is about to look at the slot. -/
def ofAppState (s : AppState) : Race where
  past := []
  db := s.db
  cache := s.cache
  normalizer := s.normalizer
  readers := [.reading]
  updates := []

/-- Nobody interrupts a reader: it returns the snapshot, and leaves the slot and the normalizer, as
`ConfigCache.get` does. -/
theorem reader_alone (s : AppState) (rank : String → ℕ) : ∃ ls t,
    Machine.run (step lower) (ofAppState s) ls = some t ∧
      t.readers = [.returned (ConfigCache.get lower rank s).1] ∧
      t.cache = (ConfigCache.get lower rank s).2.cache ∧
      t.normalizer = (ConfigCache.get lower rank s).2.normalizer := by
  cases hc : s.cache with
  | none =>
    refine ⟨[.read 0 rank, .read 0 rank, .read 0 rank, .read 0 rank, .read 0 rank], ?_⟩
    rw [ConfigCache.get, hc]
    have hfirst : (ofAppState s).step lower (.read 0 rank) =
        some ((ofAppState s).setReader 0 .loading) := by
      show (ofAppState s).advance lower 0 rank .reading = _
      rw [advance, show (ofAppState s).cache = none from hc]
    refine ⟨_, Machine.run_cons.mpr ⟨_, hfirst, rfl⟩, rfl, rfl, rfl⟩
  | some d =>
    refine ⟨[.read 0 rank], ?_⟩
    rw [ConfigCache.get, hc]
    have hfirst : (ofAppState s).step lower (.read 0 rank) =
        some ((ofAppState s).setReader 0 (.returned d)) := by
      show (ofAppState s).advance lower 0 rank .reading = _
      rw [advance, show (ofAppState s).cache = some d from hc]
    exact ⟨_, Machine.run_cons.mpr ⟨_, hfirst, rfl⟩, rfl, rfl, rfl⟩

/-! ### A store that comes too late -/

/-- An administrator deletes all channels. -/
def dropChannels (db : Db) : Db := { db with channels := .empty }

/-- The reader of this run loads the snapshot before the write and stores it after the
invalidation; it has returned, and the next reader still gets the deleted channel. -/
theorem outdated_store : ¬ ∀ (lower : String → String) (db : Db) (cache : Option CacheData)
    (normalizer : Map String (ℤ × String)) (ls ls' ls'' : List Label) (s₁ s₂ s₃ s₄ : Race)
    (j n : ℕ), Machine.run (step lower) (init db cache normalizer) ls = some s₁ →
    s₁.updates[j]? = some (.invalidating n) → s₁.step lower (.update j) = some s₂ →
    Machine.run (step lower) s₂ ls' = some s₃ → (∀ p ∈ s₃.readers, ∃ d, p = .returned d) →
    Machine.run (step lower) s₃ ls'' = some s₄ →
    ∀ (i : ℕ) (d : CacheData), s₃.readers.length ≤ i → s₄.readers[i]? = some (.returned d) →
      s₄.SnapshotSince n d ∧ s₄.NamesSince lower n := by
  intro h
  let rank : String → ℕ := fun _ => 0
  have hlate := h Text.toAsciiLower channelDb none Map.empty
    [.arrive, .read 0 rank, .read 0 rank, .submit dropChannels, .update 0]
    [.read 0 rank, .read 0 rank, .read 0 rank] [.arrive, .read 1 rank] _ _ _ _ 0 1 rfl rfl rfl rfl
    (fun p hp => ⟨_, List.mem_singleton.mp hp⟩) rfl 1 (loadAll channelDb) (Nat.le_refl _) rfl
  obtain ⟨⟨db, hdb, hd⟩, _⟩ := hlate
  rw [List.mem_singleton.mp hdb] at hd
  exact absurd (congrArg CacheData.channels hd) (by decide)

/-- An update before the first reader. -/
theorem no_lost_invalidation_sample : ∃ (s₃ : Race) (d : CacheData),
    s₃.readers[0]? = some (.returned d) ∧ s₃.SnapshotSince 1 d ∧
      s₃.NamesSince Text.toAsciiLower 1 := by
  let rank : String → ℕ := fun _ => 0
  obtain ⟨s₁, s₂, s₃, d, hrun, hupdate, hinv, hlen, hrun', hd⟩ : ∃ (s₁ s₂ s₃ : Race)
      (d : CacheData), Machine.run (step Text.toAsciiLower) (init channelDb none Map.empty)
        [.submit dropChannels, .update 0] = some s₁ ∧ s₁.updates[0]? = some (.invalidating 1) ∧
      s₁.step Text.toAsciiLower (.update 0) = some s₂ ∧ s₂.readers.length ≤ 0 ∧
      Machine.run (step Text.toAsciiLower) s₂
        [.arrive, .read 0 rank, .read 0 rank, .read 0 rank, .read 0 rank, .read 0 rank] =
          some s₃ ∧ s₃.readers[0]? = some (.returned d) :=
    ⟨_, _, _, _, rfl, rfl, rfl, Nat.le_refl _, rfl, rfl⟩
  refine ⟨s₃, d, hd, no_lost_invalidation hrun hupdate hinv hrun' ?_ hlen hd⟩
  have hquiet : ∀ (s : Race) (j : ℕ), s.readers = [] →
      (Label.update j).Settled Text.toAsciiLower s := by
    intro s j hnone n _ p hp
    rw [hnone] at hp
    exact absurd hp List.not_mem_nil
  refine ⟨trivial, fun a ha => ⟨?_, fun b hb => ⟨?_, fun _ _ => ⟨trivial, fun _ _ => ⟨trivial,
    fun _ _ => ⟨trivial, fun _ _ => ⟨trivial, fun _ _ => ⟨trivial, fun _ _ => ⟨trivial,
    fun _ _ => trivial⟩⟩⟩⟩⟩⟩⟩⟩⟩
  · cases ha
    exact hquiet _ 0 rfl
  · cases ha
    cases hb
    exact hquiet _ 0 rfl

end Race

end Chennix
