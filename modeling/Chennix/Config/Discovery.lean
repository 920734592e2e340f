import Chennix.Server.Administration

/-!
# Bindings and small models

A binding names an upstream model of a channel, and so does the row of a small model. No foreign
key ties the two, but every handler does: a binding is made only to a small model that is there,
and a small model that a binding is made to stays.

## Main definitions

* `Db.boundPairs`, `Db.discoveredPairs` — what bindings and small models are about
* `Db.BindingsDiscovered` — every binding is to a small model

## Main results

* `bindingsDiscovered_wrote` — every handler keeps this
* `bindingsDiscovered_run` — it holds of every database an administration leads to
-/

namespace Chennix

open Foundations Transaction

/-- The upstream model that a binding is to. -/
def ModelChannelRow.pair (b : ModelChannelRow) : ℤ × String := (b.channelId, b.upstreamModelName)

namespace Db

def boundPairs (db : Db) : List (ℤ × String) := db.modelChannels.rows.map ModelChannelRow.pair

def discoveredPairs (db : Db) : List (ℤ × String) :=
  db.discoveredModels.rows.map DiscoveredModel.pair

/-- Every binding is to a small model. -/
def BindingsDiscovered (db : Db) : Prop :=
  ∀ b ∈ db.modelChannels.rows, ∃ m ∈ db.discoveredModels.rows,
    m.channelId = b.channelId ∧ m.rawModelName = b.upstreamModelName

theorem bindingsDiscovered_iff {db : Db} :
    db.BindingsDiscovered ↔ db.boundPairs ⊆ db.discoveredPairs := by
  simp only [BindingsDiscovered, boundPairs, discoveredPairs, List.subset_def, List.mem_map,
    DiscoveredModel.pair, ModelChannelRow.pair]
  constructor
  · rintro h _ ⟨b, hb, rfl⟩
    obtain ⟨m, hm, hc, hn⟩ := h b hb
    exact ⟨m, hm, by rw [hc, hn]⟩
  · intro h b hb
    obtain ⟨m, hm, hpair⟩ := h ⟨b, hb, rfl⟩
    exact ⟨m, hm, congrArg Prod.fst hpair, congrArg Prod.snd hpair⟩

/-- Fewer bindings and more small models do no harm. -/
theorem BindingsDiscovered.mono {db db' : Db} (h : db.BindingsDiscovered)
    (hb : db'.boundPairs ⊆ db.boundPairs) (hd : db.discoveredPairs ⊆ db'.discoveredPairs) :
    db'.BindingsDiscovered :=
  bindingsDiscovered_iff.mpr
    (List.Subset.trans hb (List.Subset.trans (bindingsDiscovered_iff.mp h) hd))

end Db

/-! ### Statements -/

section Statements

variable {db db' : Db}

theorem discoveredPairs_update (p : DiscoveredModel → Bool) {f : DiscoveredModel → DiscoveredModel}
    (hf : ∀ r, key (f r) = key r) (hpair : ∀ r, (f r).pair = r.pair) :
    Db.discoveredPairs { db with discoveredModels := db.discoveredModels.update p f hf } =
      db.discoveredPairs :=
  Table.map_rows_update _ _ hf hpair

theorem mem_boundPairs_update {pair : ℤ × String} (p : ModelChannelRow → Bool)
    {f : ModelChannelRow → ModelChannelRow} (hf : ∀ r, key (f r) = key r)
    (hpair : ∀ r, (f r).pair = r.pair) :
    pair ∈ Db.boundPairs { db with modelChannels := db.modelChannels.update p f hf } ↔
      pair ∈ db.boundPairs := by
  rw [Db.boundPairs, Table.map_rows_update _ _ hf hpair, Db.boundPairs]

theorem boundPairs_delete (p : ModelChannelRow → Bool) :
    Db.boundPairs { db with modelChannels := db.modelChannels.delete p } ⊆ db.boundPairs :=
  (List.filter_sublist.map _).subset

/-- An upsert adds its small model, and changes no binding. -/
theorem upsert_pairs {channelId : ℤ} {upstream : String} {f : DiscoveredModel → DiscoveredModel}
    {hf : ∀ r, key (f r) = key r} (hpair : ∀ r, (f r).pair = r.pair)
    (h : DiscoveredModelRepo.upsert channelId upstream f hf db = .ok ((), db')) :
    db'.boundPairs = db.boundPairs ∧ db.discoveredPairs ⊆ db'.discoveredPairs ∧
      (channelId, upstream) ∈ db'.discoveredPairs := by
  rw [DiscoveredModelRepo.upsert] at h
  split at h
  · rename_i hany
    cases h
    refine ⟨rfl, ?_, ?_⟩
    · rw [discoveredPairs_update _ hf hpair]
      exact List.Subset.refl _
    · rw [discoveredPairs_update _ hf hpair]
      obtain ⟨m, hm, hfor⟩ := List.any_eq_true.mp hany
      rw [DiscoveredModelRepo.isFor_eq, decide_eq_true_eq] at hfor
      exact hfor ▸ List.mem_map_of_mem hm
  · split at h
    · cases h
    · cases h
      have hrows : Db.discoveredPairs { db with
          discoveredModels := db.discoveredModels.insertNew
            (fun id => f (.fresh id channelId upstream)) fun _ => hf _ } =
          db.discoveredPairs ++ [(channelId, upstream)] := by
        show List.map _ (_ ++ [_]) = _
        rw [List.map_append, List.map_singleton, hpair]
        rfl
      refine ⟨rfl, ?_, ?_⟩
      · rw [hrows]
        exact List.subset_append_left _ _
      · rw [hrows]
        exact List.mem_append_right _ List.mem_cons_self

/-- A binding is added, or is there already. -/
theorem addBindingWithWeight_pairs {modelId channelId priority weight : ℤ} {upstream : String}
    (h : ModelRepo.addBindingWithWeight modelId channelId upstream priority weight db =
      .ok ((), db')) :
    db'.boundPairs ⊆ (channelId, upstream) :: db.boundPairs ∧
      db'.discoveredPairs = db.discoveredPairs := by
  rw [ModelRepo.addBindingWithWeight] at h
  cases hinsert : db.modelChannels.insert?
      (ModelChannelRow.fresh modelId channelId upstream priority weight) with
  | none =>
    rw [hinsert] at h
    cases h
    refine ⟨fun pair hpair => List.mem_cons_of_mem _ ?_, rfl⟩
    exact (mem_boundPairs_update (f := fun b => (b.withPriority priority).withWeight weight) _
      (fun _ => rfl) fun _ => rfl).mp hpair
  | some T =>
    rw [hinsert] at h
    dsimp only at h
    split at h
    · cases h
    · cases h
      refine ⟨?_, rfl⟩
      show T.rows.map _ ⊆ _
      rw [Table.insert?_rows hinsert, List.map_append]
      refine List.append_subset.mpr ⟨List.subset_cons_self _ _, fun pair hpair => ?_⟩
      rw [List.mem_singleton.mp hpair]
      exact List.mem_cons_self

/-- A binding to a small model that is there. -/
theorem bindingsDiscovered_addBinding {modelId channelId priority weight : ℤ} {upstream : String}
    (h : ModelRepo.addBindingWithWeight modelId channelId upstream priority weight db =
      .ok ((), db')) (hpair : (channelId, upstream) ∈ db.discoveredPairs)
    (hI : db.BindingsDiscovered) : db'.BindingsDiscovered := by
  obtain ⟨hbound, hdiscovered⟩ := addBindingWithWeight_pairs h
  rw [Db.bindingsDiscovered_iff, hdiscovered]
  exact List.Subset.trans hbound
    (List.cons_subset.mpr ⟨hpair, Db.bindingsDiscovered_iff.mp hI⟩)

/-- Other columns of a binding. -/
theorem bindingsDiscovered_updateBinding {modelId channelId : ℤ} {upstream : String}
    {f : ModelChannelRow → ModelChannelRow} {hf : ∀ r, key (f r) = key r}
    (hpair : ∀ r, (f r).pair = r.pair)
    (h : ModelRepo.updateBinding modelId channelId upstream f hf db = .ok ((), db'))
    (hI : db.BindingsDiscovered) : db'.BindingsDiscovered := by
  rw [ModelRepo.updateBinding] at h
  split at h <;> cases h
  exact hI.mono (fun _ => (mem_boundPairs_update _ hf hpair).mp) (List.Subset.refl _)

theorem bindingsDiscovered_upsert {channelId : ℤ} {upstream : String}
    {f : DiscoveredModel → DiscoveredModel} {hf : ∀ r, key (f r) = key r}
    (hpair : ∀ r, (f r).pair = r.pair)
    (h : DiscoveredModelRepo.upsert channelId upstream f hf db = .ok ((), db'))
    (hI : db.BindingsDiscovered) : db'.BindingsDiscovered := by
  obtain ⟨hbound, hdiscovered, _⟩ := upsert_pairs hpair h
  exact hI.mono (fun pair hmem => hbound ▸ hmem) hdiscovered

theorem bindingsDiscovered_discover {channelId : ℤ} {upstream : String} {isFree : Bool}
    {source metadata : Option String}
    (h : DiscoveredModelRepo.upsertDiscoveredModel channelId upstream isFree source metadata db =
      .ok ((), db')) (hI : db.BindingsDiscovered) : db'.BindingsDiscovered :=
  bindingsDiscovered_upsert (f := DiscoveredModel.discovered isFree source metadata)
    (fun _ => rfl) h hI

/-- The bindings of a channel go when its small models go. -/
theorem bindingsDiscovered_deleteChannel {id : ℤ}
    (h : ChannelRepo.deleteChannel id db = .ok ((), db')) (hI : db.BindingsDiscovered) :
    db'.BindingsDiscovered := by
  rcases ChannelRepo.deleteChannel_frame h with rfl | rfl
  · exact hI
  · intro b hb
    obtain ⟨hb, hkept⟩ := List.mem_filter.mp hb
    obtain ⟨m, hm, hc, hn⟩ := hI b hb
    exact ⟨m, List.mem_filter.mpr ⟨hm, by simpa [hc] using hkept⟩, hc, hn⟩

/-- A small model without bindings may go. -/
theorem bindingsDiscovered_deleteDiscoveredModel {channelId : ℤ} {upstream : String}
    (hfree : DiscoveredModelRepo.boundTo channelId upstream db = 0)
    (h : DiscoveredModelRepo.deleteDiscoveredModel channelId upstream db = .ok ((), db'))
    (hI : db.BindingsDiscovered) : db'.BindingsDiscovered := by
  cases h
  intro b hb
  obtain ⟨m, hm, hc, hn⟩ := hI b hb
  refine ⟨m, List.mem_filter.mpr ⟨hm, ?_⟩, hc, hn⟩
  -- A binding to the small model would have been counted.
  by_contra hgone
  have hfor : m.isFor channelId upstream = true := by simpa using hgone
  rw [DiscoveredModelRepo.boundTo] at hfree
  cases hget : DiscoveredModelRepo.getDiscoveredModel channelId upstream db with
  | none => exact absurd hfor (List.find?_eq_none.mp hget m hm)
  | some m' =>
    rw [hget] at hfree
    have hfor' : m'.isFor channelId upstream = true := List.find?_some hget
    rw [DiscoveredModelRepo.isFor_eq, decide_eq_true_eq] at hfor hfor'
    have hpair : b.channelId = m'.channelId ∧ b.upstreamModelName = m'.rawModelName := by
      have hsame := hfor.trans hfor'.symm
      exact ⟨hc.symm.trans (congrArg Prod.fst hsame), hn.symm.trans (congrArg Prod.snd hsame)⟩
    exact absurd (List.countP_eq_zero.mp hfree b hb) (by simp [hpair])

theorem boundPairs_setPriorities (modelId : ℤ) (bindings : List (ℤ × String)) (i : ℕ)
    (T : Table ModelChannelRow) :
    (ModelRepo.setPriorities modelId i bindings T).rows.map ModelChannelRow.pair =
      T.rows.map ModelChannelRow.pair := by
  induction bindings generalizing i T with
  | nil => rfl
  | cons b bindings ih =>
    rw [ModelRepo.setPriorities, ih]
    exact Table.map_rows_update _ _ _ fun _ => rfl

end Statements

/-! ### Handlers and imports -/

/-- **Every handler** keeps bindings to small models. -/
theorem bindingsDiscovered_wrote {call : AdminCall} {now : Calendar.Instant} {db db' : Db}
    (h : call.Wrote now db db') (hI : db.BindingsDiscovered) : db'.BindingsDiscovered := by
  cases call with
  | deleteChannel id => exact bindingsDiscovered_deleteChannel h hI
  | deleteModel id =>
    rcases ModelRepo.deleteModel_frame h with rfl | rfl
    · exact hI
    · exact hI.mono (boundPairs_delete _) (List.Subset.refl _)
  | updateBindingPricing id item pricing =>
    exact bindingsDiscovered_updateBinding (f := ModelChannelRow.withPricing pricing)
      (fun _ => rfl) h hI
  | addBinding modelId item =>
    obtain ⟨hdiscovered, h⟩ := h
    obtain ⟨m, hm⟩ := Option.isSome_iff_exists.mp hdiscovered
    have hfor : m.isFor item.channelId item.upstreamModelName = true := List.find?_some hm
    rw [DiscoveredModelRepo.isFor_eq, decide_eq_true_eq] at hfor
    exact bindingsDiscovered_addBinding h
      (hfor ▸ List.mem_map_of_mem (List.mem_of_find?_eq_some hm)) hI
  | updateBindingWeight id item weight =>
    exact bindingsDiscovered_updateBinding (f := ModelChannelRow.withWeight weight)
      (fun _ => rfl) h hI
  | removeBinding modelId item =>
    cases h
    exact hI.mono (boundPairs_delete _) (List.Subset.refl _)
  | reorderBindings modelId bindings =>
    cases h
    refine hI.mono (fun pair hmem => ?_) (List.Subset.refl _)
    change pair ∈ (ModelRepo.setPriorities _ _ _ _).rows.map ModelChannelRow.pair at hmem
    rwa [boundPairs_setPriorities] at hmem
  | addDiscoveredModels channelId models =>
    change Stmt.Chain _ _ _ _ at h
    generalize cleanNames models = names at h
    induction h with
    | nil db => exact hI
    | cons h _ ih => exact ih (bindingsDiscovered_discover h hI)
  | updateSmallModelQuota channelId p =>
    exact bindingsDiscovered_upsert (f := DiscoveredModel.withQuota _ p.limit (some p.unit)
      (some p.window)) (fun _ => rfl) h hI
  | resetSmallModelQuota channelId upstream =>
    cases h
    refine hI.mono (List.Subset.refl _) fun pair hmem => ?_
    rwa [discoveredPairs_update (f := DiscoveredModel.reset _) _ _ fun _ => rfl]
  | deleteDiscoveredModel channelId upstream =>
    exact bindingsDiscovered_deleteDiscoveredModel h.1 h.2 hI
  | _ =>
    obtain ⟨_, _, _, rfl⟩ := AdminCall.Wrote.frame_bindings h id
    exact hI

namespace Bootstrap

theorem keeps_importModel (m : ModelEntry) : Keeps Db.BindingsDiscovered (importModel m) := by
  intro db _ db' h hI
  obtain ⟨_, rfl⟩ := importModel_ok.mp h
  exact hI

theorem keeps_importChannel (c : ChannelEntry) :
    Keeps Db.BindingsDiscovered (importChannel c) := by
  intro db _ db' h hI
  obtain ⟨_, rfl⟩ := importChannel_ok.mp h
  exact hI

theorem keeps_importKey (k : KeyEntry) : Keeps Db.BindingsDiscovered (importKey k) := by
  intro db _ db' h hI
  obtain ⟨_, _, _, rfl, _⟩ := importKey_ok h
  exact hI

/-- With a binding comes its small model, so the two together keep what the first alone need
not. -/
theorem keeps_importBinding (b : BindingEntry) :
    Keeps Db.BindingsDiscovered (importBinding b) := by
  intro db _ db' h hI
  obtain ⟨m, c, db₁, _, _, hadd, hupsert⟩ := importBinding_cases h
  obtain ⟨hbound, hdiscovered⟩ := addBindingWithWeight_pairs hadd
  obtain ⟨hbound', hdiscovered', hpair⟩ :=
    upsert_pairs (f := DiscoveredModel.discovered false (some "bootstrap") none)
      (fun _ => rfl) hupsert
  rw [Db.bindingsDiscovered_iff, hbound']
  refine List.Subset.trans hbound (List.cons_subset.mpr ⟨hpair, ?_⟩)
  rw [hdiscovered] at hdiscovered'
  exact List.Subset.trans (Db.bindingsDiscovered_iff.mp hI) hdiscovered'

end Bootstrap

open Bootstrap in
/-- **Every import** keeps bindings to small models. -/
theorem keeps_importConfig (config : BootstrapConfig) :
    Keeps Db.BindingsDiscovered (importConfig config) := by
  refine .bind (.forM fun m _ => keeps_importModel m) fun _ => ?_
  refine .bind (.forM fun c _ => keeps_importChannel c) fun _ => ?_
  refine .bind (.forM fun k _ => keeps_importKey k) fun _ => ?_
  exact .forM fun b _ => keeps_importBinding b

/-- **Bindings have small models**: imports and handlers, in whatever order, lead from the empty
database only to databases in which every binding is to a small model. -/
theorem bindingsDiscovered_run {lib : Libraries}
    {parseDbDatetime : String → Option Calendar.Instant} {now : Calendar.Instant}
    {ls : List AdminStep} {s' : AppState}
    (hrun : Machine.run (AdminStep.step lib) (.startup parseDbDatetime {} now) ls = some s') :
    s'.db.BindingsDiscovered := by
  refine AdminStep.keeps_run keeps_importConfig
    (fun _ _ _ _ hwrote => bindingsDiscovered_wrote hwrote) hrun ?_
  intro b hb
  cases hb

/-- A file with one binding. -/
def bindingConfig : BootstrapConfig where
  models := [⟨"chat"⟩]
  channels := [⟨"relay", "openai", "https://relay"⟩]
  bindings := [{ model := "chat", channel := "relay", upstreamModelName := "chat-large" }]

/-- The binding of the file is there, and so is its small model. -/
theorem bindingsDiscovered_run_sample : ∃ s',
    Machine.run (AdminStep.step ⟨Text.toAsciiLower, fun _ _ => .error "no formula"⟩)
      (.startup (fun _ => none) {} 0) [.importFile bindingConfig] = some s' ∧
    s'.db.boundPairs = [(1, "chat-large")] ∧ s'.db.BindingsDiscovered := by
  obtain ⟨s', hrun, hbound⟩ : ∃ s',
      Machine.run (AdminStep.step ⟨Text.toAsciiLower, fun _ _ => .error "no formula"⟩)
        (.startup (fun _ => none) {} 0) [.importFile bindingConfig] = some s' ∧
      s'.db.boundPairs = [(1, "chat-large")] := ⟨_, rfl, rfl⟩
  exact ⟨s', hrun, hbound, bindingsDiscovered_run hrun⟩

end Chennix
