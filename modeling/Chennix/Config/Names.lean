import Chennix.Server.Events
import Chennix.Server.Gateway

/-!
# Names of models

Clients name models, and names are compared without regard to case and to white space around them.
The database keeps names apart as they are spelled. So a model answers to its name as long as no
other model has a name that is compared alike, and its own is not blank.

## Main definitions

* `Faithful` — every model answers to its name, and no other name is answered to
* `Distinct` — names differ as they are compared, and none is blank
* `Agree` — a token is shown what it may use

## Main results

* `faithful_iff` — names are resolved faithfully exactly if they are distinct
* `shown_iff_allowed` — the list of models and the gateway agree on a token exactly if its limits
  spell the names as they are spelled
-/

namespace Chennix

open Foundations StorageAdapter

/-! ### What the normalizer holds -/

section Reload

variable {lower : String → String} {rank : String → ℕ} {mapping : AliasMapping} {db : Db}

/-- The entries of a mapping under the names that are compared. -/
def comparedEntries (lower : String → String) (rank : String → ℕ) (mapping : AliasMapping) :
    List (String × (ℤ × String)) :=
  ((mapping.inOrder rank).map fun e => (Normalizer.normalized lower e.1, e.2)).filter
    fun kv => kv.1 ≠ ""

theorem reload_eq : Normalizer.reload lower rank mapping =
    Map.ofList (comparedEntries lower rank mapping) := by
  rw [Normalizer.reload, comparedEntries, Map.ofList, List.foldl_filter, List.foldl_map]
  refine congrArg (fun f => List.foldl f _ _) ?_
  funext m e
  by_cases h : Normalizer.normalized lower e.1 = "" <;> simp [h]

theorem mem_comparedEntries {k : String} {v : ℤ × String} :
    (k, v) ∈ comparedEntries lower rank mapping ↔
      k ≠ "" ∧ ∃ name, Normalizer.normalized lower name = k ∧ v ∈ mapping.lookup name := by
  rw [comparedEntries, List.mem_filter, and_comm]
  refine and_congr (by simp) ?_
  simp only [List.mem_map, AliasMapping.inOrder, List.mem_insertionSort]
  constructor
  · rintro ⟨⟨name, v'⟩, he, hkv⟩
    cases hkv
    exact ⟨name, rfl, AList.mem_lookup_iff.mpr he⟩
  · rintro ⟨name, hname, hv⟩
    exact ⟨⟨name, v⟩, AList.mem_lookup_iff.mp hv, by rw [hname]⟩

/-- The mapping leads from each name to the last model of that name. -/
theorem lookup_loadAliasMapping (db : Db) (name : String) :
    (loadAliasMapping db).lookup name = Map.ofList ((ModelRepo.listAllModels db).map fun m =>
      (m.canonicalName, (m.id, m.canonicalName))) name := by
  rw [Map.ofList, List.foldl_map, loadAliasMapping]
  suffices ∀ (l : List ModelRow) (mapping : AliasMapping) (map : Map String (ℤ × String)),
      mapping.lookup name = map name →
      (l.foldl (fun mapping m => mapping.insert m.canonicalName (m.id, m.canonicalName))
          mapping).lookup name =
        l.foldl (fun map m => map.insert m.canonicalName (m.id, m.canonicalName)) map name from
    this _ ∅ Map.empty rfl
  intro l
  induction l with
  | nil => exact fun mapping map h => h
  | cons m l ih =>
    intro mapping map h
    refine ih (mapping.insert m.canonicalName (m.id, m.canonicalName))
      (map.insert m.canonicalName (m.id, m.canonicalName)) ?_
    by_cases hname : name = m.canonicalName
    · subst hname
      rw [AList.lookup_insert, Map.insert_self]
    · rw [AList.lookup_insert_ne hname, Map.insert_of_ne hname, h]

/-- What the normalizer holds of a database: models, under their names as they are compared. -/
theorem reload_some {k : String} {v : ℤ × String}
    (h : Normalizer.reload lower rank (loadAliasMapping db) k = some v) :
    k ≠ "" ∧ ∃ m ∈ db.models.rows, Normalizer.normalized lower m.canonicalName = k ∧
      v = (m.id, m.canonicalName) := by
  rw [reload_eq] at h
  obtain ⟨hk, name, hname, hv⟩ := mem_comparedEntries.mp (Map.mem_of_ofList h)
  rw [Option.mem_def, lookup_loadAliasMapping] at hv
  obtain ⟨m, hm, hmv⟩ := List.mem_map.mp (Map.mem_of_ofList hv)
  cases hmv
  exact ⟨hk, m, mem_listAllModels.mp hm, hname, rfl⟩

/-- Every name that is not blank is held. -/
theorem exists_reload {m : ModelRow} (hm : m ∈ db.models.rows)
    (hblank : Normalizer.normalized lower m.canonicalName ≠ "") :
    ∃ v, Normalizer.reload lower rank (loadAliasMapping db)
      (Normalizer.normalized lower m.canonicalName) = some v := by
  have hentry : (m.canonicalName, (m.id, m.canonicalName)) ∈ (ModelRepo.listAllModels db).map
      fun m => (m.canonicalName, (m.id, m.canonicalName)) :=
    List.mem_map_of_mem (mem_listAllModels.mpr hm)
  obtain ⟨v, hv⟩ := Map.exists_of_mem hentry
  rw [← lookup_loadAliasMapping] at hv
  rw [reload_eq]
  exact Map.exists_of_mem (mem_comparedEntries.mpr ⟨hblank, _, rfl, hv⟩)

end Reload

/-! ### Faithful resolution -/

variable (lower : String → String)

/-- Names differ as they are compared, and none is blank. -/
structure Distinct (db : Db) : Prop where
  differ : ∀ m ∈ db.models.rows, ∀ m' ∈ db.models.rows,
    Normalizer.normalized lower m.canonicalName = Normalizer.normalized lower m'.canonicalName →
      m = m'
  named : ∀ m ∈ db.models.rows, Normalizer.normalized lower m.canonicalName ≠ ""

/-- Every model answers to its name, and a name that is no model's is not answered to. -/
structure Faithful (rank : String → ℕ) (db : Db) : Prop where
  own : ∀ m ∈ db.models.rows, ∃ canonicalName,
    Normalizer.resolve lower (Normalizer.reload lower rank (loadAliasMapping db)) m.canonicalName =
      some (m.id, canonicalName)
  other : ∀ name, (∀ m ∈ db.models.rows,
      Normalizer.normalized lower m.canonicalName ≠ Normalizer.normalized lower name) →
    Normalizer.resolve lower (Normalizer.reload lower rank (loadAliasMapping db)) name = none

variable {lower} {rank : String → ℕ} {db : Db}

/-- Where names are distinct, each leads to its model, with the name as it is spelled. -/
theorem Distinct.resolve (h : Distinct lower db) {m : ModelRow} (hm : m ∈ db.models.rows) :
    Normalizer.resolve lower (Normalizer.reload lower rank (loadAliasMapping db)) m.canonicalName =
      some (m.id, m.canonicalName) := by
  obtain ⟨v, hv⟩ : ∃ v, Normalizer.reload lower rank (loadAliasMapping db)
      (Normalizer.normalized lower m.canonicalName) = some v := exists_reload hm (h.named m hm)
  obtain ⟨_, m', hm', hname, rfl⟩ := reload_some hv
  rw [h.differ m' hm' m hm hname] at hv
  rw [Normalizer.resolve, if_neg (h.named m hm), hv]

/-- What is resolved faithfully is distinct. -/
theorem Faithful.distinct (h : Faithful lower rank db) : Distinct lower db where
  differ := by
    intro m hm m' hm' hsame
    obtain ⟨name, hname⟩ := h.own m hm
    obtain ⟨name', hname'⟩ := h.own m' hm'
    rw [Normalizer.resolve] at hname hname'
    rw [hsame, hname', Option.some.injEq, Prod.mk.injEq] at hname
    exact List.inj_on_of_nodup_map db.models.nodup hm hm' hname.1.symm
  named := by
    intro m hm hblank
    obtain ⟨name, hname⟩ := h.own m hm
    rw [Normalizer.resolve, if_pos hblank] at hname
    cases hname

/-- What is distinct is resolved faithfully. -/
theorem Distinct.faithful (h : Distinct lower db) : Faithful lower rank db where
  own m hm := ⟨m.canonicalName, h.resolve hm⟩
  other := by
    intro name hname
    rw [Normalizer.resolve]
    split
    · rfl
    · cases hv : Normalizer.reload lower rank (loadAliasMapping db)
        (Normalizer.normalized lower name) with
      | none => rfl
      | some v =>
        obtain ⟨_, m, hm, hm', _⟩ := reload_some hv
        exact absurd hm' (hname m hm)

/-- **Faithful resolution**: for every database of models and every order of the entries, names are
resolved faithfully if and only if they are distinct. -/
theorem faithful_iff (lower : String → String) (rank : String → ℕ) (db : Db) :
    Faithful lower rank db ↔ Distinct lower db :=
  ⟨Faithful.distinct, Distinct.faithful⟩

/-- Lower case for the letters of ASCII, and no pricing expressions. -/
def asciiLowercase : Libraries := ⟨Text.toAsciiLower, fun _ _ => .error "unsupported"⟩

/-- Entries in the order they are held in. -/
def inOrderChance : Chance := ⟨fun _ => 0, fun _ => 0⟩

/-- The calls that create and rename models. -/
def Event.names : Event → Bool
  | .admin (.createModel _) _ => true
  | .admin (.updateModel _ _) _ => true
  | _ => false

/-- Two models that differ in case only are created one after the other, and both names lead to
one of them. -/
theorem not_faithful : ¬ ∀ (lib : Libraries) (rank : String → ℕ) (now : Calendar.Instant)
    (es : List Event) (s' : AppState), (∀ e ∈ es, e.names = true) →
    Machine.run (AppState.step lib) (.startup (fun _ => none) {} now) es = some s' →
    Faithful lib.lower rank s'.db := by
  intro h
  let es : List Event := [.admin (.createModel "GPT-4") inOrderChance,
    .admin (.createModel "gpt-4") inOrderChance]
  obtain ⟨s', hrun, hrows⟩ : ∃ s', Machine.run (AppState.step asciiLowercase)
      (.startup (fun _ => none) {} 0) es = some s' ∧
      s'.db.models.rows = [⟨1, "GPT-4", "priority"⟩, ⟨2, "gpt-4", "priority"⟩] :=
    ⟨_, rfl, by decide⟩
  have hfaithful : Faithful asciiLowercase.lower (fun _ => 0) s'.db :=
    h asciiLowercase (fun _ => 0) 0 es s' (by decide) hrun
  have hsame := hfaithful.distinct.differ ⟨1, "GPT-4", "priority"⟩ (by rw [hrows]; decide)
    ⟨2, "gpt-4", "priority"⟩ (by rw [hrows]; decide) (by decide +kernel)
  exact absurd hsame (by decide)

/-! ### The list of models -/

/-- Where a limit names a model in another spelling, a limit names it as it is spelled too. -/
def TokenConfig.SpelledAlike (t : TokenConfig) (db : Db) : Prop :=
  t.modelLimitsEnabled = true → ∀ limits, t.modelLimits = some limits →
    ∀ m ∈ db.models.rows, ∀ l ∈ limits, eqIgnoreAsciiCase l m.canonicalName = true →
      m.canonicalName ∈ limits

theorem eqIgnoreAsciiCase_self (name : String) : eqIgnoreAsciiCase name name = true :=
  beq_self_eq_true _

theorem mem_shownModels {auth : AuthContext} {m : ModelRow} :
    m ∈ shownModels auth db ↔ m ∈ db.models.rows ∧
      (auth.token.modelLimitsEnabled = true → ∀ limits, auth.token.modelLimits = some limits →
        ∃ l ∈ limits, eqIgnoreAsciiCase l m.canonicalName = true) := by
  rw [shownModels]
  cases auth.token.modelLimitsEnabled with
  | false => simp [mem_listAllModels]
  | true =>
    cases auth.token.modelLimits with
    | none => simp [mem_listAllModels]
    | some limits =>
      by_cases hempty : limits = []
      · simp [hempty]
      · simp [hempty, mem_listAllModels]

theorem allowsModel_iff {t : TokenConfig} {name : String} :
    t.allowsModel name = true ↔
      (t.modelLimitsEnabled = true → ∀ limits, t.modelLimits = some limits → name ∈ limits) := by
  rw [TokenConfig.allowsModel]
  cases t.modelLimitsEnabled <;> cases t.modelLimits <;> simp

/-- A request for a model that is resolved passes exactly if its token allows the model. -/
theorem proxyContext_ok_iff {auth : AuthContext} {names : Map String (ℤ × String)} {body : Json}
    {modelName canonicalName : String} {modelId : ℤ} (hbody : body.getStr "model" = some modelName)
    (hname : Normalizer.resolve lower names modelName = some (modelId, canonicalName)) :
    (∃ ctx, proxyContext lower names auth body = .ok ctx) ↔
      auth.token.allowsModel canonicalName = true := by
  rw [proxyContext, hbody]
  dsimp only
  rw [hname]
  dsimp only
  cases auth.token.allowsModel canonicalName <;> simp

/-- The list of models and the gateway agree on a token. -/
def Agree (lower : String → String) (rank : String → ℕ) (db : Db) (auth : AuthContext) : Prop :=
  ∀ m ∈ db.models.rows, ∀ body : Json, body.getStr "model" = some m.canonicalName →
    (m ∈ shownModels auth db ↔ ∃ ctx, proxyContext lower
      (Normalizer.reload lower rank (loadAliasMapping db)) auth body = .ok ctx)

/-- A request for one of distinct models passes if the limits name the model as it is spelled. -/
theorem Distinct.passes_iff (h : Distinct lower db) {auth : AuthContext} {m : ModelRow}
    (hm : m ∈ db.models.rows) {body : Json} (hbody : body.getStr "model" = some m.canonicalName) :
    (∃ ctx, proxyContext lower (Normalizer.reload lower rank (loadAliasMapping db)) auth body =
      .ok ctx) ↔ (auth.token.modelLimitsEnabled = true → ∀ limits,
        auth.token.modelLimits = some limits → m.canonicalName ∈ limits) :=
  (proxyContext_ok_iff hbody (h.resolve hm)).trans allowsModel_iff

theorem Agree.spelledAlike {auth : AuthContext} (hall : Agree lower rank db auth)
    (h : Distinct lower db) : auth.token.SpelledAlike db := by
  intro henabled limits hlimits m hm l hl hcase
  have hbody : (Json.ofMembers [("model", .string m.canonicalName)]).getStr "model" =
      some m.canonicalName := by
    rw [Json.getStr, Json.get_ofMembers]
    rfl
  have hshown : m ∈ shownModels auth db := by
    refine mem_shownModels.mpr ⟨hm, fun _ limits' hlimits' => ?_⟩
    cases hlimits.symm.trans hlimits'
    exact ⟨l, hl, hcase⟩
  exact (h.passes_iff hm hbody).mp ((hall m hm _ hbody).mp hshown) henabled limits hlimits

theorem TokenConfig.SpelledAlike.agree {auth : AuthContext}
    (halike : auth.token.SpelledAlike db) (h : Distinct lower db) : Agree lower rank db auth := by
  intro m hm body hbody
  rw [h.passes_iff hm hbody, mem_shownModels]
  constructor
  · rintro ⟨_, hcase⟩ henabled limits hlimits
    obtain ⟨l, hl, hsame⟩ := hcase henabled limits hlimits
    exact halike henabled limits hlimits m hm l hl hsame
  · intro hnamed
    exact ⟨hm, fun henabled limits hlimits =>
      ⟨m.canonicalName, hnamed henabled limits hlimits, eqIgnoreAsciiCase_self _⟩⟩

/-- **The list of models**: where names are distinct, a token is shown exactly the models that
requests with their names pass for, if and only if its limits spell names as they are spelled. -/
theorem shown_iff_allowed (lower : String → String) (rank : String → ℕ) {db : Db}
    (h : Distinct lower db) (auth : AuthContext) :
    Agree lower rank db auth ↔ auth.token.SpelledAlike db :=
  ⟨fun hall => hall.spelledAlike h, fun halike => halike.agree h⟩

/-- A database with one model. -/
def modelDb : Db where
  models := ⟨[⟨1, "GPT-4", "priority"⟩], List.nodup_singleton _⟩

/-- A client whose token is limited to these models. -/
def limitedTo (limits : List String) : AuthContext where
  user := ⟨1, "alice", 1, 1, 1000, 0, "default"⟩
  token :=
    { id := 1
      userId := 1
      key := "sk-alice"
      name := none
      remainQuota := 500
      usedQuota := 0
      unlimitedQuota := false
      expiredTime := -1
      modelLimitsEnabled := true
      modelLimits := some limits
      status := 1
      allowIps := none }
  clientIp := none

theorem distinct_modelDb : Distinct Text.toAsciiLower modelDb where
  differ := by
    intro m hm m' hm' _
    exact (List.mem_singleton.mp hm).trans (List.mem_singleton.mp hm').symm
  named := by
    intro m hm
    rw [List.mem_singleton.mp hm]
    decide +kernel

/-- A token that is limited in lower case is shown the model and may not use it. -/
theorem shown_not_allowed : ¬ ∀ (lower : String → String) (rank : String → ℕ) (db : Db)
    (auth : AuthContext), Distinct lower db → Agree lower rank db auth := by
  intro h
  have hall := h Text.toAsciiLower (fun _ => 0) modelDb (limitedTo ["gpt-4"]) distinct_modelDb
  have hmem := hall.spelledAlike distinct_modelDb rfl _ rfl ⟨1, "GPT-4", "priority"⟩ (by decide)
    "gpt-4" (by decide) (by decide +kernel)
  exact absurd hmem (by decide)

theorem shown_iff_allowed_sample :
    Agree Text.toAsciiLower (fun _ => 0) modelDb (limitedTo ["GPT-4"]) ∧
      (limitedTo ["GPT-4"]).token.SpelledAlike modelDb := by
  have halike : (limitedTo ["GPT-4"]).token.SpelledAlike modelDb := by
    intro _ limits hlimits m hm l hl _
    cases hlimits
    rw [List.mem_singleton.mp hm]
    decide
  exact ⟨(shown_iff_allowed _ _ distinct_modelDb _).mpr halike, halike⟩

end Chennix
