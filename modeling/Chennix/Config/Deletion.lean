import Chennix.Server.Accounts

/-!
# Deletions

The schema lets most of what belongs to a row go with it: the keys, bindings and small models of a
channel, the bindings of a model, the tokens of a user. A usage log stays, and forbids the deletion
of whatever it refers to.

## Main definitions

* `Deletion`, `Deletion.stmt` — what can be deleted, and the statements that do it
* `Deletion.after` — the database without the rows that belong to what is deleted
* `Deletion.Unlogged` — no usage log refers to a row that would go

## Main results

* `Deletion.works_iff` — a deletion does its work if and only if no usage log is in its way
* `Deletion.not_works` — a key that has been used cannot be deleted
-/

namespace Chennix

open Foundations Transaction

/-! ### Small models are not merged -/

namespace Db

/-- No small model says that it is merged into a model. -/
def NoneMerged (db : Db) : Prop := ∀ m ∈ db.discoveredModels.rows, m.mergedToModelId = none

theorem NoneMerged.update {db : Db} (hI : db.NoneMerged) {p : DiscoveredModel → Bool}
    {f : DiscoveredModel → DiscoveredModel} (hf : ∀ r, key (f r) = key r)
    (hmerged : ∀ r, (f r).mergedToModelId = r.mergedToModelId) :
    NoneMerged { db with discoveredModels := db.discoveredModels.update p f hf } := by
  intro m hm
  obtain ⟨r, hr, rfl⟩ := List.mem_map.mp hm
  split
  · rw [hmerged]
    exact hI r hr
  · exact hI r hr

end Db

section Unmerged

variable {db db' : Db}

open AdminCall

/-- Where a small model says that it is merged. -/
theorem upsert_merged {channelId : ℤ} {upstream : String} {f : DiscoveredModel → DiscoveredModel}
    {hf : ∀ r, key (f r) = key r} (hmerged : ∀ r, (f r).mergedToModelId = r.mergedToModelId)
    (h : DiscoveredModelRepo.upsert channelId upstream f hf db = .ok ((), db'))
    (hI : db.NoneMerged) : db'.NoneMerged := by
  rw [DiscoveredModelRepo.upsert] at h
  split at h
  · cases h
    exact hI.update hf hmerged
  · split at h <;> cases h
    intro m hm
    rcases List.mem_append.mp hm with hm | hm
    · exact hI m hm
    · rw [List.mem_singleton.mp hm, hmerged]
      rfl

/-- **No handler** merges small models. -/
theorem noneMerged_wrote {call : AdminCall} {now : Calendar.Instant} (h : call.Wrote now db db')
    (hI : db.NoneMerged) : db'.NoneMerged := by
  cases call with
  | deleteChannel id =>
    rcases ChannelRepo.deleteChannel_frame h with rfl | rfl
    · exact hI
    · exact fun m hm => hI m (List.mem_of_mem_filter hm)
  | deleteModel id =>
    rcases ModelRepo.deleteModel_frame h with rfl | rfl
    · exact hI
    · exact hI
  | updateBindingPricing id item pricing =>
    obtain ⟨_, rfl⟩ := ModelRepo.updateBinding_frame (f := ModelChannelRow.withPricing pricing) h
    exact hI
  | addBinding modelId item =>
    obtain ⟨_, rfl⟩ := ModelRepo.addBindingWithWeight_frame h.2
    exact hI
  | updateBindingWeight id item weight =>
    obtain ⟨_, rfl⟩ := ModelRepo.updateBinding_frame (f := ModelChannelRow.withWeight weight) h
    exact hI
  | removeBinding modelId item =>
    cases h
    exact hI
  | reorderBindings modelId bindings =>
    cases h
    exact hI
  | addDiscoveredModels channelId models =>
    change Stmt.Chain _ _ _ _ at h
    generalize cleanNames models = names at h
    induction h with
    | nil db => exact hI
    | cons h _ ih =>
      exact ih (upsert_merged (f := DiscoveredModel.discovered _ _ _) (fun _ => rfl) h hI)
  | updateSmallModelQuota channelId p =>
    exact upsert_merged (f := DiscoveredModel.withQuota _ _ _ _) (fun _ => rfl) h hI
  | resetSmallModelQuota channelId upstream =>
    cases h
    exact hI.update _ fun _ => rfl
  | deleteDiscoveredModel channelId upstream =>
    cases h.2
    exact fun m hm => hI m (List.mem_of_mem_filter hm)
  | _ =>
    obtain ⟨_, _, _, rfl⟩ := AdminCall.Wrote.frame_bindings h id
    exact hI

theorem noneMerged_billing {q : BillingReq} {now : String} {r : q.Resp}
    (h : q.answer now db = (r, db')) (hI : db.NoneMerged) : db'.NoneMerged := by
  rcases BillingReq.answer_cases h with ⟨c, -, rfl, -⟩ | ⟨-, ⟨k, st, -, rfl⟩ | rfl⟩
  · rw [Db.applyCharge]
    split <;> exact hI
  · exact hI
  · exact hI

theorem logUsage_frame {entry : UsageEntry} (h : StorageAdapter.logUsage entry db = .ok ((), db')) :
    ∃ T, db' = { db with usageLogs := T } := by
  rw [StorageAdapter.logUsage] at h
  split at h
  · cases h
  · split at h <;> cases h
    exact ⟨_, rfl⟩

variable {s : AppState}

/-- A request reads and writes small models, and merges none. -/
theorem noneMerged_answer (lower : String → String) (chance : Chance) (q : ExecReq)
    (reply : q.Resp) (hI : s.db.NoneMerged) :
    (s.answer lower chance q reply).2.db.NoneMerged := by
  cases q with
  | selectKeys ctx =>
    show (ConfigCache.get lower chance.rank s).2.db.NoneMerged
    rwa [ConfigCache.db_get]
  | getChannelModelPricing modelId channelId upstream =>
    show (ConfigCache.get lower chance.rank s).2.db.NoneMerged
    rwa [ConfigCache.db_get]
  | billing q => exact noneMerged_billing (r := (q.answer (nowIso8601 s.now) s.db).1) rfl hI
  | logUsage entry =>
    rcases ServerStep.query_cases (s := s) (StorageAdapter.logUsage entry) with h | ⟨a, h⟩
    · exact (congrArg Db.NoneMerged h).mpr hI
    · obtain ⟨T, hdb⟩ := logUsage_frame h
      exact (congrArg Db.NoneMerged hdb).mpr hI
  | addSmallModelUsage channelId upstream delta quotaStatus =>
    exact hI.update _ fun _ => rfl
  | _ => exact hI

theorem noneMerged_event {lib : Libraries} {s' : AppState} {e : Event}
    (h : s.step lib e = some s') (hI : s.db.NoneMerged) : s'.db.NoneMerged := by
  cases e with
  | request chance =>
    cases h
    rwa [ConfigCache.db_get]
  | call a chance =>
    cases h
    exact noneMerged_answer lib.lower chance a.1 a.2 hI
  | admin call chance =>
    rcases AppState.step_admin h with rfl | ⟨_, hok⟩
    · exact hI
    · exact noneMerged_wrote (AdminCall.wrote hok) hI
  | recover =>
    cases h
    exact hI.update _ fun _ => rfl
  | elapse duration =>
    cases h
    exact hI

/-- The handlers of accounts write accounts only. -/
theorem accounts_frame {now : Calendar.Instant} {readLimits : String → Option (List String)}
    {call : AccountCall} (h : call.body now readLimits db = .ok ((), db')) :
    ∃ T U, db' = { db with users := T, tokens := U } := by
  cases call with
  | createUser payload hash =>
    obtain ⟨id, db₁, hcreate, hr⟩ := bind_ok.mp h
    cases pure_ok.mp hr
    cases hash with
    | error e => cases hcreate
    | ok hash =>
      have hstmt := AdminM.lift_ok.mp hcreate
      rw [UserRepo.createUserWithQuota] at hstmt
      split at hstmt <;> cases hstmt
      exact ⟨_, _, rfl⟩
  | updateUser id payload =>
    have hstmt := AdminM.lift_ok.mp h
    rw [UserRepo.updateUser] at hstmt
    split at hstmt <;> cases hstmt
    exact ⟨_, _, rfl⟩
  | deleteUser id =>
    have hstmt := AdminM.lift_ok.mp h
    rw [UserRepo.deleteUser] at hstmt
    split at hstmt
    · cases hstmt
      exact ⟨_, _, rfl⟩
    · split at hstmt <;> cases hstmt
      exact ⟨_, _, rfl⟩
  | createToken user queryUserId payload uuid =>
    obtain ⟨id, db₁, hcreate, hr⟩ := bind_ok.mp h
    cases pure_ok.mp hr
    have hstmt := AdminM.lift_ok.mp hcreate
    rw [TokenRepo.createTokenFull] at hstmt
    split at hstmt
    · cases hstmt
    · split at hstmt <;> cases hstmt
      exact ⟨_, _, rfl⟩
  | updateToken user id payload =>
    obtain ⟨_, db₁, hown, hupdate⟩ := bind_ok.mp h
    obtain ⟨hsame, _⟩ := ownToken_ok hown
    cases hsame
    cases AdminM.lift_ok.mp hupdate
    exact ⟨_, _, rfl⟩
  | deleteToken user id =>
    obtain ⟨_, db₁, hown, hdelete⟩ := bind_ok.mp h
    obtain ⟨hsame, _⟩ := ownToken_ok hown
    cases hsame
    have hstmt := AdminM.lift_ok.mp hdelete
    rw [TokenRepo.deleteTokenById] at hstmt
    split at hstmt <;> cases hstmt
    exact ⟨_, _, rfl⟩

theorem noneMerged_importConfig (config : BootstrapConfig) :
    Keeps Db.NoneMerged (importConfig config) := by
  refine .bind (.forM fun m _ => ?_) fun _ => ?_
  · intro db _ db' h hI
    obtain ⟨_, rfl⟩ := Bootstrap.importModel_ok.mp h
    exact hI
  refine .bind (.forM fun c _ => ?_) fun _ => ?_
  · intro db _ db' h hI
    obtain ⟨_, rfl⟩ := Bootstrap.importChannel_ok.mp h
    exact hI
  refine .bind (.forM fun k _ => ?_) fun _ => .forM fun b _ => ?_
  · intro db _ db' h hI
    obtain ⟨_, _, _, rfl, _⟩ := Bootstrap.importKey_ok h
    exact hI
  · intro db _ db' h hI
    obtain ⟨m, c, db₁, _, _, hadd, hupsert⟩ := Bootstrap.importBinding_cases h
    obtain ⟨T, rfl⟩ := ModelRepo.addBindingWithWeight_frame hadd
    exact upsert_merged (f := DiscoveredModel.discovered _ _ _) (fun _ => rfl) hupsert hI

/-- **No run** of the server merges small models. -/
theorem noneMerged_run {lib : ServerLibraries} {s s' : AppState} {ls : List ServerStep}
    (hrun : Machine.run (ServerStep.step lib) s ls = some s') (h : s.db.NoneMerged) :
    s'.db.NoneMerged := by
  refine Machine.run_invariant' (I := fun s => s.db.NoneMerged) ?_ hrun h
  intro s l s' hI hs
  cases l with
  | importFile config =>
    cases hs
    rcases ServerStep.query_cases (s := s) (importConfig config) with h | ⟨_, h⟩
    · exact (congrArg Db.NoneMerged h).mpr hI
    · exact noneMerged_importConfig config _ _ _ h hI
  | event e => exact noneMerged_event hs hI
  | account call =>
    cases hs
    rcases ServerStep.manage_cases (s := s) lib.readLimits call with h | h
    · exact (congrArg Db.NoneMerged h).mpr hI
    · obtain ⟨_, _, hdb⟩ := accounts_frame h
      exact (congrArg Db.NoneMerged hdb).mpr hI
  | testCharge adminUserId cost =>
    cases hs
    exact hI
  | resetKeyQuotas period =>
    cases hs
    exact hI

end Unmerged

/-! ### What can be deleted -/

/-- A row that an administrator deletes. -/
inductive Deletion
  | key (id : ℤ)
  | channel (id : ℤ)
  | model (id : ℤ)
  | user (id : ℤ)
  | token (id : ℤ)

namespace Deletion

/-- The statement that deletes it. -/
def stmt : Deletion → Stmt Unit
  | key id => KeyRepo.deleteKey id
  | channel id => ChannelRepo.deleteChannel id
  | model id => ModelRepo.deleteModel id
  | user id => UserRepo.deleteUser id
  | token id => TokenRepo.deleteTokenById id

/-- The row is there. -/
def Present (db : Db) : Deletion → Prop
  | key id => ∃ k ∈ db.channelKeys.rows, k.id = id
  | channel id => ∃ c ∈ db.channels.rows, c.id = id
  | model id => ∃ m ∈ db.models.rows, m.id = id
  | user id => ∃ u ∈ db.users.rows, u.id = id
  | token id => ∃ t ∈ db.tokens.rows, t.id = id

/-! The rows that go: the row itself, and what belongs to it. -/

def takesUser : Deletion → UserRow → Bool
  | user id => fun u => u.id == id
  | _ => fun _ => false

def takesToken : Deletion → TokenRow → Bool
  | token id => fun t => t.id == id
  | user id => fun t => t.userId == id
  | _ => fun _ => false

def takesChannel : Deletion → ChannelConfig → Bool
  | channel id => fun c => c.id == id
  | _ => fun _ => false

def takesKey : Deletion → KeyConfig → Bool
  | key id => fun k => k.id == id
  | channel id => fun k => k.channelId == id
  | _ => fun _ => false

def takesModel : Deletion → ModelRow → Bool
  | model id => fun m => m.id == id
  | _ => fun _ => false

def takesBinding : Deletion → ModelChannelRow → Bool
  | channel id => fun b => b.channelId == id
  | model id => fun b => b.modelId == id
  | _ => fun _ => false

def takesSmallModel : Deletion → DiscoveredModel → Bool
  | channel id => fun m => m.channelId == id
  | _ => fun _ => false

/-- The database without the rows that go. -/
def after (d : Deletion) (db : Db) : Db where
  users := db.users.delete d.takesUser
  tokens := db.tokens.delete d.takesToken
  channels := db.channels.delete d.takesChannel
  channelKeys := db.channelKeys.delete d.takesKey
  models := db.models.delete d.takesModel
  modelChannels := db.modelChannels.delete d.takesBinding
  discoveredModels := db.discoveredModels.delete d.takesSmallModel
  usageLogs := db.usageLogs

/-- The deletion succeeds, takes the rows that go and leaves all others. -/
def Works (d : Deletion) (db : Db) : Prop := d.stmt db = .ok ((), d.after db)

/-- A usage log refers to a row that would go. -/
def LoggedBy (d : Deletion) (db : Db) (l : UsageLogRow) : Prop :=
  (∃ c ∈ db.channels.rows, d.takesChannel c ∧ l.channelId = c.id) ∨
  (∃ k ∈ db.channelKeys.rows, d.takesKey k ∧ l.keyId = k.id) ∨
  (∃ m ∈ db.models.rows, d.takesModel m ∧ l.modelId = m.id) ∨
  (∃ u ∈ db.users.rows, d.takesUser u ∧ l.userId = some u.id) ∨
  ∃ t ∈ db.tokens.rows, d.takesToken t ∧ l.tokenId = some t.id

/-- No usage log is in the way. -/
def Unlogged (d : Deletion) (db : Db) : Prop := ∀ l ∈ db.usageLogs.rows, ¬ d.LoggedBy db l

variable {db : Db} {d : Deletion}

/-- A row that is there is the only one with its id. -/
theorem exists_row_iff {ρ α : Type} {rows : List ρ} {f : ρ → ℤ} {g : ℤ → α} {id : ℤ} {x : α}
    (h : ∃ r ∈ rows, f r = id) : (∃ r ∈ rows, f r = id ∧ x = g (f r)) ↔ x = g id := by
  constructor
  · rintro ⟨r, _, hid, rfl⟩
    rw [hid]
  · rintro rfl
    obtain ⟨r, hr, hid⟩ := h
    exact ⟨r, hr, hid, by rw [hid]⟩

/-- A statement that fails exactly where something is in its way. -/
theorem works_iff_of_stmt {blocked : Bool} {e : ProxyError}
    (h : d.stmt db = if blocked = true then .error e else .ok ((), d.after db)) :
    d.Works db ↔ ¬ blocked = true := by
  rw [Works, h]
  by_cases hblocked : blocked = true
  · rw [if_pos hblocked]
    constructor
    · intro h
      cases h
    · intro h
      exact absurd hblocked h
  · rw [if_neg hblocked]
    exact ⟨fun _ => hblocked, fun _ => rfl⟩

theorem unlogged_iff {p : UsageLogRow → Bool} (h : ∀ l, d.LoggedBy db l ↔ p l = true) :
    d.Unlogged db ↔ ¬ db.usageLogs.rows.any p = true := by
  rw [List.any_eq_true, not_exists]
  refine forall_congr' fun l => ?_
  rw [not_and, h]

theorem works_key {id : ℤ} (h : (key id).Present db) :
    (key id).Works db ↔ (key id).Unlogged db := by
  have hstmt : (key id).stmt db =
      if db.usageLogs.rows.any (fun l => l.keyId == id) = true then .error foreignKeyFailed
      else .ok ((), (key id).after db) := by
    have hany : (db.channelKeys.rows.any fun k => k.id == id) = true := by simpa [Present] using h
    rw [stmt, KeyRepo.deleteKey, hany, Bool.true_and]
    simp only [after, takesUser, takesToken, takesChannel, takesKey, takesModel, takesBinding,
      takesSmallModel, Table.delete_false]
  rw [works_iff_of_stmt hstmt, unlogged_iff]
  intro l
  have hrow := exists_row_iff (g := fun k => k) (x := l.keyId) h
  simpa [LoggedBy, takesUser, takesToken, takesChannel, takesKey, takesModel] using hrow

theorem works_token {id : ℤ} (h : (token id).Present db) :
    (token id).Works db ↔ (token id).Unlogged db := by
  have hstmt : (token id).stmt db =
      if db.usageLogs.rows.any (fun l => l.tokenId == some id) = true then .error foreignKeyFailed
      else .ok ((), (token id).after db) := by
    have hany : (db.tokens.rows.any fun t => t.id == id) = true := by simpa [Present] using h
    rw [stmt, TokenRepo.deleteTokenById, hany, Bool.true_and]
    simp only [after, takesUser, takesToken, takesChannel, takesKey, takesModel, takesBinding,
      takesSmallModel, Table.delete_false]
  rw [works_iff_of_stmt hstmt, unlogged_iff]
  intro l
  have hrow := exists_row_iff (g := some) (x := l.tokenId) h
  simpa [LoggedBy, takesUser, takesToken, takesChannel, takesKey, takesModel] using hrow

theorem works_channel {id : ℤ} (h : (channel id).Present db) :
    (channel id).Works db ↔ (channel id).Unlogged db := by
  have hstmt :
      (channel id).stmt db = if ChannelRepo.logged id db = true then .error foreignKeyFailed
      else .ok ((), (channel id).after db) := by
    have hall : ¬ (db.channels.rows.all fun c => c.id != id) = true := by simpa [Present] using h
    rw [stmt, ChannelRepo.deleteChannel, if_neg hall]
    simp only [after, takesUser, takesToken, takesChannel, takesKey, takesModel, takesBinding,
      takesSmallModel, Table.delete_false]
  rw [works_iff_of_stmt hstmt, ChannelRepo.logged, unlogged_iff]
  intro l
  have hrow := exists_row_iff (g := fun c => c) (x := l.channelId) h
  simp only [LoggedBy, takesUser, takesToken, takesChannel, takesKey, takesModel, beq_iff_eq,
    Bool.false_eq_true, false_and, and_false, exists_false, or_false, Bool.or_eq_true,
    List.any_eq_true, Bool.and_eq_true]
  rw [hrow]
  simp only [eq_comm]

theorem works_user {id : ℤ} (h : (user id).Present db) :
    (user id).Works db ↔ (user id).Unlogged db := by
  have hstmt : (user id).stmt db = if UserRepo.logged id db = true then .error foreignKeyFailed
      else .ok ((), (user id).after db) := by
    have hall : ¬ (db.users.rows.all fun u => u.id != id) = true := by simpa [Present] using h
    rw [stmt, UserRepo.deleteUser, if_neg hall]
    simp only [after, takesUser, takesToken, takesChannel, takesKey, takesModel, takesBinding,
      takesSmallModel, Table.delete_false]
  rw [works_iff_of_stmt hstmt, UserRepo.logged, unlogged_iff]
  intro l
  have hrow := exists_row_iff (g := some) (x := l.userId) h
  simp only [LoggedBy, takesUser, takesToken, takesChannel, takesKey, takesModel, beq_iff_eq,
    Bool.false_eq_true, false_and, and_false, exists_false, false_or, Bool.or_eq_true,
    List.any_eq_true, Bool.and_eq_true]
  rw [hrow]

/-- A small model that is merged into the model would be in the way too. -/
theorem works_model {id : ℤ} (h : (model id).Present db) (hmerged : db.NoneMerged) :
    (model id).Works db ↔ (model id).Unlogged db := by
  have hstmt : (model id).stmt db =
      if db.usageLogs.rows.any (fun l => l.modelId == id) = true then .error foreignKeyFailed
      else .ok ((), (model id).after db) := by
    have hall : ¬ (db.models.rows.all fun m => m.id != id) = true := by simpa [Present] using h
    have hnone : (db.discoveredModels.rows.any fun m => m.mergedToModelId == some id) = false := by
      rw [List.any_eq_false]
      intro m hm
      rw [hmerged m hm]
      exact Bool.false_ne_true
    rw [stmt, ModelRepo.deleteModel, if_neg hall, hnone, Bool.or_false]
    simp only [after, takesUser, takesToken, takesChannel, takesKey, takesModel, takesBinding,
      takesSmallModel, Table.delete_false]
  rw [works_iff_of_stmt hstmt, unlogged_iff]
  intro l
  have hrow := exists_row_iff (g := fun m => m) (x := l.modelId) h
  simpa [LoggedBy, takesUser, takesToken, takesChannel, takesKey, takesModel] using hrow

/-- **Deletions**: in every state that the server can get to, whatever is deleted goes with all that
belongs to it, and nothing else, if and only if no usage log refers to a row that would go. -/
theorem works_iff {lib : ServerLibraries} {parseDbDatetime : String → Option Calendar.Instant}
    {now : Calendar.Instant} {ls : List ServerStep} {s' : AppState}
    (hrun : Machine.run (ServerStep.step lib) (.startup parseDbDatetime {} now) ls = some s')
    {d : Deletion} (h : d.Present s'.db) : d.Works s'.db ↔ d.Unlogged s'.db := by
  cases d with
  | key id => exact works_key h
  | channel id => exact works_channel h
  | model id =>
    refine works_model h (noneMerged_run hrun fun m hm => ?_)
    cases hm
  | user id => exact works_user h
  | token id => exact works_token h

/-! ### A key that has been used -/

/-- A channel with one key, and one model. -/
def oneKeyConfig : BootstrapConfig where
  models := [⟨"chat"⟩]
  channels := [⟨"main", "openai", "http://main"⟩]
  keys := [⟨"main", "sk-main", none, "paid", 100, none, none, none⟩]

def oneKeyLibraries : ServerLibraries where
  lower := Text.toAsciiLower
  evaluator := fun _ _ => .error "not evaluated"
  readLimits := fun _ => none

/-- A user with a token. -/
def aUser : CreateUserRequest := ⟨"ann", "secret", 1, "default", 0⟩

def aToken : CreateTokenRequest where
  toTokenSettings := ⟨"", 0, true, -1, "", false, ""⟩
  key := some "sk-ann"

def someUsage : UsageEntry where
  channelId := 1
  keyId := 1
  modelId := 1
  userId := 1
  tokenId := 1
  usage := .zero
  quotaCost := 0
  requestType := "chat"
  status := "success"
  error := none

/-- One request has been answered with the key. -/
def usedKeySteps : List ServerStep :=
  [.importFile oneKeyConfig, .account (.createUser aUser (.ok "hash")),
    .account (.createToken ⟨1, "ann", 1, 1, 0, 0, "default"⟩ none aToken ""),
    .event (.call ⟨.logUsage someUsage, .ok ()⟩ ⟨fun _ => 0, fun _ => 0⟩)]

/-- A used key cannot be deleted. -/
theorem not_works : ¬ ∀ (lib : ServerLibraries)
    (parseDbDatetime : String → Option Calendar.Instant) (now : Calendar.Instant)
    (ls : List ServerStep) (s' : AppState) (d : Deletion),
    Machine.run (ServerStep.step lib) (.startup parseDbDatetime {} now) ls = some s' →
    d.Present s'.db → d.Works s'.db := by
  intro h
  obtain ⟨s', hrun, hpresent, hfails⟩ : ∃ s',
      Machine.run (ServerStep.step oneKeyLibraries) (.startup (fun _ => none) {} 0) usedKeySteps =
        some s' ∧ (key 1).Present s'.db ∧ (key 1).stmt s'.db = .error foreignKeyFailed :=
    ⟨_, rfl, ⟨_, List.mem_cons_self, rfl⟩, rfl⟩
  have hworks := h _ _ _ _ _ _ hrun hpresent
  rw [Works, hfails] at hworks
  cases hworks

/-- Before the first request, the key can be deleted. -/
theorem works_sample : ∃ s',
    Machine.run (ServerStep.step oneKeyLibraries) (.startup (fun _ => none) {} 0)
      [.importFile oneKeyConfig] = some s' ∧ (key 1).Present s'.db ∧ (key 1).Works s'.db := by
  obtain ⟨s', hrun, hpresent, hlogs⟩ : ∃ s',
      Machine.run (ServerStep.step oneKeyLibraries) (.startup (fun _ => none) {} 0)
        [.importFile oneKeyConfig] = some s' ∧ (key 1).Present s'.db ∧
        s'.db.usageLogs.rows = [] := ⟨_, rfl, ⟨_, List.mem_cons_self, rfl⟩, rfl⟩
  refine ⟨s', hrun, hpresent, (works_iff hrun hpresent).mpr fun l hl => ?_⟩
  rw [hlogs] at hl
  cases hl

end Deletion

end Chennix
