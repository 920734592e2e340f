import Chennix.Access.Isolation
import Chennix.Access.Mediation
import Chennix.Access.Sessions
import Chennix.Config.Deletion

/-!
# What only administrators change

Whoever does not know the password of an administrator cannot do what administrators do: other
users' accounts, the channels with their keys, the models with their bindings stay as they are
configured, whatever pages are asked for and whatever is sent through the gateway. Use counts
still: of accounts, keys and small models it moves what has been used, and the status that follows
from it.

Those who act are a set of users. They log in, they set their own passwords, and they may do what
they like with their own tokens. That the setup page is open to all does no harm, as there is a
user already.

## Main definitions

* `Settings`, `Db.settings` — what is configured, seen from outside a set of users
* `Site.Label.Powerless` — no password is shown but of those who act

## Main results

* `Page.serve_kept` — a page, served to one of them
* `Site.settings_kept` — every run
-/

namespace Chennix

open Foundations

/-! ### Settings -/

/-- The columns that are configured, not those that move with use. -/
def UserRow.configuration (u : UserRow) : UserRow := { u with usedQuota := 0, updatedAt := "" }

/-- The columns that the owner configures. -/
def TokenRow.configuration (t : TokenRow) : TokenRow :=
  { t with remainQuota := 0, usedQuota := 0, status := 0, updatedAt := "" }

/-- The columns that are configured. The status goes with the health of the key. -/
def KeyConfig.configuration (k : KeyConfig) : KeyConfig :=
  { k with usedQuota := 0, status := .active }

/-- The columns that are configured. -/
def DiscoveredModel.configuration (m : DiscoveredModel) : DiscoveredModel :=
  { m with usedQuota := 0, lastResetAt := none, quotaStatus := "" }

/-- A token as it is configured, unless it is of one of the users. -/
def TokenRow.foreignTo (acting : List ℤ) (t : TokenRow) : Option TokenRow :=
  if t.userId ∈ acting then none else some t.configuration

/-- What is configured. -/
structure Settings where
  users : List UserRow
  tokens : List TokenRow
  channels : Table ChannelConfig
  channelKeys : List KeyConfig
  models : Table ModelRow
  modelChannels : Table ModelChannelRow
  discoveredModels : List DiscoveredModel
  deriving DecidableEq

/-- What is configured, but for the tokens of the users who act. -/
def Db.settings (acting : List ℤ) (db : Db) : Settings where
  users := db.users.rows.map UserRow.configuration
  tokens := db.tokens.shown (TokenRow.foreignTo acting)
  channels := db.channels
  channelKeys := db.channelKeys.rows.map KeyConfig.configuration
  models := db.models
  modelChannels := db.modelChannels
  discoveredModels := db.discoveredModels.rows.map DiscoveredModel.configuration

section Settings

variable {acting : List ℤ} {db db' : Db} {T : Table TokenRow} {user : UserConfig}

/-- The two databases are configured alike. -/
def Db.SameSettings (acting : List ℤ) (db db' : Db) : Prop :=
  db'.settings acting = db.settings acting

theorem Db.SameSettings.users (h : db.SameSettings acting db') :
    db'.users.rows.map UserRow.configuration = db.users.rows.map UserRow.configuration :=
  congrArg Settings.users h

theorem sameSettings_users {U : Table UserRow}
    (h : U.rows.map UserRow.configuration = db.users.rows.map UserRow.configuration) :
    db.SameSettings acting { db with users := U } := by
  rw [Db.SameSettings, Db.settings, h]
  rfl

theorem sameSettings_tokens (h : T.shown (TokenRow.foreignTo acting) =
    db.tokens.shown (TokenRow.foreignTo acting)) :
    db.SameSettings acting { db with tokens := T } := by
  rw [Db.SameSettings, Db.settings, h]
  rfl

theorem sameSettings_channelKeys {U : Table KeyConfig}
    (h : U.rows.map KeyConfig.configuration = db.channelKeys.rows.map KeyConfig.configuration) :
    db.SameSettings acting { db with channelKeys := U } := by
  rw [Db.SameSettings, Db.settings, h]
  rfl

theorem sameSettings_discoveredModels {U : Table DiscoveredModel}
    (h : U.rows.map DiscoveredModel.configuration =
      db.discoveredModels.rows.map DiscoveredModel.configuration) :
    db.SameSettings acting { db with discoveredModels := U } := by
  rw [Db.SameSettings, Db.settings, h]
  rfl

theorem Db.SameSettings.trans {db₁ db₂ db₃ : Db} (h : db₁.SameSettings acting db₂)
    (h' : db₂.SameSettings acting db₃) : db₁.SameSettings acting db₃ :=
  Eq.trans h' h

/-- A change to the own tokens is not seen from outside. -/
theorem sameSettings_ownChange (h : OwnChange user.id db T) (huser : user.id ∈ acting) :
    db.SameSettings acting { db with tokens := T } := by
  have hhidden : ∀ {t : TokenRow}, t.userId = user.id → t.foreignTo acting = none :=
    fun hown => if_pos (hown ▸ huser)
  refine sameSettings_tokens ?_
  cases h with
  | none => rfl
  | insert hown => exact Table.shown_insertNew fun i => hhidden (hown i)
  | update ht hown howner =>
    refine Table.shown_update _ fun r hr hid => ?_
    cases ht.symm.trans (Table.find?_eq_some_iff.mpr ⟨hr, beq_iff_eq.mp hid⟩)
    rw [hhidden hown, hhidden ((howner _).trans hown)]
  | delete ht hown hfree =>
    refine Table.shown_delete fun r hr hid => ?_
    cases ht.symm.trans (Table.find?_eq_some_iff.mpr ⟨hr, beq_iff_eq.mp hid⟩)
    exact hhidden hown

/-! ### The gateway -/

/-- Whatever moves with use. -/
theorem foreignTo_of_owner {f : TokenRow → TokenRow} (howner : ∀ t, (f t).userId = t.userId)
    (hf : ∀ t, (f t).configuration = t.configuration) (t : TokenRow) :
    (f t).foreignTo acting = t.foreignTo acting := by
  rw [TokenRow.foreignTo, TokenRow.foreignTo, howner, hf]

/-- **Billing** moves what has been used, and the status of tokens. -/
theorem sameSettings_billing {q : BillingReq} {now : String} {r : q.Resp}
    (h : q.answer now db = (r, db')) : db.SameSettings acting db' := by
  have hstatus : ∀ k st, db.SameSettings acting (db.setTokenStatus now k st) := fun k st =>
    sameSettings_tokens (Table.shown_update _ fun t _ _ =>
      foreignTo_of_owner (fun _ => rfl) (fun _ => rfl) t)
  rcases BillingReq.answer_cases h with ⟨c, -, rfl, -⟩ | ⟨-, ⟨k, st, -, rfl⟩ | rfl⟩
  · have husers : db.SameSettings acting (db.addUserUsed now c.userId c.amount fun _ => true) :=
      sameSettings_users (Table.map_rows_update _ _ _ fun _ => rfl)
    rw [Db.applyCharge]
    split
    · exact husers
    · exact husers.trans (sameSettings_tokens (Table.shown_update _ fun t _ _ =>
        foreignTo_of_owner (fun _ => rfl) (fun _ => rfl) t))
  · exact hstatus k st
  · rfl

variable {s : AppState}

/-- **A call of an execution** moves what has been used. -/
theorem sameSettings_answer (lower : String → String) (chance : Chance) (q : ExecReq)
    (reply : q.Resp) : s.db.SameSettings acting (s.answer lower chance q reply).2.db := by
  cases q with
  | selectKeys ctx =>
    show s.db.SameSettings acting (ConfigCache.get lower chance.rank s).2.db
    rw [ConfigCache.db_get]
    rfl
  | getChannelModelPricing modelId channelId upstream =>
    show s.db.SameSettings acting (ConfigCache.get lower chance.rank s).2.db
    rw [ConfigCache.db_get]
    rfl
  | billing q => exact sameSettings_billing (r := (q.answer (nowIso8601 s.now) s.db).1) rfl
  | logUsage entry =>
    show s.db.SameSettings acting (s.query (StorageAdapter.logUsage entry)).2.db
    rcases ServerStep.query_cases (s := s) (StorageAdapter.logUsage entry) with h | ⟨a, h⟩
    · rw [h]
      rfl
    · obtain ⟨T, hdb⟩ := logUsage_frame h
      rw [hdb]
      rfl
  | markDisabled keyId =>
    exact sameSettings_channelKeys (Table.map_rows_update _ _ _ fun _ => rfl)
  | addKeyUsage keyId tokens =>
    exact sameSettings_channelKeys (Table.map_rows_update _ _ _ fun _ => rfl)
  | addSmallModelUsage channelId upstream delta quotaStatus =>
    exact sameSettings_discoveredModels (Table.map_rows_update _ _ _ fun _ => rfl)
  | _ => rfl

theorem sameSettings_checkRecoveries : s.db.SameSettings acting s.checkRecoveries.db :=
  sameSettings_discoveredModels (Table.map_rows_update _ _ _ fun _ => rfl)

theorem sameSettings_resetQuota (period : String) :
    db.SameSettings acting (KeyRepo.resetQuotaOfPeriod period db) :=
  sameSettings_channelKeys (Table.map_rows_update _ _ _ fun _ => rfl)

end Settings

/-! ### Pages -/

/-- What is configured stays, with the passwords of all who do not act, and sessions that are new
are of those who do. -/
structure AdminState.Kept (acting : List ℤ) (s s' : AdminState) : Prop where
  settings : s.app.db.SameSettings acting s'.app.db
  passwords : ∀ id, id ∉ acting → s'.passwordHashes id = s.passwordHashes id
  sessions : ∀ token session, s'.sessionStore token = some session →
    s.sessionStore token = some session ∨ session.1 ∈ acting

section Pages

variable {acting : List ℤ} {lib : ServerLibraries} {verify : String → String → Bool}
  {s s' s'' : AdminState} {user : UserConfig}

namespace AdminState.Kept

theorem refl (acting : List ℤ) (s : AdminState) : s.Kept acting s :=
  ⟨rfl, fun _ _ => rfl, fun _ _ h => .inl h⟩

theorem trans (h : s.Kept acting s') (h' : s'.Kept acting s'') : s.Kept acting s'' where
  settings := h.settings.trans h'.settings
  passwords id hid := (h'.passwords id hid).trans (h.passwords id hid)
  sessions token session hs := by
    rcases h'.sessions token session hs with hs | hacting
    · exact h.sessions token session hs
    · exact .inr hacting

/-- Sessions may go. -/
theorem of_sessions {store : SessionStore}
    (h : ∀ token session, store token = some session → s.sessionStore token = some session) :
    s.Kept acting { s with sessionStore := store } :=
  ⟨rfl, fun _ _ => rfl, fun token session hs => .inl (h token session hs)⟩

end AdminState.Kept

/-- A handler that does with tokens what a request of the user does. -/
theorem perform_kept {α : Type} {body : AdminM α} {reply : α → UserReply} {r : TimedRequest}
    (readLimits : String → Option (List String)) (huser : user.isAdmin = false)
    (hacting : user.id ∈ acting)
    (hserve : ∀ dates t, UserRequest.serve user dates readLimits r t = t.change body reply) :
    s.Kept acting (s.perform body).2 := by
  rcases SessionHistory.perform_cases body s with ⟨e, h⟩ | ⟨a, db, hbody, h⟩
  · rw [h]
    exact .refl acting s
  · rw [h]
    -- The reports that the request could have read besides do not matter.
    let t : ReportDb := { toDb := s.app.db, usageColumns := fun _ => ⟨0, 0, ""⟩ }
    obtain ⟨T, hT, hown⟩ := UserRequest.serve_ownChange ⟨fun _ => none, fun _ => none⟩ readLimits
      huser r t
    rw [hserve, ReportDb.change, hbody] at hT
    have hdb : db = { s.app.db with tokens := T } := congrArg ReportDb.toDb hT
    refine ⟨?_, fun _ _ => rfl, fun _ _ hs => .inl hs⟩
    rw [hdb]
    exact sameSettings_ownChange hown hacting

theorem configuration_touched (now : String) (u : UserRow) :
    (UserRepo.touched now u).configuration = u.configuration := rfl

theorem updatePassword_kept (hacting : user.id ∈ acting) (hash : String) :
    s.Kept acting (s.updatePassword user.id hash) := by
  rw [AdminState.updatePassword]
  refine ⟨sameSettings_users (Table.map_rows_update _ _ _ (configuration_touched _)),
    fun id hid => ?_, fun _ _ hs => .inl hs⟩
  have hne : id ≠ user.id := fun h => hid (h ▸ hacting)
  dsimp only
  split
  · exact Map.insert_of_ne hne _ _
  · rfl

/-- **A page**, served to a user who is no administrator. -/
theorem Page.serve_kept (huser : user.isAdmin = false) (hacting : user.id ∈ acting)
    (cookie : Option String) (page : Page) :
    s.Kept acting (page.serve lib verify cookie user s) := by
  cases page with
  | logout =>
    show s.Kept acting (logoutHandler cookie s)
    rw [logoutHandler]
    split
    · exact .of_sessions fun _ _ => Map.of_erase
    · exact .refl acting s
  | updateMyPassword oldPassword hash =>
    show s.Kept acting (updateMyPasswordHandler verify user oldPassword hash s).2
    unfold updateMyPasswordHandler
    split
    · exact .refl acting s
    · split
      · cases hash with
        | error e => exact .refl acting s
        | ok h => exact updatePassword_kept hacting h
      · exact .refl acting s
  | createToken queryUserId payload uuid =>
    exact perform_kept lib.readLimits (r := (s.app.now, .createToken queryUserId payload uuid))
      huser hacting fun _ _ => rfl
  | updateToken id payload =>
    exact perform_kept lib.readLimits (r := (s.app.now, .updateToken id payload)) huser hacting
      fun _ _ => rfl
  | deleteToken id =>
    exact perform_kept lib.readLimits (r := (s.app.now, .deleteToken id)) huser hacting
      fun _ _ => rfl
  | read => exact .refl acting s
  | admin page =>
    have hrole : ¬ user.role ≥ 10 := by simpa [UserConfig.isAdmin] using huser
    rw [Page.serve, requireRole, if_neg hrole]
    exact .refl acting s

/-- Who logs in has shown the password. -/
theorem loginHandler_ok {username password token : String}
    (h : (loginHandler verify username password token s).1 = .ok user) :
    UserRepo.getUserByUsername username s.app.db = some user ∧
      ∃ hash, s.passwordHashes user.id = some hash ∧ verify password hash = true := by
  rw [loginHandler] at h
  split at h
  · cases h
  · rename_i found hfound
    rw [AdminState.getPasswordHash, hfound, Option.bind_some] at h
    split at h
    · cases h
    · cases hhash : s.passwordHashes found.id with
      | none => rw [hhash] at h; cases h
      | some hash =>
        rw [hhash] at h
        dsimp only at h
        split at h
        · rename_i hverify
          cases h
          exact ⟨hfound, hash, hhash, hverify⟩
        · cases h

/-- The setup page is closed where there is somebody. -/
theorem setupInitializeHandler_closed {username password : String} {hash : Except String String}
    (h : UserRepo.countUsers s.app.db > 0) :
    (setupInitializeHandler username password hash s).2 = s := by
  rw [setupInitializeHandler, if_pos h]
  split
  · rfl
  · split <;> rfl

end Pages

/-! ### Runs -/

section Settings

variable {acting : List ℤ} {db db' : Db}

/-- A user as configured is one of before. -/
theorem Db.SameSettings.exists_user (h : db.SameSettings acting db') {u' : UserRow}
    (hu' : u' ∈ db'.users.rows) : ∃ u ∈ db.users.rows, u.configuration = u'.configuration := by
  have hmem := List.mem_map_of_mem (f := UserRow.configuration) hu'
  rw [h.users] at hmem
  exact List.mem_map.mp hmem

/-- A name is found to be that of the same user. -/
theorem Db.SameSettings.exists_named (h : db.SameSettings acting db') {username : String}
    {user' : UserConfig} (huser' : UserRepo.getUserByUsername username db' = some user') :
    ∃ user, UserRepo.getUserByUsername username db = some user ∧ user.id = user'.id := by
  have hfind : ∀ db : Db, ((db.users.rows.map UserRow.configuration).find? fun u =>
      u.username == username) =
        (db.users.rows.find? fun u => u.username == username).map UserRow.configuration :=
    fun db => List.find?_map ..
  obtain ⟨u', hu', rfl⟩ := Option.map_eq_some_iff.mp huser'
  have hsome := hfind db'
  rw [hu', h.users, hfind db] at hsome
  obtain ⟨u, hu, hconf⟩ := Option.map_eq_some_iff.mp hsome
  exact ⟨u.toUserConfig, by rw [UserRepo.getUserByUsername, hu]; rfl,
    congrArg (fun u => u.id) hconf⟩

end Settings

/-- The step shows no password of a user who is not of those who act, as it was in the state. -/
def Site.Label.Powerless (verify : String → String → Bool) (acting : List ℤ) (s₀ : Site) :
    Site.Label → Prop
  | .login username password _ =>
    ∀ user ∈ UserRepo.getUserByUsername username s₀.service.app.db, user.id ∉ acting →
      ∀ hash ∈ s₀.passwordHashes user.id, verify password hash = false
  | _ => True

instance (verify : String → String → Bool) (acting : List ℤ) (s₀ : Site) (l : Site.Label) :
    Decidable (l.Powerless verify acting s₀) :=
  match l with
  | .login username password _ => inferInstanceAs (Decidable
      (∀ user ∈ UserRepo.getUserByUsername username s₀.service.app.db, user.id ∉ acting →
        ∀ hash ∈ s₀.passwordHashes user.id, verify password hash = false))
  | .proxy _ _ _ _ _ _ | .call _ _ _ | .page _ _ _ | .test _ _ _ _ | .testCall _ _ _
  | .setup _ _ _ | .recover | .resetKeyQuotas _ | .elapse _ => .isTrue trivial

namespace Site

/-- Nobody who acts is an administrator, and all sessions are of those who act. There is somebody,
so that the setup page is closed. -/
structure Confined (acting : List ℤ) (s : Site) : Prop where
  common : ∀ u ∈ s.service.app.db.users.rows, u.id ∈ acting → u.isAdmin = false
  sessions : ∀ token session, s.sessionStore token = some session → session.1 ∈ acting
  someone : s.service.app.db.users.rows ≠ []

variable {lib : ServerLibraries} {verify : String → String → Bool} {executor : Executor}
  {acting : List ℤ} {s₀ s s' : Site} {l : Label} {ls : List Label}

/-- Those who act stay confined. -/
theorem Confined.kept (h : s.Confined acting)
    (hkept : s.administration.Kept acting s'.administration) : s'.Confined acting where
  common u' hu' hid := by
    obtain ⟨u, hu, hconf⟩ := hkept.settings.exists_user hu'
    have hrole : u.role = u'.role := congrArg (fun u => u.role) hconf
    have hsame : u.id = u'.id := congrArg (fun u => u.id) hconf
    have hcommon := h.common u hu (hsame ▸ hid)
    rw [UserConfig.isAdmin] at hcommon ⊢
    rwa [← hrole]
  sessions token session hs := by
    rcases hkept.sessions token session hs with hs | hacting
    · exact h.sessions token session hs
    · exact hacting
  someone hnil := by
    have husers := hkept.settings.users
    have hempty : s'.administration.app.db.users.rows = [] := hnil
    rw [hempty, List.map_nil, eq_comm, List.map_eq_nil_iff] at husers
    exact h.someone husers

/-- Whoever is served a page is one of those who act. -/
theorem Confined.caller (h : s.Confined acting) {order : List String} {cookie : Option String}
    {user : UserConfig} (hcaller : (s.caller order cookie).1 = .ok user) :
    user.id ∈ acting ∧ user.isAdmin = false := by
  have hsession : (sessionMiddleware order cookie s.administration).1 = .ok user := by
    rw [Site.caller] at hcaller
    cases hmiddle : (sessionMiddleware order cookie s.administration).1 with
    | error e => simp [hmiddle, Except.mapError] at hcaller
    | ok found => simpa [hmiddle, Except.mapError] using hcaller
  cases htoken : extractSessionToken cookie with
  | none => simp [sessionMiddleware, htoken] at hsession
  | some token =>
    obtain ⟨userId, createdAt, hstore, -, hfound, -⟩ :=
      (SessionHistory.sessionMiddleware_ok htoken).mp hsession
    obtain ⟨row, hrow, rfl⟩ := Option.map_eq_some_iff.mp hfound
    have hid : row.id = userId := Table.key_of_find? hrow
    have hacting : row.id ∈ acting := hid ▸ h.sessions token _ hstore
    exact ⟨hacting, h.common row (Table.mem_of_find? hrow) hacting⟩

/-- A login is of somebody who acts, or it fails. -/
theorem kept_login {username password token : String}
    (hl : (Label.login username password token).Powerless verify acting s₀)
    (hkept : s₀.administration.Kept acting s.administration) :
    s.administration.Kept acting
      (loginHandler verify username password token s.administration).2 := by
  rcases SessionHistory.loginHandler_cases verify username password token s.administration with
    ⟨e, h⟩ | ⟨user, -, h⟩
  · rw [h]
    exact .refl acting _
  · obtain ⟨hfound, hash, hhash, hverify⟩ := loginHandler_ok (congrArg Prod.fst h)
    have hacting : user.id ∈ acting := by
      by_contra hout
      obtain ⟨user₀, huser₀, hid⟩ := hkept.settings.exists_named hfound
      rw [hkept.passwords user.id hout, ← hid] at hhash
      have hwrong := hl user₀ huser₀ (hid ▸ hout) hash hhash
      rw [hverify] at hwrong
      cases hwrong
    rw [h]
    refine ⟨rfl, fun _ _ => rfl, fun token' session hs => ?_⟩
    by_cases htoken : token' = token
    · rw [htoken] at hs
      cases (Map.insert_self ..).symm.trans hs
      exact .inr hacting
    · exact .inl ((Map.insert_of_ne htoken _ _).symm.trans hs)

/-- Looking up the session of a caller. -/
theorem kept_caller (order : List String) (cookie : Option String) :
    s.administration.Kept acting (s.caller order cookie).2 := by
  obtain ⟨store, hstore, hold, -⟩ :=
    SessionHistory.sessionMiddleware_store order cookie s.administration
  show s.administration.Kept acting (sessionMiddleware order cookie s.administration).2
  rw [hstore]
  exact .of_sessions hold

/-- **A call of a test** moves what a user has used. -/
theorem kept_testCall {i : ℕ} {chance : Chance} {reply : (q : TestReq) → q.Resp}
    {service : Service}
    (hservice : s.service.step lib executor (.testCall i chance reply) = some service) :
    s.administration.Kept acting (s.setService service).administration := by
  obtain ⟨t, q, k, -, -, rfl⟩ := Service.testCall_cases hservice
  refine ⟨?_, fun _ _ => rfl, fun _ _ hs => .inl hs⟩
  show s.service.app.db.SameSettings acting (s.service.answerTest chance reply q).2.app.db
  rcases s.service.db_answerTest chance reply q with hdb | ⟨userId, delta, hdb⟩
  · rw [hdb]
    rfl
  · rw [hdb]
    exact sameSettings_users (Table.map_rows_update _ _ _ fun _ => rfl)

/-- **A step** keeps what is configured. -/
theorem kept_step (hl : l.Powerless verify acting s₀)
    (hkept : s₀.administration.Kept acting s.administration) (h : s.Confined acting)
    (hstep : step lib verify executor s l = some s') :
    s.administration.Kept acting s'.administration := by
  cases l with
  | proxy headers entryFormat body requestId elapsedMs client =>
    rw [step] at hstep
    split at hstep
    · rw [← Option.some.inj hstep]
      exact .refl acting _
    · rw [← Option.some.inj hstep]
      exact .refl acting _
  | call i chance reply =>
    obtain ⟨service, hservice, rfl⟩ := Option.map_eq_some_iff.mp hstep
    obtain ⟨r, q, k, -, -, rfl⟩ := Service.call_cases hservice
    refine ⟨?_, fun _ _ => rfl, fun _ _ hs => .inl hs⟩
    cases q with
    | loadSnapshot => exact congrArg (Db.settings acting) ConfigCache.db_get
    | exec q => exact sameSettings_answer lib.lower _ q _
    | resolve modelName => rfl
    | logRequest entry => rfl
  | test order cookie requestId test =>
    have hlooked : s.administration.Kept acting (s.caller order cookie).2 :=
      kept_caller order cookie
    rw [step] at hstep
    dsimp only at hstep
    split at hstep
    · rwa [← Option.some.inj hstep]
    · rw [← Option.some.inj hstep]
      exact hlooked
  | testCall i chance reply =>
    obtain ⟨service, hservice, rfl⟩ := Option.map_eq_some_iff.mp hstep
    exact kept_testCall hservice
  | page order cookie page =>
    have hlooked : s.administration.Kept acting (s.caller order cookie).2 :=
      kept_caller order cookie
    cases hcaller : s.caller order cookie with
    | mk user a =>
      rw [hcaller] at hlooked
      rw [step, hcaller] at hstep
      cases user with
      | error e =>
        rw [← Option.some.inj hstep, administration_setAdministration]
        exact hlooked
      | ok user =>
        obtain ⟨hacting, huser⟩ := h.caller (congrArg Prod.fst hcaller)
        rw [← Option.some.inj hstep, administration_setAdministration]
        exact hlooked.trans (Page.serve_kept huser hacting cookie page)
  | login username password token =>
    rw [← Option.some.inj hstep, administration_setAdministration]
    exact kept_login hl hkept
  | setup username password hash =>
    rw [← Option.some.inj hstep, administration_setAdministration,
      setupInitializeHandler_closed (List.length_pos_iff.mpr h.someone)]
    exact .refl acting _
  | recover =>
    rw [← Option.some.inj hstep]
    exact ⟨sameSettings_checkRecoveries, fun _ _ => rfl, fun _ _ hs => .inl hs⟩
  | resetKeyQuotas period =>
    rw [← Option.some.inj hstep]
    exact ⟨sameSettings_resetQuota period, fun _ _ => rfl, fun _ _ hs => .inl hs⟩
  | elapse duration =>
    rw [← Option.some.inj hstep]
    exact ⟨rfl, fun _ _ => rfl, fun _ _ hs => .inl hs⟩

/-- **Nobody escalates.** Users who are not administrators, all sessions being theirs, may ask for
pages and send what they like through the gateway: as long as nobody shows the password of anybody
else, what is configured stays, and so do the others' passwords and tokens. -/
theorem settings_kept (h₀ : s₀.Confined acting)
    (hrun : Machine.run (step lib verify executor) s₀ ls = some s)
    (hls : ∀ l ∈ ls, l.Powerless verify acting s₀) :
    s.service.app.db.settings acting = s₀.service.app.db.settings acting ∧
      ∀ id, id ∉ acting → s.passwordHashes id = s₀.passwordHashes id := by
  have hkept : s₀.administration.Kept acting s.administration ∧ s.Confined acting :=
    Machine.run_invariant (C := fun _ l => l.Powerless verify acting s₀)
      (I := fun s => s₀.administration.Kept acting s.administration ∧ s.Confined acting)
      (fun s l s' hl ⟨hkept, hconfined⟩ hstep => by
        have hnext := kept_step hl hkept hconfined hstep
        exact ⟨hkept.trans hnext, hconfined.kept hnext⟩) hrun
      (Machine.along_of_labels hls) ⟨.refl acting _, h₀⟩
  exact ⟨hkept.1.settings, hkept.1.passwords⟩

/-! ### A small site -/

/-- An administrator and a user, and nobody is logged in. No password is hashed. -/
def staffed : Site where
  service :=
    { app := .startup (fun _ => none) { users := ⟨[⟨⟨1, "root", 100, 1, 1000, 0, "default"⟩, ""⟩,
        ⟨⟨2, "bob", 1, 1, 1000, 0, "default"⟩, ""⟩], by decide⟩ } 0
      requestLogs := .empty
      requests := []
      tests := [] }
  sessionStore := .empty
  passwordHashes := Map.ofList [(1, "root-password"), (2, "bob-password")]

/-- The user tries what administrators do. -/
def confinedLabels : List Label :=
  let ask (page : Page) : Label := .page [] (some "chennix_session=s-1") page
  [.login "root" "guess" "s-0", .login "bob" "bob-password" "s-1",
    ask (.admin (.updateUser 2 ⟨"bob", 100, 1, "default", 1000000⟩)),
    ask (.admin (.updatePassword 1 (.ok "mine"))),
    .test [] (some "chennix_session=s-1") "test-1" (.channel 1),
    .setup "bob" "bob-password" (.ok "bob-password"),
    ask (.updateMyPassword "bob-password" (.ok "new-password")),
    ask (.createToken (some 1) ⟨⟨"", 500, false, -1, "", false, ""⟩, 1, some "sk-1"⟩ ""),
    .proxy { authorization := some "Bearer sk-1" } .openAI
      (.object [("model", .string "model-7")]) "req-1" 5 none]

theorem settings_kept_sample :
    ∃ s, Machine.run (step sampleLibraries samplePasswords Executor.sample) staffed confinedLabels =
        some s ∧ s.service.requests.length = 1 ∧
      s.service.app.db.settings [2] = staffed.service.app.db.settings [2] := by
  have hrun : (Machine.run (step sampleLibraries samplePasswords Executor.sample) staffed
    confinedLabels).any (fun s => s.service.requests.length = 1) = true := by decide +kernel
  rw [Option.any_eq_true] at hrun
  obtain ⟨s, hrun, hone⟩ := hrun
  have hconfined : staffed.Confined [2] := by
    refine ⟨by decide, fun _ _ h => ?_, by decide⟩
    cases h
  have hpowerless : ∀ l ∈ confinedLabels, l.Powerless samplePasswords [2] staffed := by
    decide +kernel
  exact ⟨s, hrun, of_decide_eq_true hone, (settings_kept hconfined hrun hpowerless).1⟩

end Site

end Chennix
