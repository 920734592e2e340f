import Chennix.Access.Isolation
import Chennix.Access.Mediation
import Chennix.Access.Sessions
import Chennix.Billing.Books

/-!
# Whose usage is logged

The pages of a user read the usage log by token, without regard to the user in it. They show the
user's own usage only if every row names the owner of its token. No constraint of the database says
so: a row has two columns, written by a request long after its token was looked up.

A request writes what it was let in with, and owners of tokens never change. But the identifier of a
token that is deleted goes to the next token. So a token must not be deleted while a request that
has come with it is open.

## Main definitions

* `Db.LogsOwned` — every usage log names the owner of its token
* `ExecReq.InName` — the call logs usage in the name of a user and a token only
* `Site.Spares` — a step that deletes no token an open request has come with

## Main results

* `serveRequest_inName` — what a request logs
* `Page.serve_owners` — what a page does to owners and logs
* `Site.logs_owned` — every run
-/

namespace Chennix

open Foundations Program

/-! ### A request -/

/-- The call writes no row of the usage log but in the name of the user and the token. -/
def ExecReq.InName (userId tokenId : ℤ) : ExecReq → Prop
  | logUsage entry => entry.userId = userId ∧ entry.tokenId = tokenId
  | _ => True

theorem CoversExecution.inName (ctx : ExecutionContext) :
    CoversExecution (ExecReq.InName ctx.userId ctx.tokenId) ctx where
  pricing _ _ := trivial
  billing _ := trivial
  row _ _ _ := ⟨rfl, rfl⟩
  counters q hq := by cases q <;> first | exact hq.elim | trivial
  failure _ hentry := by
    obtain ⟨rk, error, rfl⟩ := hentry
    exact ⟨rfl, rfl⟩
  cooldown _ _ := trivial
  disabled _ := trivial
  check _ _ := trivial
  routing := trivial
  whole _ _ := trivial
  stream _ _ := trivial

/-- **A request** logs usage in the name of the user and the token that it was let in with. -/
theorem serveRequest_inName (executor : Executor) (r : Incoming) :
    (serveRequest executor r).Only
      (ProxyReq.Execs (ExecReq.InName r.auth.user.id r.auth.token.id)) :=
  serveRequest_only fun model => .inName (r.context model)

/-! ### Owners -/

namespace Db

/-- The owner of a token. -/
def ownerOf (db : Db) (tokenId : ℤ) : Option ℤ := (db.tokens.find? tokenId).map fun t => t.userId

/-- Every usage log names the owner of its token. -/
def LogsOwned (db : Db) : Prop :=
  ∀ l ∈ db.usageLogs.rows, ∀ id ∈ l.tokenId, ∃ owner ∈ db.ownerOf id, l.userId = some owner

instance (db : Db) : Decidable db.LogsOwned :=
  inferInstanceAs (Decidable (∀ l ∈ db.usageLogs.rows, ∀ id ∈ l.tokenId,
    ∃ owner ∈ db.ownerOf id, l.userId = some owner))

/-- Tokens keep their owners, but for those that are gone, which no usage log names. -/
structure KeepsOwners (gone : ℤ → ℤ → Prop) (db db' : Db) : Prop where
  owners : ∀ id owner, ¬gone id owner → db.ownerOf id = some owner → db'.ownerOf id = some owner
  logged : ∀ l ∈ db.usageLogs.rows, ∀ id ∈ l.tokenId, ∀ owner ∈ l.userId,
    db.ownerOf id = some owner → db'.ownerOf id = some owner
  logs : db'.usageLogs = db.usageLogs

variable {db db' : Db} {gone : ℤ → ℤ → Prop}

theorem KeepsOwners.of_tokens (htokens : db'.tokens = db.tokens)
    (hlogs : db'.usageLogs = db.usageLogs) : db.KeepsOwners gone db' where
  owners id owner _ h := by rw [ownerOf, htokens]; exact h
  logged _ _ id _ owner _ h := by rw [ownerOf, htokens]; exact h
  logs := hlogs

theorem LogsOwned.kept (h : db.LogsOwned) (hkept : db.KeepsOwners gone db') : db'.LogsOwned := by
  intro l hl id hid
  rw [hkept.logs] at hl
  obtain ⟨owner, howner, huser⟩ := h l hl id hid
  exact ⟨owner, hkept.logged l hl id hid owner huser howner, huser⟩

end Db

/-- What reports read of the database is the database. -/
theorem ReportDb.logsOwned_iff (s : ReportDb) : s.LogsOwned ↔ s.toDb.LogsOwned := by
  refine forall₂_congr fun l _ => forall₂_congr fun id _ => ?_
  simp [Db.ownerOf]

/-! ### Pages -/

/-- The handler deletes the token, or its owner. -/
def AccountCall.Drops (tokenId owner : ℤ) : AccountCall → Prop
  | deleteUser id => owner = id
  | deleteToken _ id => tokenId = id
  | _ => False

/-- The page succeeds in deleting the token, or its owner. -/
def Page.Drops (db : Db) (user : UserConfig) (tokenId owner : ℤ) : Page → Prop
  | deleteToken id => tokenId = id ∧ (deleteTokenHandler user id db).isOk
  | admin (.deleteUser id) =>
    owner = id ∧ (requireRole 10 user).isOk ∧ (deleteUserHandler id db).isOk
  | _ => False

instance (db : Db) (user : UserConfig) (tokenId owner : ℤ) (page : Page) :
    Decidable (page.Drops db user tokenId owner) := by
  unfold Page.Drops
  split <;> infer_instance

section Pages

variable {db db' : Db}

/-- **The handlers of accounts** delete no token that usage is logged of, and leave the others with
their owners. -/
theorem AccountCall.Wrote.keepsOwners {call : AccountCall} (h : call.Wrote db db') :
    db.KeepsOwners (fun id owner => call.Drops id owner) db' := by
  cases call with
  | createUser payload hash =>
    obtain ⟨_, _, rfl⟩ := h
    exact .of_tokens rfl rfl
  | updateUser id payload =>
    obtain ⟨_, _, _, _, rfl⟩ := h
    exact .of_tokens rfl rfl
  | deleteUser id =>
    rcases h with rfl | ⟨hfree, rfl⟩
    · exact .of_tokens rfl rfl
    have hstays : ∀ k owner, owner ≠ id → db.ownerOf k = some owner →
        ((db.tokens.delete fun t => t.userId == id).find? k).map (fun t => t.userId) =
          some owner := by
      intro k owner hne howner
      obtain ⟨row, hrow, rfl⟩ := Option.map_eq_some_iff.mp howner
      rw [Table.find?_delete, hrow, Option.filter_some]
      simp [hne]
    refine ⟨hstays, fun l hl k _ owner huser howner => hstays k owner ?_ howner, rfl⟩
    rintro rfl
    have hnot := List.any_eq_false.mp hfree l hl
    simp [Option.mem_def.mp huser] at hnot
  | createToken caller queryUserId payload uuid =>
    obtain ⟨fresh, hfresh, rfl⟩ := h
    have hstays : ∀ k owner, db.ownerOf k = some owner →
        ((db.tokens.insertNew fresh hfresh).find? k).map (fun t => t.userId) = some owner := by
      intro k owner howner
      obtain ⟨row, hrow, rfl⟩ := Option.map_eq_some_iff.mp howner
      rw [Table.find?_insertNew_of_some hrow]
      rfl
    exact ⟨fun k owner _ => hstays k owner, fun _ _ k _ owner _ => hstays k owner, rfl⟩
  | updateToken caller id payload =>
    obtain ⟨f, hf, howners, rfl⟩ := h
    have hstays : ∀ k owner, db.ownerOf k = some owner →
        ((db.tokens.update (fun t => t.id == id) f hf).find? k).map (fun t => t.userId) =
          some owner := by
      intro k owner howner
      obtain ⟨row, hrow, rfl⟩ := Option.map_eq_some_iff.mp howner
      rw [Table.find?_update, hrow, Option.map_some, Option.map_some]
      split
      · rw [howners]
      · rfl
    exact ⟨fun k owner _ => hstays k owner, fun _ _ k _ owner _ => hstays k owner, rfl⟩
  | deleteToken caller id =>
    obtain ⟨hfree, rfl⟩ := h
    have hstays : ∀ k owner, k ≠ id → db.ownerOf k = some owner →
        ((db.tokens.delete fun t => t.id == id).find? k).map (fun t => t.userId) =
          some owner := by
      intro k owner hne howner
      obtain ⟨row, hrow, rfl⟩ := Option.map_eq_some_iff.mp howner
      have hid : row.id = k := Table.key_of_find? hrow
      rw [Table.find?_delete, hrow, Option.filter_some, hid]
      simp [hne]
    refine ⟨hstays, fun l hl k hk owner _ howner => hstays k owner ?_ howner, rfl⟩
    rintro rfl
    obtain ⟨row, hrow, -⟩ := Option.map_eq_some_iff.mp howner
    have hid : row.id = k := Table.key_of_find? hrow
    have hany : (db.tokens.rows.any fun t => t.id == k) = true :=
      List.any_eq_true.mpr ⟨row, Table.mem_of_find? hrow, beq_iff_eq.mpr hid⟩
    have hnot := List.any_eq_false.mp (hfree hany) l hl
    simp [Option.mem_def.mp hk] at hnot

variable {lib : ServerLibraries} {verify : String → String → Bool} {s : AdminState}
  {gone : ℤ → ℤ → Prop}

theorem perform_owners {α : Type} {body : AdminM α}
    (h : ∀ a db, body s.app.db = .ok (a, db) → s.app.db.KeepsOwners gone db) :
    s.app.db.KeepsOwners gone (s.perform body).2.app.db := by
  rcases SessionHistory.perform_cases body s with ⟨e, hfail⟩ | ⟨a, db, hbody, hok⟩
  · rw [hfail]
    exact .of_tokens rfl rfl
  · rw [hok]
    exact h a db hbody

/-- A handler of accounts whose reply is not looked at. -/
theorem perform_account (readLimits : String → Option (List String)) (call : AccountCall)
    {α : Type} {body : AdminM α}
    (hgone : (body s.app.db).isOk → ∀ id owner, call.Drops id owner → gone id owner)
    (hbody : ∀ a db, body s.app.db = .ok (a, db) →
      call.body s.app.now readLimits s.app.db = .ok ((), db)) :
    s.app.db.KeepsOwners gone (s.perform body).2.app.db := by
  refine perform_owners fun a db h => ?_
  have hkeeps := (AccountCall.wrote (hbody a db h)).keepsOwners
  have hok : (body s.app.db).isOk := by rw [h]; rfl
  exact ⟨fun id owner hno => hkeeps.owners id owner fun hdrops => hno (hgone hok id owner hdrops),
    hkeeps.logged, hkeeps.logs⟩

theorem createUserWithHash_owners (payload : CreateUserRequest) (hash : Except String String) :
    s.app.db.KeepsOwners gone (createUserWithHash payload hash s).2.app.db := by
  have hperform : s.app.db.KeepsOwners gone
      (s.perform (createUserHandler s.app.now payload hash)).2.app.db :=
    perform_account (fun _ => none) (.createUser payload hash) (fun _ _ _ h => h.elim)
      fun a db h => Transaction.bind_of_ok h
  rw [createUserWithHash]
  cases hresult : s.perform (createUserHandler s.app.now payload hash) with
  | mk result s' =>
    rw [hresult] at hperform
    cases result <;> exact hperform

theorem setupInitializeHandler_owners {username password : String} {hash : Except String String} :
    s.app.db.KeepsOwners gone (setupInitializeHandler username password hash s).2.app.db := by
  rw [setupInitializeHandler]
  split
  · exact .of_tokens rfl rfl
  · split
    · exact .of_tokens rfl rfl
    · split
      · exact .of_tokens rfl rfl
      · exact createUserWithHash_owners _ hash

/-- **A page** deletes no token that usage is logged of, and leaves the others with their owners. -/
theorem Page.serve_owners (cookie : Option String) (user : UserConfig) (page : Page) :
    s.app.db.KeepsOwners (fun id owner => page.Drops s.app.db user id owner)
      (page.serve lib verify cookie user s).app.db := by
  cases page with
  | logout =>
    show s.app.db.KeepsOwners _ (logoutHandler cookie s).app.db
    rw [logoutHandler]
    split <;> exact .of_tokens rfl rfl
  | updateMyPassword oldPassword hash =>
    show s.app.db.KeepsOwners _ (updateMyPasswordHandler verify user oldPassword hash s).2.app.db
    unfold updateMyPasswordHandler
    split
    · exact .of_tokens rfl rfl
    · split
      · cases hash <;> exact .of_tokens rfl rfl
      · exact .of_tokens rfl rfl
  | createToken queryUserId payload uuid =>
    exact perform_account lib.readLimits (.createToken user queryUserId payload uuid)
      (fun _ _ _ h => h.elim) fun a db h => Transaction.bind_of_ok h
  | updateToken id payload =>
    exact perform_account lib.readLimits (.updateToken user id payload) (fun _ _ _ h => h.elim)
      fun _ _ h => h
  | deleteToken id =>
    exact perform_account lib.readLimits (.deleteToken user id) (fun hok _ _ h => ⟨h, hok⟩)
      fun _ _ h => h
  | read => exact .of_tokens rfl rfl
  | admin page =>
    rw [Page.serve]
    cases hrole : requireRole 10 user with
    | error e => exact .of_tokens rfl rfl
    | ok _ =>
      have hadmin : (requireRole 10 user).isOk := by rw [hrole]; rfl
      cases page with
      | createUser payload hash => exact createUserWithHash_owners payload hash
      | updateUser id payload =>
        exact perform_account lib.readLimits (.updateUser id payload) (fun _ _ _ h => h.elim)
          fun _ _ h => h
      | deleteUser id =>
        exact perform_account lib.readLimits (.deleteUser id)
          (fun hok _ _ h => ⟨h, hadmin, hok⟩) fun _ _ h => h
      | updatePassword id hash =>
        cases hash <;> exact .of_tokens rfl rfl
      | config call chance =>
        have hstep : s.app.step lib.toLibraries (.admin call chance) =
          some (s.app.administer lib.toLibraries call chance) := rfl
        rcases AppState.step_admin hstep with h | ⟨_, hok⟩
        · exact .of_tokens (congrArg (fun app => app.db.tokens) h)
            (congrArg (fun app => app.db.usageLogs) h)
        · obtain ⟨⟨-, htokens⟩, hlogs⟩ := (AdminCall.wrote hok).accounts
          exact .of_tokens htokens hlogs
      | other => exact .of_tokens rfl rfl

end Pages

/-! ### Calls -/

section Calls

variable {lib : ServerLibraries} {s : Service} {chance : Chance}
  {reply : (q : ExecReq) → q.Resp} {q : ProxyReq}

/-- **A call of a request** changes the owner of no token. -/
theorem ownerOf_answer (id : ℤ) :
    (s.answer lib chance reply q).2.app.db.ownerOf id = s.app.db.ownerOf id := by
  cases q with
  | loadSnapshot =>
    show (ConfigCache.get lib.lower chance.rank s.app).2.db.ownerOf id = _
    rw [ConfigCache.db_get]
  | resolve modelName => rfl
  | exec q =>
    obtain ⟨pricing, hserves⟩ := serves_answer lib.lower chance s.app q (reply q)
    exact Account.owner_serves hserves id
  | logRequest entry => rfl

theorem usageLogs_answer (hq : ∀ entry, q ≠ .exec (.logUsage entry)) :
    (s.answer lib chance reply q).2.app.db.usageLogs = s.app.db.usageLogs := by
  have hget : (ConfigCache.get lib.lower chance.rank s.app).2.db.usageLogs =
      s.app.db.usageLogs := by
    rw [ConfigCache.db_get]
  cases q with
  | loadSnapshot => exact hget
  | resolve modelName => rfl
  | logRequest entry => rfl
  | exec q =>
    cases q with
    | selectKeys ctx => exact hget
    | getChannelModelPricing modelId channelId upstream => exact hget
    | billing q =>
      have hbilling : q.answer (nowIso8601 s.app.now) s.app.db = ((q.answer (nowIso8601 s.app.now)
        s.app.db).1, (s.answer lib chance reply (.exec (.billing q))).2.app.db) := rfl
      rcases BillingReq.answer_cases hbilling with ⟨c, -, h, -⟩ | ⟨-, ⟨k, st, -, h⟩ | h⟩
      · rw [h, Db.applyCharge]
        split <;> rfl
      · rw [h]
        rfl
      · rw [h]
    | logUsage entry => exact absurd rfl (hq entry)
    | _ => rfl

/-- A row of the usage log that is in the name of the owner of its token. -/
theorem logsOwned_logUsage {db db' : Db} {entry : UsageEntry} (h : db.LogsOwned)
    (howner : db.ownerOf entry.tokenId = some entry.userId)
    (hok : StorageAdapter.logUsage entry db = .ok ((), db')) : db'.LogsOwned := by
  rw [StorageAdapter.logUsage] at hok
  split at hok
  · cases hok
  · split at hok
    · cases hok
    · cases hok
      intro l hl id hid
      rcases List.mem_append.mp hl with hl | hl
      · exact h l hl id hid
      · cases List.mem_singleton.mp hl
        cases Option.some.inj hid
        exact ⟨entry.userId, howner, rfl⟩

/-- **A call of a request** logs no usage but of a token in the name of its owner. -/
theorem logsOwned_answer (h : s.app.db.LogsOwned) {userId tokenId : ℤ}
    (hq : q.Execs (ExecReq.InName userId tokenId))
    (howner : s.app.db.ownerOf tokenId = some userId) :
    (s.answer lib chance reply q).2.app.db.LogsOwned := by
  by_cases hrow : ∃ entry, q = .exec (.logUsage entry)
  · obtain ⟨entry, rfl⟩ := hrow
    obtain ⟨huser, htoken⟩ : entry.userId = userId ∧ entry.tokenId = tokenId := hq
    show (s.app.query (StorageAdapter.logUsage entry)).2.db.LogsOwned
    rcases ServerStep.query_cases (s := s.app) (StorageAdapter.logUsage entry) with hfail | ⟨_, hok⟩
    · rw [hfail]
      exact h
    · exact logsOwned_logUsage h (htoken ▸ huser ▸ howner) hok
  · rw [not_exists] at hrow
    have hkeeps : s.app.db.KeepsOwners (fun _ _ => False) (s.answer lib chance reply q).2.app.db :=
      ⟨fun id _ _ hid => (ownerOf_answer id).trans hid,
        fun _ _ id _ _ _ hid => (ownerOf_answer id).trans hid, usageLogs_answer hrow⟩
    exact h.kept hkeeps

end Calls

/-! ### Runs -/

/-- The request is through, or has come with a token of its user. -/
def Running.Named (db : Db) (r : Running) : Prop :=
  r.isThrough = true ∨ db.ownerOf r.incoming.auth.token.id = some r.incoming.auth.user.id

namespace Site

/-- The step deletes no token that an open request has come with, and no user whose request is
open. A deletion that is refused does not count. -/
def Spares (s : Site) : Label → Prop
  | .page order cookie page => ∀ user ∈ (s.caller order cookie).1.toOption,
      ∀ r ∈ s.service.requests, r.isThrough = false →
        ¬page.Drops s.service.app.db user r.incoming.auth.token.id r.incoming.auth.user.id
  | _ => True

instance (s : Site) (l : Label) : Decidable (s.Spares l) :=
  match l with
  | .page order cookie page => inferInstanceAs (Decidable
      (∀ user ∈ (s.caller order cookie).1.toOption, ∀ r ∈ s.service.requests, r.isThrough = false →
        ¬page.Drops s.service.app.db user r.incoming.auth.token.id r.incoming.auth.user.id))
  | .proxy _ _ _ _ _ _ | .call _ _ _ | .test _ _ _ _ | .testCall _ _ _ | .login _ _ _
  | .setup _ _ _ | .recover | .resetKeyQuotas _ | .elapse _ => .isTrue trivial

/-- Every usage log names the owner of its token, and so will those that open requests write. -/
structure Owned (s : Site) : Prop where
  logs : s.service.app.db.LogsOwned
  named : ∀ r ∈ s.service.requests, r.Named s.service.app.db
  calls : ∀ r ∈ s.service.requests, r.rest.Only
    (ProxyReq.Execs (ExecReq.InName r.incoming.auth.user.id r.incoming.auth.token.id))

variable {lib : ServerLibraries} {verify : String → String → Bool} {executor : Executor}
  {s₀ s s' : Site} {ls : List Label} {l : Label}

/-- A step that writes no log and makes no call. -/
theorem Owned.kept (h : s.Owned) {gone : ℤ → ℤ → Prop}
    (hkept : s.service.app.db.KeepsOwners gone s'.service.app.db)
    (hrequests : s'.service.requests = s.service.requests)
    (hgone : ∀ r ∈ s.service.requests, r.isThrough = false →
      ¬gone r.incoming.auth.token.id r.incoming.auth.user.id) : s'.Owned where
  logs := h.logs.kept hkept
  named r hr := by
    rw [hrequests] at hr
    by_cases hthrough : r.isThrough = true
    · exact .inl hthrough
    · rcases h.named r hr with hr' | howner
      · exact absurd hr' hthrough
      · exact .inr (hkept.owners _ _ (hgone r hr (Bool.eq_false_iff.mpr hthrough)) howner)
  calls r hr := h.calls r (hrequests ▸ hr)

/-- What pages leave, where no token is deleted. -/
theorem Owned.administered (h : s.Owned) {a : AdminState}
    (hkept : s.administration.app.db.KeepsOwners (fun _ _ => False) a.app.db) :
    (s.setAdministration a).Owned :=
  Owned.kept h hkept rfl fun _ _ _ hgone => hgone

/-- Who is let in has come with a token of its own. -/
theorem ownerOf_admitted {headers : Headers} {app : AppState} {auth : AuthContext}
    (h : Admitted headers app auth) : app.db.ownerOf auth.token.id = some auth.user.id := by
  obtain ⟨row, hrow, htoken⟩ := h.token
  obtain ⟨user, -, huser, hid⟩ := h.user
  have hfind : app.db.tokens.find? row.id = some row := Table.find?_key hrow
  have hrow : row.id = auth.token.id ∧ row.userId = auth.token.userId := by simp [← htoken]
  have huserId : user.id = auth.user.id := by simp [← huser]
  rw [Db.ownerOf, ← hrow.1, hfind, Option.map_some, hrow.2, ← hid, huserId]

/-- **A call** of an open request. -/
theorem owned_call (h : s.Owned) {i : ℕ} {r : Running} {q : ProxyReq} {k : q.Resp → ProxyM Served}
    (chance : Chance) (reply : (q : ExecReq) → q.Resp) (hr : s.service.requests[i]? = some r)
    (hrest : r.rest = .call q k) :
    (s.setService ((s.service.answer lib chance reply q).2.setRequest i
      ⟨r.incoming, k (s.service.answer lib chance reply q).1,
        r.trace ++ [⟨q, (s.service.answer lib chance reply q).1⟩]⟩)).Owned := by
  have hmem : r ∈ s.service.requests := List.mem_of_getElem? hr
  have hcalls := h.calls r hmem
  rw [hrest] at hcalls
  have howner : s.service.app.db.ownerOf r.incoming.auth.token.id =
      some r.incoming.auth.user.id := by
    refine (h.named r hmem).resolve_left ?_
    rw [Running.isThrough, hrest]
    exact Bool.false_ne_true
  have hstays : ∀ r' : Running, r'.Named s.service.app.db →
      r'.Named (s.service.answer lib chance reply q).2.app.db := fun r' hr' =>
    hr'.imp_right fun howner' => (ownerOf_answer _).trans howner'
  have hrequests := Service.requests_answer lib s.service chance reply q
  refine ⟨logsOwned_answer h.logs hcalls.1 howner, ?_, ?_⟩
  · show ∀ r' ∈ List.set _ _ _, _
    rw [hrequests]
    exact Slots.forall_set (fun r' hr' => hstays r' (h.named r' hr'))
      (.inr ((ownerOf_answer _).trans howner))
  · show ∀ r' ∈ List.set _ _ _, _
    rw [hrequests]
    exact Slots.forall_set h.calls (hcalls.2 _)

/-- Looking up the session of a caller. -/
theorem Owned.caller (h : s.Owned) (order : List String) (cookie : Option String) :
    (s.setAdministration (s.caller order cookie).2).Owned := by
  obtain ⟨store, hstore, -, -⟩ :=
    SessionHistory.sessionMiddleware_store order cookie s.administration
  have hlooked : (s.caller order cookie).2.app = s.service.app := congrArg AdminState.app hstore
  exact h.administered (hlooked ▸ .of_tokens rfl rfl)

/-- **A call of a test** logs no usage. -/
theorem owned_testCall (h : s.Owned) {i : ℕ} {chance : Chance} {reply : (q : TestReq) → q.Resp}
    {service : Service}
    (hservice : s.service.step lib executor (.testCall i chance reply) = some service) :
    (s.setService service).Owned := by
  suffices hkept : s.service.app.db.KeepsOwners (fun _ _ => False) service.app.db from
    h.kept hkept (Service.requests_testCall hservice) fun _ _ _ hgone => hgone
  obtain ⟨t, q, k, -, -, rfl⟩ := Service.testCall_cases hservice
  show s.service.app.db.KeepsOwners _ (s.service.answerTest chance reply q).2.app.db
  rcases s.service.db_answerTest chance reply q with hdb | ⟨userId, delta, hdb⟩
  · rw [hdb]
    exact .of_tokens rfl rfl
  · rw [hdb]
    exact .of_tokens rfl rfl

/-- **A step.** -/
theorem owned_step (hl : s.Spares l) (h : s.Owned)
    (hstep : step lib verify executor s l = some s') : s'.Owned := by
  cases l with
  | proxy headers entryFormat body requestId elapsedMs client =>
    rw [step] at hstep
    cases hauth : tokenAuthMiddleware headers s.service.app with
    | error e =>
      rw [hauth] at hstep
      rwa [← Option.some.inj hstep]
    | ok auth =>
      rw [hauth] at hstep
      rw [← Option.some.inj hstep]
      have howner := ownerOf_admitted (admitted_of_middleware hauth)
      exact ⟨h.logs, Slots.forall_concat h.named (.inr howner),
        Slots.forall_concat h.calls (serveRequest_inName executor _)⟩
  | call i chance reply =>
    obtain ⟨service, hservice, rfl⟩ := Option.map_eq_some_iff.mp hstep
    obtain ⟨r, q, k, hr, hrest, rfl⟩ := Service.call_cases hservice
    exact owned_call h chance reply hr hrest
  | page order cookie page =>
    obtain ⟨store, hstore, -, -⟩ :=
      SessionHistory.sessionMiddleware_store order cookie s.administration
    have hlooked : (s.caller order cookie).2.app = s.service.app :=
      congrArg AdminState.app hstore
    rw [Spares] at hl
    cases hcaller : s.caller order cookie with
    | mk user a =>
      rw [hcaller] at hlooked hl
      rw [step, hcaller] at hstep
      have happ : a.app = s.service.app := hlooked
      cases user with
      | error e =>
        rw [← Option.some.inj hstep]
        exact h.administered (happ ▸ .of_tokens rfl rfl)
      | ok user =>
        have hserved : a.app.db.KeepsOwners (fun id owner => page.Drops a.app.db user id owner)
          (page.serve lib verify cookie user a).app.db := page.serve_owners cookie user
        rw [happ] at hserved
        rw [← Option.some.inj hstep]
        exact Owned.kept h hserved rfl (hl user rfl)
  | test order cookie requestId test =>
    have hlooked := h.caller order cookie
    rw [step] at hstep
    dsimp only at hstep
    split at hstep
    · rwa [← Option.some.inj hstep]
    · rw [← Option.some.inj hstep]
      exact ⟨hlooked.logs, hlooked.named, hlooked.calls⟩
  | testCall i chance reply =>
    obtain ⟨service, hservice, rfl⟩ := Option.map_eq_some_iff.mp hstep
    exact owned_testCall h hservice
  | login username password token =>
    have happ : (loginHandler verify username password token s.administration).2.app =
        s.service.app := by
      rcases SessionHistory.loginHandler_cases verify username password token s.administration with
        ⟨e, hlogin⟩ | ⟨user, -, hlogin⟩ <;> (rw [hlogin]; rfl)
    rw [← Option.some.inj hstep]
    exact h.administered (happ ▸ .of_tokens rfl rfl)
  | setup username password hash =>
    rw [← Option.some.inj hstep]
    exact h.administered setupInitializeHandler_owners
  | recover | resetKeyQuotas | elapse =>
    rw [← Option.some.inj hstep]
    exact ⟨h.logs, h.named, h.calls⟩

/-- **Usage is logged in the name of the owner.** In every run of a site that starts without
requests, and in which no token is deleted while a request that has come with it is open, every
usage log names the owner of its token. -/
theorem logs_owned (h₀ : s₀.service.requests = []) (hlogs : s₀.service.app.db.LogsOwned)
    (hrun : Machine.run (step lib verify executor) s₀ ls = some s)
    (hspares : Machine.Along (step lib verify executor) Spares s₀ ls) :
    s.service.app.db.LogsOwned := by
  have hnone : s₀.Owned := ⟨hlogs, by simp [h₀], by simp [h₀]⟩
  exact (Machine.run_invariant (I := Owned) (fun _ _ _ hl h hstep => owned_step hl h hstep) hrun
    hspares hnone).logs

/-! ### A small site -/

/-- The channel is tested, and the token is to be deleted before its request is through. The
deletion is refused, since usage is logged of it already. -/
def ownedLabels : List Label :=
  let call : Label := .call 0 ⟨fun _ => 0, fun _ => 0⟩ fun q =>
    (Executor.sampleServer (Executor.sampleBytes 600) q .sample).1
  sampleLabels ++ List.replicate 4 call ++
    [.test [] (some "chennix_session=s-1") "test-1" (.channel 1)] ++
    List.replicate 4 (.testCall 0 ⟨fun _ => 0, fun _ => 0⟩
      (Service.sampleTestReply (.ok ⟨200, "200 OK", none⟩))) ++
    [.page [] (some "chennix_session=s-1") (.deleteToken 1), call]

theorem logs_owned_sample :
    ∃ s, Machine.run (step sampleLibraries samplePasswords Executor.sample) empty ownedLabels =
        some s ∧
      s.service.app.db.usageLogs.rows.length = 1 ∧ (s.service.tests.all RunningTest.isThrough) ∧
      s.service.app.db.LogsOwned := by
  have hrun : (Machine.run (step sampleLibraries samplePasswords Executor.sample) empty
    ownedLabels).any (fun s => s.service.app.db.usageLogs.rows.length = 1 ∧
      s.service.tests.all RunningTest.isThrough) = true := by decide +kernel
  rw [Option.any_eq_true] at hrun
  obtain ⟨s, hrun, hend⟩ := hrun
  obtain ⟨hone, hthrough⟩ := of_decide_eq_true hend
  have hempty : empty.service.app.db.LogsOwned := by decide
  have hspares : Machine.Along (step sampleLibraries samplePasswords Executor.sample) Spares empty
      ownedLabels := by decide +kernel
  exact ⟨s, hrun, hone, hthrough, logs_owned rfl hempty hrun hspares⟩

/-- Somebody else gets the identifier of a token that is deleted while its request is open. -/
def inheritedLabels : List Label :=
  let admin (page : Page) : Label := .page [] (some "chennix_session=s-1") page
  let token (key : String) : CreateTokenRequest :=
    ⟨⟨"", 500, false, -1, "", false, ""⟩, 0, some key⟩
  sampleLabels ++
    [admin (.admin (.createUser ⟨"bob", "password", 1, "default", 1000⟩ (.ok "password"))),
      .login "bob" "password" "s-2", admin (.deleteToken 1),
      .page [] (some "chennix_session=s-2") (.createToken none (token "sk-2") "")] ++
    List.replicate 5 (.call 0 ⟨fun _ => 0, fun _ => 0⟩ fun q =>
      (Executor.sampleServer (Executor.sampleBytes 600) q .sample).1)

/-- The condition is needed: the usage is then logged of a token of the other user. -/
theorem not_logsOwned_inherited :
    ∃ s, Machine.run (step sampleLibraries samplePasswords Executor.sample) empty inheritedLabels =
        some s ∧ ¬s.service.app.db.LogsOwned := by
  have hrun : (Machine.run (step sampleLibraries samplePasswords Executor.sample) empty
    inheritedLabels).any (fun s => ¬s.service.app.db.LogsOwned) = true := by decide +kernel
  rw [Option.any_eq_true] at hrun
  obtain ⟨s, hrun, hforeign⟩ := hrun
  exact ⟨s, hrun, of_decide_eq_true hforeign⟩

end Site

end Chennix
