import Chennix.Foundations.Path
import Chennix.Server.Auth

/-!
# Whose session it is

A session should let in the account that logged in and nobody else, for a day, until the logout and
as long as the account exists and is enabled. What is said of accounts is said of accounts, not of
ids: the database gives the id of the last user, once deleted, to the next one. The sessions of the
deleted user are still there then.

To say whose a session is, the events are recorded beside the state: which account was the last to
be given an id, and what each login has issued.

## Main definitions

* `Ticket`, `SessionHistory` — what a login has issued, and the state with the record
* `SessionHistory.Owns` — the session is the account's
* `SessionHistory.AdmitsOwners` — the middleware lets in the owners and only them
* `SessionHistory.LeavesNoHeir` — a new user does not come into a session

## Main results

* `SessionHistory.step_cases` — what an event does
* `SessionHistory.admitsOwners_iff` — owners are let in, in all states of a run, exactly if no new
  user has come into a session
-/

namespace Chennix

open Foundations Transaction

/-- What a login has issued. -/
structure Ticket where
  userId : ℤ
  /-- Which of the accounts that have had the id. -/
  account : ℕ
  issuedAt : ℤ
  loggedOut : Bool
  deriving DecidableEq, Repr

/-- The server with a record of the accounts and of the tokens issued. -/
structure SessionHistory extends AdminState where
  /-- The number of the account that was last given the id, 0 for those of the beginning. -/
  accounts : ℤ → ℕ
  /-- How many accounts have been created. -/
  created : ℕ
  tickets : Map String Ticket

namespace SessionHistory

/-- The beginning: a server that has just started, without sessions. -/
def start (s : AdminState) : SessionHistory :=
  ⟨{ s with sessionStore := Map.empty }, fun _ => 0, 0, Map.empty⟩

/-- The record of an event. -/
def record (verify : String → String → Bool) (s : SessionHistory) :
    SessionEvent → (ℤ → ℕ) × ℕ × Map String Ticket
  | .login username password token =>
    match (loginHandler verify username password token s.toAdminState).1 with
    | .ok user => (s.accounts, s.created,
        s.tickets.insert token ⟨user.id, s.accounts user.id, s.currentTimestamp, false⟩)
    | .error _ => (s.accounts, s.created, s.tickets)
  | .logout cookies =>
    match extractSessionToken cookies with
    | some token => (s.accounts, s.created,
        s.tickets.modify token fun ticket => { ticket with loggedOut := true })
    | none => (s.accounts, s.created, s.tickets)
  | .createUser payload hash =>
    match (createUserWithHash payload hash s.toAdminState).1 with
    | .ok id => (Function.update s.accounts id (s.created + 1), s.created + 1, s.tickets)
    | .error _ => (s.accounts, s.created, s.tickets)
  | _ => (s.accounts, s.created, s.tickets)

/-- The server goes its way, and what happens is recorded. -/
def step (verify : String → String → Bool) (s : SessionHistory) (e : SessionEvent) :
    Option SessionHistory :=
  let (accounts, created, tickets) := s.record verify e
  some ⟨s.toAdminState.step verify e, accounts, created, tickets⟩

/-- The session is the user's: a login has issued it to the account, not longer ago than a session
lasts, nobody has logged it out, and the account is still there and enabled. -/
def Owns (s : SessionHistory) (token : String) (user : UserConfig) : Prop :=
  ∃ ticket, s.tickets token = some ticket ∧
    s.currentTimestamp - ticket.issuedAt ≤ sessionMaxAgeSecs ∧ ticket.loggedOut = false ∧
    ticket.account = s.accounts ticket.userId ∧
    UserRepo.getUserById ticket.userId s.app.db = some user ∧ user.status = 1

/-- Whoever sends a session token is let in as the owner of the session, and nobody else is. -/
def AdmitsOwners (s : SessionHistory) : Prop :=
  ∀ order cookies token user, extractSessionToken cookies = some token →
    ((sessionMiddleware order cookies s.toAdminState).1 = .ok user ↔ s.Owns token user)

/-- A user that is created does not get an id for which there is a session that has not expired. -/
def LeavesNoHeir (s : SessionHistory) : SessionEvent → Prop
  | .createUser payload hash => (createUserWithHash payload hash s.toAdminState).1.isOk = true →
      ∀ token createdAt, s.sessionStore token = some (s.app.db.users.nextId, createdAt) →
        sessionMaxAgeSecs < s.currentTimestamp - createdAt
  | _ => True

/-- The tokens of logins are new, and such as a cookie can hold. -/
def IssuesFresh (s : SessionHistory) : SessionEvent → Prop
  | .login _ _ token => s.tickets token = none ∧ ∃ cookies, extractSessionToken cookies = some token
  | _ => True

/-! ### What the handlers do -/

section Handlers

variable {s : AdminState} {order : List String} {cookies : Option String} {token : String}

theorem sessionUser_ok {userId : ℤ} {user : UserConfig} :
    sessionUser userId s = .ok user ↔
      UserRepo.getUserById userId s.app.db = some user ∧ user.status = 1 := by
  rw [sessionUser]
  cases h : UserRepo.getUserById userId s.app.db with
  | none => simp
  | some u =>
    by_cases hu : u.status = 1
    · simp only [hu, if_true, Except.ok.injEq, Option.some.injEq]
      exact ⟨fun h => ⟨h, h ▸ hu⟩, fun h => h.1⟩
    · simp only [hu, if_false, reduceCtorEq, Option.some.injEq, false_iff, not_and]
      exact fun h => h ▸ hu

/-- **Who is let in**: the user of a session that has not expired, if there is one and it is
enabled. -/
theorem sessionMiddleware_ok (h : extractSessionToken cookies = some token) {user : UserConfig} :
    (sessionMiddleware order cookies s).1 = .ok user ↔
      ∃ userId createdAt, s.sessionStore token = some (userId, createdAt) ∧
        s.currentTimestamp - createdAt ≤ sessionMaxAgeSecs ∧
        UserRepo.getUserById userId s.app.db = some user ∧ user.status = 1 := by
  simp only [sessionMiddleware, h]
  cases hs : (s.sessionStore token).filter fun session =>
      s.currentTimestamp - session.2 ≤ sessionMaxAgeSecs with
  | some session =>
    obtain ⟨userId, createdAt⟩ := session
    obtain ⟨hsession, hage⟩ := Option.filter_eq_some_iff.mp hs
    refine sessionUser_ok.trans
      ⟨fun h => ⟨userId, createdAt, hsession, of_decide_eq_true hage, h⟩, ?_⟩
    rintro ⟨_, _, hsession', -, h⟩
    obtain ⟨rfl, rfl⟩ := Prod.mk.inj (Option.some.inj (hsession.symm.trans hsession'))
    exact h
  | none =>
    refine iff_of_false (by simp) ?_
    rintro ⟨userId, createdAt, hsession, hage, -⟩
    rw [hsession] at hs
    exact absurd hage (by simpa using Option.filter_eq_none_iff.mp hs _ rfl)

/-- A request removes sessions, but none that has not expired. -/
theorem sessionMiddleware_store (order : List String) (cookies : Option String) (s : AdminState) :
    ∃ store : SessionStore, (sessionMiddleware order cookies s).2 =
      { s with sessionStore := store } ∧
      (∀ token session, store token = some session → s.sessionStore token = some session) ∧
      ∀ token userId createdAt, s.sessionStore token = some (userId, createdAt) →
        s.currentTimestamp - createdAt ≤ sessionMaxAgeSecs →
          store token = some (userId, createdAt) := by
  cases htoken : extractSessionToken cookies with
  | none =>
    simp only [sessionMiddleware, htoken]
    exact ⟨s.sessionStore, rfl, fun _ _ h => h, fun _ _ _ h _ => h⟩
  | some token =>
    cases hs : (s.sessionStore token).filter fun session =>
        s.currentTimestamp - session.2 ≤ sessionMaxAgeSecs with
    | some session =>
      simp only [sessionMiddleware, htoken, hs]
      exact ⟨s.sessionStore.sweep order s.currentTimestamp, rfl,
        fun _ _ h => SessionStore.of_sweep h,
        fun _ _ _ h hage => SessionStore.sweep_of_fresh h hage⟩
    | none =>
      simp only [sessionMiddleware, htoken, hs]
      refine ⟨SessionStore.sweep order s.currentTimestamp (s.sessionStore.erase token), rfl,
        fun _ _ h => Map.of_erase (SessionStore.of_sweep h), ?_⟩
      intro token' userId createdAt h hage
      refine SessionStore.sweep_of_fresh ?_ hage
      have hne : token' ≠ token := by
        rintro rfl
        rw [h] at hs
        exact absurd hage (by simpa using Option.filter_eq_none_iff.mp hs _ rfl)
      rw [Map.erase_of_ne hne, h]

theorem loginHandler_cases (verify : String → String → Bool) (username password token : String)
    (s : AdminState) :
    (∃ e, loginHandler verify username password token s = (.error e, s)) ∨
      ∃ user, UserRepo.getUserByUsername username s.app.db = some user ∧
        loginHandler verify username password token s = (.ok user, { s with
          sessionStore := s.sessionStore.insert token (user.id, s.currentTimestamp) }) := by
  cases huser : UserRepo.getUserByUsername username s.app.db with
  | none =>
    simp only [loginHandler, huser]
    exact .inl ⟨_, rfl⟩
  | some user =>
    simp only [loginHandler, huser]
    split
    · exact .inl ⟨_, rfl⟩
    · cases s.getPasswordHash username with
      | none => exact .inl ⟨_, rfl⟩
      | some hash =>
        by_cases hverify : verify password hash = true
        · exact .inr ⟨user, rfl, if_pos hverify⟩
        · exact .inl ⟨_, if_neg hverify⟩

theorem perform_cases {α : Type} (body : AdminM α) (s : AdminState) :
    (∃ e, s.perform body = (.error e, s)) ∨
      ∃ a db, body s.app.db = .ok (a, db) ∧
        s.perform body = (.ok a, { s with app := { s.app with db := db } }) := by
  rw [AdminState.perform]
  cases h : keepingCache body s.app with
  | error e => exact .inl ⟨e, rfl⟩
  | ok r =>
    obtain ⟨db, hbody, happ⟩ := keepingCache_ok.mp h
    exact .inr ⟨r.1, db, hbody, by rw [← happ]⟩

/-- An update leaves the users there that are there. -/
theorem find?_updateUserHandler {now : Calendar.Instant} {id : ℤ} {payload : UpdateUserRequest}
    {db db' : Db} {r : Unit} (h : updateUserHandler now id payload db = .ok (r, db')) (u : ℤ) :
    (db'.users.find? u).isSome = (db.users.find? u).isSome := by
  rw [updateUserHandler, AdminM.lift_ok, UserRepo.updateUser] at h
  split at h
  · cases h
  · cases h
    have hfind := Table.find?_update db.users (fun row => row.id == id) _
      (UserRow.key_configured (nowIso8601 now) payload.username payload.role payload.status
        payload.group payload.quota) u
    exact (congrArg Option.isSome hfind).trans Option.isSome_map

theorem find?_deleteUserHandler {id : ℤ} {db db' : Db} {r : Unit}
    (h : deleteUserHandler id db = .ok (r, db')) {u : ℤ} (hu : (db'.users.find? u).isSome) :
    (db.users.find? u).isSome := by
  rw [deleteUserHandler, AdminM.lift_ok, UserRepo.deleteUser] at h
  split at h
  · cases h
    exact hu
  · split at h
    · cases h
    · cases h
      change ((Table.delete _ _).find? u).isSome at hu
      rw [Table.find?_delete] at hu
      obtain ⟨row, hrow⟩ := Option.isSome_iff_exists.mp hu
      rw [(Option.filter_eq_some_iff.mp hrow).1]
      rfl

/-- **A new user** gets the id after the largest, and is enabled. -/
theorem find?_createUserHandler {now : Calendar.Instant} {payload : CreateUserRequest}
    {hash : Except String String} {db db' : Db} {id : ℤ}
    (h : createUserHandler now payload hash db = .ok (id, db')) :
    id = db.users.nextId ∧ ∃ row : UserRow, row.status = 1 ∧
      ∀ u, db'.users.find? u = if u = db.users.nextId then some row else db.users.find? u := by
  cases hash with
  | error e => cases h
  | ok hash =>
    change (liftM (UserRepo.createUserWithQuota _ _ _ _ _ : Stmt ℤ) : AdminM ℤ) db = _ at h
    rw [AdminM.lift_ok, UserRepo.createUserWithQuota] at h
    split at h
    · cases h
    · cases h
      exact ⟨rfl, _, rfl, fun u => Table.find?_insertNew db.users _ _ u⟩

theorem createUserWithHash_cases (payload : CreateUserRequest) (hash : Except String String)
    (s : AdminState) :
    (∃ e, createUserWithHash payload hash s = (.error e, s)) ∨
      ∃ db hashes, createUserWithHash payload hash s =
          (.ok s.app.db.users.nextId,
            { s with app := { s.app with db := db }, passwordHashes := hashes }) ∧
        ∃ row : UserRow, row.status = 1 ∧ ∀ u, db.users.find? u =
          if u = s.app.db.users.nextId then some row else s.app.db.users.find? u := by
  rcases perform_cases (createUserHandler s.app.now payload hash) s with
    ⟨e, h⟩ | ⟨id, db, hbody, h⟩
  · exact .inl ⟨e, by rw [createUserWithHash, h]⟩
  · obtain ⟨rfl, hrow⟩ := find?_createUserHandler hbody
    exact .inr ⟨db, _, by rw [createUserWithHash, h], hrow⟩

end Handlers

/-! ### What an event does -/

/-- Nothing is issued and nobody new is there: sessions may be gone, but none that has not expired,
and users may be gone. -/
structure Fades (s s' : SessionHistory) : Prop where
  record : s'.accounts = s.accounts ∧ s'.created = s.created ∧ s'.tickets = s.tickets
  later : s.currentTimestamp ≤ s'.currentTimestamp
  gone : ∀ token session, s'.sessionStore token = some session →
    s.sessionStore token = some session
  kept : ∀ token userId createdAt, s.sessionStore token = some (userId, createdAt) →
    s.currentTimestamp - createdAt ≤ sessionMaxAgeSecs →
      s'.sessionStore token = some (userId, createdAt)
  users : ∀ u, (s'.app.db.users.find? u).isSome → (s.app.db.users.find? u).isSome

theorem Fades.refl (s : SessionHistory) : s.Fades s :=
  ⟨⟨rfl, rfl, rfl⟩, le_rfl, fun _ _ h => h, fun _ _ _ h _ => h, fun _ h => h⟩

variable {verify : String → String → Bool} {s s' : SessionHistory}

/-- **One step**: a session begins, a session ends, a user is created, or things fade. -/
theorem step_cases {e : SessionEvent} (h : s.step verify e = some s') :
    (∃ username password token user, e = .login username password token ∧
      UserRepo.getUserByUsername username s.app.db = some user ∧
      s' = { s with
        sessionStore := s.sessionStore.insert token (user.id, s.currentTimestamp)
        tickets :=
          s.tickets.insert token ⟨user.id, s.accounts user.id, s.currentTimestamp, false⟩ }) ∨
    (∃ cookies token, e = .logout cookies ∧ extractSessionToken cookies = some token ∧
      s' = { s with
        sessionStore := s.sessionStore.erase token
        tickets := s.tickets.modify token fun ticket => { ticket with loggedOut := true } }) ∨
    (∃ payload hash db hashes, e = .createUser payload hash ∧
      (createUserWithHash payload hash s.toAdminState).1.isOk = true ∧
      s' = { s with
        app := { s.app with db := db }
        passwordHashes := hashes
        accounts := Function.update s.accounts s.app.db.users.nextId (s.created + 1)
        created := s.created + 1 } ∧
      ∃ row : UserRow, row.status = 1 ∧ ∀ u, db.users.find? u =
        if u = s.app.db.users.nextId then some row else s.app.db.users.find? u) ∨
    s.Fades s' ∧ ∀ payload hash, e = .createUser payload hash →
      (createUserWithHash payload hash s.toAdminState).1.isOk = false := by
  rw [step, Option.some.injEq] at h
  subst h
  cases e with
  | login username password token =>
    rcases loginHandler_cases verify username password token s.toAdminState with
      ⟨e, h⟩ | ⟨user, huser, h⟩
    · refine .inr (.inr (.inr ⟨?_, fun _ _ he => by cases he⟩))
      simp only [record, AdminState.step, h]
      exact .refl s
    · refine .inl ⟨username, password, token, user, rfl, huser, ?_⟩
      simp only [record, AdminState.step, h]
  | logout cookies =>
    cases htoken : extractSessionToken cookies with
    | none =>
      refine .inr (.inr (.inr ⟨?_, fun _ _ he => by cases he⟩))
      simp only [record, AdminState.step, logoutHandler, htoken]
      exact .refl s
    | some token =>
      refine .inr (.inl ⟨cookies, token, rfl, htoken, ?_⟩)
      simp only [record, AdminState.step, logoutHandler, htoken]
  | request order cookies =>
    obtain ⟨store, hstep, hgone, hkept⟩ := sessionMiddleware_store order cookies s.toAdminState
    refine .inr (.inr (.inr ⟨?_, fun _ _ he => by cases he⟩))
    simp only [record, AdminState.step, hstep]
    exact ⟨⟨rfl, rfl, rfl⟩, le_rfl, hgone, hkept, fun _ h => h⟩
  | createUser payload hash =>
    rcases createUserWithHash_cases payload hash s.toAdminState with
      ⟨e, h⟩ | ⟨db, hashes, h, hrow⟩
    · refine .inr (.inr (.inr ⟨?_, fun _ _ he => ?_⟩))
      · simp only [record, AdminState.step, h]
        exact .refl s
      · cases he
        rw [h]
        rfl
    · refine .inr (.inr (.inl ⟨payload, hash, db, hashes, rfl, by rw [h]; rfl, ?_, hrow⟩))
      simp only [record, AdminState.step, h]
  | updateUser id payload =>
    refine .inr (.inr (.inr ⟨?_, fun _ _ he => by cases he⟩))
    rcases perform_cases (updateUserHandler s.app.now id payload) s.toAdminState with
      ⟨e, h⟩ | ⟨_, db, hbody, h⟩
    · simp only [record, AdminState.step, h]
      exact .refl s
    · simp only [record, AdminState.step, h]
      refine ⟨⟨rfl, rfl, rfl⟩, le_rfl, fun _ _ h => h, fun _ _ _ h _ => h, fun u hu => ?_⟩
      rwa [← find?_updateUserHandler hbody u]
  | deleteUser id =>
    refine .inr (.inr (.inr ⟨?_, fun _ _ he => by cases he⟩))
    rcases perform_cases (deleteUserHandler id) s.toAdminState with ⟨e, h⟩ | ⟨_, db, hbody, h⟩
    · simp only [record, AdminState.step, h]
      exact .refl s
    · simp only [record, AdminState.step, h]
      exact ⟨⟨rfl, rfl, rfl⟩, le_rfl, fun _ _ h => h, fun _ _ _ h _ => h,
        fun u hu => find?_deleteUserHandler hbody hu⟩
  | elapse duration =>
    refine .inr (.inr (.inr ⟨?_, fun _ _ he => by cases he⟩))
    refine ⟨⟨rfl, rfl, rfl⟩, Calendar.Instant.seconds_mono ?_, fun _ _ h => h, fun _ _ _ h _ => h,
      fun _ h => h⟩
    exact Int.le_add_of_nonneg_right (Int.natCast_nonneg duration)

/-! ### The record is right -/

/-- What is recorded of the sessions. -/
structure Sound (s : SessionHistory) : Prop where
  /-- Every session has been issued, and nobody has logged it out. -/
  issued : ∀ token userId createdAt, s.sessionStore token = some (userId, createdAt) →
    ∃ n, s.tickets token = some ⟨userId, n, createdAt, false⟩
  /-- What has been issued is there until it expires or is logged out. -/
  kept : ∀ token userId n issuedAt, s.tickets token = some ⟨userId, n, issuedAt, false⟩ →
    s.currentTimestamp - issuedAt ≤ sessionMaxAgeSecs →
      s.sessionStore token = some (userId, issuedAt)
  accounts : ∀ u, s.accounts u ≤ s.created
  account : ∀ token ticket, s.tickets token = some ticket → ticket.account ≤ s.created
  held : ∀ token ticket, s.tickets token = some ticket →
    ∃ cookies, extractSessionToken cookies = some token

/-- Whoever has the id of a session that has not expired is the account that logged in. -/
def Own (s : SessionHistory) : Prop :=
  ∀ token userId n issuedAt, s.tickets token = some ⟨userId, n, issuedAt, false⟩ →
    s.currentTimestamp - issuedAt ≤ sessionMaxAgeSecs → (s.app.db.users.find? userId).isSome →
      n = s.accounts userId

theorem sound_start (s : AdminState) : (start s).Sound where
  issued := by simp [start, Map.empty]
  kept := by simp [start, Map.empty]
  accounts _ := le_rfl
  account := by simp [start, Map.empty]
  held := by simp [start, Map.empty]

theorem own_start (s : AdminState) : (start s).Own := by simp [Own, start, Map.empty]

theorem Sound.login {token : String} {user : UserConfig} (h : s.Sound)
    (hheld : ∃ cookies, extractSessionToken cookies = some token) :
    Sound { s with
      sessionStore := s.sessionStore.insert token (user.id, s.currentTimestamp)
      tickets :=
        s.tickets.insert token ⟨user.id, s.accounts user.id, s.currentTimestamp, false⟩ } where
  issued token' userId createdAt hsession := by
    change s.sessionStore.insert token _ token' = _ at hsession
    show ∃ n, s.tickets.insert token _ token' = _
    by_cases htoken : token' = token
    · rw [htoken, Map.insert_self] at hsession ⊢
      cases hsession
      exact ⟨_, rfl⟩
    · rw [Map.insert_of_ne htoken] at hsession ⊢
      exact h.issued _ _ _ hsession
  kept token' userId n issuedAt hticket hage := by
    change s.tickets.insert token _ token' = _ at hticket
    show s.sessionStore.insert token _ token' = _
    by_cases htoken : token' = token
    · rw [htoken, Map.insert_self] at hticket ⊢
      cases hticket
      rfl
    · rw [Map.insert_of_ne htoken] at hticket ⊢
      exact h.kept _ _ _ _ hticket hage
  accounts := h.accounts
  account token' ticket hticket := by
    change s.tickets.insert token _ token' = _ at hticket
    by_cases htoken : token' = token
    · rw [htoken, Map.insert_self] at hticket
      cases hticket
      exact h.accounts _
    · rw [Map.insert_of_ne htoken] at hticket
      exact h.account _ _ hticket
  held token' ticket hticket := by
    change s.tickets.insert token _ token' = _ at hticket
    by_cases htoken : token' = token
    · rw [htoken]
      exact hheld
    · rw [Map.insert_of_ne htoken] at hticket
      exact h.held _ _ hticket

/-- What is recorded as issued and not logged out after a logout was so before, and has another
token. -/
theorem ticket_of_logout {token token' : String} {userId issuedAt : ℤ} {n : ℕ}
    (h : s.tickets.modify token (fun ticket => { ticket with loggedOut := true }) token' =
      some ⟨userId, n, issuedAt, false⟩) :
    token' ≠ token ∧ s.tickets token' = some ⟨userId, n, issuedAt, false⟩ := by
  by_cases htoken : token' = token
  · rw [htoken, Map.modify_self] at h
    obtain ⟨ticket, -, hticket⟩ := Option.map_eq_some_iff.mp h
    cases congrArg Ticket.loggedOut hticket
  · rw [Map.modify_of_ne htoken] at h
    exact ⟨htoken, h⟩

theorem Sound.logout {token : String} (h : s.Sound) :
    Sound { s with
      sessionStore := s.sessionStore.erase token
      tickets := s.tickets.modify token fun ticket => { ticket with loggedOut := true } } where
  issued token' userId createdAt hsession := by
    change s.sessionStore.erase token token' = _ at hsession
    show ∃ n, s.tickets.modify token _ token' = _
    by_cases htoken : token' = token
    · rw [htoken, Map.erase_self] at hsession
      cases hsession
    · rw [Map.erase_of_ne htoken] at hsession
      rw [Map.modify_of_ne htoken]
      exact h.issued _ _ _ hsession
  kept token' userId n issuedAt hticket hage := by
    obtain ⟨htoken, hticket⟩ := ticket_of_logout hticket
    show s.sessionStore.erase token token' = _
    rw [Map.erase_of_ne htoken]
    exact h.kept _ _ _ _ hticket hage
  accounts := h.accounts
  account token' ticket hticket := by
    change s.tickets.modify token _ token' = _ at hticket
    by_cases htoken : token' = token
    · rw [htoken, Map.modify_self] at hticket
      obtain ⟨ticket', hticket', rfl⟩ := Option.map_eq_some_iff.mp hticket
      show ticket'.account ≤ s.created
      exact h.account _ _ hticket'
    · rw [Map.modify_of_ne htoken] at hticket
      exact h.account _ _ hticket
  held token' ticket hticket := by
    change s.tickets.modify token _ token' = _ at hticket
    by_cases htoken : token' = token
    · rw [htoken, Map.modify_self] at hticket
      obtain ⟨ticket', hticket', -⟩ := Option.map_eq_some_iff.mp hticket
      exact htoken ▸ h.held _ _ hticket'
    · rw [Map.modify_of_ne htoken] at hticket
      exact h.held _ _ hticket

theorem Sound.fades (h : s.Sound) (hfades : s.Fades s') : s'.Sound := by
  obtain ⟨haccounts, hcreated, htickets⟩ := hfades.record
  have hlater := hfades.later
  refine ⟨?_, ?_, ?_, ?_, ?_⟩
  · intro token userId createdAt hsession
    rw [htickets]
    exact h.issued _ _ _ (hfades.gone _ _ hsession)
  · intro token userId n issuedAt hticket hage
    rw [htickets] at hticket
    exact hfades.kept _ _ _ (h.kept _ _ _ _ hticket (by omega)) (by omega)
  · rw [haccounts, hcreated]
    exact h.accounts
  · rw [htickets, hcreated]
    exact h.account
  · rw [htickets]
    exact h.held

theorem Sound.step {e : SessionEvent} (hfresh : s.IssuesFresh e) (h : s.Sound)
    (hstep : s.step verify e = some s') : s'.Sound := by
  rcases step_cases hstep with ⟨username, password, token, user, rfl, huser, rfl⟩ |
    ⟨cookies, token, rfl, htoken, rfl⟩ | ⟨payload, hash, db, hashes, rfl, -, rfl, -⟩ | ⟨hfades, -⟩
  · exact h.login hfresh.2
  · exact h.logout
  · refine ⟨h.issued, h.kept, fun u => ?_, fun token ticket hticket => ?_, h.held⟩
    · show Function.update s.accounts _ _ u ≤ s.created + 1
      by_cases hu : u = s.app.db.users.nextId
      · rw [hu, Function.update_self]
      · rw [Function.update_of_ne hu]
        exact (h.accounts u).trans (Nat.le_succ _)
    · exact (h.account _ _ hticket).trans (Nat.le_succ _)
  · exact h.fades hfades

/-! ### Who is let in -/

theorem isSome_of_getUserById {userId : ℤ} {user : UserConfig} {db : Db}
    (h : UserRepo.getUserById userId db = some user) : (db.users.find? userId).isSome := by
  obtain ⟨row, hrow, -⟩ := Option.map_eq_some_iff.mp h
  rw [hrow]
  rfl

/-- Where all have what is their own, the middleware lets in the owners. -/
theorem Own.admitsOwners (hown : s.Own) (h : s.Sound) : s.AdmitsOwners := by
  intro order cookies token user htoken
  rw [sessionMiddleware_ok htoken]
  constructor
  · rintro ⟨userId, createdAt, hsession, hage, huser, hstatus⟩
    obtain ⟨n, hticket⟩ := h.issued _ _ _ hsession
    exact ⟨_, hticket, hage, rfl, hown _ _ _ _ hticket hage (isSome_of_getUserById huser), huser,
      hstatus⟩
  · rintro ⟨⟨userId, n, issuedAt, loggedOut⟩, hticket, hage, hin, -, huser, hstatus⟩
    cases hin
    exact ⟨userId, issuedAt, h.kept _ _ _ _ hticket hage, hage, huser, hstatus⟩

theorem Own.step {e : SessionEvent} (hown : s.Own) (h : s.Sound) (hheir : s.LeavesNoHeir e)
    (hstep : s.step verify e = some s') : s'.Own := by
  rcases step_cases hstep with ⟨username, password, token, user, rfl, huser, rfl⟩ |
    ⟨cookies, token, rfl, htoken, rfl⟩ |
    ⟨payload, hash, db, hashes, rfl, hok, rfl, row, hrow, hfind⟩ |
    ⟨hfades, -⟩
  · intro token' userId n issuedAt hticket hage hsome
    change s.tickets.insert token _ token' = _ at hticket
    by_cases htoken : token' = token
    · rw [htoken, Map.insert_self] at hticket
      cases hticket
      rfl
    · rw [Map.insert_of_ne htoken] at hticket
      exact hown _ _ _ _ hticket hage hsome
  · intro token' userId n issuedAt hticket hage hsome
    exact hown _ _ _ _ (ticket_of_logout hticket).2 hage hsome
  · intro token userId n issuedAt hticket hage hsome
    show n = Function.update s.accounts _ _ userId
    change (db.users.find? userId).isSome at hsome
    rw [hfind] at hsome
    by_cases hid : userId = s.app.db.users.nextId
    · have hexpired := hheir hok token issuedAt (hid ▸ h.kept _ _ _ _ hticket hage)
      exact absurd hage (not_le.mpr hexpired)
    · rw [if_neg hid] at hsome
      rw [Function.update_of_ne hid]
      exact hown _ _ _ _ hticket hage hsome
  · intro token userId n issuedAt hticket hage hsome
    obtain ⟨haccounts, -, htickets⟩ := hfades.record
    have hlater := hfades.later
    rw [htickets] at hticket
    rw [haccounts]
    exact hown _ _ _ _ hticket (by omega) (hfades.users _ hsome)

/-- **An heir is let in** where it should not be. -/
theorem Sound.leavesNoHeir {e : SessionEvent} (h : s.Sound) (hstep : s.step verify e = some s')
    (hadmits : s'.AdmitsOwners) : s.LeavesNoHeir e := by
  cases e with
  | createUser payload hash =>
    intro hok token createdAt hsession
    rcases step_cases hstep with ⟨_, _, _, _, he, -⟩ | ⟨_, _, he, -⟩ |
      ⟨payload', hash', db, hashes, -, -, rfl, row, hrow, hfind⟩ | ⟨-, hfail⟩
    · cases he
    · cases he
    · by_contra hage
      obtain ⟨n, hticket⟩ := h.issued _ _ _ hsession
      obtain ⟨cookies, hcookies⟩ := h.held _ _ hticket
      have hin : UserRepo.getUserById s.app.db.users.nextId db = some row.toUserConfig := by
        rw [UserRepo.getUserById, hfind, if_pos rfl]
        rfl
      have howns := (hadmits [] cookies token row.toUserConfig hcookies).mp
        ((sessionMiddleware_ok hcookies).mpr
          ⟨_, createdAt, hsession, not_lt.mp hage, hin, hrow⟩)
      obtain ⟨ticket, hticket', -, -, haccount, -⟩ := howns
      obtain rfl := Option.some.inj (hticket.symm.trans hticket')
      change n = Function.update s.accounts _ _ _ at haccount
      rw [Function.update_self] at haccount
      have hle : n ≤ s.created := h.account _ _ hticket
      omega
    · rw [hfail payload hash rfl] at hok
      exact absurd hok Bool.false_ne_true
  | _ => trivial

/-- **Whose session it is**: in all states of a run the middleware lets in the owners of sessions
and nobody else, exactly if no new user has been given the id of a session that was still there. -/
theorem admitsOwners_iff (verify : String → String → Bool) (s₀ : AdminState)
    {es : List SessionEvent} {s : SessionHistory}
    (hfresh : Machine.Along (step verify) IssuesFresh (start s₀) es)
    (hrun : Machine.run (step verify) (start s₀) es = some s) :
    (∀ es' s₁, es' <+: es → Machine.run (step verify) (start s₀) es' = some s₁ → s₁.AdmitsOwners) ↔
      Machine.Along (step verify) LeavesNoHeir (start s₀) es :=
  Machine.property_iff_along (J := Sound) (I := Own)
    (fun _ _ _ hD hj hstep => hj.step hD hstep) (fun _ hj hi => hi.admitsOwners hj)
    (fun _ _ _ _ hC hj hi hstep => hi.step hj hC hstep)
    (fun _ _ _ _ hj _ hstep hP => hj.leavesNoHeir hstep hP) hrun hfresh (sound_start s₀)
    (own_start s₀)

/-! ### A user that comes into a session -/

/-- A server with one user, an administrator. -/
def sampleServer : AdminState where
  app := .startup (fun _ => none)
    { users := ⟨[⟨⟨1, "root", 10, 1, 0, 0, "default"⟩, ""⟩], by decide⟩ } 0
  sessionStore := Map.empty
  passwordHashes := Map.empty.insert 1 "secret"

/-- A hash function that leaves passwords as they are. -/
def sampleVerify (password hash : String) : Bool := password == hash

/-- A user logs in and is deleted, and another is created. -/
def sampleEvents : List SessionEvent :=
  [.createUser ⟨"bob", "hunter2", 1, "default", 0⟩ (.ok "hunter2"),
    .login "bob" "hunter2" "5f0c", .deleteUser 2,
    .createUser ⟨"carol", "12345", 10, "default", 0⟩ (.ok "12345")]

/-- The history of the events, or the beginning. -/
def sampleHistory (es : List SessionEvent) : SessionHistory :=
  (Machine.run (step sampleVerify) (start sampleServer) es).getD (start sampleServer)

theorem sampleHistory_run (es : List SessionEvent)
    (h : (Machine.run (step sampleVerify) (start sampleServer) es).isSome = true) :
    Machine.run (step sampleVerify) (start sampleServer) es = some (sampleHistory es) := by
  obtain ⟨s, hs⟩ := Option.isSome_iff_exists.mp h
  rw [sampleHistory, hs, Option.getD_some]

/-- The session of a user that was deleted lets in the one created next. -/
theorem not_admitsOwners :
    Machine.Along (step sampleVerify) IssuesFresh (start sampleServer) sampleEvents ∧
    ∃ s, Machine.run (step sampleVerify) (start sampleServer) sampleEvents = some s ∧
      (sessionMiddleware [] (some "chennix_session=5f0c") s.toAdminState).1 =
        .ok ⟨2, "carol", 10, 1, 0, 0, "default"⟩ ∧
      ¬s.AdmitsOwners := by
  have hcookies : extractSessionToken (some "chennix_session=5f0c") = some "5f0c" := by
    decide +kernel
  have hin : (sessionMiddleware [] (some "chennix_session=5f0c")
      (sampleHistory sampleEvents).toAdminState).1 =
        .ok ⟨2, "carol", 10, 1, 0, 0, "default"⟩ := by decide +kernel
  have hticket : (sampleHistory sampleEvents).tickets "5f0c" = some ⟨2, 1, 0, false⟩ := by
    decide +kernel
  have haccount : (sampleHistory sampleEvents).accounts 2 = 2 := by decide +kernel
  refine ⟨?_, _, sampleHistory_run _ (by decide +kernel), hin, fun hadmits => ?_⟩
  · refine ⟨trivial, fun s₁ h₁ => ⟨⟨?_, _, hcookies⟩, fun s₂ _ => ⟨trivial, fun s₃ _ =>
      ⟨trivial, fun _ _ => trivial⟩⟩⟩⟩
    obtain rfl := Option.some.inj h₁
    rfl
  · obtain ⟨ticket, htoken, -, -, hsame, -⟩ := (hadmits [] _ _ _ hcookies).mp hin
    obtain rfl := Option.some.inj (hticket.symm.trans htoken)
    exact absurd (hsame.trans haccount) (by decide)

/-- A user whose id nobody had before. -/
theorem admitsOwners_sample :
    ∃ s, Machine.run (step sampleVerify) (start sampleServer) (sampleEvents.take 2) = some s ∧
      s.AdmitsOwners := by
  have hcookies : extractSessionToken (some "chennix_session=5f0c") = some "5f0c" := by
    decide +kernel
  have hfresh : Machine.Along (step sampleVerify) IssuesFresh (start sampleServer)
      (sampleEvents.take 2) := by
    refine ⟨trivial, fun s₁ h₁ => ⟨⟨?_, _, hcookies⟩, fun _ _ => trivial⟩⟩
    obtain rfl := Option.some.inj h₁
    rfl
  have hrun := sampleHistory_run (sampleEvents.take 2) (by decide +kernel)
  refine ⟨_, hrun, (admitsOwners_iff sampleVerify sampleServer hfresh hrun).mpr ?_ _ _
    (List.prefix_refl _) hrun⟩
  refine ⟨fun _ token createdAt hsession => ?_, fun _ _ => ⟨trivial, fun _ _ => trivial⟩⟩
  cases hsession

end SessionHistory

end Chennix
