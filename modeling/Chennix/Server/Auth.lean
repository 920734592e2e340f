import Chennix.Foundations.Lines
import Chennix.Server.Accounts

/-!
# Sessions of the administration pages

A login creates a session under a token that the browser sends back as a cookie. The sessions live
in memory, beside the database: what happens to the users changes nothing about them. Sessions that
have expired are removed by the way, a bounded number with each request.

## Main definitions

* `SessionStore`, `SessionStore.sweep` — the sessions, and the removal of expired ones
* `AdminState` — the server with its sessions and the password hashes of its users
* `loginHandler`, `logoutHandler`, `sessionMiddleware` — the handlers of sessions
* `SessionEvent`, `AdminState.step` — with the handlers of users, everything that concerns sessions

## Main results

* `SessionStore.sweep_of_fresh`, `SessionStore.of_sweep` — a sweep removes what has expired only
-/

namespace Chennix

open Foundations Transaction

/-- The user and the time of creation of each session, by its token. -/
abbrev SessionStore : Type := Map String (ℤ × ℤ)

/-- In seconds. -/
def sessionMaxAgeSecs : ℤ := 86400

namespace SessionStore

/-- The session has expired. -/
def expired (now : ℤ) (store : SessionStore) (token : String) : Bool :=
  (store token).any fun session => now - session.2 > sessionMaxAgeSecs

/-- Remove up to 64 expired sessions, given the order in which the map gives out its entries. -/
def sweep (order : List String) (now : ℤ) (store : SessionStore) : SessionStore :=
  ((order.filter (store.expired now)).take 64).foldl (fun store token => store.erase token) store

variable {order : List String} {now : ℤ} {store : SessionStore} {token : String}

theorem foldl_erase_of_not_mem {tokens : List String} (h : token ∉ tokens) :
    tokens.foldl (fun store token => Map.erase token store) store token = store token := by
  induction tokens generalizing store with
  | nil => rfl
  | cons t tokens ih =>
    rw [List.foldl_cons, ih fun hmem => h (List.mem_cons_of_mem _ hmem)]
    exact Map.erase_of_ne (List.ne_of_not_mem_cons h) store

theorem of_foldl_erase {tokens : List String} {session : ℤ × ℤ}
    (h : tokens.foldl (fun store token => Map.erase token store) store token = some session) :
    store token = some session := by
  induction tokens generalizing store with
  | nil => exact h
  | cons t tokens ih => exact Map.of_erase (ih h)

/-- What a sweep leaves was there. -/
theorem of_sweep {session : ℤ × ℤ} (h : store.sweep order now token = some session) :
    store token = some session :=
  of_foldl_erase h

/-- A sweep leaves what has not expired. -/
theorem sweep_of_fresh {userId createdAt : ℤ} (h : store token = some (userId, createdAt))
    (hage : now - createdAt ≤ sessionMaxAgeSecs) :
    store.sweep order now token = some (userId, createdAt) := by
  rw [sweep, foldl_erase_of_not_mem, h]
  intro hmem
  have hexpired := (List.mem_filter.mp (List.mem_of_mem_take hmem)).2
  rw [expired, h] at hexpired
  have : now - createdAt > sessionMaxAgeSecs := of_decide_eq_true hexpired
  omega

end SessionStore

/-- The value of the session cookie: of the first such cookie that has one. -/
def extractSessionToken (cookies : Option String) : Option String :=
  cookies.bind fun s => (Text.split ';' s).findSome? fun pair =>
    (Text.stripPrefix "chennix_session=" (Text.trim pair)).bind fun val =>
      if (Text.trim val).isEmpty then none else some (Text.trim val)

/-- The server with its sessions. Of the password hashes, those of users that exist count: they are
kept in the rows. -/
structure AdminState where
  app : AppState
  sessionStore : SessionStore
  /-- By user. -/
  passwordHashes : Map ℤ String

namespace AdminState

/-- `current_timestamp`. -/
def currentTimestamp (s : AdminState) : ℤ := Calendar.Instant.seconds s.app.now

/-- `get_password_hash`. -/
def getPasswordHash (username : String) (s : AdminState) : Option String :=
  (UserRepo.getUserByUsername username s.app.db).bind fun user => s.passwordHashes user.id

/-- Run a handler. The state is left alone where it fails. -/
def perform {α : Type} (body : AdminM α) (s : AdminState) : AdminResult α × AdminState :=
  match keepingCache body s.app with
  | .ok (a, app) => (.ok a, { s with app := app })
  | .error e => (.error e, s)

end AdminState

section Handlers

variable (verify : String → String → Bool)

/-- `verify` is the comparison of a password with a hash, `token` the new identifier. -/
def loginHandler (username password token : String) (s : AdminState) :
    AdminResult UserConfig × AdminState :=
  match UserRepo.getUserByUsername username s.app.db with
  | none => (.error (.unauthorized "invalid credentials"), s)
  | some user =>
    if user.status ≠ 1 then (.error (.unauthorized "account is disabled"), s)
    else
      match s.getPasswordHash username with
      | none => (.error (.internal "password hash missing"), s)
      | some hash =>
        if verify password hash then
          (.ok user, { s with
            sessionStore := s.sessionStore.insert token (user.id, s.currentTimestamp) })
        else (.error (.unauthorized "invalid credentials"), s)

def logoutHandler (cookies : Option String) (s : AdminState) : AdminState :=
  match extractSessionToken cookies with
  | some token => { s with sessionStore := s.sessionStore.erase token }
  | none => s

/-- The user of a session, or the message of the refusal. -/
def sessionUser (userId : ℤ) (s : AdminState) : Except String UserConfig :=
  match UserRepo.getUserById userId s.app.db with
  | some user => if user.status = 1 then .ok user else .error "account is disabled"
  | none => .error "user not found"

/-- `session_middleware`: the user that is injected, or the message of the refusal. -/
def sessionMiddleware (order : List String) (cookies : Option String) (s : AdminState) :
    Except String UserConfig × AdminState :=
  let now := s.currentTimestamp
  match extractSessionToken cookies with
  | none => (.error "not authenticated", s)
  | some token =>
    match (s.sessionStore token).filter fun session => now - session.2 ≤ sessionMaxAgeSecs with
    | some session =>
      (sessionUser session.1 s, { s with sessionStore := s.sessionStore.sweep order now })
    | none =>
      (.error "invalid or expired session", { s with
        sessionStore := SessionStore.sweep order now (s.sessionStore.erase token) })

/-- `create_user_handler`, which also writes the hash. -/
def createUserWithHash (payload : CreateUserRequest) (hash : Except String String)
    (s : AdminState) : AdminResult ℤ × AdminState :=
  match s.perform (createUserHandler s.app.now payload hash) with
  | (.ok id, s') =>
    (.ok id, { s' with
      passwordHashes := match hash with
        | .ok h => s'.passwordHashes.insert id h
        | .error _ => s'.passwordHashes })
  | (.error e, s') => (.error e, s')

end Handlers

/-- What happens around sessions. -/
inductive SessionEvent
  | login (username password token : String)
  | logout (cookies : Option String)
  /-- A request to a page that asks for a session. -/
  | request (order : List String) (cookies : Option String)
  | createUser (payload : CreateUserRequest) (hash : Except String String)
  | updateUser (id : ℤ) (payload : UpdateUserRequest)
  | deleteUser (id : ℤ)
  /-- Time goes by, in nanoseconds. -/
  | elapse (duration : ℕ)

/-- The state after an event. -/
def AdminState.step (verify : String → String → Bool) (s : AdminState) : SessionEvent → AdminState
  | .login username password token => (loginHandler verify username password token s).2
  | .logout cookies => logoutHandler cookies s
  | .request order cookies => (sessionMiddleware order cookies s).2
  | .createUser payload hash => (createUserWithHash payload hash s).2
  | .updateUser id payload => (s.perform (updateUserHandler s.app.now id payload)).2
  | .deleteUser id => (s.perform (deleteUserHandler id)).2
  | .elapse duration => { s with app := { s.app with now := s.app.now + duration } }

end Chennix
