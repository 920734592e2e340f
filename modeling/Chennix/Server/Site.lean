import Chennix.Server.Middleware
import Chennix.Server.Service
import Chennix.Server.Setup

/-!
# The site

The server as it is reached over the network: the gateway behind its tokens, the pages of users and
administrators behind sessions, the login and the setup page, which are open. The recovery loop
comes round, counters of keys are set back, and time passes.

The pages that only read stand here for the check of their caller alone. A test of a connection is
a page too, but one that takes its time.

## Main definitions

* `Page`, `AdminPage` — the pages, with what is sent to them
* `Site` — the server with its sessions and password hashes
* `Site.caller` — whom a page is served to
* `Site.step` — everything that happens

## Main results

* `Site.step_cases` — the inversion of a step
-/

namespace Chennix

open Foundations

/-- The pages that ask for an administrator. -/
inductive AdminPage
  | createUser (payload : CreateUserRequest) (hash : Except String String)
  | updateUser (id : ℤ) (payload : UpdateUserRequest)
  | deleteUser (id : ℤ)
  | updatePassword (id : ℤ) (hash : Except String String)
  | config (call : AdminCall) (chance : Chance)
  /-- Lists. -/
  | other

/-- The pages that ask for a session. -/
inductive Page
  | logout
  | updateMyPassword (oldPassword : String) (hash : Except String String)
  | createToken (queryUserId : Option ℤ) (payload : CreateTokenRequest) (uuid : String)
  | updateToken (id : ℤ) (payload : UpdateTokenRequest)
  | deleteToken (id : ℤ)
  /-- The dashboard, and the lists of tokens, usage and logs. -/
  | read
  | admin (page : AdminPage)

/-- The server with its sessions and password hashes. -/
structure Site where
  service : Service
  sessionStore : SessionStore
  /-- By user. -/
  passwordHashes : Map ℤ String

namespace Site

/-- The part that the pages work on. -/
def administration (s : Site) : AdminState := ⟨s.service.app, s.sessionStore, s.passwordHashes⟩

def setAdministration (s : Site) (a : AdminState) : Site :=
  ⟨{ s.service with app := a.app }, a.sessionStore, a.passwordHashes⟩

def setService (s : Site) (service : Service) : Site := { s with service := service }

@[simp] theorem administration_setAdministration (s : Site) (a : AdminState) :
    (s.setAdministration a).administration = a := rfl

@[simp] theorem requests_setAdministration (s : Site) (a : AdminState) :
    (s.setAdministration a).service.requests = s.service.requests := rfl

end Site

/-- What happens. -/
inductive Site.Label
  /-- `POST /v1/chat/completions` or `/v1/messages` -/
  | proxy (headers : Headers) (entryFormat : EntryFormat) (body : Json) (requestId : String)
      (elapsedMs : ℤ) (client : Receiver)
  /-- A request of the gateway makes its next call. -/
  | call (i : ℕ) (chance : Chance) (reply : (q : ExecReq) → q.Resp)
  /-- A request for a page, with the order in which the map of sessions gives out its entries. -/
  | page (order : List String) (cookie : Option String) (page : Page)
  /-- A request for a page that tests a connection, with the identifier that the test draws. -/
  | test (order : List String) (cookie : Option String) (requestId : String) (test : ConnectionTest)
  /-- A test makes its next call. -/
  | testCall (i : ℕ) (chance : Chance) (reply : (q : TestReq) → q.Resp)
  /-- `POST /admin/api/auth/login`, with the new identifier -/
  | login (username password token : String)
  /-- `POST /admin/api/setup/initialize`, with the hash of the password -/
  | setup (username password : String) (hash : Except String String)
  /-- The background loop comes round. -/
  | recover
  /-- The counters of the keys with a period are set back. -/
  | resetKeyQuotas (period : String)
  /-- Time passes, in nanoseconds. -/
  | elapse (duration : ℕ)

section Pages

variable (lib : ServerLibraries) (verify : String → String → Bool)

/-- An administrator's page, behind the check of the role. -/
def AdminPage.serve (s : AdminState) : AdminPage → AdminState
  | createUser payload hash => (createUserWithHash payload hash s).2
  | updateUser id payload => (s.perform (updateUserHandler s.app.now id payload)).2
  | deleteUser id => (s.perform (deleteUserHandler id)).2
  | updatePassword id hash => (updatePasswordHandler id hash s).2
  | config call chance => { s with app := s.app.administer lib.toLibraries call chance }
  | other => s

/-- A page, behind the session middleware. -/
def Page.serve (cookie : Option String) (user : UserConfig) (s : AdminState) : Page → AdminState
  | logout => logoutHandler cookie s
  | updateMyPassword oldPassword hash =>
    (updateMyPasswordHandler verify user oldPassword hash s).2
  | createToken queryUserId payload uuid => (s.perform
      (createTokenHandler s.app.now lib.readLimits user queryUserId payload uuid)).2
  | updateToken id payload =>
    (s.perform (updateTokenHandler s.app.now lib.readLimits user id payload)).2
  | deleteToken id => (s.perform (deleteTokenHandler user id)).2
  | read => s
  | admin page =>
    match requireRole 10 user with
    | .ok () => page.serve lib s
    | .error _ => s

namespace Site

variable (executor : Executor)

/-- Whom a page is served to, and the state after the session has been looked up. -/
def caller (order : List String) (cookie : Option String) (s : Site) :
    Except Refusal UserConfig × AdminState :=
  let (user, a) := sessionMiddleware order cookie s.administration
  (user.mapError (Refusal.mk 401), a)

/-- One step. -/
def step (s : Site) : Label → Option Site
  | .proxy headers entryFormat body requestId elapsedMs client =>
    match tokenAuthMiddleware headers s.service.app with
    | .error _ => some s
    | .ok auth =>
      (s.service.step lib executor (.arrive
        ⟨auth, entryFormat, body, requestId, elapsedMs, client⟩)).map s.setService
  | .call i chance reply => (s.service.step lib executor (.call i chance reply)).map s.setService
  | .page order cookie page =>
    match s.caller order cookie with
    | (.error _, a) => some (s.setAdministration a)
    | (.ok user, a) => some (s.setAdministration (page.serve lib verify cookie user a))
  | .test order cookie requestId test =>
    let (user, a) := s.caller order cookie
    let s := s.setAdministration a
    match user.bind fun user => (requireRole 10 user).map fun _ => user.id with
    | .error _ => some s
    | .ok userId =>
      (s.service.step lib executor (.test ⟨userId, requestId, test⟩)).map s.setService
  | .testCall i chance reply =>
    (s.service.step lib executor (.testCall i chance reply)).map s.setService
  | .login username password token =>
    some (s.setAdministration (loginHandler verify username password token s.administration).2)
  | .setup username password hash =>
    some (s.setAdministration (setupInitializeHandler username password hash s.administration).2)
  | .recover => some { s with service.app := s.service.app.checkRecoveries }
  | .resetKeyQuotas period =>
    some { s with service.app.db := KeyRepo.resetQuotaOfPeriod period s.service.app.db }
  | .elapse duration => some { s with service.app.now := s.service.app.now + duration }

variable {lib verify executor} {s s' : Site} {l : Label}

/-- **A step**: a request is let into the gateway, a request makes its next call, or something
happens beside them. -/
theorem step_cases (h : step lib verify executor s l = some s') :
    (∃ headers entryFormat body requestId elapsedMs client auth,
      l = .proxy headers entryFormat body requestId elapsedMs client ∧
      tokenAuthMiddleware headers s.service.app = .ok auth ∧
      s.service.step lib executor (.arrive ⟨auth, entryFormat, body, requestId, elapsedMs,
        client⟩) = some s'.service) ∨
    (∃ i chance reply, l = .call i chance reply ∧
      s.service.step lib executor (.call i chance reply) = some s'.service) ∨
    s'.service.requests = s.service.requests := by
  cases l with
  | proxy headers entryFormat body requestId elapsedMs client =>
    rw [step] at h
    cases hauth : tokenAuthMiddleware headers s.service.app with
    | error e =>
      rw [hauth] at h
      cases h
      exact .inr (.inr rfl)
    | ok auth =>
      rw [hauth] at h
      obtain ⟨service, hstep, rfl⟩ := Option.map_eq_some_iff.mp h
      exact .inl ⟨_, _, _, _, _, _, auth, rfl, hauth, hstep⟩
  | call i chance reply =>
    obtain ⟨service, hstep, rfl⟩ := Option.map_eq_some_iff.mp h
    exact .inr (.inl ⟨i, chance, reply, rfl, hstep⟩)
  | page order cookie page =>
    rw [step] at h
    split at h <;> (rw [← Option.some.inj h]; exact .inr (.inr (requests_setAdministration ..)))
  | test order cookie requestId test =>
    rw [step] at h
    dsimp only at h
    split at h
    · rw [← Option.some.inj h]
      exact .inr (.inr (requests_setAdministration ..))
    · rw [← Option.some.inj h]
      exact .inr (.inr (requests_setAdministration s (s.caller order cookie).2))
  | testCall i chance reply =>
    obtain ⟨service, hservice, rfl⟩ := Option.map_eq_some_iff.mp h
    exact .inr (.inr (Service.requests_testCall hservice))
  | login | setup =>
    rw [step] at h
    rw [← Option.some.inj h]
    exact .inr (.inr (requests_setAdministration ..))
  | recover | resetKeyQuotas | elapse =>
    cases h
    exact .inr (.inr rfl)

end Site

end Pages

end Chennix
