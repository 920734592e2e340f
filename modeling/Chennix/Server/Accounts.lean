import Chennix.Server.Administration
import Chennix.Storage.Accounts

/-!
# Accounts

The handlers of users and tokens. Users are managed by administrators; everyone else manages the
tokens of their own. With them, all that writes these tables is there: `ServerStep` puts imports,
events of the server, the handlers of accounts, what a connection test charges and the reset of the
counters of keys into one machine. Rows of the request log are written by requests and by connection
tests, which are programs of their own.

## Main definitions

* `AccountCall`, `AccountCall.body`, `AccountCall.Wrote` — the handlers, with their payloads
* `ServerStep`, `ServerStep.step` — what writes the database

## Main results

* `AccountCall.wrote` — how a handler changes the database
-/

namespace Chennix

open Foundations Transaction AdminM

/-! ### Users -/

structure CreateUserRequest where
  username : String
  password : String
  role : ℤ
  group : String
  quota : ℤ

structure UpdateUserRequest where
  username : String
  role : ℤ
  status : ℤ
  group : String
  quota : ℤ

variable (now : Calendar.Instant)

/-- `hash` is what the hash function makes of the password. -/
def createUserHandler (payload : CreateUserRequest) (hash : Except String String) : AdminM ℤ :=
  match hash with
  | .error e => throw (.internal ("bcrypt hash failed: " ++ e))
  | .ok _ => UserRepo.createUserWithQuota (nowIso8601 now) payload.username payload.role
      payload.group payload.quota

def updateUserHandler (id : ℤ) (payload : UpdateUserRequest) : AdminM Unit :=
  UserRepo.updateUser (nowIso8601 now) id payload.username payload.role payload.status payload.group
    payload.quota

def deleteUserHandler (id : ℤ) : AdminM Unit := UserRepo.deleteUser id

/-! ### Tokens -/

structure CreateTokenRequest extends TokenSettings where
  userId : ℤ := 0
  key : Option String

structure UpdateTokenRequest extends TokenSettings where
  status : ℤ

/-- The user a new token is for: administrators may name another. -/
def tokenOwner (user : UserConfig) (queryUserId : Option ℤ) (payload : CreateTokenRequest) : ℤ :=
  match queryUserId with
  | some id => if user.isAdmin then id else user.id
  | none => if payload.userId != 0 && user.isAdmin then payload.userId else user.id

/-- A key that is made up: the first 16 digits of an identifier. -/
def generatedKey (uuid : String) : String :=
  "sk-chennix-" ++ .ofList ((uuid.toList.filter fun c => c != '-').take 16)

/-- The token must be there and be the user's own, unless the user is an administrator. -/
def ownToken (user : UserConfig) (id : ℤ) (missing foreign : String) : AdminM Unit := do
  if user.isAdmin then return ()
  let token ← orElse (.notFound missing) (TokenRepo.getTokenById id (← get))
  refuseIf (token.userId ≠ user.id) (.forbidden foreign)

/-- Where the check succeeds, nothing has changed, and the token is the user's unless the user is an
administrator. -/
theorem ownToken_ok {user : UserConfig} {id : ℤ} {missing foreign : String} {db : Db}
    {r : Unit × Db} (h : ownToken user id missing foreign db = .ok r) :
    r = ((), db) ∧ (user.isAdmin = false →
      ∃ t, TokenRepo.getTokenById id db = some t ∧ t.userId = user.id) := by
  rw [ownToken] at h
  by_cases hadmin : user.isAdmin = true
  · rw [if_pos hadmin] at h
    exact ⟨pure_ok.mp h, fun hno => absurd hadmin (by rw [hno]; exact Bool.false_ne_true)⟩
  · rw [if_neg hadmin] at h
    simp only [bind_ok, get_ok, orElse_ok, refuseIf_ok] at h
    obtain ⟨_, _, hget, t, _, ⟨_, ht, hfound⟩, hown, rfl⟩ := h
    cases hget
    cases hfound
    exact ⟨rfl, fun _ => ⟨t, ht, not_not.mp hown⟩⟩

variable (readLimits : String → Option (List String)) (user : UserConfig)

def createTokenHandler (queryUserId : Option ℤ) (payload : CreateTokenRequest) (uuid : String) :
    AdminM ℤ :=
  TokenRepo.createTokenFull readLimits (nowIso8601 now) (tokenOwner user queryUserId payload)
    (payload.key.getD (generatedKey uuid)) payload.toTokenSettings

def updateTokenHandler (id : ℤ) (payload : UpdateTokenRequest) : AdminM Unit := do
  ownToken user id s!"token {id} not found" "you can only modify your own tokens"
  TokenRepo.updateToken readLimits (nowIso8601 now) id payload.toTokenSettings payload.status

def deleteTokenHandler (id : ℤ) : AdminM Unit := do
  ownToken user id s!"token {id} not found" "you can only delete your own tokens"
  TokenRepo.deleteTokenById id

/-! ### All writers of the database -/

/-- The handlers of accounts that write. -/
inductive AccountCall
  | createUser (payload : CreateUserRequest) (hash : Except String String)
  | updateUser (id : ℤ) (payload : UpdateUserRequest)
  | deleteUser (id : ℤ)
  | createToken (user : UserConfig) (queryUserId : Option ℤ) (payload : CreateTokenRequest)
      (uuid : String)
  | updateToken (user : UserConfig) (id : ℤ) (payload : UpdateTokenRequest)
  | deleteToken (user : UserConfig) (id : ℤ)

/-- What each of them does, but for its reply. -/
def AccountCall.body : AccountCall → AdminM Unit
  | createUser payload hash => do let _ ← createUserHandler now payload hash
  | updateUser id payload => updateUserHandler now id payload
  | deleteUser id => deleteUserHandler id
  | createToken user queryUserId payload uuid => do
    let _ ← createTokenHandler now readLimits user queryUserId payload uuid
  | updateToken user id payload => updateTokenHandler now readLimits user id payload
  | deleteToken user id => deleteTokenHandler user id

/-- What each of them writes where it succeeds. A deletion says what it has found free. -/
def AccountCall.Wrote (db db' : Db) : AccountCall → Prop
  | createUser _ _ => ∃ row hrow, db' = { db with users := db.users.insertNew row hrow }
  | updateUser _ _ => ∃ p f hf, (∀ r : UserRow, (f r).usedQuota = r.usedQuota) ∧
      db' = { db with users := db.users.update p f hf }
  | deleteUser id => db' = db ∨ UserRepo.logged id db = false ∧ db' = { db with
      users := db.users.delete fun u => u.id == id
      tokens := db.tokens.delete fun t => t.userId == id }
  | createToken _ _ _ _ => ∃ row hrow, db' = { db with tokens := db.tokens.insertNew row hrow }
  | updateToken _ id _ => ∃ f hf, (∀ r : TokenRow, (f r).userId = r.userId) ∧
      db' = { db with tokens := db.tokens.update (fun t => t.id == id) f hf }
  | deleteToken _ id =>
      ((db.tokens.rows.any fun t => t.id == id) = true →
        (db.usageLogs.rows.any fun l => l.tokenId == some id) = false) ∧
      db' = { db with tokens := db.tokens.delete fun t => t.id == id }

/-- **What handlers of accounts write**, one by one. -/
theorem AccountCall.wrote {db db' : Db} {now : Calendar.Instant}
    {readLimits : String → Option (List String)} {call : AccountCall}
    (hbody : call.body now readLimits db = .ok ((), db')) : call.Wrote db db' := by
  cases call with
  | createUser payload hash =>
    obtain ⟨id, db₁, hcreate, hr⟩ := bind_ok.mp hbody
    cases pure_ok.mp hr
    cases hash with
    | error e => cases hcreate
    | ok hash =>
      have hstmt := AdminM.lift_ok.mp hcreate
      rw [UserRepo.createUserWithQuota] at hstmt
      split at hstmt <;> cases hstmt
      exact ⟨_, _, rfl⟩
  | updateUser id payload =>
    have hstmt := AdminM.lift_ok.mp hbody
    rw [UserRepo.updateUser] at hstmt
    split at hstmt <;> cases hstmt
    exact ⟨_, UserRow.configured (nowIso8601 now) payload.username payload.role payload.status
      payload.group payload.quota, _, fun _ => rfl, rfl⟩
  | deleteUser id =>
    have hstmt := AdminM.lift_ok.mp hbody
    rw [UserRepo.deleteUser] at hstmt
    split at hstmt
    · cases hstmt
      exact .inl rfl
    · split at hstmt
      · cases hstmt
      · rename_i hfree
        cases hstmt
        exact .inr ⟨Bool.eq_false_iff.mpr hfree, rfl⟩
  | createToken caller queryUserId payload uuid =>
    obtain ⟨id, db₁, hcreate, hr⟩ := bind_ok.mp hbody
    cases pure_ok.mp hr
    have hstmt := AdminM.lift_ok.mp hcreate
    rw [TokenRepo.createTokenFull] at hstmt
    split at hstmt
    · cases hstmt
    · split at hstmt <;> cases hstmt
      exact ⟨_, _, rfl⟩
  | updateToken caller id payload =>
    obtain ⟨_, db₁, hown, hupdate⟩ := bind_ok.mp hbody
    obtain ⟨hsame, _⟩ := ownToken_ok hown
    cases hsame
    cases AdminM.lift_ok.mp hupdate
    exact ⟨TokenRow.configured readLimits (nowIso8601 now) payload.toTokenSettings payload.status,
      _, fun _ => rfl, rfl⟩
  | deleteToken caller id =>
    obtain ⟨_, db₁, hown, hdelete⟩ := bind_ok.mp hbody
    obtain ⟨hsame, _⟩ := ownToken_ok hown
    cases hsame
    have hstmt := AdminM.lift_ok.mp hdelete
    rw [TokenRepo.deleteTokenById] at hstmt
    split at hstmt
    · cases hstmt
    · rename_i hfree
      cases hstmt
      refine ⟨fun hany => ?_, rfl⟩
      simpa [hany] using hfree

namespace AppState

/-- The state a handler of accounts leaves: one that fails leaves the one it found. None of them
touches the cache. -/
def manage (readLimits : String → Option (List String)) (call : AccountCall) (s : AppState) :
    AppState :=
  match keepingCache (call.body s.now readLimits) s with
  | .ok (_, s') => s'
  | .error _ => s

end AppState

/-- `used_quota = used_quota + delta`, whatever is left of the quota. -/
def UserRepo.updateUsedQuotaDelta (now : String) (id delta : ℤ) : Stmt Unit := fun db =>
  .ok ((), db.addUserUsed now id delta fun _ => true)

/-- `reset_daily_quota` and `reset_monthly_quota` -/
def KeyRepo.resetQuotaOfPeriod (period : String) (db : Db) : Db :=
  { db with
    channelKeys := db.channelKeys.update (fun k => k.quotaResetPeriod == some period)
      (fun k => { k with usedQuota := 0 }) fun _ => rfl }

/-- What writes the database. -/
inductive ServerStep
  | importFile (config : BootstrapConfig)
  | event (e : Event)
  | account (call : AccountCall)
  /-- A connection test charges the administrator. -/
  | testCharge (adminUserId cost : ℤ)
  /-- The counters of the keys with a period are set back. -/
  | resetKeyQuotas (period : String)

/-- The functions of other libraries, with the parser of model limits. -/
structure ServerLibraries extends Libraries where
  /-- A JSON array of strings. -/
  readLimits : String → Option (List String)

namespace ServerStep

def step (lib : ServerLibraries) (s : AppState) : ServerStep → Option AppState
  | importFile config => some (s.query (importConfig config)).2
  | event e => s.step lib.toLibraries e
  | account call => some (s.manage lib.readLimits call)
  | testCharge adminUserId cost =>
    some (s.query (UserRepo.updateUsedQuotaDelta (nowIso8601 s.now) adminUserId cost)).2
  | resetKeyQuotas period => some { s with db := KeyRepo.resetQuotaOfPeriod period s.db }

variable {lib : ServerLibraries} {s s' : AppState}

theorem manage_cases (readLimits : String → Option (List String)) (call : AccountCall) :
    (s.manage readLimits call).db = s.db ∨
      call.body s.now readLimits s.db = .ok ((), (s.manage readLimits call).db) := by
  rw [AppState.manage]
  cases h : keepingCache (call.body s.now readLimits) s with
  | error e => exact .inl rfl
  | ok r =>
    obtain ⟨_, s'⟩ := r
    obtain ⟨db, hbody, rfl⟩ := keepingCache_ok.mp h
    exact .inr hbody

theorem query_cases {α : Type} (stmt : Stmt α) :
    (s.query stmt).2.db = s.db ∨ ∃ a, stmt s.db = .ok (a, (s.query stmt).2.db) := by
  rw [AppState.query]
  cases h : stmt s.db with
  | error e => exact .inl rfl
  | ok r => exact .inr ⟨r.1, rfl⟩

end ServerStep

end Chennix
