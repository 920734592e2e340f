import Chennix.Foundations.Text
import Chennix.Storage.Channels

/-!
# Statements on accounts

The repositories of the users and of their tokens, as the management pages use them. A usage log
forbids the deletion of the accounts it refers to.

## Main definitions

* `UserRepo` — the statements on `users`
* `TokenRepo` — the statements on `tokens`
-/

namespace Chennix

open Foundations

namespace UserConfig

def isAdmin (u : UserConfig) : Bool := u.role ≥ 10

end UserConfig

namespace UserRow

/-- The row with its configurable columns replaced. What is used of the quota stays. -/
def configured (now username : String) (role status : ℤ) (group : String) (quota : ℤ)
    (r : UserRow) : UserRow :=
  { r with
    username := username
    role := role
    status := status
    group := group
    quota := quota
    updatedAt := now }

theorem key_configured (now username : String) (role status : ℤ) (group : String) (quota : ℤ)
    (r : UserRow) : key (r.configured now username role status group quota) = key r := rfl

end UserRow

namespace UserRepo

def getUserById (id : ℤ) (db : Db) : Option UserConfig :=
  (db.users.find? id).map UserRow.toUserConfig

def getUserByUsername (username : String) (db : Db) : Option UserConfig :=
  (db.users.rows.find? fun u => u.username == username).map UserRow.toUserConfig

/-- A new user is enabled, and nothing of the quota is used. The password hash is kept elsewhere. -/
def createUserWithQuota (now username : String) (role : ℤ) (group : String) (quota : ℤ) :
    Stmt ℤ := fun db =>
  if db.users.rows.any (fun u => u.username == username) then
    .error (uniqueFailed "users.username")
  else .ok (db.users.nextId, { db with
    users := db.users.insertNew (fun id => ⟨⟨id, username, role, 1, quota, 0, group⟩, now⟩)
      fun _ => rfl })

def updateUser (now : String) (id : ℤ) (username : String) (role status : ℤ) (group : String)
    (quota : ℤ) : Stmt Unit := fun db =>
  if db.users.rows.any (fun u => u.id == id) &&
      db.users.rows.any (fun u => u.id != id && u.username == username) then
    .error (uniqueFailed "users.username")
  else .ok ((), { db with
    users := db.users.update (fun u => u.id == id)
      (UserRow.configured now username role status group quota)
      (UserRow.key_configured now username role status group quota) })

/-- A usage log refers to the user, or to a token that would go with it. -/
def logged (id : ℤ) (db : Db) : Bool :=
  db.usageLogs.rows.any fun l => l.userId == some id ||
    db.tokens.rows.any fun t => t.userId == id && l.tokenId == some t.id

/-- The tokens of the user go with it. -/
def deleteUser (id : ℤ) : Stmt Unit := fun db =>
  if db.users.rows.all fun u => u.id != id then .ok ((), db)
  else if logged id db then .error foreignKeyFailed
  else .ok ((), { db with
    users := db.users.delete fun u => u.id == id
    tokens := db.tokens.delete fun t => t.userId == id })

end UserRepo

/-- What a management page sets of a token. -/
structure TokenSettings where
  name : String
  remainQuota : ℤ
  unlimitedQuota : Bool
  expiredTime : ℤ
  modelLimits : String
  modelLimitsEnabled : Bool
  allowIps : String

/-- Nothing, where the text is empty. -/
def nonEmpty (s : String) : Option String := if s.isEmpty then none else some s

namespace TokenRow

/-- The IP addresses of a list that commas separate. -/
def readAllowIps (s : String) : List String :=
  ((Text.split ',' s).map Text.trim).filter fun ip => !ip.isEmpty

/-- The row with its configurable columns replaced, as it is read back: `readLimits` is the parser
of JSON arrays of strings, and what it cannot read counts as no model. -/
def configured (readLimits : String → Option (List String)) (now : String) (s : TokenSettings)
    (status : ℤ) (r : TokenRow) : TokenRow :=
  { r with
    name := nonEmpty s.name
    remainQuota := s.remainQuota
    unlimitedQuota := s.unlimitedQuota
    expiredTime := s.expiredTime
    modelLimits := (nonEmpty s.modelLimits).map fun limits => (readLimits limits).getD []
    modelLimitsEnabled := s.modelLimitsEnabled
    allowIps := (nonEmpty s.allowIps).map readAllowIps
    status := status
    updatedAt := now }

theorem key_configured (readLimits : String → Option (List String)) (now : String)
    (s : TokenSettings) (status : ℤ) (r : TokenRow) :
    key (r.configured readLimits now s status) = key r := rfl

/-- The row of a token that is new. -/
def fresh (id userId : ℤ) (tokenKey now : String) : TokenRow where
  id := id
  userId := userId
  key := tokenKey
  name := none
  remainQuota := 0
  usedQuota := 0
  unlimitedQuota := false
  expiredTime := -1
  modelLimitsEnabled := false
  modelLimits := none
  status := 1
  allowIps := none
  updatedAt := now

end TokenRow

namespace TokenRepo

variable (readLimits : String → Option (List String))

def getTokenById (id : ℤ) (db : Db) : Option TokenConfig :=
  (db.tokens.find? id).map TokenRow.toTokenConfig

/-- The tokens of a user, or all of them, by id. -/
def listTokens (userId : Option ℤ) (db : Db) : List TokenConfig :=
  ((db.tokens.rows.filter fun t => userId.all fun id => t.userId == id).map
    TokenRow.toTokenConfig).insertionSort fun t t' => t.id ≤ t'.id

/-- A new token is enabled, and nothing of its quota is used. -/
def createTokenFull (now : String) (userId : ℤ) (tokenKey : String) (s : TokenSettings) :
    Stmt ℤ := fun db =>
  if db.tokens.rows.any (fun t => t.key == tokenKey) then .error (uniqueFailed "tokens.key")
  else if (db.users.find? userId).isNone then .error foreignKeyFailed
  else .ok (db.tokens.nextId, { db with
    tokens := db.tokens.insertNew
      (fun id => (TokenRow.fresh id userId tokenKey now).configured readLimits now s 1)
      fun _ => rfl })

def updateToken (now : String) (id : ℤ) (s : TokenSettings) (status : ℤ) : Stmt Unit := fun db =>
  .ok ((), { db with
    tokens := db.tokens.update (fun t => t.id == id)
      (TokenRow.configured readLimits now s status)
      (TokenRow.key_configured readLimits now s status) })

/-- A usage log forbids the deletion. -/
def deleteTokenById (id : ℤ) : Stmt Unit := fun db =>
  if db.tokens.rows.any (fun t => t.id == id) &&
      db.usageLogs.rows.any (fun l => l.tokenId == some id) then .error foreignKeyFailed
  else .ok ((), { db with tokens := db.tokens.delete fun t => t.id == id })

end TokenRepo

end Chennix
