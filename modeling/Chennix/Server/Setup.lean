import Chennix.Core.Pricing
import Chennix.Server.Auth

/-!
# Passwords and the first administrator

A server without users has nobody who could administer it. The first administrator comes from the
environment when the server starts, or from the setup page, which anybody may use as long as there
is no user. Later on administrators set the passwords of others, and everybody the own one.

## Main definitions

* `setupInitializeHandler` — the setup page
* `ensureDefaultAdmin` — the administrator from the environment
* `updatePasswordHandler`, `updateMyPasswordHandler` — new passwords
-/

namespace Chennix

open Foundations Transaction

/-- What the first administrator may spend. -/
def firstQuota : ℤ := 999999999 * quotaPerYuan.toInt

namespace UserRepo

def countUsers (db : Db) : ℕ := db.users.rows.length

/-- The row with a new time of update. -/
def touched (now : String) (r : UserRow) : UserRow := { r with updatedAt := now }

end UserRepo

namespace AdminState

/-- `update_password`: the hash of a user that there is. -/
def updatePassword (id : ℤ) (hash : String) (s : AdminState) : AdminState :=
  { s with
    app := { s.app with db := { s.app.db with
      users := s.app.db.users.update (fun u => u.id == id)
        (UserRepo.touched (nowIso8601 s.app.now)) fun _ => rfl } }
    passwordHashes := if (s.app.db.users.find? id).isSome then s.passwordHashes.insert id hash
      else s.passwordHashes }

end AdminState

/-- `setup_status_handler` -/
def setupStatusHandler (s : AdminState) : Bool := UserRepo.countUsers s.app.db == 0

/-- `setup_initialize_handler`. The length of a password is counted in bytes. -/
def setupInitializeHandler (username password : String) (hash : Except String String)
    (s : AdminState) : AdminResult ℤ × AdminState :=
  if (Text.trim username).isEmpty then (.error (.badRequest "用户名不能为空"), s)
  else if password.utf8ByteSize < 8 then (.error (.badRequest "密码长度至少 8 位"), s)
  else if UserRepo.countUsers s.app.db > 0 then
    (.error (.badRequest "系统已初始化，请直接登录"), s)
  else createUserWithHash ⟨Text.trim username, password, 100, "default", firstQuota⟩ hash s

/-- `ensure_default_admin`, given the password in the environment. -/
def ensureDefaultAdmin (adminPassword : Option String) (hash : String → Except String String)
    (s : AdminState) : ProxyResult AdminState :=
  if UserRepo.countUsers s.app.db = 0 then
    match adminPassword.filter fun p => !p.isEmpty with
    | none => .ok s
    | some password =>
      match hash password with
      | .error e => .error (.config ("bcrypt hash failed: " ++ e))
      | .ok h =>
        match UserRepo.createUserWithQuota (nowIso8601 s.app.now) "admin" 100 "default" firstQuota
          s.app.db with
        | .error e => .error e
        | .ok (id, db) => .ok { s with
            app := { s.app with db := db }
            passwordHashes := s.passwordHashes.insert id h }
  else .ok s

/-- `update_password_handler` -/
def updatePasswordHandler (id : ℤ) (hash : Except String String) (s : AdminState) :
    AdminResult Unit × AdminState :=
  match hash with
  | .error e => (.error (.internal ("bcrypt hash failed: " ++ e)), s)
  | .ok h => (.ok (), s.updatePassword id h)

/-- `update_my_password_handler`, given the hash of the new password. -/
def updateMyPasswordHandler (verify : String → String → Bool) (user : UserConfig)
    (oldPassword : String) (hash : Except String String) (s : AdminState) :
    AdminResult Unit × AdminState :=
  match s.getPasswordHash user.username with
  | none => (.error (.internal "password hash missing"), s)
  | some old =>
    if verify oldPassword old then
      match hash with
      | .error e => (.error (.internal ("bcrypt hash failed: " ++ e)), s)
      | .ok h => (.ok (), s.updatePassword user.id h)
    else (.error (.badRequest "old password is incorrect"), s)

end Chennix
