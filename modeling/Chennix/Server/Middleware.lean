import Chennix.Server.Auth
import Chennix.Server.Gateway

/-!
# The middleware

What a request must show before its handler is called. The requests of the gateway carry a token in
a header; those of the administration pages carry a session in a cookie, and some pages ask for a
role as well.

## Main definitions

* `Headers` — what the middleware reads of a request
* `TokenRepo.validateToken` — the token of a key, if it may be used now and from here
* `tokenAuthMiddleware` — the way into the gateway
* `requireRole` — the way into the pages of administrators
-/

namespace Chennix

open Foundations

/-- The headers that the middleware reads. One whose value is not text is as good as missing. -/
structure Headers where
  authorization : Option String := none
  xForwardedFor : Option String := none
  xRealIp : Option String := none
  cookie : Option String := none

/-- A refusal: its status and its message. -/
structure Refusal where
  status : ℕ
  message : String
  deriving DecidableEq, Repr

/-- `extract_bearer` -/
def extractBearer (headers : Headers) : Option String :=
  headers.authorization.bind fun value =>
    ((Text.stripPrefix "Bearer " value).or (Text.stripPrefix "bearer " value)).bind fun token =>
      nonEmpty (Text.trim token)

/-- `extract_client_ip`: the first address of `x-forwarded-for`, or else `x-real-ip`. -/
def extractClientIp (headers : Headers) : Option String :=
  (headers.xForwardedFor.bind fun s =>
    (Text.split ',' s).head?.bind fun first => nonEmpty (Text.trim first)).or
    (headers.xRealIp.bind fun s => nonEmpty (Text.trim s))

/-- The token may be used from the address. One that is not known is none of those in a list. -/
def TokenConfig.allowsIp (t : TokenConfig) (clientIp : Option String) : Bool :=
  match t.allowIps with
  | none => true
  | some ips =>
    match clientIp with
    | some ip => ips.any fun allowed => allowed == ip
    | none => false

namespace TokenRepo

def getTokenByKey (tokenKey : String) (db : Db) : Option TokenConfig :=
  (db.tokens.rows.find? fun t => t.key == tokenKey).map TokenRow.toTokenConfig

/-- The time is in seconds since the epoch. -/
def validateToken (now : ℤ) (tokenKey : String) (clientIp : Option String) (db : Db) :
    Option AuthContext :=
  match getTokenByKey tokenKey db with
  | none => none
  | some token =>
    if token.status ≠ 1 then none
    else if token.expiredTime ≠ -1 ∧ token.expiredTime ≤ now then none
    else if !token.allowsIp clientIp then none
    else
      match UserRepo.getUserById token.userId db with
      | none => none
      | some user => if user.status ≠ 1 then none else some ⟨user, token, clientIp⟩

end TokenRepo

/-- `token_auth_middleware` -/
def tokenAuthMiddleware (headers : Headers) (s : AppState) : Except Refusal AuthContext :=
  match extractBearer headers with
  | none => .error ⟨401, "missing or invalid Authorization header"⟩
  | some tokenKey =>
    match TokenRepo.validateToken (Calendar.Instant.seconds s.now) tokenKey
        (extractClientIp headers) s.db with
    | none => .error ⟨401, "invalid or expired token"⟩
    | some auth => .ok auth

/-- `require_role` -/
def requireRole (minRole : ℤ) (user : UserConfig) : Except Refusal Unit :=
  if user.role ≥ minRole then .ok ()
  else .error ⟨403, "insufficient role for this resource"⟩

/-! ### Who is let in -/

/-- What holds of a request that is let into the gateway: its key is that of an enabled token that
has not expired and may be used from where it comes, and the token's user is enabled. -/
structure Admitted (headers : Headers) (s : AppState) (auth : AuthContext) : Prop where
  bearer : extractBearer headers = some auth.token.key
  token : ∃ row ∈ s.db.tokens.rows, row.toTokenConfig = auth.token
  tokenEnabled : auth.token.status = 1
  fresh : auth.token.expiredTime = -1 ∨ Calendar.Instant.seconds s.now < auth.token.expiredTime
  address : ∀ ips, auth.token.allowIps = some ips →
    ∃ ip ∈ ips, extractClientIp headers = some ip ∧ auth.clientIp = some ip
  user : ∃ row ∈ s.db.users.rows, row.toUserConfig = auth.user ∧ row.id = auth.token.userId
  userEnabled : auth.user.status = 1

theorem TokenConfig.allowsIp_some {t : TokenConfig} {clientIp : Option String} {ips : List String}
    (h : t.allowsIp clientIp = true) (hips : t.allowIps = some ips) :
    ∃ ip ∈ ips, clientIp = some ip := by
  rw [allowsIp, hips] at h
  cases clientIp with
  | none => cases h
  | some ip =>
    obtain ⟨allowed, hmem, heq⟩ := List.any_eq_true.mp h
    exact ⟨allowed, hmem, by rw [beq_iff_eq.mp heq]⟩

/-- **The way into the gateway.** -/
theorem admitted_of_middleware {headers : Headers} {s : AppState} {auth : AuthContext}
    (h : tokenAuthMiddleware headers s = .ok auth) : Admitted headers s auth := by
  rw [tokenAuthMiddleware] at h
  cases hbearer : extractBearer headers with
  | none => rw [hbearer] at h; cases h
  | some tokenKey =>
    rw [hbearer] at h
    dsimp only at h
    split at h
    · cases h
    rename_i hvalid
    cases h
    rw [TokenRepo.validateToken] at hvalid
    cases htoken : TokenRepo.getTokenByKey tokenKey s.db with
    | none => rw [htoken] at hvalid; cases hvalid
    | some token =>
      rw [htoken] at hvalid
      dsimp only at hvalid
      split at hvalid
      · cases hvalid
      rename_i henabled
      split at hvalid
      · cases hvalid
      rename_i hfresh
      split at hvalid
      · cases hvalid
      rename_i hip
      cases huser : UserRepo.getUserById token.userId s.db with
      | none => rw [huser] at hvalid; cases hvalid
      | some user =>
        rw [huser] at hvalid
        dsimp only at hvalid
        split at hvalid
        · cases hvalid
        rename_i hstatus
        cases hvalid
        obtain ⟨row, hrow, rfl⟩ := Option.map_eq_some_iff.mp htoken
        obtain ⟨urow, hurow, rfl⟩ := Option.map_eq_some_iff.mp huser
        have hkey : row.key = tokenKey := by simpa using List.find?_some hrow
        refine ⟨hbearer.trans (congrArg some hkey.symm), ⟨row, List.mem_of_find?_eq_some hrow, rfl⟩,
          not_not.mp henabled, ?_, fun ips hips => ?_, ⟨urow, Table.mem_of_find? hurow, rfl,
          Table.key_of_find? hurow⟩, not_not.mp hstatus⟩
        · rwa [not_and_or, not_not, not_le] at hfresh
        · obtain ⟨ip, hmem, heq⟩ := TokenConfig.allowsIp_some (by simpa using hip) hips
          exact ⟨ip, hmem, heq, heq⟩

end Chennix
