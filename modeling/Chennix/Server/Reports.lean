import Chennix.Server.Accounts
import Chennix.Storage.Reports

/-!
# The pages of a user

The handlers a user has without being an administrator: their tokens, what was used with them, and
the logs of their requests. Each handler checks for itself whose rows it shows or changes.

## Main definitions

* `tokenUsageHandler`, `usageHandler`, `logsHandler` — the reports
* `UserRequest`, `UserRequest.serve` — the requests of the pages, answered one at a time
* `OwnChange` — a new token of the user, or one of theirs changed or gone

## Main results

* `UserRequest.serve_ownChange` — a request of the user does no more
-/

namespace Chennix

open Foundations AdminM

variable (user : UserConfig)

def listTokensHandler (queryUserId : Option ℤ) (db : Db) : List TokenConfig :=
  TokenRepo.listTokens (if user.isAdmin then queryUserId else some user.id) db

structure UsageQuery where
  channelId : Option ℤ
  model : Option String
  start : Option ℤ
  endAt : Option ℤ

structure LogsQuery where
  page : Option ℤ
  perPage : Option ℤ
  channelId : Option ℤ
  model : Option String
  statusCode : Option ℤ
  start : Option ℤ
  endAt : Option ℤ

structure LogsResponse where
  logs : List RequestLog
  total : ℕ
  page : ℤ
  perPage : ℤ
  deriving DecidableEq

/-- The user a report is about; administrators see all users. -/
def userFilter : Option ℤ := if user.isAdmin then none else some user.id

variable (dates : SqlDates)

def tokenUsageHandler (tokenId : ℤ) (s : ReportDb) : AdminResult TokenUsageStats := do
  let _ ← ownToken user tokenId "token not found" "you do not own this token" s.toDb
  (UsageRepo.getTokenUsageStats tokenId s).mapError .ofProxy

def usageHandler (query : UsageQuery) (s : ReportDb) : AdminResult (List UsageSummary) :=
  (UsageRepo.getUsageSummary dates query.channelId query.model (query.start.getD 0)
    (query.endAt.getD 0) (userFilter user) s).mapError .ofProxy

def logsHandler (query : LogsQuery) (s : ReportDb) : AdminResult LogsResponse := do
  let page := max (query.page.getD 1) 1
  let perPage := min (max (query.perPage.getD 20) 1) 100
  let (logs, total) ← (UsageRepo.getRequestLogs dates page perPage query.channelId query.model
    query.statusCode (query.start.getD 0) (query.endAt.getD 0) (userFilter user) s).mapError
      .ofProxy
  return ⟨logs, total, page, perPage⟩

/-! ### What is written -/

section Writes

open Transaction

variable {user} {id : ℤ} {missing foreign : String} {db : Db} {t : TokenRow}

theorem ownToken_of_none (huser : user.isAdmin = false) (h : db.tokens.find? id = none) :
    ownToken user id missing foreign db = .error (.notFound missing) := by
  rw [ownToken, huser, if_neg Bool.false_ne_true, bind_of_ok (get_ok.mpr rfl)]
  refine bind_of_error ?_
  rw [TokenRepo.getTokenById, h]
  rfl

/-- The check of the owner, where the token is there. -/
theorem ownToken_of_some (huser : user.isAdmin = false) (h : db.tokens.find? id = some t) :
    ownToken user id missing foreign db =
      if t.userId = user.id then .ok ((), db) else .error (.forbidden foreign) := by
  have hget : orElse (.notFound missing) (TokenRepo.getTokenById id db) db =
      .ok (t.toTokenConfig, db) := by
    rw [TokenRepo.getTokenById, h]
    rfl
  rw [ownToken, huser, if_neg Bool.false_ne_true, bind_of_ok (get_ok.mpr rfl), bind_of_ok hget]
  by_cases hown : t.userId = user.id
  · rw [if_pos hown, refuseIf, if_neg (not_not.mpr hown)]
    rfl
  · rw [if_neg hown, refuseIf, if_pos hown]
    rfl

/-- A user who is no administrator makes tokens for themselves only. -/
theorem tokenOwner_eq (huser : user.isAdmin = false) (queryUserId : Option ℤ)
    (payload : CreateTokenRequest) : tokenOwner user queryUserId payload = user.id := by
  cases queryUserId with
  | none => rw [tokenOwner, huser, Bool.and_false, if_neg Bool.false_ne_true]
  | some id => rw [tokenOwner, huser, if_neg Bool.false_ne_true]

/-- What a request of the user may make of the tokens: a new one of their own, or one of their own
changed or gone. A token that a usage log refers to stays. -/
inductive OwnChange (userId : ℤ) (db : Db) : Table TokenRow → Prop
  | none : OwnChange userId db db.tokens
  | insert {row : ℤ → TokenRow} {hrow : ∀ i, key (row i) = i}
      (hown : ∀ i, (row i).userId = userId) :
    OwnChange userId db (db.tokens.insertNew row hrow)
  | update {id : ℤ} {t : TokenRow} {f : TokenRow → TokenRow} {hf : ∀ r, key (f r) = key r}
    (ht : db.tokens.find? id = some t) (hown : t.userId = userId)
    (howner : ∀ r, (f r).userId = r.userId) :
    OwnChange userId db (db.tokens.update (fun r => r.id == id) f hf)
  | delete {id : ℤ} {t : TokenRow} (ht : db.tokens.find? id = some t) (hown : t.userId = userId)
    (hfree : ∀ l ∈ db.usageLogs.rows, l.tokenId ≠ some id) :
    OwnChange userId db (db.tokens.delete fun r => r.id == id)

end Writes

/-! ### Requests -/

/-- A request to one of the pages, with its path, its query and its body. -/
inductive UserRequest
  | listTokens (userId : Option ℤ)
  /-- `uuid` is what a key is made of where the body has none. -/
  | createToken (userId : Option ℤ) (payload : CreateTokenRequest) (uuid : String)
  | updateToken (id : ℤ) (payload : UpdateTokenRequest)
  | deleteToken (id : ℤ)
  | tokenUsage (id : ℤ)
  | usage (query : UsageQuery)
  | logs (query : LogsQuery)

/-- What is answered, but for errors. -/
inductive UserReply
  | tokens (tokens : List TokenConfig)
  | created (id : ℤ)
  | done
  | tokenUsage (stats : TokenUsageStats)
  | usage (lines : List UsageSummary)
  | logs (response : LogsResponse)
  deriving DecidableEq

/-- A handler that writes; one that fails leaves the database as it was. -/
def ReportDb.change {α : Type} (body : AdminM α) (reply : α → UserReply) (s : ReportDb) :
    AdminResult UserReply × ReportDb :=
  match body s.toDb with
  | .ok (a, db) => (.ok (reply a), { s with toDb := db })
  | .error e => (.error e, s)

/-- A handler that reads. -/
def ReportDb.read {α : Type} (answer : ReportDb → AdminResult α) (reply : α → UserReply)
    (s : ReportDb) : AdminResult UserReply × ReportDb :=
  ((answer s).map reply, s)

/-- A request of the user, and the time it comes at. -/
abbrev TimedRequest : Type := Calendar.Instant × UserRequest

namespace UserRequest

variable (readLimits : String → Option (List String))

/-- What the user is answered, and the database afterwards. -/
def serve : TimedRequest → ReportDb → AdminResult UserReply × ReportDb
  | (_, listTokens userId) =>
    ReportDb.read (fun s => .ok (listTokensHandler user userId s.toDb)) .tokens
  | (now, createToken userId payload uuid) =>
    ReportDb.change (createTokenHandler now readLimits user userId payload uuid) .created
  | (now, updateToken id payload) =>
    ReportDb.change (updateTokenHandler now readLimits user id payload) fun _ => .done
  | (_, deleteToken id) => ReportDb.change (deleteTokenHandler user id) fun _ => .done
  | (_, tokenUsage id) => ReportDb.read (tokenUsageHandler user id) .tokenUsage
  | (_, usage query) => ReportDb.read (usageHandler user dates query) .usage
  | (_, logs query) => ReportDb.read (logsHandler user dates query) .logs

variable {user}

/-- What a handler that writes leaves. -/
theorem change_cases {α : Type} (body : AdminM α) (reply : α → UserReply) {s : ReportDb} :
    (s.change body reply).2 = s ∨
      ∃ a db, body s.toDb = .ok (a, db) ∧ (s.change body reply).2 = { s with toDb := db } := by
  rw [ReportDb.change]
  cases h : body s.toDb with
  | error e => exact .inl rfl
  | ok r => exact .inr ⟨r.1, r.2, rfl, rfl⟩

/-- **Requests** of the user change no tokens but the user's own, and nothing else. -/
theorem serve_ownChange (huser : user.isAdmin = false) (r : TimedRequest) (s : ReportDb) :
    ∃ T, (serve user dates readLimits r s).2 = { s with tokens := T } ∧
      OwnChange user.id s.toDb T := by
  obtain ⟨now, r⟩ := r
  have hsame : ∃ T, s = { s with tokens := T } ∧ OwnChange user.id s.toDb T := ⟨_, rfl, .none⟩
  cases r with
  | listTokens userId => exact hsame
  | tokenUsage id => exact hsame
  | usage query => exact hsame
  | logs query => exact hsame
  | createToken userId payload uuid =>
    rcases change_cases (createTokenHandler now readLimits user userId payload uuid) .created with
      h | ⟨id, db, hok, h⟩
    · rw [serve, h]
      exact hsame
    · have hstmt := lift_ok.mp hok
      rw [TokenRepo.createTokenFull, tokenOwner_eq huser] at hstmt
      split at hstmt
      · cases hstmt
      · split at hstmt <;> cases hstmt
        exact ⟨_, h, .insert fun _ => rfl⟩
  | updateToken id payload =>
    rcases change_cases (updateTokenHandler now readLimits user id payload) fun _ => .done with
      h | ⟨_, db, hok, h⟩
    · rw [serve, h]
      exact hsame
    · obtain ⟨_, db₁, hcheck, hupdate⟩ := Transaction.bind_ok.mp hok
      obtain ⟨hdb, hown⟩ := ownToken_ok hcheck
      obtain ⟨t, ht, hid⟩ := hown huser
      obtain ⟨row, hrow, rfl⟩ := Option.map_eq_some_iff.mp ht
      cases hdb
      cases lift_ok.mp hupdate
      exact ⟨_, h, .update hrow hid fun _ => rfl⟩
  | deleteToken id =>
    rcases change_cases (deleteTokenHandler user id) fun _ => .done with h | ⟨_, db, hok, h⟩
    · rw [serve, h]
      exact hsame
    · obtain ⟨_, db₁, hcheck, hdelete⟩ := Transaction.bind_ok.mp hok
      obtain ⟨hdb, hown⟩ := ownToken_ok hcheck
      obtain ⟨t, ht, hid⟩ := hown huser
      obtain ⟨row, hrow, rfl⟩ := Option.map_eq_some_iff.mp ht
      cases hdb
      have hstmt := lift_ok.mp hdelete
      rw [TokenRepo.deleteTokenById] at hstmt
      split at hstmt
      · cases hstmt
      · rename_i hfree
        cases hstmt
        refine ⟨_, h, .delete hrow hid fun l hl hlog => hfree ?_⟩
        rw [Bool.and_eq_true, List.any_eq_true, List.any_eq_true]
        exact ⟨⟨row, Table.mem_of_find? hrow, beq_iff_eq.mpr (Table.key_of_find? hrow)⟩,
          l, hl, beq_iff_eq.mpr hlog⟩

end UserRequest

end Chennix
