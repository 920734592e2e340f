import Chennix.Billing.Conservation
import Chennix.Config.Deletion
import Chennix.Execution.Audit
import Chennix.Server.Service

/-!
# The books balance

What a user has used is what the request log says its requests and its connection tests have cost,
whatever runs side by side and whatever is administered meanwhile, as far as they are through; one
that is not through holds what it has charged. The same is true of a limited token. The rows of
connection tests that have failed do not count: they tell a cost that nobody was charged.

The argument runs through the traces. A call moves the accounts by what it charges and the request
log by what it logs, so both are the initial ones plus what the traces say; and the trace of a
request or a test that is through says the same of both.

## Main definitions

* `Account` — a user or a token, as rows and charges name it
* `Service.logged`, `Service.pending` — what the log says, and what open requests and tests hold
* `Service.Label.Spares` — a step that neither deletes the account nor configures its quota anew

## Main results

* `Service.kept_run` — the accounts and the log, in terms of the traces
* `Service.books_balance` — the books balance
-/

namespace Chennix

open Foundations Program

/-! ### What leaves the accounts alone -/

section Frames

variable {db db' : Db}

theorem Db.SameAccounts.trans {db₁ db₂ db₃ : Db} (h : db₁.SameAccounts db₂)
    (h' : db₂.SameAccounts db₃) : db₁.SameAccounts db₃ :=
  ⟨h'.1.trans h.1, h'.2.trans h.2⟩

/-- The handlers of the configuration leave users, tokens and logs alone. -/
theorem AdminCall.Wrote.accounts {call : AdminCall} {now : Calendar.Instant}
    (h : call.Wrote now db db') : db.SameAccounts db' ∧ db'.usageLogs = db.usageLogs := by
  by_cases hchannels : call.OfChannels
  · cases call with
    | deleteChannel id =>
      rcases ChannelRepo.deleteChannel_frame h with rfl | rfl
      · exact ⟨⟨rfl, rfl⟩, rfl⟩
      · exact ⟨⟨rfl, rfl⟩, rfl⟩
    | _ =>
      first
        | exact hchannels.elim
        | (obtain ⟨_, _, _, rfl⟩ := h.frame_bindings id
           exact ⟨⟨rfl, rfl⟩, rfl⟩)
  · obtain ⟨_, _, _, rfl⟩ := h.frame hchannels
    exact ⟨⟨rfl, rfl⟩, rfl⟩

theorem sameAccounts_importConfig (config : BootstrapConfig) (db₀ : Db) :
    Transaction.Keeps db₀.SameAccounts (importConfig config) := by
  refine .bind (.forM fun m _ => ?_) fun _ => ?_
  · intro db _ db' h hI
    obtain ⟨_, rfl⟩ := Bootstrap.importModel_ok.mp h
    exact hI
  refine .bind (.forM fun c _ => ?_) fun _ => ?_
  · intro db _ db' h hI
    obtain ⟨_, rfl⟩ := Bootstrap.importChannel_ok.mp h
    exact hI
  refine .bind (.forM fun k _ => ?_) fun _ => .forM fun b _ => ?_
  · intro db _ db' h hI
    obtain ⟨_, _, _, rfl, _⟩ := Bootstrap.importKey_ok h
    exact hI
  · intro db _ db' h hI
    obtain ⟨m, c, db₁, _, _, hadd, hupsert⟩ := Bootstrap.importBinding_cases h
    obtain ⟨T, rfl⟩ := ModelRepo.addBindingWithWeight_frame hadd
    obtain ⟨_, rfl⟩ := DiscoveredModelRepo.upsert_frame (f := DiscoveredModel.discovered _ _ _)
      hupsert
    exact hI

/-- **What happens beside the requests** leaves users and tokens alone, but for the handlers of
accounts. -/
theorem background_accounts {lib : ServerLibraries} {s s' : AppState} {l : ServerStep}
    (hbg : Service.isBackground l = true) (h : l.step lib s = some s') :
    s.db.SameAccounts s'.db ∨
      ∃ call, l = .account call ∧ call.body s.now lib.readLimits s.db = .ok ((), s'.db) := by
  cases l with
  | importFile config =>
    cases h
    rcases ServerStep.query_cases (s := s) (importConfig config) with h | ⟨_, h⟩
    · exact .inl (by rw [h]; exact ⟨rfl, rfl⟩)
    · exact .inl (sameAccounts_importConfig config s.db _ _ _ h ⟨rfl, rfl⟩)
  | event e =>
    cases e with
    | request chance => cases hbg
    | call a chance => cases hbg
    | admin call chance =>
      rcases AppState.step_admin h with rfl | ⟨_, hok⟩
      · exact .inl ⟨rfl, rfl⟩
      · exact .inl (AdminCall.wrote hok).accounts.1
    | recover =>
      cases h
      exact .inl ⟨rfl, rfl⟩
    | elapse duration =>
      cases h
      exact .inl ⟨rfl, rfl⟩
  | account call =>
    cases h
    rcases ServerStep.manage_cases (s := s) lib.readLimits call with h | h
    · exact .inl (by rw [h]; exact ⟨rfl, rfl⟩)
    · exact .inr ⟨call, rfl, h⟩
  | testCharge adminUserId cost => cases hbg
  | resetKeyQuotas period =>
    cases h
    exact .inl ⟨rfl, rfl⟩

/-- **A call of an execution** is answered by the server as by the database and a pricing. -/
theorem serves_answer (lower : String → String) (chance : Chance) (s : AppState) (q : ExecReq)
    (reply : q.Resp) :
    ∃ pricing, Executor.serves pricing q s.db (s.answer lower chance q reply).1
      (s.answer lower chance q reply).2.db := by
  have hquery : ∀ {α : Type} {stmt : Stmt α}, (∀ a db, stmt s.db = .ok (a, db) →
      s.db.SameAccounts db) → s.db.SameAccounts (s.query stmt).2.db := by
    intro α stmt hstmt
    rcases ServerStep.query_cases (s := s) stmt with h | ⟨a, h⟩
    · rw [h]
      exact ⟨rfl, rfl⟩
    · exact hstmt a _ h
  cases q with
  | selectKeys ctx =>
    refine ⟨fun _ _ _ => none, ?_⟩
    show s.db.SameAccounts (ConfigCache.get lower chance.rank s).2.db
    rw [ConfigCache.db_get]
    exact ⟨rfl, rfl⟩
  | getChannelModelPricing modelId channelId upstream =>
    refine ⟨(ConfigCache.get lower chance.rank s).1.pricingFor, rfl, ?_⟩
    show s.db.SameAccounts (ConfigCache.get lower chance.rank s).2.db
    rw [ConfigCache.db_get]
    exact ⟨rfl, rfl⟩
  | billing q => exact ⟨fun _ _ _ => none, _, rfl⟩
  | logUsage entry =>
    refine ⟨fun _ _ _ => none, hquery fun _ db h => ?_⟩
    obtain ⟨_, rfl⟩ := logUsage_frame h
    exact ⟨rfl, rfl⟩
  | _ => exact ⟨fun _ _ _ => none, rfl, rfl⟩

end Frames

/-! ### Accounts -/

/-- Whose books are looked at: a user, or a limited token with its owner. -/
inductive Account
  | user (id : ℤ)
  | token (id owner : ℤ)

namespace Account

/-- What a charge adds to what the account has used. -/
def onCharge : Account → Charge → ℤ
  | user u => Charge.onUser u
  | token k _ => Charge.onToken k

/-- A row of the request log is about the account. -/
def names : Account → Option ℤ → Option ℤ → Bool
  | user u, userId, _ => userId == some u
  | token k _, _, tokenId => tokenId == some k

/-- What a connection test adds to what the account has used. Tests have no token. -/
def onTest (a : Account) (charge : ℤ × ℤ) : ℤ :=
  if a.names (some charge.1) none then charge.2 else 0

/-- What has been used of the account. A token also shows its budget: what is used of it and what
remains. -/
def Shows (budget used : ℤ) (db : Db) : Account → Prop
  | user u => ∃ row, db.users.find? u = some row ∧ row.usedQuota = used
  | token k owner => ∃ row, db.tokens.find? k = some row ∧ row.usedQuota = used ∧
      row.remainQuota + row.usedQuota = budget ∧ row.unlimitedQuota = false ∧ row.userId = owner

/-- The handler neither deletes the account nor configures the quota of the token anew. -/
def Spares : Account → AccountCall → Prop
  | user u, .deleteUser id => id ≠ u
  | token _ owner, .deleteUser id => id ≠ owner
  | token k _, .updateToken _ id _ => id ≠ k
  | token k _, .deleteToken _ id => id ≠ k
  | _, _ => True

variable {a : Account} {budget used : ℤ} {db db' : Db}

theorem Shows.same (h : a.Shows budget used db) (hsame : db.SameAccounts db') :
    a.Shows budget used db' := by
  cases a with
  | user u =>
    rw [Shows, hsame.1]
    exact h
  | token k owner =>
    rw [Shows, hsame.2]
    exact h

/-- No call changes the owner of a token. -/
theorem owner_serves {pricing : ℤ → ℤ → String → Option ChannelModelPricing} {q : ExecReq}
    {r : q.Resp} (h : Executor.serves pricing q db r db') (k : ℤ) :
    (db'.tokens.find? k).map (fun row => row.userId) =
      (db.tokens.find? k).map fun row => row.userId := by
  cases q with
  | billing q =>
    obtain ⟨now, h⟩ := h
    rcases BillingReq.answer_cases h with ⟨c, -, rfl, -⟩ | ⟨-, ⟨k', st, -, rfl⟩ | rfl⟩
    · rw [Db.find?_tokens_applyCharge, Option.map_map]
      congr 1
      funext row
      simp only [Function.comp]
      split <;> rfl
    · rw [Db.find?_tokens_setTokenStatus, Option.map_map]
      congr 1
      funext row
      simp only [Function.comp]
      split <;> rfl
    · rfl
  | getChannelModelPricing modelId channelId upstream => rw [h.2.2]
  | _ => rw [h.2]

/-- **A call of an execution** adds what it charges. -/
theorem Shows.serves (h : a.Shows budget used db)
    {pricing : ℤ → ℤ → String → Option ChannelModelPricing} {q : ExecReq} {r : q.Resp}
    (hserves : Executor.serves pricing q db r db') :
    a.Shows budget (used + charged a.onCharge (billingCalls [⟨q, r⟩])) db' := by
  obtain ⟨husers, htokens⟩ := Executor.accounts_serves hserves
  cases a with
  | user u =>
    obtain ⟨row, hrow, rfl⟩ := h
    have hrel := husers u
    rw [hrow] at hrel
    obtain ⟨row', hrow', hcharged⟩ := rel_some hrel
    exact ⟨row', hrow', hcharged.used⟩
  | token k owner =>
    obtain ⟨row, hrow, rfl, hbudget, hlimited, howner⟩ := h
    have hrel := htokens k
    rw [hrow] at hrel
    obtain ⟨row', hrow', hcharged⟩ := rel_some hrel
    have howner' := owner_serves hserves k
    rw [hrow, hrow'] at howner'
    refine ⟨row', hrow', hcharged.used, ?_, hcharged.unlimited.trans hlimited,
      (Option.some.inj howner').trans howner⟩
    rw [hcharged.remain, hcharged.used]
    omega

/-- **A connection test** adds what it charges. -/
theorem Shows.testCharge (h : a.Shows budget used db) (now : String) (userId delta : ℤ) :
    a.Shows budget (used + a.onTest (userId, delta))
      (db.addUserUsed now userId delta fun _ => true) := by
  cases a with
  | user u =>
    obtain ⟨row, hrow, rfl⟩ := h
    have hid : key row = u := Table.key_of_find? hrow
    refine ⟨if key row == userId then row.addUsed now delta else row, ?_, ?_⟩
    · rw [Db.addUserUsed, Table.find?_update, hrow, Option.map_some, Bool.and_true]
    · rw [onTest, names, hid]
      by_cases hu : userId = u
      · simp [hu, UserRow.addUsed]
      · simp [hu, Ne.symm hu]
  | token k owner =>
    rw [onTest, names, if_neg (by simp), add_zero]
    exact h

/-- The handlers of accounts leave a user that they spare what has been used. -/
theorem Shows.account_user {u : ℤ} (h : (user u).Shows budget used db) {call : AccountCall}
    (hspares : (user u).Spares call) (hwrote : call.Wrote db db') :
    (user u).Shows budget used db' := by
  obtain ⟨row, hrow, rfl⟩ := h
  have hid : row.id = u := Table.key_of_find? hrow
  cases call with
  | createUser payload hash =>
    obtain ⟨fresh, hfresh, rfl⟩ := hwrote
    exact ⟨row, Table.find?_insertNew_of_some hrow fresh hfresh, rfl⟩
  | updateUser id payload =>
    obtain ⟨p, f, hf, hused, rfl⟩ := hwrote
    refine ⟨if p row then f row else row, ?_, ?_⟩
    · rw [Table.find?_update, hrow, Option.map_some]
    · split
      · exact hused row
      · rfl
  | deleteUser id =>
    rcases hwrote with rfl | ⟨-, rfl⟩
    · exact ⟨row, hrow, rfl⟩
    · refine ⟨row, ?_, rfl⟩
      rw [Table.find?_delete, hrow, Option.filter_some, hid]
      simp [Ne.symm hspares]
  | createToken caller queryUserId payload uuid =>
    obtain ⟨_, _, rfl⟩ := hwrote
    exact ⟨row, hrow, rfl⟩
  | updateToken caller id payload =>
    obtain ⟨_, _, _, rfl⟩ := hwrote
    exact ⟨row, hrow, rfl⟩
  | deleteToken caller id =>
    obtain ⟨-, rfl⟩ := hwrote
    exact ⟨row, hrow, rfl⟩

/-- And a limited token that they spare its budget as well. -/
theorem Shows.account_token {k owner : ℤ} (h : (token k owner).Shows budget used db)
    {call : AccountCall} (hspares : (token k owner).Spares call)
    (hwrote : call.Wrote db db') : (token k owner).Shows budget used db' := by
  obtain ⟨row, hrow, hshows⟩ := h
  have hid : row.id = k := Table.key_of_find? hrow
  have howner : row.userId = owner := hshows.2.2.2
  refine ⟨row, ?_, hshows⟩
  cases call with
  | createUser payload hash =>
    obtain ⟨_, _, rfl⟩ := hwrote
    exact hrow
  | updateUser id payload =>
    obtain ⟨_, _, _, _, rfl⟩ := hwrote
    exact hrow
  | deleteUser id =>
    rcases hwrote with rfl | ⟨-, rfl⟩
    · exact hrow
    · rw [Table.find?_delete, hrow, Option.filter_some, howner]
      simp [Ne.symm hspares]
  | createToken caller queryUserId payload uuid =>
    obtain ⟨fresh, hfresh, rfl⟩ := hwrote
    exact Table.find?_insertNew_of_some hrow fresh hfresh
  | updateToken caller id payload =>
    obtain ⟨f, hf, -, rfl⟩ := hwrote
    rw [Table.find?_update, hrow, Option.map_some, hid]
    simp [Ne.symm hspares]
  | deleteToken caller id =>
    obtain ⟨-, rfl⟩ := hwrote
    rw [Table.find?_delete, hrow, Option.filter_some, hid]
    simp [Ne.symm hspares]

theorem Shows.account (h : a.Shows budget used db) {call : AccountCall} (hspares : a.Spares call)
    (hwrote : call.Wrote db db') : a.Shows budget used db' := by
  cases a with
  | user u => exact h.account_user hspares hwrote
  | token k owner => exact h.account_token hspares hwrote

end Account

/-! ### What the traces say -/

/-- The row of a connection test that has failed. It tells a cost all the same. -/
def RequestLogRow.isFailedTest (row : RequestLogRow) : Bool :=
  row.method == "TEST" && row.responseStatus != some 200

def RequestLogEntry.isFailedTest (entry : RequestLogEntry) : Bool :=
  entry.method == "TEST" && entry.responseStatus != 200

/-- What a row of the request log says that the account has been charged. -/
def RequestLogRow.costFor (a : Account) (row : RequestLogRow) : ℤ :=
  if a.names row.userId row.tokenId && !row.isFailedTest then row.quotaCost else 0

def RequestLogEntry.costFor (a : Account) (entry : RequestLogEntry) : ℤ :=
  if a.names entry.userId entry.tokenId && !entry.isFailedTest then entry.quotaCost else 0

theorem RequestLogEntry.costFor_row (a : Account) (entry : RequestLogEntry) (now : String)
    (id : ℤ) : (entry.row now id).costFor a = entry.costFor a := by
  have hstatus : (some (entry.responseStatus : ℤ) != some 200) = (entry.responseStatus != 200) := by
    rw [Bool.eq_iff_iff]
    simp only [bne_iff_ne, ne_eq, Option.some.injEq]
    omega
  rw [costFor, RequestLogRow.costFor, isFailedTest, RequestLogRow.isFailedTest, ← hstatus]
  rfl

namespace Running

/-- What the request has charged to the account. -/
def charged (a : Account) (r : Running) : ℤ :=
  Chennix.charged a.onCharge (billingCalls (execCalls r.trace))

/-- What the rows of the request say. -/
def logged (a : Account) (r : Running) : ℤ :=
  ((requestRows r.trace).map (RequestLogEntry.costFor a)).sum

/-- The request has come to its end. -/
def isThrough (r : Running) : Bool := r.rest.answer?.isSome

/-- The request stands where its trace leads to. -/
def Valid (executor : Executor) (r : Running) : Prop :=
  Follows (serveRequest executor r.incoming) r.trace r.rest

variable {r : Running} {a : Account}

theorem charged_snoc (rest : ProxyM Served) (call : ProxyCall) :
    charged a ⟨r.incoming, rest, r.trace ++ [call]⟩ =
      r.charged a + Chennix.charged a.onCharge (billingCalls (execCalls [call])) := by
  rw [charged, execCalls_append, billingCalls_append, charged_append]
  rfl

theorem logged_snoc (rest : ProxyM Served) (call : ProxyCall) :
    logged a ⟨r.incoming, rest, r.trace ++ [call]⟩ =
      r.logged a + ((requestRows [call]).map (RequestLogEntry.costFor a)).sum := by
  rw [logged, requestRows_append, List.map_append, List.sum_append]
  rfl

end Running

namespace RunningTest

/-- What the test has charged to the account. -/
def charged (a : Account) (t : RunningTest) : ℤ := ((testCharges t.trace).map a.onTest).sum

/-- What the row of the test says. -/
def logged (a : Account) (t : RunningTest) : ℤ :=
  ((testRows t.trace).map (RequestLogEntry.costFor a)).sum

/-- The test stands where its trace leads to. -/
def Valid (evaluator : BillingExpr.Evaluator) (t : RunningTest) : Prop :=
  Follows (t.incoming.handle evaluator) t.trace t.rest

variable {t : RunningTest} {a : Account}

theorem charged_snoc (rest : TestM (AdminResult ConnectionTestResult)) (call : TestCall) :
    charged a ⟨t.incoming, rest, t.trace ++ [call]⟩ =
      t.charged a + ((testCharges [call]).map a.onTest).sum := by
  rw [charged, testCharges_append, List.map_append, List.sum_append]
  rfl

theorem logged_snoc (rest : TestM (AdminResult ConnectionTestResult)) (call : TestCall) :
    logged a ⟨t.incoming, rest, t.trace ++ [call]⟩ =
      t.logged a + ((testRows [call]).map (RequestLogEntry.costFor a)).sum := by
  rw [logged, testRows_append, List.map_append, List.sum_append]
  rfl

end RunningTest

namespace Service

variable (a : Account)

/-- What the request log says that the account has been charged. -/
def logged (s : Service) : ℤ := (s.requestLogs.rows.map (RequestLogRow.costFor a)).sum

/-- What requests and tests hold that are not through. -/
def pending (s : Service) : ℤ :=
  ((s.requests.filter fun r => !r.isThrough).map (Running.charged a)).sum +
    ((s.tests.filter fun t => !t.isThrough).map (RunningTest.charged a)).sum

/-- There are no requests yet, and no tests. -/
def Idle (s : Service) : Prop := s.requests = [] ∧ s.tests = []

namespace Label

/-- Nothing happens that deletes the account or configures the quota of the token anew. -/
def Spares : Label → Prop
  | background (.account c) => a.Spares c
  | _ => True

end Label

variable {a}

/-! ### A call -/

/-- A new row adds what it says. -/
theorem logged_log (s : Service) (entry : RequestLogEntry) :
    (s.log entry).logged a = s.logged a + entry.costFor a := by
  show (List.map _ (s.requestLogs.rows ++ [_])).sum = _
  rw [List.map_append, List.sum_append, List.map_singleton, List.sum_singleton,
    RequestLogEntry.costFor_row]
  rfl

theorem rows_log (s : Service) (entry : RequestLogEntry) :
    (∀ row ∈ s.requestLogs.rows, row ∈ (s.log entry).requestLogs.rows) ∧
      ∃ now id, entry.row now id ∈ (s.log entry).requestLogs.rows :=
  ⟨fun _ hrow => List.mem_append_left _ hrow,
    ⟨_, _, List.mem_append_right _ (List.mem_singleton_self _)⟩⟩

section Call

variable (lib : ServerLibraries) (s : Service) (chance : Chance) (reply : (q : ExecReq) → q.Resp)
  (q : ProxyReq) {budget used : ℤ}

/-- **The accounts** move by what the call charges. -/
theorem shows_answer (h : a.Shows budget used s.app.db) :
    a.Shows budget (used + Chennix.charged a.onCharge
      (billingCalls (execCalls [⟨q, (s.answer lib chance reply q).1⟩])))
      (s.answer lib chance reply q).2.app.db := by
  have hsame : ∀ {db : Db}, s.app.db.SameAccounts db → a.Shows budget (used + 0) db := by
    intro db hdb
    rw [add_zero]
    exact h.same hdb
  cases q with
  | loadSnapshot =>
    refine hsame ?_
    show s.app.db.SameAccounts (ConfigCache.get lib.lower chance.rank s.app).2.db
    rw [ConfigCache.db_get]
    exact ⟨rfl, rfl⟩
  | resolve modelName => exact hsame ⟨rfl, rfl⟩
  | exec q =>
    obtain ⟨pricing, hserves⟩ := serves_answer lib.lower chance s.app q (reply q)
    exact h.serves hserves
  | logRequest entry => exact hsame ⟨rfl, rfl⟩

/-- **The request log** grows by what the call logs. -/
theorem logged_answer :
    (s.answer lib chance reply q).2.logged a = s.logged a + ((requestRows
      [⟨q, (s.answer lib chance reply q).1⟩]).map (RequestLogEntry.costFor a)).sum := by
  cases q with
  | logRequest entry =>
    refine (logged_log s entry).trans ?_
    rw [show requestRows [⟨.logRequest entry, _⟩] = [entry] from rfl, List.map_singleton,
      List.sum_singleton]
  | _ => exact (add_zero _).symm

theorem rows_answer :
    (∀ row ∈ s.requestLogs.rows, row ∈ (s.answer lib chance reply q).2.requestLogs.rows) ∧
      ∀ entry ∈ requestRows [⟨q, (s.answer lib chance reply q).1⟩], ∃ now id,
        entry.row now id ∈ (s.answer lib chance reply q).2.requestLogs.rows := by
  cases q with
  | logRequest entry =>
    refine ⟨(rows_log s entry).1, fun entry' hmem => ?_⟩
    obtain rfl : entry' = entry := List.mem_singleton.mp hmem
    exact (rows_log s entry').2
  | _ => exact ⟨fun row hrow => hrow, fun entry hmem => absurd hmem List.not_mem_nil⟩

/-- The server fails no call of billing. -/
theorem not_faulty_answer :
    ¬Faulty (billingCalls (execCalls [⟨q, (s.answer lib chance reply q).1⟩])) := by
  have hnil : ¬Faulty [] := by rintro ⟨_, _, _, hmem⟩; cases hmem
  cases q with
  | exec q =>
    cases q with
    | billing q =>
      have h : q.answer (nowIso8601 s.app.now) s.app.db = (_, _) := rfl
      exact Billing.not_faulty_answer h
    | _ => exact hnil
  | _ => exact hnil

/-- What a call has read of a token that is limited. -/
def ReadsLimited (a : Account) (t : List ProxyCall) : Prop :=
  match a with
  | .user _ => True
  | .token k _ => ∀ unlimited,
      (⟨.getTokenUnlimited k, .ok (some unlimited)⟩ : BillingCall) ∈ billingCalls (execCalls t) →
        unlimited = false

theorem ReadsLimited.append {t t' : List ProxyCall} (h : ReadsLimited a t)
    (h' : ReadsLimited a t') : ReadsLimited a (t ++ t') := by
  cases a with
  | user u => trivial
  | token k owner =>
    intro unlimited hmem
    rw [execCalls_append, billingCalls_append] at hmem
    rcases List.mem_append.mp hmem with hmem | hmem
    · exact h unlimited hmem
    · exact h' unlimited hmem

theorem readsLimited_answer (h : a.Shows budget used s.app.db) :
    ReadsLimited a [⟨q, (s.answer lib chance reply q).1⟩] := by
  cases a with
  | user u => trivial
  | token k owner =>
    obtain ⟨row, hrow, -, -, hlimited, -⟩ := h
    intro unlimited hmem
    cases q with
    | exec q =>
      cases q with
      | billing q =>
        have heq := List.mem_singleton.mp hmem
        obtain ⟨rfl, hreply⟩ := Sigma.mk.inj heq
        have hreply := eq_of_heq hreply
        have hread : (BillingReq.getTokenUnlimited k).answer (nowIso8601 s.app.now) s.app.db =
          (.ok (some unlimited), _) := Prod.ext hreply.symm rfl
        obtain ⟨row', hrow', hflag⟩ := Db.unlimited_answer hread
        rw [hrow] at hrow'
        cases hrow'
        exact hflag.symm.trans hlimited
      | _ => cases hmem
    | _ => cases hmem

end Call

section TestCall

variable (s : Service) (chance : Chance) (reply : (q : TestReq) → q.Resp) (q : TestReq)
  {budget used : ℤ}

/-- **The accounts** move by what the call of a test charges. -/
theorem shows_answerTest (h : a.Shows budget used s.app.db) :
    a.Shows budget (used +
      ((testCharges [⟨q, (s.answerTest chance reply q).1⟩]).map a.onTest).sum)
      (s.answerTest chance reply q).2.app.db := by
  cases q with
  | updateUsedQuotaDelta userId delta =>
    rw [show testCharges [⟨.updateUsedQuotaDelta userId delta, _⟩] = [(userId, delta)] from rfl,
      List.map_singleton, List.sum_singleton]
    exact h.testCharge _ userId delta
  | _ => exact (add_zero used).symm ▸ h

/-- **The request log** grows by what it logs. -/
theorem logged_answerTest :
    (s.answerTest chance reply q).2.logged a = s.logged a + ((testRows
      [⟨q, (s.answerTest chance reply q).1⟩]).map (RequestLogEntry.costFor a)).sum := by
  cases q with
  | logRequest entry =>
    refine (logged_log s entry).trans ?_
    rw [show testRows [⟨.logRequest entry, _⟩] = [entry] from rfl, List.map_singleton,
      List.sum_singleton]
  | _ => exact (add_zero _).symm

theorem rows_answerTest :
    (∀ row ∈ s.requestLogs.rows, row ∈ (s.answerTest chance reply q).2.requestLogs.rows) ∧
      ∀ entry ∈ testRows [⟨q, (s.answerTest chance reply q).1⟩], ∃ now id,
        entry.row now id ∈ (s.answerTest chance reply q).2.requestLogs.rows := by
  cases q with
  | logRequest entry =>
    refine ⟨(rows_log s entry).1, fun entry' hmem => ?_⟩
    obtain rfl : entry' = entry := List.mem_singleton.mp hmem
    exact (rows_log s entry').2
  | _ => exact ⟨fun row hrow => hrow, fun entry hmem => absurd hmem List.not_mem_nil⟩

end TestCall

/-! ### Runs -/

variable {lib : ServerLibraries} {executor : Executor} {s s' : Service} {budget used : ℤ}

/-- What holds of the server in every state that a run from `s₀` leads to, of an account that has
been spared. -/
structure Kept (lib : ServerLibraries) (executor : Executor) (a : Account) (budget used : ℤ)
    (s₀ s : Service) : Prop where
  valid : ∀ r ∈ s.requests, r.Valid executor
  sound : ∀ r ∈ s.requests, ¬Faulty (billingCalls (execCalls r.trace))
  limited : ∀ r ∈ s.requests, ReadsLimited a r.trace
  shows : a.Shows budget (used + ((s.requests.map (Running.charged a)).sum +
    (s.tests.map (RunningTest.charged a)).sum)) s.app.db
  logs : s.logged a = s₀.logged a + ((s.requests.map (Running.logged a)).sum +
    (s.tests.map (RunningTest.logged a)).sum)
  rows : ∀ r ∈ s.requests, ∀ entry ∈ requestRows r.trace, ∃ now id,
    entry.row now id ∈ s.requestLogs.rows
  validTests : ∀ t ∈ s.tests, t.Valid lib.evaluator
  rowsOfTests : ∀ t ∈ s.tests, ∀ entry ∈ testRows t.trace, ∃ now id,
    entry.row now id ∈ s.requestLogs.rows

variable {s₀ : Service}

theorem kept_init (h₀ : s₀.Idle) (h : a.Shows budget used s₀.app.db) :
    Kept lib executor a budget used s₀ s₀ where
  valid := by simp [h₀.1]
  sound := by simp [h₀.1]
  limited := by simp [h₀.1]
  shows := by simpa [h₀.1, h₀.2] using h
  logs := by simp [h₀.1, h₀.2]
  rows := by simp [h₀.1]
  validTests := by simp [h₀.2]
  rowsOfTests := by simp [h₀.2]

theorem kept_arrive (h : Kept lib executor a budget used s₀ s) (r : Incoming) :
    Kept lib executor a budget used s₀
      { s with requests := s.requests ++ [⟨r, serveRequest executor r, []⟩] } := by
  have hnothing (f : Running → ℤ) (hzero : f ⟨r, serveRequest executor r, []⟩ = 0) :
      ((s.requests ++ [(⟨r, serveRequest executor r, []⟩ : Running)]).map f).sum =
        (s.requests.map f).sum := by
    rw [List.map_append, List.sum_append, List.map_singleton, List.sum_singleton, hzero, add_zero]
  refine { h with
    valid := Slots.forall_concat h.valid (Program.Exec.refl _ _)
    sound := Slots.forall_concat h.sound (by simp [Faulty, execCalls, billingCalls])
    limited := Slots.forall_concat h.limited ?_
    shows := ?_
    logs := ?_
    rows := Slots.forall_concat h.rows (fun _ hmem => absurd hmem List.not_mem_nil) }
  · cases a with
    | user u => trivial
    | token k owner => exact fun _ hmem => absurd hmem List.not_mem_nil
  · rw [hnothing (Running.charged a) rfl]
    exact h.shows
  · rw [hnothing (Running.logged a) rfl]
    exact h.logs

/-- **A call of a request** moves the accounts and the log by what it adds to the trace. -/
theorem kept_call (h : Kept lib executor a budget used s₀ s) (chance : Chance)
    (reply : (q : ExecReq) → q.Resp) {i : ℕ} {r : Running} {q : ProxyReq}
    {k : q.Resp → ProxyM Served} (hr : s.requests[i]? = some r) (hrest : r.rest = .call q k) :
    Kept lib executor a budget used s₀ ((s.answer lib chance reply q).2.setRequest i
      ⟨r.incoming, k (s.answer lib chance reply q).1,
        r.trace ++ [⟨q, (s.answer lib chance reply q).1⟩]⟩) := by
  have hmem := List.mem_of_getElem? hr
  have hreqs := requests_answer lib s chance reply q
  have htests := tests_answer lib s chance reply q
  have hr' : (s.answer lib chance reply q).2.requests[i]? = some r := by rw [hreqs]; exact hr
  obtain ⟨hkeep, hnew⟩ := rows_answer lib s chance reply q
  have hvalid := h.valid r hmem
  rw [Running.Valid, hrest] at hvalid
  refine ⟨Slots.forall_set (hreqs ▸ h.valid) (hvalid.snoc _), Slots.forall_set (hreqs ▸ h.sound) ?_,
    Slots.forall_set (hreqs ▸ h.limited) ((h.limited r hmem).append
      (readsLimited_answer lib s chance reply q h.shows)), ?_, ?_,
    Slots.forall_set (hreqs ▸ fun r' hr' entry hentry => ?_) fun entry hentry => ?_,
    fun t ht => h.validTests t (htests ▸ ht), fun t ht entry hentry => ?_⟩
  · rw [execCalls_append, billingCalls_append]
    exact Billing.not_faulty_append (h.sound r hmem)
      (not_faulty_answer lib s chance reply q)
  · have hsum := Slots.sum_map_set hr' (Running.charged a)
      (Running.charged_snoc (k (s.answer lib chance reply q).1)
        ⟨q, (s.answer lib chance reply q).1⟩)
    have hshows := shows_answer lib s chance reply q h.shows
    rw [add_assoc, add_right_comm, ← hreqs, ← hsum, ← htests] at hshows
    exact hshows
  · have hsum := Slots.sum_map_set hr' (Running.logged a)
      (Running.logged_snoc (k (s.answer lib chance reply q).1)
        ⟨q, (s.answer lib chance reply q).1⟩)
    have hlogs := logged_answer (a := a) lib s chance reply q
    rw [h.logs, add_assoc, add_right_comm, ← hreqs, ← hsum, ← htests] at hlogs
    exact hlogs
  · obtain ⟨now, id, hrow⟩ := h.rows r' hr' entry hentry
    exact ⟨now, id, hkeep _ hrow⟩
  · rw [requestRows_append] at hentry
    rcases List.mem_append.mp hentry with hentry | hentry
    · obtain ⟨now, id, hrow⟩ := h.rows r hmem entry hentry
      exact ⟨now, id, hkeep _ hrow⟩
    · exact hnew entry hentry
  · obtain ⟨now, id, hrow⟩ := h.rowsOfTests t (htests ▸ ht) entry hentry
    exact ⟨now, id, hkeep _ hrow⟩

theorem kept_background (h : Kept lib executor a budget used s₀ s) {l : ServerStep}
    {app : AppState} (hbg : isBackground l = true) (hspares : (Label.background l).Spares a)
    (hstep : l.step lib s.app = some app) :
    Kept lib executor a budget used s₀ { s with app := app } := by
  refine { h with shows := ?_ }
  rcases background_accounts hbg hstep with hsame | ⟨c, rfl, hbody⟩
  · exact h.shows.same hsame
  · exact h.shows.account hspares (AccountCall.wrote hbody)

theorem kept_test (h : Kept lib executor a budget used s₀ s) (t : IncomingTest) :
    Kept lib executor a budget used s₀
      { s with tests := s.tests ++ [⟨t, t.handle lib.evaluator, []⟩] } := by
  have hnothing (f : RunningTest → ℤ) (hzero : f ⟨t, t.handle lib.evaluator, []⟩ = 0) :
      ((s.tests ++ [(⟨t, t.handle lib.evaluator, []⟩ : RunningTest)]).map f).sum =
        (s.tests.map f).sum := by
    rw [List.map_append, List.sum_append, List.map_singleton, List.sum_singleton, hzero, add_zero]
  refine { h with
    shows := ?_
    logs := ?_
    validTests := Slots.forall_concat h.validTests (Program.Exec.refl _ _)
    rowsOfTests := Slots.forall_concat h.rowsOfTests
      (fun _ hmem => absurd hmem List.not_mem_nil) }
  · rw [hnothing (RunningTest.charged a) rfl]
    exact h.shows
  · rw [hnothing (RunningTest.logged a) rfl]
    exact h.logs

/-- **A call of a test** does the same as one of a request. -/
theorem kept_testCall (h : Kept lib executor a budget used s₀ s) (chance : Chance)
    (reply : (q : TestReq) → q.Resp) {i : ℕ} {t : RunningTest} {q : TestReq}
    {k : q.Resp → TestM (AdminResult ConnectionTestResult)} (ht : s.tests[i]? = some t)
    (hrest : t.rest = .call q k) :
    Kept lib executor a budget used s₀ ((s.answerTest chance reply q).2.setTest i
      ⟨t.incoming, k (s.answerTest chance reply q).1,
        t.trace ++ [⟨q, (s.answerTest chance reply q).1⟩]⟩) := by
  have hmem := List.mem_of_getElem? ht
  have hreqs := requests_answerTest s chance reply q
  have htests := tests_answerTest s chance reply q
  have ht' : (s.answerTest chance reply q).2.tests[i]? = some t := by rw [htests]; exact ht
  obtain ⟨hkeep, hnew⟩ := rows_answerTest s chance reply q
  have hvalid := h.validTests t hmem
  rw [RunningTest.Valid, hrest] at hvalid
  refine ⟨fun r hr => h.valid r (hreqs ▸ hr), fun r hr => h.sound r (hreqs ▸ hr),
    fun r hr => h.limited r (hreqs ▸ hr), ?_, ?_, fun r hr entry hentry => ?_,
    Slots.forall_set (htests ▸ h.validTests) (hvalid.snoc _),
    Slots.forall_set (htests ▸ fun t' ht' entry hentry => ?_) fun entry hentry => ?_⟩
  · have hsum := Slots.sum_map_set ht' (RunningTest.charged a)
      (RunningTest.charged_snoc (k (s.answerTest chance reply q).1)
        ⟨q, (s.answerTest chance reply q).1⟩)
    have hshows := shows_answerTest s chance reply q h.shows
    rw [add_assoc, add_assoc, ← htests, ← hsum, ← hreqs] at hshows
    exact hshows
  · have hsum := Slots.sum_map_set ht' (RunningTest.logged a)
      (RunningTest.logged_snoc (k (s.answerTest chance reply q).1)
        ⟨q, (s.answerTest chance reply q).1⟩)
    have hlogs := logged_answerTest (a := a) s chance reply q
    rw [h.logs, add_assoc, add_assoc, ← htests, ← hsum, ← hreqs] at hlogs
    exact hlogs
  · obtain ⟨now, id, hrow⟩ := h.rows r (hreqs ▸ hr) entry hentry
    exact ⟨now, id, hkeep _ hrow⟩
  · obtain ⟨now, id, hrow⟩ := h.rowsOfTests t' ht' entry hentry
    exact ⟨now, id, hkeep _ hrow⟩
  · rw [testRows_append] at hentry
    rcases List.mem_append.mp hentry with hentry | hentry
    · obtain ⟨now, id, hrow⟩ := h.rowsOfTests t hmem entry hentry
      exact ⟨now, id, hkeep _ hrow⟩
    · exact hnew entry hentry

/-- **One step** keeps the books. -/
theorem kept_step {l : Label} (hspares : l.Spares a) (h : Kept lib executor a budget used s₀ s)
    (hstep : step lib executor s l = some s') : Kept lib executor a budget used s₀ s' := by
  rcases step_cases hstep with ⟨r, -, rfl⟩ | ⟨i, r, q, k, chance, reply, -, hr, hrest, rfl⟩ |
    ⟨bg, app, rfl, hbg, happ, rfl⟩ | ⟨t, -, rfl⟩ |
    ⟨i, t, q, k, chance, reply, -, ht, hrest, rfl⟩
  · exact kept_arrive h r
  · exact kept_call h chance reply hr hrest
  · exact kept_background h hbg hspares happ
  · exact kept_test h t
  · exact kept_testCall h chance reply ht hrest

theorem kept_run {ls : List Label} (h₀ : s₀.Idle) (hshows : a.Shows budget used s₀.app.db)
    (hspares : ∀ l ∈ ls, l.Spares a) (hrun : Machine.run (step lib executor) s₀ ls = some s) :
    Kept lib executor a budget used s₀ s :=
  Machine.run_invariant (fun _ _ _ hl hs hstep => kept_step hl hs hstep) hrun
    (Machine.along_of_labels hspares) (kept_init h₀ hshows)

end Service

/-! ### Requests that are through -/

theorem PaidFor.exists_paid {ctx : ExecutionContext} {cost : ℤ} {t : List ExecCall}
    (h : PaidFor ctx cost t) (hsound : ¬Faulty (billingCalls t)) :
    ∃ x, Paid ctx x t ∧ (0 ≤ cost → x = cost) := by
  by_cases hcost : 0 ≤ cost
  · exact ⟨cost, h.paid hsound hcost, fun _ => rfl⟩
  · obtain ⟨s, hs, hm⟩ := h.kept hsound (by omega)
    exact ⟨s.preCharged, .session s hs hm, fun h0 => absurd h0 hcost⟩

/-- What has been paid has been charged to the accounts of the request. -/
theorem Paid.onCharge {ctx : ExecutionContext} {x : ℤ} {t : List ProxyCall} {a : Account}
    (h : Paid ctx x (execCalls t)) (hlimited : Service.ReadsLimited a t) :
    charged a.onCharge (billingCalls (execCalls t)) =
      if a.names (some ctx.userId) (some ctx.tokenId) then x else 0 := by
  cases h with
  | nothing hno hx =>
    rw [hno.charged_eq, hx]
    exact (ite_self _).symm
  | session s hs hm =>
    cases a with
    | user u =>
      rw [Account.onCharge, hm.onUser, hs.user]
      simp [Account.names]
    | token k owner =>
      rw [Account.onCharge, hm.onToken, hs.token]
      by_cases hk : ctx.tokenId = k
      · have hflag : s.tokenUnlimited = false := hlimited _ (hk ▸ hs.flag)
        simp [Account.names, hk, hflag]
      · simp [Account.names, hk]

namespace Running

variable {executor : Executor} {r : Running} {a : Account}

/-- A request that is not through has logged nothing. -/
theorem Valid.logged_pending (h : r.Valid executor) (hrest : r.isThrough = false) :
    r.logged a = 0 := by
  obtain ⟨incoming, rest, trace⟩ := r
  cases rest with
  | pure out => cases hrest
  | call q k =>
    rw [logged, requestRows_of_call h]
    rfl

/-- **A request that is through** has been charged what it has logged. -/
theorem Valid.charged_through (h : r.Valid executor) (hrest : r.isThrough = true)
    (hsound : ¬Faulty (billingCalls (execCalls r.trace)))
    (hlimited : Service.ReadsLimited a r.trace)
    (hcost : ∀ entry ∈ requestRows r.trace, a.names entry.userId entry.tokenId = true →
      0 ≤ entry.quotaCost) : r.charged a = r.logged a := by
  obtain ⟨incoming, rest, trace⟩ := r
  cases rest with
  | call q k => cases hrest
  | pure out =>
    have hthrough : Through incoming out trace := serveRequest_audit.sound h
    rcases hthrough with ⟨-, hrows, hexec, -⟩ | ⟨model, entry, -, hbooked⟩
    · rw [charged, logged, hrows, hexec]
      rfl
    · obtain ⟨x, hpaid, hx⟩ := hbooked.paid.exists_paid hsound
      have hserved : entry.isFailedTest = false := by
        rw [RequestLogEntry.isFailedTest, hbooked.tells.method]
        rfl
      rw [charged, logged, hbooked.row, List.map_singleton, List.sum_singleton,
        hpaid.onCharge hlimited, RequestLogEntry.costFor, hbooked.tells.user, hbooked.tells.token,
        hserved, Bool.not_false, Bool.and_true]
      have hentry := hcost entry (by rw [hbooked.row]; exact List.mem_singleton_self _)
      rw [hbooked.tells.user, hbooked.tells.token] at hentry
      show (if a.names (some incoming.auth.user.id) (some incoming.auth.token.id) = true
        then x else 0) = _
      split
      · rename_i hnames
        exact hx (hentry hnames)
      · rfl

end Running

namespace RunningTest

variable {evaluator : BillingExpr.Evaluator} {t : RunningTest} {a : Account}

/-- A test that is not through has logged nothing. -/
theorem Valid.logged_pending (h : t.Valid evaluator) (hrest : t.isThrough = false) :
    t.logged a = 0 := by
  obtain ⟨incoming, rest, trace⟩ := t
  cases rest with
  | pure out => cases hrest
  | call q k =>
    have hrows : testRows trace = [] := (incoming.handle_tested.sound h).1
    rw [logged, hrows]
    rfl

/-- **A test that is through** has been charged what it has logged. -/
theorem Valid.charged_through (h : t.Valid evaluator) (hrest : t.isThrough = true)
    (hcost : ∀ entry ∈ testRows t.trace, a.names entry.userId entry.tokenId = true →
      0 ≤ entry.quotaCost) : t.charged a = t.logged a := by
  obtain ⟨incoming, rest, trace⟩ := t
  cases rest with
  | call q k => cases hrest
  | pure out =>
    have htested : Tested incoming.adminUserId trace := incoming.handle_tested.sound h
    rcases htested with ⟨hcharges, hrows⟩ | ⟨entry, hrow, hmethod, huser, htoken, hcharges⟩
    · rw [charged, logged, hcharges, hrows]
      rfl
    · have hentry := hcost entry (by rw [hrow]; exact List.mem_singleton_self _)
      rw [charged, logged, hrow, hcharges, List.map_singleton, List.sum_singleton,
        RequestLogEntry.costFor, RequestLogEntry.isFailedTest, hmethod, beq_self_eq_true,
        Bool.true_and]
      rw [huser, htoken] at hentry ⊢
      by_cases hstatus : entry.responseStatus = 200
      · rw [hstatus]
        by_cases hpays : 0 < entry.quotaCost
        · simp [hpays, Account.onTest]
        · cases hnames : a.names (some incoming.adminUserId) none with
          | false => simp [hpays]
          | true =>
            have hzero : entry.quotaCost = 0 := by
              have := hentry hnames
              omega
            simp [hzero]
      · rw [if_neg fun hboth => hstatus hboth.1]
        simp [hstatus]

end RunningTest

/-- What has been charged, and who is not through. -/
theorem sum_charged_eq {α : Type} (l : List α) (charged logged : α → ℤ) (isThrough : α → Bool)
    (h : ∀ x ∈ l, charged x = logged x + if isThrough x then 0 else charged x) :
    (l.map charged).sum =
      (l.map logged).sum + ((l.filter fun x => !isThrough x).map charged).sum := by
  rw [List.map_congr_left h, List.sum_map_add]
  congr 1
  clear h
  induction l with
  | nil => rfl
  | cons x xs ih => cases hx : isThrough x <;> simp [hx, ih]

/-! ### The books -/

namespace Service

variable {lib : ServerLibraries} {executor : Executor} {s₀ s : Service} {a : Account}
  {budget used : ℤ}

/-- What requests and tests have charged is what they have logged, and what those hold that are not
through. -/
theorem charged_eq (h : Kept lib executor a budget used s₀ s)
    (hcost : ∀ row ∈ s.requestLogs.rows, a.names row.userId row.tokenId = true →
      0 ≤ row.quotaCost) :
    (s.requests.map (Running.charged a)).sum + (s.tests.map (RunningTest.charged a)).sum =
      ((s.requests.map (Running.logged a)).sum + (s.tests.map (RunningTest.logged a)).sum) +
        s.pending a := by
  have hrequests := sum_charged_eq s.requests (Running.charged a) (Running.logged a)
    Running.isThrough fun r hr => by
      cases hrest : r.isThrough with
      | true =>
        rw [if_pos rfl, add_zero]
        refine (h.valid r hr).charged_through hrest (h.sound r hr) (h.limited r hr) ?_
        intro entry hentry hnames
        obtain ⟨now, id, hrow⟩ := h.rows r hr entry hentry
        exact hcost _ hrow hnames
      | false =>
        rw [(h.valid r hr).logged_pending hrest]
        simp
  have htests := sum_charged_eq s.tests (RunningTest.charged a) (RunningTest.logged a)
    RunningTest.isThrough fun t ht => by
      cases hrest : t.isThrough with
      | true =>
        rw [if_pos rfl, add_zero]
        refine (h.validTests t ht).charged_through hrest ?_
        intro entry hentry hnames
        obtain ⟨now, id, hrow⟩ := h.rowsOfTests t ht entry hentry
        exact hcost _ hrow hnames
      | false =>
        rw [(h.validTests t ht).logged_pending hrest]
        simp
  rw [hrequests, htests, pending]
  exact add_add_add_comm ..

theorem Kept.books (h : Kept lib executor a budget used s₀ s)
    (hcost : ∀ row ∈ s.requestLogs.rows, a.names row.userId row.tokenId = true →
      0 ≤ row.quotaCost) :
    a.Shows budget (used + (s.logged a - s₀.logged a) + s.pending a) s.app.db := by
  have hshows := h.shows
  rw [charged_eq h hcost] at hshows
  have hlogs := h.logs
  rwa [show used + (s.logged a - s₀.logged a) + s.pending a =
    used + (((s.requests.map (Running.logged a)).sum + (s.tests.map (RunningTest.logged a)).sum) +
      s.pending a) by omega]

/-- **The books balance.** After any run that spares it, an account has used what it had used
before, what the request log has added for it, and what requests and tests hold that are not
through; what remains of a limited token has gone down by the same. -/
theorem books_balance (h₀ : s₀.Idle) (hshows : a.Shows budget used s₀.app.db)
    {ls : List Label} (hspares : ∀ l ∈ ls, l.Spares a)
    (hrun : Machine.run (step lib executor) s₀ ls = some s)
    (hcost : ∀ row ∈ s.requestLogs.rows, a.names row.userId row.tokenId = true →
      0 ≤ row.quotaCost) :
    a.Shows budget (used + (s.logged a - s₀.logged a) + s.pending a) s.app.db :=
  (kept_run h₀ hshows hspares hrun).books hcost

/-! ### A small run -/

/-- A model that one channel has, under its own name. -/
def boundConfig : BootstrapConfig where
  models := [⟨"model-7"⟩]
  channels := [⟨"main", "openai", "http://main"⟩]
  keys := [⟨"main", "sk-main", none, "paid", 100, none, none, none⟩]
  bindings := [⟨"model-7", "main", "up-a", 1⟩]

def boundLibraries : ServerLibraries where
  lower := Text.toAsciiLower
  evaluator := Executor.sample.evaluator
  readLimits := fun _ => none

/-- The small database, with a server that has just started. -/
def sampleStart : Service := ⟨.startup (fun _ => none) .sample 0, .empty, [], []⟩

/-- The model is configured, and one request for it is answered. -/
def sampleLabels : List Label :=
  let chance : Chance := ⟨fun _ => 0, fun _ => 0⟩
  [.background (.importFile boundConfig),
    .background (.event (.admin (.updateBindingPricing 1 ⟨1, "up-a"⟩ Executor.samplePricing)
      chance)),
    .arrive sampleIncoming] ++ List.replicate 16 (.call 0 chance fun q =>
      (Executor.sampleServer (Executor.sampleBytes 600) q .sample).1)

/-- What a test gets from outside, with the response to its request. -/
def sampleTestReply (head : Except String TestResponse) : (q : TestReq) → q.Resp
  | .buildClient _ => .ok ()
  | .send _ => (7, head)
  | .updateUsedQuotaDelta _ _ | .logRequest _ => .ok ()
  | .findChannel _ | .findModel _ | .findBinding _ _ => .error (.notFound "")

/-- The next call of a test, with the response it gets. -/
def sampleTestCall (i : ℕ) (head : Except String TestResponse) : Label :=
  .testCall i ⟨fun _ => 0, fun _ => 0⟩ (sampleTestReply head)

/-- The binding gets a price per call. -/
def priceLabel (price : Float) : Label :=
  .background (.event (.admin (.updateBindingPricing 1 ⟨1, "up-a"⟩
    ⟨.perCall, 0.0, 0.0, price, none⟩) ⟨fun _ => 0, fun _ => 0⟩))

/-- The channel is tested twice. It answers the first time, and then no more. -/
def testLabels : List Label :=
  [.test ⟨1, "test-1", .channel 1⟩, .test ⟨1, "test-2", .channel 1⟩] ++
    List.replicate 5 (sampleTestCall 0 (.ok ⟨200, "200 OK", none⟩)) ++
    List.replicate 4 (sampleTestCall 1 (.error "connection refused"))

theorem books_balance_sample :
    ∃ s, Machine.run (step boundLibraries Executor.sample) sampleStart
        (sampleLabels ++ [priceLabel 0.00004] ++ testLabels) = some s ∧
      s.requestLogs.rows.map (fun row => (row.quotaCost, row.isFailedTest)) =
        [(50, false), (40, false), (40, true)] ∧
      s.logged (.user 1) = 90 ∧ (Account.user 1).Shows 0
        (10 + (s.logged (.user 1) - sampleStart.logged (.user 1)) + s.pending (.user 1))
        s.app.db := by
  have hrun : (Machine.run (step boundLibraries Executor.sample) sampleStart
      (sampleLabels ++ [priceLabel 0.00004] ++ testLabels)).any (fun s =>
        s.requestLogs.rows.map (fun row => (row.quotaCost, row.isFailedTest)) =
          [(50, false), (40, false), (40, true)] ∧ s.logged (.user 1) = 90) = true := by
    decide +kernel
  rw [Option.any_eq_true] at hrun
  obtain ⟨s, hrun, hend⟩ := hrun
  obtain ⟨hrows, hlogged⟩ := of_decide_eq_true hend
  refine ⟨s, hrun, hrows, hlogged, books_balance ⟨rfl, rfl⟩ ⟨_, rfl, rfl⟩ ?_ hrun
    fun row hrow _ => ?_⟩
  · simp [sampleLabels, priceLabel, testLabels, sampleTestCall, Label.Spares]
  · have hmem : (row.quotaCost, row.isFailedTest) ∈
        s.requestLogs.rows.map fun row => (row.quotaCost, row.isFailedTest) :=
      List.mem_map_of_mem (f := fun row : RequestLogRow => (row.quotaCost, row.isFailedTest)) hrow
    rw [hrows] at hmem
    simp only [List.mem_cons, Prod.mk.injEq, List.not_mem_nil, or_false] at hmem
    omega

end Service

end Chennix
