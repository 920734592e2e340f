import Chennix.Foundations.Views
import Chennix.Storage.Channels
import Mathlib.Data.String.Basic

/-!
# Reports

The statements that read `usage_logs` and `request_logs`. Each puts its condition together from the
parameters it is given: a user, a span of time, a channel, a model, a status.

A usage log has columns that only reports read. They stand beside the row of the database, under its
id.

## Main definitions

* `UsageLog`, `RequestLogRow` — the rows of the two tables
* `ReportDb` — the database with what only reports read
* `SqlDates` — the date functions of the engine
* `UsageRepo` — the statements
-/

namespace Chennix

open Foundations

/-! ### The tables -/

/-- The columns of `usage_logs` that only reports read. -/
structure UsageColumns where
  quotaCost : ℤ
  totalTokens : ℤ
  createdAt : String

/-- A row of `usage_logs`. -/
structure UsageLog extends UsageLogRow, UsageColumns

instance : Keyed UsageLog ℤ := ⟨fun l => l.id⟩

/-- The columns of `request_logs` that are shown as they are stored. -/
structure RequestLogColumns where
  id : ℤ
  requestId : String
  clientIp : Option String
  method : String
  path : String
  clientModel : Option String
  normalizedModel : Option String
  channelName : Option String
  keyLabel : Option String
  upstreamModel : Option String
  durationMs : ℤ
  userId : Option ℤ
  tokenId : Option ℤ
  quotaCost : ℤ
  errorMessage : Option String
  createdAt : String
  deriving DecidableEq

/-- A row of `request_logs`. -/
structure RequestLogRow extends RequestLogColumns where
  upstreamStatus : Option ℤ
  responseStatus : Option ℤ
  stream : ℤ
  deriving DecidableEq

instance : Keyed RequestLogRow ℤ := ⟨fun l => l.id⟩

/-- The database, with what only reports read. -/
structure ReportDb extends Db where
  /-- By the id of the usage log. -/
  usageColumns : ℤ → UsageColumns
  requestLogs : Table RequestLogRow := .empty

namespace ReportDb

/-- The whole row of a usage log. -/
def fullLog (s : ReportDb) (r : UsageLogRow) : UsageLog :=
  { toUsageLogRow := r, toUsageColumns := s.usageColumns r.id }

/-- `usage_logs`, with all columns. -/
def fullLogs (s : ReportDb) : Table UsageLog where
  rows := s.usageLogs.rows.map s.fullLog
  nodup := by
    rw [List.map_map]
    exact s.usageLogs.nodup

theorem mem_fullLogs {s : ReportDb} {l : UsageLog} :
    l ∈ s.fullLogs.rows ↔ ∃ r ∈ s.usageLogs.rows, s.fullLog r = l :=
  List.mem_map

end ReportDb

/-! ### What the engine computes -/

/-- The date functions of the engine. They make nothing of what is not a date, or out of range. -/
structure SqlDates where
  /-- `datetime(text)` -/
  datetime : String → Option String
  /-- `datetime(seconds, 'unixepoch')` -/
  unixepoch : ℤ → Option String

/-- `a <= b`, which is not true of `NULL`. -/
def sqlLE (a b : Option String) : Bool := a.any fun x => b.any fun y => x ≤ y

/-- The condition on the time. A bound of 0 is no bound. -/
def SqlDates.within (dates : SqlDates) (start endAt : ℤ) (createdAt : String) : Bool :=
  (start ≤ 0 || sqlLE (dates.unixepoch start) (dates.datetime createdAt)) &&
    (endAt ≤ 0 || sqlLE (dates.datetime createdAt) (dates.unixepoch endAt))

/-- `COALESCE(SUM(column), 0)`. -/
def sqlSum (column : List ℤ) : Except ProxyError ℤ :=
  column.foldlM (fun total x =>
    if (total + x).bmod (2 ^ 64) = total + x then .ok (total + x)
    else .error (.storage "integer overflow")) 0

/-- `LIMIT limit OFFSET offset`: a limit below 0 is none. -/
def sqlPage {α : Type} (limit offset : ℤ) (rows : List α) : List α :=
  if limit < 0 then rows.drop offset.toNat else (rows.drop offset.toNat).take limit.toNat

/-- `x as i32` -/
def asI32 (x : ℤ) : ℤ := x.bmod (2 ^ 32)

/-! ### What is reported -/

structure UsageSummary where
  channelId : ℤ
  channelName : String
  model : String
  totalTokens : ℤ
  requestCount : ℕ
  totalCost : ℤ
  deriving DecidableEq

structure RequestLog extends RequestLogColumns where
  upstreamStatus : Option ℤ
  responseStatus : ℤ
  stream : Bool
  deriving DecidableEq

structure TokenUsageStats where
  totalTokens : ℤ
  requestCount : ℕ
  lastUsedAt : Option String
  deriving DecidableEq

/-- The status of a response may be missing, which the reader does not expect. -/
def mapAdminRequestLog (r : RequestLogRow) : Except ProxyError RequestLog :=
  match r.responseStatus with
  | none => .error (.storage "Invalid column type Null at index: 11, name: response_status")
  | some status => .ok
    { toRequestLogColumns := r.toRequestLogColumns
      upstreamStatus := r.upstreamStatus.map asI32
      responseStatus := asI32 status
      stream := r.stream != 0 }

/-- A usage log, joined with its channel and its model. -/
structure JoinedLog where
  channelId : ℤ
  channelName : String
  model : String
  totalTokens : ℤ
  quotaCost : ℤ

namespace JoinedLog

/-- What entries are grouped by; the name of the channel goes with its id. -/
def group (e : JoinedLog) : ℤ × String × String := (e.channelId, e.model, e.channelName)

/-- The order of the groups. -/
def groupLE (g g' : ℤ × String × String) : Prop := g.1 < g'.1 ∨ g.1 = g'.1 ∧ g.2.1 ≤ g'.2.1

instance : DecidableRel groupLE := fun g g' =>
  inferInstanceAs (Decidable (g.1 < g'.1 ∨ g.1 = g'.1 ∧ g.2.1 ≤ g'.2.1))

/-- One line of the summary. -/
def summarize (entries : List JoinedLog) (g : ℤ × String × String) :
    Except ProxyError UsageSummary := do
  let own := entries.filter fun e => e.group == g
  let totalTokens ← sqlSum (own.map JoinedLog.totalTokens)
  let totalCost ← sqlSum (own.map JoinedLog.quotaCost)
  return ⟨g.1, g.2.2, g.2.1, totalTokens, own.length, totalCost⟩

/-- `GROUP BY channel_id, canonical_name ORDER BY SUM(total_tokens) DESC` -/
def summary (entries : List JoinedLog) : Except ProxyError (List UsageSummary) := do
  let groups := (entries.map group).eraseDups.insertionSort groupLE
  let lines ← groups.mapM (summarize entries)
  return lines.insertionSort fun line line' => line.totalTokens ≥ line'.totalTokens

end JoinedLog

namespace UsageRepo

variable (dates : SqlDates)

/-- `JOIN channels … JOIN models …` -/
def join (channels : Table ChannelConfig) (models : Table ModelRow) (l : UsageLog) :
    Option JoinedLog := do
  let c ← channels.find? l.channelId
  let m ← models.find? l.modelId
  return ⟨l.channelId, c.name, m.canonicalName, l.totalTokens, l.quotaCost⟩

/-- The condition on the columns of the usage log itself. -/
def usageSelected (channelId : Option ℤ) (start endAt : ℤ) (userId : Option ℤ) (l : UsageLog) :
    Bool :=
  (userId.all fun id => l.userId == some id) && dates.within start endAt l.createdAt &&
    channelId.all fun id => l.channelId == id

def getUsageSummary (channelId : Option ℤ) (model : Option String) (start endAt : ℤ)
    (userId : Option ℤ) (s : ReportDb) : Except ProxyError (List UsageSummary) :=
  let logs := s.fullLogs.select (usageSelected dates channelId start endAt userId)
  JoinedLog.summary
    ((logs.filterMap (join s.channels s.models)).filter fun e => model.all fun m => e.model == m)

/-- The condition on a request log. -/
def requestSelected (channels : Table ChannelConfig) (channelId : Option ℤ) (model : Option String)
    (statusCode : Option ℤ) (start endAt : ℤ) (userId : Option ℤ) (r : RequestLogRow) : Bool :=
  (userId.all fun id => r.userId == some id) && dates.within start endAt r.createdAt &&
    (channelId.all fun id => r.channelName.any fun name =>
      (channels.find? id).any fun c => name == c.name) &&
    (model.all fun m => r.normalizedModel == some m) &&
    statusCode.all fun code => r.responseStatus == some code

/-- One page of the request logs, the newest first, and how many there are. -/
def getRequestLogs (page perPage : ℤ) (channelId : Option ℤ) (model : Option String)
    (statusCode : Option ℤ) (start endAt : ℤ) (userId : Option ℤ) (s : ReportDb) :
    Except ProxyError (List RequestLog × ℕ) := do
  let rows := s.requestLogs.select
    (requestSelected dates s.channels channelId model statusCode start endAt userId)
  -- The product wraps around, and the engine takes an offset below 0 for 0.
  let offset := ((page - 1) * perPage).bmod (2 ^ 64)
  let logs ← (sqlPage perPage offset rows.reverse).mapM mapAdminRequestLog
  return (logs, rows.length)

/-- What was used with a token. -/
def getTokenUsageStats (tokenId : ℤ) (s : ReportDb) : Except ProxyError TokenUsageStats := do
  let logs := s.fullLogs.select fun l => l.tokenId == some tokenId
  let totalTokens ← sqlSum (logs.map fun l => l.totalTokens)
  return ⟨totalTokens, logs.length, (logs.map fun l => l.createdAt).max?⟩

end UsageRepo

end Chennix
