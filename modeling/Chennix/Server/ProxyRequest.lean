import Chennix.Core.Executor
import Chennix.Server.Gateway
import Chennix.Server.StreamTask
import Chennix.Storage.Reports

/-!
# A proxy request from beginning to end

The pipeline that both entry points share: the name of the model, the snapshot and the normalizer,
the limits of the token, the execution, and a row of the request log about what has come of it. For
a streaming request the row is written by the task that relays the stream, after it has settled the
session and tracked the usage.

## Main definitions

* `ProxyReq`, `ProxyM` — what a request calls, the calls of its execution among them
* `Incoming` — a request, as its handler gets it
* `proxyRequest` — the handler
* `streamTask` — the task that relays a stream
* `serveRequest` — a request with its task
-/

namespace Chennix

open Foundations Json

/-- A row for the request log. -/
structure RequestLogEntry where
  requestId : String
  clientIp : Option String
  method : String
  path : String
  clientModel : Option String
  normalizedModel : Option String
  channelName : Option String
  keyLabel : Option String
  /-- Separated by commas. -/
  attemptedKeys : Option String
  upstreamStatus : Option ℕ
  upstreamModel : Option String
  responseStatus : ℕ
  durationMs : ℤ
  stream : Bool
  errorMessage : Option String
  userId : Option ℤ
  tokenId : Option ℤ
  quotaCost : ℤ
  deriving DecidableEq

/-- The calls of a request. -/
inductive ProxyReq
  /-- `cache.get`: see to it that the snapshot is there, and with it the names. -/
  | loadSnapshot
  | resolve (modelName : String)
  | exec (q : ExecReq)
  | logRequest (entry : RequestLogEntry)

namespace ProxyReq

/-- What each call replies. -/
@[reducible] def Resp : ProxyReq → Type
  | loadSnapshot => ProxyResult Unit
  | resolve _ => ProxyResult (Option (ℤ × String))
  | exec q => q.Resp
  | logRequest _ => ProxyResult Unit

end ProxyReq

/-- Programs of a request. -/
abbrev ProxyM (α : Type) : Type := Program ProxyReq ProxyReq.Resp α

/-- A call of a request with its reply. -/
abbrev ProxyCall : Type := Answered ProxyReq ProxyReq.Resp

/-- Await one call. -/
def ask (q : ProxyReq) : ProxyM q.Resp := .perform q

/-- An execution, inside a request. -/
def executing {α : Type} (p : ExecM α) : ProxyM α := p.embed .exec fun _ r => r

/-- A request, as its handler gets it, and what it takes from its surroundings: the identifier it
draws, how long it takes until its row is written, and when its client leaves. -/
structure Incoming where
  auth : AuthContext
  entryFormat : EntryFormat
  body : Json
  requestId : String
  elapsedMs : ℤ
  client : Receiver

namespace Incoming

variable (r : Incoming)

/-- The path that leads to the handler. -/
def path : String :=
  match r.entryFormat with
  | .openAI => "/v1/chat/completions"
  | .claude => "/v1/messages"

/-- `stream: true` -/
def isStream : Bool := ((r.body.get "stream").bind Json.asBool).getD false

/-- The context of the execution. -/
def context (model : ℤ × String) : ExecutionContext where
  userId := r.auth.user.id
  tokenId := r.auth.token.id
  userGroup := r.auth.user.group
  modelId := model.1
  canonicalName := model.2

end Incoming

/-- The keys of a row, separated by commas. -/
def attemptedKeysCsv (keys : List String) : Option String :=
  if keys.isEmpty then none else some (String.intercalate "," keys)

/-- The text of a failure, after the channel and the model where they are known. -/
def formatFailureMessage (fail : ExecutionFailure) : String :=
  match fail.channelName, fail.upstreamModelName with
  | some ch, some m => "[channel=" ++ ch ++ ", model=" ++ m ++ "] " ++ fail.error.display
  | some ch, none => "[channel=" ++ ch ++ "] " ++ fail.error.display
  | none, some m => "[model=" ++ m ++ "] " ++ fail.error.display
  | none, none => fail.error.display

/-! ### The rows of the request log -/

namespace RequestLogEntry

variable (r : Incoming) (modelName canonicalName : String)

/-- What all rows of the handler have in common. -/
def ofHandler (responseStatus : ℕ) (stream : Bool) (quotaCost : ℤ) : RequestLogEntry where
  requestId := r.requestId
  clientIp := r.auth.clientIp
  method := "POST"
  path := r.path
  clientModel := some modelName
  normalizedModel := some canonicalName
  channelName := none
  keyLabel := none
  attemptedKeys := none
  upstreamStatus := none
  upstreamModel := none
  responseStatus := responseStatus
  durationMs := r.elapsedMs
  stream := stream
  errorMessage := none
  userId := some r.auth.user.id
  tokenId := some r.auth.token.id
  quotaCost := quotaCost

/-- The row of a request that a limit of its token refuses. Such a row never says that the request
is for a stream. -/
def ofRefusal (error : ProxyError) : RequestLogEntry :=
  { ofHandler r modelName canonicalName error.httpStatus false 0 with
    errorMessage := some error.display }

/-- The row of an execution that has failed. -/
def ofFailure (stream : Bool) (fail : ExecutionFailure) : RequestLogEntry :=
  { ofHandler r modelName canonicalName fail.error.httpStatus stream 0 with
    channelName := fail.channelName
    keyLabel := fail.keyLabel
    attemptedKeys := attemptedKeysCsv fail.attemptedKeys
    upstreamStatus := fail.upstreamStatus
    upstreamModel := fail.upstreamModelName
    errorMessage := some (formatFailureMessage fail) }

/-- The row of an execution that has brought a response. -/
def ofResult (result : ExecutionResult) : RequestLogEntry :=
  { ofHandler r modelName canonicalName 200 false result.quotaCost with
    channelName := some result.channelName
    keyLabel := result.keyLabel
    attemptedKeys := attemptedKeysCsv result.attemptedKeys
    upstreamStatus := result.upstreamStatus
    upstreamModel := some result.upstreamModelName }

/-- The row of a stream that has come to its end. It leaves the path empty, and of the keys that
have been tried it names the last. -/
def ofStream (rk : RoutedKey) (cost : ℤ) : RequestLogEntry :=
  { ofHandler r modelName canonicalName 200 true cost with
    path := ""
    channelName := some rk.channel.name
    keyLabel := rk.key.label
    attemptedKeys := rk.key.label
    upstreamModel := some rk.upstreamModelName }

end RequestLogEntry

/-! ### The handler -/

/-- What the handler has for the client: a whole body, or a stream that a task relays. -/
inductive Response
  | json (body : Bytes)
  | sse (bootstrap : StreamBootstrap) (modelName : String) (model : ℤ × String)

section Handler

variable (executor : Executor) (r : Incoming)

/-- `log_request_entry`: a row that cannot be written does not concern the client. -/
def logRequestEntry (entry : RequestLogEntry) : ProxyM Unit := do
  let _ ← ask (.logRequest entry)
  return ()

/-- The branch of a request for a stream. -/
def proxyStream (modelName : String) (model : ℤ × String) : ProxyM (ProxyResult Response) := do
  match ← executing (executor.executeStream (r.context model) r.entryFormat r.body) with
  | .ok bootstrap => return .ok (.sse bootstrap modelName model)
  | .error fail => do
    logRequestEntry (.ofFailure r modelName model.2 true fail)
    return .error fail.error

/-- The branch of a request for a whole body. -/
def proxyWhole (modelName : String) (model : ℤ × String) : ProxyM (ProxyResult Response) := do
  match ← executing (executor.execute (r.context model) r.entryFormat r.body) with
  | .ok result => do
    logRequestEntry (.ofResult r modelName model.2 result)
    return .ok (.json result.body)
  | .error fail => do
    logRequestEntry (.ofFailure r modelName model.2 false fail)
    return .error fail.error

/-- From the model on: the limits of the token, and the execution. -/
def proxyModel (modelName : String) (model : ℤ × String) : ProxyM (ProxyResult Response) :=
  if !r.auth.token.allowsModel model.2 then do
    let error := ProxyError.invalidRequest s!"model '{model.2}' is not allowed for this token"
    logRequestEntry (.ofRefusal r modelName model.2 error)
    return .error error
  else if r.isStream then proxyStream executor r modelName model
  else proxyWhole executor r modelName model

/-- `proxy_request`. -/
def proxyRequest : ProxyM (ProxyResult Response) :=
  match r.body.getStr "model" with
  | none => return .error (.invalidRequest "missing 'model' field")
  | some modelName => do
    match ← ask .loadSnapshot with
    | .error e => return .error e
    | .ok () => do
      match ← ask (.resolve modelName) with
      | .error e => return .error e
      | .ok none => return .error (.modelNotFound modelName)
      | .ok (some model) => proxyModel executor r modelName model

/-- What the handler answers up to the snapshot agrees with what was resolved from it. -/
theorem proxyContext_eq (lower : String → String) (names : Map String (ℤ × String)) :
    proxyContext lower names r.auth r.body =
      match r.body.getStr "model" with
      | none => .error (.invalidRequest "missing 'model' field")
      | some modelName => match Normalizer.resolve lower names modelName with
        | none => .error (.modelNotFound modelName)
        | some model => if !r.auth.token.allowsModel model.2 then
            .error (.invalidRequest s!"model '{model.2}' is not allowed for this token")
          else .ok (r.context model) := by
  unfold proxyContext
  cases r.body.getStr "model" with
  | none => rfl
  | some modelName =>
    dsimp only
    cases Normalizer.resolve lower names modelName with
    | none => rfl
    | some model => rfl

/-! ### The task -/

/-- The cost of a stream, from the usage it has reported. -/
def streamCost (bootstrap : StreamBootstrap) : ℤ :=
  actualCost executor.evaluator
    (deliver executor.codec bootstrap.entryFormat bootstrap.adaptorProvider executor.now
      bootstrap.response.chunks r.client).2 bootstrap.modelPricing

/-- What comes after the last chunk. A settlement that fails is only logged, and so is what comes
after it. -/
def closeStream (modelName : String) (model : ℤ × String) (bootstrap : StreamBootstrap)
    (usage : Usage) (cost : ℤ) : ProxyM Unit := do
  let _ ← executing (billing (BillingManager.settle bootstrap.session cost))
  let _ ← executing (Tracker.trackSuccess (r.context model) bootstrap.routedKey usage cost "chat")
  logRequestEntry (.ofStream r modelName model.2 bootstrap.routedKey cost)

/-- The task that `stream_sse_response` spawns, with what the client has taken. -/
def streamTask (modelName : String) (model : ℤ × String) (bootstrap : StreamBootstrap) :
    ProxyM (List Sent) := do
  let (taken, usage) := deliver executor.codec bootstrap.entryFormat bootstrap.adaptorProvider
    executor.now bootstrap.response.chunks r.client
  closeStream r modelName model bootstrap usage (streamCost executor r bootstrap)
  return taken

/-- What has become of a request when its handler and its task are through. -/
inductive Served
  | refused (error : ProxyError)
  | whole (body : Bytes)
  | streamed (taken : List Sent)

/-- The status of the response. -/
def Served.status : Served → ℕ
  | .refused error => error.httpStatus
  | .whole _ => 200
  | .streamed _ => 200

/-- A request with its task. -/
def serveRequest : ProxyM Served := do
  match ← proxyRequest executor r with
  | .error e => return .refused e
  | .ok (.json body) => return .whole body
  | .ok (.sse bootstrap modelName model) => do
    let taken ← streamTask executor r modelName model bootstrap
    return .streamed taken

end Handler

end Chennix
