import Chennix.Common.Types
import Chennix.Foundations.Calendar

/-!
# Errors as text

How an error is shown in logs and in the answers to clients.

## Main definitions

* `ProxyError.display` — the text of an error
* `ProxyError.httpStatus` — the status a client sees
-/

namespace Chennix

open Foundations

/-- A character of a quoted text. -/
def escapeChar : Char → String
  | '"' => "\\\""
  | '\\' => "\\\\"
  | '\n' => "\\n"
  | '\r' => "\\r"
  | '\t' => "\\t"
  | c => if c.toNat = 0 then "\\0" else String.ofList [c]

/-- A text in quotes. -/
def debugStr (s : String) : String := "\"" ++ String.join (s.toList.map escapeChar) ++ "\""

/-- An optional value, in the form of its constructor. -/
def debugOption {α : Type} (show' : α → String) : Option α → String
  | none => "None"
  | some a => "Some(" ++ show' a ++ ")"

/-- A list in brackets. -/
def debugList {α : Type} (show' : α → String) (l : List α) : String :=
  "[" ++ String.intercalate ", " (l.map show') ++ "]"

namespace ProxyError

/-- `to_string`. -/
def display : ProxyError → String
  | .clientAuthFailed => "client auth failed"
  | .modelNotFound model => "model not found: " ++ model
  | .allKeysDisabled model => "all keys disabled for model: " ++ model
  | .allKeysCooldown model earliestRecovery =>
    "all keys in cooldown for model: " ++ model ++ ", earliest recovery: " ++
      debugOption (Calendar.rfc3339 · "Z") earliestRecovery
  | .allKeysQuotaExhausted model => "all keys quota exhausted for model: " ++ model
  | .allKeysExhausted model attemptedKeys lastError =>
    "all keys exhausted for model: " ++ model ++ ", attempted: " ++
      debugList debugStr attemptedKeys ++ ", last: " ++ debugOption debugStr lastError
  | .upstream status body => "upstream error: status " ++ status.repr ++ ", body: " ++ body
  | .invalidRequest msg => "invalid request: " ++ msg
  | .translator msg => "translator error: " ++ msg
  | .storage msg => "storage error: " ++ msg
  | .config msg => "config error: " ++ msg
  | .io msg => "io error: " ++ msg
  | .json msg => "json error: " ++ msg
  | .http msg => "http error: " ++ msg
  | .upstreamTimeout seconds => "upstream timeout after " ++ seconds.repr ++ "s"

/-- `http_status`. -/
def httpStatus : ProxyError → ℕ
  | .clientAuthFailed => 401
  | .modelNotFound _ => 404
  | .allKeysDisabled _ | .allKeysCooldown _ _ | .allKeysQuotaExhausted _
  | .allKeysExhausted _ _ _ => 503
  | .upstream status _ => status
  | .invalidRequest _ => 400
  | .translator _ => 502
  | .storage _ | .config _ => 500
  | .io _ | .json _ | .http _ => 500
  | .upstreamTimeout _ => 504

end ProxyError

end Chennix
