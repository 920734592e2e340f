import Chennix.Core.Interface
import Chennix.Server.Loader

/-!
# The gateway

What happens to a proxy request before it is executed, and the list of models a client may ask for.

## Main definitions

* `AuthContext` — who asks
* `TokenConfig.allowsModel`, `proxyContext` — the model a request is for, and whether its token may
  use it
* `listModels` — the models a token is shown
-/

namespace Chennix

open Foundations

/-- What the authentication of a request passes on. -/
structure AuthContext where
  user : UserConfig
  token : TokenConfig
  clientIp : Option String

/-- A token without limits may use any model, one with limits those that are named. -/
def TokenConfig.allowsModel (t : TokenConfig) (model : String) : Bool :=
  if !t.modelLimitsEnabled then true
  else match t.modelLimits with
    | some models => models.any fun m => m == model
    | none => true

/-- The first steps of `proxy_request`, with the names the normalizer has loaded: the model that is
asked for, whether the token may use it, and the context of the execution. -/
def proxyContext (lower : String → String) (names : Map String (ℤ × String)) (auth : AuthContext)
    (body : Json) : ProxyResult ExecutionContext :=
  match body.getStr "model" with
  | none => .error (.invalidRequest "missing 'model' field")
  | some modelName => match Normalizer.resolve lower names modelName with
    | none => .error (.modelNotFound modelName)
    | some (modelId, canonicalName) =>
      if !auth.token.allowsModel canonicalName then
        .error (.invalidRequest s!"model '{canonicalName}' is not allowed for this token")
      else .ok
        { userId := auth.user.id
          tokenId := auth.token.id
          userGroup := auth.user.group
          modelId := modelId
          canonicalName := canonicalName }

/-- `eq_ignore_ascii_case`. -/
def eqIgnoreAsciiCase (s t : String) : Bool := Text.toAsciiLower s == Text.toAsciiLower t

/-- The models a token is shown: of a token with limits those that a limit names, whatever the
case of its letters. -/
def shownModels (auth : AuthContext) (db : Db) : List ModelRow :=
  let models := ModelRepo.listAllModels db
  if auth.token.modelLimitsEnabled then
    match auth.token.modelLimits with
    | some limits =>
      if limits ≠ [] then
        models.filter fun m => limits.any fun l => eqIgnoreAsciiCase l m.canonicalName
      else []
    | none => models
  else models

/-- `list_models`. -/
def listModels (auth : AuthContext) (db : Db) : Json :=
  .ofMembers [("object", .string "list"),
    ("data", .array ((shownModels auth db).map fun m => .ofMembers
      [("id", .string m.canonicalName), ("object", .string "model"), ("created", .ofU64 0),
        ("owned_by", .string "chennix")]))]

end Chennix
