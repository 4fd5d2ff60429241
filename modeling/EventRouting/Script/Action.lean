import EventRouting.Action.Builder
import EventRouting.Script.Callable

/-!
# Actions as data

* `Builder.ofScript`      the calls of a builder that values describe
* `ActionSpec.ofScript`   the action that a value describes
-/

namespace EventRouting

/-! ## builders -/

def CachedRequest.ofScript (v : Json) : CachedRequest where
  ttl := v.memberD "ttl" .null
  key := KeyRule.ofScript (v.memberD "key" .null)
  value := Callable.ofScript (v.memberD "value" .null)
  field := v.memberD "as" .null

namespace Builder

def applyCall (b : Builder) (call : Json) : Except Fault Builder :=
  match call with
  | .arr [.str "describe", v] =>
    .ok (b.describe (v.memberD "title" (.str "")) (v.memberD "description" (.str ""))
      (v.memberD "default_subscription" .null) (v.memberD "hidden" (.bool false)))
  | .arr [.str "fields", v] => (Field.declared v).map b.setFields
  | .arr [.str "validate_settings", schema] => b.validate .usual .settings schema
  | .arr [.str "validate_payload", schema] => b.validate .usual .payload schema
  | .arr [.str "validate_step", schema, target] => (Step.validation .usual schema target).map b.addStep
  | .arr [.str "cached_request", v] =>
    let c := CachedRequest.ofScript v
    b.cachedRequest c.ttl c.key c.value c.field
  | .arr [.str "request", callable] => .ok (b.request (Callable.ofScript callable) "request")
  | .arr [.str "request", callable, name] => .ok (b.request (Callable.ofScript callable) name.display)
  | .arr [.str "autocomplete", key, handler] =>
    .ok (b.handle key.display (Callable.ofScript handler))
  | _ => .error .wrongShape

def ofScript (calls : List Json) (b : Builder) : Except Fault Builder := calls.foldlM applyCall b

end Builder

/-! ## actions -/

namespace ActionDeclaration

def handlersOf (v : Json) : Members Callable :=
  match v with
  | .obj ms => ms.map fun m => (m.1, Callable.ofScript m.2)
  | _ => []

def ofScript (v : Json) : ActionDeclaration where
  title := v.memberD "title" (.str "")
  description := v.memberD "description" (.str "")
  fields := .declared (v.memberD "fields" .null)
  defaultSubscription := v.memberD "default_subscription" .null
  hidden := v.memberD "hidden" (.bool false)
  perform := Callable.ofScript (v.memberD "perform" .null)
  cachedRequests := match v.member? "cached_requests" with
    | some (.arr items) => items.map CachedRequest.ofScript
    | _ => []
  handlers := handlersOf (v.memberD "autocomplete" .null)

end ActionDeclaration

def ActionSpec.ofScript (v : Json) : ActionSpec :=
  match v.member? "invalid", v.member? "builder" with
  | some _, _ => .invalid
  | none, some (.arr calls) => .built (Builder.ofScript calls)
  | none, _ => .declared (ActionDeclaration.ofScript v)

end EventRouting
