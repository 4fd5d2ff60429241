import EventRouting.Destination.Basic
import EventRouting.Script.Action

/-!
# Definitions as data

* `Definition.ofScript`   the definition that a value describes
-/

namespace EventRouting

def Authentication.ofScript (v : Json) : Authentication where
  fields := .declared (v.memberD "fields" .null)
  probe := match v.member? "test_credentials" with
    | none | some .null => none
    | some callable => some (Callable.ofScript callable)

def Definition.ofScript (v : Json) : Definition where
  name := (v.memberD "name" (.str "")).display
  slug := (v.memberD "slug" (.str "")).display
  authentication := match v.member? "authentication" with
    | none | some .null => none
    | some a => some (Authentication.ofScript a)
  extensions := match v.member? "extend_request" with
    | some (.arr items) => items.map Extension.ofScript
    | _ => []
  actions := match v.member? "actions" with
    | some (.obj ms) => ms.map fun m => (m.1, ActionSpec.ofScript m.2)
    | _ => []
  presets := match v.member? "presets" with
    | some (.arr items) => items
    | _ => []

end EventRouting
