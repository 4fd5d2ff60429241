import EventRouting.Request.Talk
import EventRouting.Script.Fault
import EventRouting.Template.Parse

/-!
# Callables as data

A callable is described by what it raises, by a template of what it returns, or by one request.

* `Call.ofScript`       the call that a value describes, its parts being templates over a root
* `Callable.ofScript`   the callable that a value describes
* `Extension.ofScript`  the extension that a value describes
* `KeyRule.ofScript`    the key that a value describes
-/

namespace EventRouting

/-- A part of a call: a template over a root, null if it is not there. -/
def Call.part (ms : Members Json) (root : Json) (key : String) : Except Fault Json :=
  match ms.get? key with
  | none => .ok .null
  | some template => Json.transform template root

def Call.ofScript (v root : Json) : Except Fault Call :=
  match v with
  | .obj ms => do
    let url ← part ms root "url"
    let json ← part ms root "json"
    let data ← part ms root "data"
    let content ← part ms root "content"
    let params ← part ms root "params"
    let headers ← part ms root "headers"
    let timeout ← part ms root "timeout"
    return ⟨((Members.get? ms "method").getD (.str "get")).display, url, json, data, content, params,
      headers, timeout⟩
  | _ => .error .wrongShape

/-- The document in an answer; a text that is none is a fault. -/
def Response.readDocument (r : Response) : Except Fault Json :=
  match r.document with
  | .ok v => .ok v
  | .error e => .error (.mishap .badDocument (some (e.located r.body)))

/-- What is made of an answer: all of it, or what a template takes out of its document. -/
def Talk.picking (pick : Option Json) (r : Response) : Talk :=
  match pick with
  | none => .pass r
  | some template => .ofExcept (r.readDocument.bind fun document => Json.transform template document)

def Callable.ofScript (v : Json) : Callable := fun i =>
  match v.member? "raise", v.member? "return", v.member? "request" with
  | some f, _, _ => .fail (Fault.raised f)
  | none, some template, _ => .ofExcept (Json.transform template i.view)
  | none, none, some call =>
    match Call.ofScript call i.view with
    | .error f => .fail f
    | .ok c => .askFor c (Talk.picking (v.member? "pick"))
  | none, none, none => .give .null

def Extension.ofScript (v : Json) : Extension := fun i =>
  match v.member? "raise", v.member? "options", v.member? "return" with
  | some f, _, _ => .error (Fault.raised f)
  | none, some o, _ => Options.ofObject o
  | none, none, some template => (Json.transform template i.view).bind Options.ofJson
  | none, none, none => .ok Options.empty

/-- The key that a value describes; options as a key stand for themselves. -/
def KeyRule.ofScript (v : Json) : KeyRule := fun i =>
  match v.member? "raise", v.member? "options", v.member? "return" with
  | some f, _, _ => .error (Fault.raised f)
  | none, some o, _ => .ok (.obj [("options", o)])
  | none, none, some template => Json.transform template i.view
  | none, none, none => .ok .null

end EventRouting
