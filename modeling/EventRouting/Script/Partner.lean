import EventRouting.Script.Fault
import EventRouting.Text.Case
import EventRouting.World.Basic

/-!
# Partners as data

A partner is described by rules.  The first rule whose conditions hold answers, with one answer after the
other and the last again and again.

* `Rule`               conditions on a request, and answers
* `Partner.ofRules`    the partner that rules describe
* `Partner.ofScript`   the partner that a value describes
* `Partner.constant`   a partner that has one answer for all
-/

namespace EventRouting

/-- Conditions on a request, and what is answered. -/
structure Rule where
  method : Option String
  path : Option String
  header : Option (String × String)
  answers : List (Except Fault Response)
deriving Inhabited

namespace Rule

def accepts (rule : Rule) (r : Request) : Bool :=
  (match rule.method with | some m => r.method == Text.upper m | none => true)
    && (match rule.path with | some p => r.address.decodedPath == p | none => true)
    && (match rule.header with | some (k, v) => r.header? k == some v | none => true)

def indexFor (rules : List Rule) (r : Request) : Nat := rules.findIdx fun rule => rule.accepts r

end Rule

def Response.ofDocument (status : Int) (v : Json) : Response :=
  ⟨status, [], Json.write Json.compactText v⟩

def Response.ofScript (v : Json) : Except Fault Response :=
  match v.member? "fail" with
  | some f => .error (Fault.raised f)
  | none =>
    let status := ((v.member? "status").bind Fault.integerOf?).getD 200
    let headers := match v.member? "headers" with
      | some (.obj ms) => ms.map fun m => (m.1, m.2.display)
      | _ => []
    let body := match v.member? "json", v.member? "text" with
      | some .null, none | none, none => ""
      | some .null, some t | none, some t => t.display
      | some document, _ => Json.write Json.compactText document
    .ok ⟨status, headers, body⟩

namespace Partner

def constant (answer : Except Fault Response) : Partner := fun _ _ => answer

def ofRules (rules : List Rule) (otherwise : Except Fault Response) : Partner := fun before r =>
  let index := Rule.indexFor rules r
  match rules[index]? with
  | none => otherwise
  | some rule =>
    let used := before.countP fun b => Rule.indexFor rules b == index
    match rule.answers[used]? with
    | some answer => answer
    | none => rule.answers.getLast?.getD otherwise

def ruleOfScript (v : Json) : Rule where
  method := (v.member? "method").bind Json.text?
  path := (v.member? "path").bind Json.text?
  header := match v.member? "header" with
    | some (.arr [.str k, .str x]) => some (k, x)
    | _ => none
  answers := match v.member? "respond" with
    | some (.arr items) => items.map Response.ofScript
    | _ => []

/-- What a partner without a rule for a request answers. -/
def agreement : Response := Response.ofDocument 200 (.obj [("ok", .bool true)])

def ofScript (v : Json) : Partner :=
  match v with
  | .arr items => ofRules (items.map ruleOfScript) (.ok agreement)
  | _ => constant (.ok agreement)

end Partner

end EventRouting
