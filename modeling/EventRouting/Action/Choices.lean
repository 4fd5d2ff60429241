import EventRouting.Json.Names
import EventRouting.Request.Talk

/-!
# Choices

The choices of a field that is looked up.

* `Choices`          labelled values, and where the next page begins
* `Choices.ofJson`   the choices that a value stands for
* `Choices.toJson`   choices as a value
-/

namespace EventRouting

/-- A value to choose, with its label. -/
structure Choice where
  label : Json
  value : Json
deriving DecidableEq, Inhabited

/-- Labelled values in order, and where the next page begins; null for no next page. -/
structure Choices where
  items : List Choice
  nextPage : Json
deriving DecidableEq, Inhabited

def Choice.ofJson (v : Json) : Except Fault Choice :=
  match v with
  | .obj ms =>
    match Members.get? ms "label", Members.get? ms "value" with
    | some label, some value => .ok ⟨label, value⟩
    | none, _ => .error (.missingKey "label")
    | _, none => .error (.missingKey "value")
  | _ => .error .wrongShape

def Choice.toJson (c : Choice) : Json := .obj [("label", c.label), ("value", c.value)]

namespace Choices

def itemsOf : List Json → Except Fault (List Choice)
  | [] => .ok []
  | v :: rest =>
    match Choice.ofJson v with
    | .error e => .error e
    | .ok c => (itemsOf rest).map (c :: ·)

def ofJson (v : Json) : Except Fault Choices :=
  match v with
  | .obj ms => do
    let items ← itemsOf (← ((Members.get? ms "items").getD (.arr [])).collected)
    return ⟨items, (Members.get? ms "next_page").getD ((Members.get? ms "nextPage").getD .null)⟩
  | _ => .error .wrongShape

/-- The choices of a reply; an answer of a partner is no choices. -/
def ofReply : Reply → Except Fault Choices
  | .value v => ofJson v
  | .response _ => .error .wrongShape

def toJson (c : Choices) : Json :=
  .obj (("items", .arr (c.items.map Choice.toJson))
    :: (if c.nextPage = .null then [] else [("next_page", c.nextPage)]))

end Choices

end EventRouting
