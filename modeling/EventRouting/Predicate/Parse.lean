import EventRouting.Predicate.Encoding
import EventRouting.Predicate.Shorthand

/-!
# Predicates in either form

* `Predicate.parse`     the predicate that a value stands for, a text in shorthand or an object
* `Predicate.accepts`   the answer to an event; only objects are events
-/

namespace EventRouting.Predicate

/-- The predicate of a text in shorthand, with the fault of an unreadable one. -/
def parseText (source : String) : Except Fault Predicate :=
  match ofText source with
  | .ok p => .ok p
  | .error u => .error u.fault

def parse (v : Json) : Except Fault Predicate :=
  match v with
  | .str source => parseText source
  | .obj _ => decode v
  | _ => .error (unreadable ("Predicate must be a string or an object, got " ++ v.kindName))

/-- Does an event satisfy a predicate?  Only objects are events. -/
def accepts (p : Predicate) (event : Json) : Except Fault Bool :=
  match event with
  | .obj _ => .ok (p.holds event)
  | _ =>
    .error (.predicateEvaluation
      ("Cannot evaluate predicate against " ++ event.kindName ++ ", expected an object") none)

theorem accepts_obj (p : Predicate) (members : Members Json) :
    p.accepts (.obj members) = .ok (p.holds (.obj members)) := rfl

end EventRouting.Predicate
