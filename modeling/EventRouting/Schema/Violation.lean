import EventRouting.Json.Literal
import EventRouting.Path.Basic

/-!
# Violations

* `Violation`           a rule that a value breaks, and the place where
* `Violation.under`     the same, seen from outside a step further
* `Violation.inOrder`   by place, then by message
-/

namespace EventRouting

/-- A rule that a value breaks.  A value that nothing is allowed for breaks no rule of a name. -/
structure Violation where
  place : Path
  message : String
  rule : Option String
deriving DecidableEq, Inhabited

namespace Violation

/-- A violation inside a member or an item, seen from the value that holds it. -/
def under (s : Segment) (v : Violation) : Violation := ⟨s :: v.place, v.message, v.rule⟩

def segmentText : Segment → String
  | .name key => "." ++ key
  | .index i => "[" ++ toString i ++ "]"

/-- The place in writing, from `$` on. -/
def placeText (v : Violation) : String := v.place.foldl (fun text s => text ++ segmentText s) "$"

def le (a b : Violation) : Bool :=
  a.placeText < b.placeText || (a.placeText == b.placeText && decide (a.message ≤ b.message))

/-- By place, then by message; what is equal in both stays in order. -/
def inOrder (vs : List Violation) : List Violation := vs.mergeSort le

def toJson (v : Violation) : Json :=
  .obj [("path", .str v.placeText), ("message", .str v.message),
    ("validator", (v.rule.map Json.str).getD .null)]

end Violation

end EventRouting
