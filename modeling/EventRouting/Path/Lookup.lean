import EventRouting.Json.Literal
import EventRouting.Path.Basic

/-!
# Looking a path up

* `Json.itemAt?`   the item at a position, negative positions counting from the end
* `Json.step?`     one step into a value
* `Json.lookup`    the value at a path, if there is one
* `Json.stepBy?`   a step given as a value of its own
-/

namespace EventRouting.Json

/-- The item at a position; the last item is also at position `-1`. -/
def itemAt? (items : List Json) (i : Int) : Option Json :=
  if 0 ≤ i then items[i.toNat]?
  else if -(items.length : Int) ≤ i then items[(items.length + i).toNat]? else none

def step? (v : Json) (s : Segment) : Option Json :=
  match v with
  | .obj members => Members.get? members s.key
  | .arr items => s.position?.bind (itemAt? items)
  | _ => none

def lookup (v : Json) : Path → Option Json
  | [] => some v
  | s :: rest => (v.step? s).bind fun w => lookup w rest

@[simp] theorem lookup_nil (v : Json) : v.lookup [] = some v := rfl

theorem lookup_cons (v : Json) (s : Segment) (p : Path) :
    v.lookup (s :: p) = (v.step? s).bind fun w => w.lookup p := rfl

/-! ## steps given as values -/

inductive StepFault where
  /-- a list or an object does not name a member -/
  | notAKey
  /-- an infinite number is no position -/
  | infinite
deriving DecidableEq

/-- The position that a value stands for: a number without its fraction, a truth value as zero or
one, or a text that spells an integer. -/
def position? : Json → Except StepFault (Option Int)
  | .str s => .ok (Text.integer? s.toList)
  | .bool b => .ok (some (if b then 1 else 0))
  | .num (.int i) => .ok (some i)
  | .num (.float x) => if x.isInfinite then .error .infinite else .ok (x.scaled?.map Scaled.truncate)
  | _ => .ok none

/-- One step into a value, the step given as a value. -/
def stepBy? (v key : Json) : Except StepFault (Option Json) :=
  match v with
  | .obj members =>
    match key with
    | .arr _ | .obj _ => .error .notAKey
    | _ => .ok (Members.get? members key.display)
  | .arr items => (position? key).map fun i => i.bind (itemAt? items)
  | _ => .ok none

/-- The value that steps given as values lead to. -/
def lookupBy (v : Json) : List Json → Except StepFault (Option Json)
  | [] => .ok (some v)
  | key :: rest =>
    match stepBy? v key with
    | .error e => .error e
    | .ok none => .ok none
    | .ok (some w) => lookupBy w rest

end EventRouting.Json
