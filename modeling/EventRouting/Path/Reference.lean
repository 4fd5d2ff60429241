import EventRouting.Fault
import EventRouting.Path.Basic

/-!
# References

A reference is a path in writing, from the root `$` on: `$.traits.emails[0]`.

* `Path.isSteps`       is a text a row of `.name` and `[position]`?
* `Path.isReference`   is a text a reference?  One line feed at the end is let through
* `Path.ofReference?`  the path of a reference
* `Path.parse`         the path of a reference given as a value, with the fault of what is none
-/

namespace EventRouting.Path

/-- Is a text a row of steps, each a point and a name or a position in brackets? -/
def isSteps (cs : List Char) : Bool :=
  match cs with
  | [] => true
  | '.' :: c :: rest => isNameChar c && isSteps (rest.dropWhile isNameChar)
  | '[' :: rest =>
    match _h : bracketed? rest with
    | some (_, left) => isSteps left
    | none => false
  | _ => false
termination_by cs.length
decreasing_by
  · have : (rest.dropWhile isNameChar).length ≤ rest.length := (List.dropWhile_sublist _).length_le
    simp
    omega
  · have := bracketed?_length _h; simp; omega

/-- A row of steps, or one followed by a line feed. -/
def isStepsLine (cs : List Char) : Bool :=
  isSteps cs || (cs.getLast? == some '\n' && isSteps cs.dropLast)

def isReference (text : String) : Bool :=
  match text.toList with
  | '$' :: rest => isStepsLine rest
  | _ => false

def ofReference? (text : String) : Option Path :=
  match text.toList with
  | '$' :: rest => if isStepsLine rest then some (splitChars rest) else none
  | _ => none

def parse (v : Json) : Except Fault Path :=
  let fault := Fault.transform ("Invalid path " ++ v.literal ++ ", paths must start with '$'") "$"
  match v with
  | .str s => match ofReference? s with
    | some p => .ok p
    | none => .error fault
  | .arr _ | .obj _ => .error .wrongShape
  | _ => .error fault

end EventRouting.Path
