import EventRouting.Json.Basic

/-!
# Equality by value

* `Json.same`     numbers by exact value, objects regardless of order, booleans apart from numbers
* `Json.alike`    the same, but a boolean is alike to the number one or zero, at any depth
-/

namespace EventRouting.Json

def boolNumber (b : Bool) : Number := .int (if b then 1 else 0)

mutual

/-- Equality by value.  With `mixed`, booleans are alike to the numbers one and zero. -/
def sameWith (mixed : Bool) : Json → Json → Bool
  | .null, .null => true
  | .bool a, .bool b => a == b
  | .bool a, .num n => mixed && n.same (boolNumber a)
  | .num n, .bool b => mixed && n.same (boolNumber b)
  | .num a, .num b => a.same b
  | .str a, .str b => a == b
  | .arr a, .arr b => sameItems mixed a b
  | .obj a, .obj b => a.length == b.length && sameMembers mixed a b
  | _, _ => false

def sameItems (mixed : Bool) : List Json → List Json → Bool
  | [], [] => true
  | x :: xs, y :: ys => sameWith mixed x y && sameItems mixed xs ys
  | _, _ => false

/-- Has each member of the first list a member of its name in the second, of the same value? -/
def sameMembers (mixed : Bool) : List (String × Json) → List (String × Json) → Bool
  | [], _ => true
  | (k, v) :: rest, ms =>
    (match Members.get? ms k with
      | some w => sameWith mixed v w
      | none => false) && sameMembers mixed rest ms

end

def same (a b : Json) : Bool := sameWith false a b

def alike (a b : Json) : Bool := sameWith true a b

def isText (v : Json) (s : String) : Bool :=
  match v with
  | .str t => t == s
  | _ => false

theorem isText_iff {v : Json} {s : String} : v.isText s = true ↔ v = .str s := by
  cases v <;> simp [isText]

end EventRouting.Json
