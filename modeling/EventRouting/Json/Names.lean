import EventRouting.Fault

/-!
# Collections of names

* `Json.collected`   what a value holds one by one: items, characters, or names of members
* `Json.names`       the texts among them
* `Json.namedValues` what a value names: the members of an object, or a list of pairs
-/

namespace EventRouting.Json

/-- What a value holds, one by one; other values than collections hold nothing to go through. -/
def collected : Json → Except Fault (List Json)
  | .arr items => .ok items
  | .str s => .ok (s.toList.map fun c => .str (String.singleton c))
  | .obj members => .ok (members.map fun m => .str m.1)
  | _ => .error .wrongShape

/-- May a value be an element of a set? -/
def isElement : Json → Bool
  | .arr _ | .obj _ => false
  | _ => true

def text? : Json → Option String
  | .str s => some s
  | _ => none

/-- The texts of a collection whose values may be elements of a set. -/
def names (v : Json) : Except Fault (List String) :=
  match v.collected with
  | .error e => .error e
  | .ok items => if items.all isElement then .ok (items.filterMap text?) else .error .wrongShape

theorem names_strings (texts : List String) : (Json.arr (texts.map .str)).names = .ok texts := by
  unfold names collected
  dsimp only
  rw [if_pos]
  · congr 1
    induction texts with
    | nil => rfl
    | cons s rest ih => exact congrArg (s :: ·) ih
  · rw [List.all_eq_true]
    intro v hv
    obtain ⟨s, _, rfl⟩ := List.mem_map.mp hv
    rfl

def members : Json → Except Fault (Members Json)
  | .obj ms => .ok ms
  | _ => .error .wrongShape

/-- A name and a value out of a pair. -/
def pairOf (position : Nat) (v : Json) : Except Fault (String × Json) :=
  match v.collected with
  | .error e => .error e
  | .ok [.str k, x] => .ok (k, x)
  | .ok [_, _] => .error .wrongShape
  | .ok l =>
    .error (.badValue ("dictionary update sequence element #" ++ toString position ++ " has length "
      ++ toString l.length ++ "; 2 is required"))

def pairsOf (position : Nat) : List Json → Except Fault (List (String × Json))
  | [] => .ok []
  | v :: rest =>
    match pairOf position v with
    | .error e => .error e
    | .ok p => (pairsOf (position + 1) rest).map (p :: ·)

/-- Named values: the members of an object, or a list of pairs. -/
def namedValues (v : Json) : Except Fault (Members Json) :=
  match v with
  | .obj ms => .ok ms
  | _ =>
    match v.collected with
    | .error e => .error e
    | .ok items => (pairsOf 0 items).map Members.ofList

end EventRouting.Json
