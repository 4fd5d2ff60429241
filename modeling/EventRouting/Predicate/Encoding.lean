import EventRouting.Fault
import EventRouting.Predicate.Basic
import EventRouting.Text.Case

/-!
# Predicates as objects

* `Predicate.encode`   a predicate as an object, with fields by their dotted names
* `Predicate.decode`   the predicate that an object stands for

An object says under `type` what it is: `all`, `group`, `not`, a fixed field of events, or a field inside
a part of the event that the type names.
-/

namespace EventRouting

def Relation.sign : Relation → String
  | equal => "="
  | notEqual => "!="
  | contains => "contains"
  | notContains => "not_contains"
  | startsWith => "starts_with"
  | endsWith => "ends_with"
  | less => "<"
  | lessEqual => "<="
  | greater => ">"
  | greaterEqual => ">="

def Relation.ofSign? : String → Option Relation
  | "=" => some .equal
  | "==" => some .equal
  | "!=" => some .notEqual
  | "contains" => some .contains
  | "not_contains" => some .notContains
  | "starts_with" => some .startsWith
  | "ends_with" => some .endsWith
  | "<" => some .less
  | "<=" => some .lessEqual
  | ">" => some .greater
  | ">=" => some .greaterEqual
  | _ => none

@[simp] theorem Relation.ofSign?_sign (r : Relation) : Relation.ofSign? r.sign = some r := by
  cases r <;> rfl

def Connective.word : Connective → String
  | and => "and"
  | or => "or"

def Connective.ofWord? : String → Option Connective
  | "and" => some .and
  | "or" => some .or
  | _ => none

@[simp] theorem Connective.ofWord?_word (c : Connective) : Connective.ofWord? c.word = some c := by
  cases c <;> rfl

namespace Predicate

/-! ## encoding -/

def encodeTest (path : Path) : Test → Json
  | .present =>
    .obj [("type", .str "field"), ("name", .str path.dotted), ("operator", .str "exists")]
  | .absent =>
    .obj [("type", .str "field"), ("name", .str path.dotted), ("operator", .str "not_exists")]
  | .compare relation value =>
    .obj [("type", .str "field"), ("name", .str path.dotted), ("operator", .str relation.sign),
      ("value", value)]

mutual

def encode : Predicate → Json
  | all => .obj [("type", .str "all")]
  | field path test => encodeTest path test
  | group c parts =>
    .obj [("type", .str "group"), ("operator", .str c.word), ("children", .arr (encodeAll parts))]
  | not part => .obj [("type", .str "not"), ("children", .arr [encode part])]

def encodeAll : List Predicate → List Json
  | [] => []
  | p :: rest => encode p :: encodeAll rest

end

/-! ## decoding -/

/-- What an object stands for, its parts not being decoded. -/
inductive Form where
  | all
  | field (path : Path) (test : Test)
  | group (connective : Connective) (parts : List Json)
  | not (part : Json)

def unreadable (text : String) : Fault := .predicateParse text none

/-- The path in front of the name of a field, for the types of named fields. -/
def scope? : String → Option Path
  | "event-property" => some [.name "properties"]
  | "event-trait" => some [.name "traits"]
  | "event-context" => some [.name "context"]
  | "field" => some []
  | _ => none

/-- The field of a type that needs no name. -/
def fixedField? : String → Option Path
  | "event-type" => some [.name "type"]
  | "event" => some [.name "event"]
  | "name" => some [.name "name"]
  | _ => none

def formPath (location : String) (members : Members Json) (type : Json) : Except Fault Path :=
  match type with
  | .arr _ | .obj _ => .error .wrongShape
  | .str word =>
    match fixedField? word, scope? word with
    | some path, _ => .ok path
    | none, some scope =>
      match members.get? "name" with
      | some (.str name) =>
        if name.isEmpty then .error (unreadable (word ++ " at " ++ location ++ " needs a 'name'"))
        else .ok (scope ++ Path.split name)
      | _ => .error (unreadable (word ++ " at " ++ location ++ " needs a 'name'"))
    | none, none =>
      .error (unreadable ("Unknown predicate type " ++ type.literal ++ " at " ++ location))
  | _ => .error (unreadable ("Unknown predicate type " ++ type.literal ++ " at " ++ location))

def formTest (location : String) (members : Members Json) : Except Fault Test :=
  match (members.get? "operator").getD (.str "=") with
  | .arr _ | .obj _ => .error .wrongShape
  | .str "exists" => .ok .present
  | .str "not_exists" => .ok .absent
  | .str word =>
    match Relation.ofSign? word with
    | some relation =>
      match members.get? "value" with
      | some value => .ok (.compare relation value)
      | none =>
        .error (unreadable
          ("Operator " ++ Text.quoted relation.sign ++ " at " ++ location ++ " needs a 'value'"))
    | none => .error (unreadable ("Unknown operator " ++ Text.quoted word ++ " at " ++ location))
  | other => .error (unreadable ("Unknown operator " ++ other.literal ++ " at " ++ location))

def formGroup (location : String) (members : Members Json) : Except Fault Form :=
  let operator := (members.get? "operator").getD (.str "")
  match Connective.ofWord? (Text.lower operator.display) with
  | none => .error (unreadable ("Group at " ++ location ++ " needs operator 'and' or 'or'"))
  | some c =>
    match members.get? "children" with
    | some (.arr (p :: rest)) => .ok (.group c (p :: rest))
    | _ => .error (unreadable ("Group at " ++ location ++ " needs a non-empty children list"))

def formNot (location : String) (members : Members Json) : Except Fault Form :=
  match members.get? "child", members.get? "children" with
  | some child, _ => .ok (.not child)
  | none, some (.arr [child]) => .ok (.not child)
  | none, _ => .error (unreadable ("Not at " ++ location ++ " needs exactly one child"))

/-- What the object at a place stands for. -/
def form (location : String) (members : Members Json) : Except Fault Form :=
  let type := (members.get? "type").getD .null
  if type.isText "all" then .ok .all
  else if type.isText "group" then formGroup location members
  else if type.isText "not" then formNot location members
  else
    match formPath location members type with
    | .error e => .error e
    | .ok path =>
      match formTest location members with
      | .error e => .error e
      | .ok test => .ok (.field path test)

theorem formGroup_sizeOf {location : String} {members : Members Json} {c : Connective}
    {parts : List Json} (h : formGroup location members = .ok (.group c parts)) :
    sizeOf parts < sizeOf members := by
  unfold formGroup at h
  dsimp only at h
  split at h
  · cases h
  · split at h
    · next p rest hp =>
      cases h
      have := Members.sizeOf_lt_of_get?_eq_some hp
      simp only [Json.arr.sizeOf_spec] at this
      omega
    · cases h

theorem formGroup_ne_not {location : String} {members : Members Json} {part : Json} :
    formGroup location members ≠ .ok (.not part) := by
  unfold formGroup
  dsimp only
  split
  · simp
  · split <;> simp

theorem formNot_sizeOf {location : String} {members : Members Json} {part : Json}
    (h : formNot location members = .ok (.not part)) : sizeOf part < sizeOf members := by
  unfold formNot at h
  split at h
  · next hp => cases h; exact Members.sizeOf_lt_of_get?_eq_some hp
  · next hp =>
    cases h
    have := Members.sizeOf_lt_of_get?_eq_some hp
    simp only [Json.arr.sizeOf_spec, List.cons.sizeOf_spec, List.nil.sizeOf_spec] at this
    omega
  · cases h

theorem formNot_ne_group {location : String} {members : Members Json} {c : Connective}
    {parts : List Json} : formNot location members ≠ .ok (.group c parts) := by
  unfold formNot
  split <;> simp

theorem form_group_sizeOf {location : String} {members : Members Json} {c : Connective}
    {parts : List Json} (h : form location members = .ok (.group c parts)) :
    sizeOf parts < sizeOf members := by
  unfold form at h
  dsimp only at h
  split at h
  · cases h
  · split at h
    · exact formGroup_sizeOf h
    · split at h
      · exact absurd h formNot_ne_group
      · split at h
        · cases h
        · split at h <;> cases h

theorem form_not_sizeOf {location : String} {members : Members Json} {part : Json}
    (h : form location members = .ok (.not part)) : sizeOf part < sizeOf members := by
  unfold form at h
  dsimp only at h
  split at h
  · cases h
  · split at h
    · exact absurd h formGroup_ne_not
    · split at h
      · exact formNot_sizeOf h
      · split at h
        · cases h
        · split at h <;> cases h

def partLocation (location : String) (i : Nat) : String :=
  location ++ ".children[" ++ toString i ++ "]"

mutual

/-- The predicate that the value at a place stands for. -/
def decodeAt (location : String) (node : Json) : Except Fault Predicate :=
  match node with
  | .obj members =>
    match _h : form location members with
    | .error e => .error e
    | .ok .all => .ok .all
    | .ok (.field path test) => .ok (.field path test)
    | .ok (.group c parts) =>
      match decodeParts location 0 parts with
      | .error e => .error e
      | .ok ps => .ok (.group c ps)
    | .ok (.not part) =>
      match decodeAt (partLocation location 0) part with
      | .error e => .error e
      | .ok p => .ok (.not p)
  | _ => .error (unreadable ("Predicate node at " ++ location ++ " must be an object"))
termination_by sizeOf node
decreasing_by
  · have := form_group_sizeOf _h; simp only [Json.obj.sizeOf_spec]; omega
  · have := form_not_sizeOf _h; simp only [Json.obj.sizeOf_spec]; omega

def decodeParts (location : String) (i : Nat) (parts : List Json) : Except Fault (List Predicate) :=
  match parts with
  | [] => .ok []
  | node :: rest =>
    match decodeAt (partLocation location i) node with
    | .error e => .error e
    | .ok p =>
      match decodeParts location (i + 1) rest with
      | .error e => .error e
      | .ok ps => .ok (p :: ps)
termination_by sizeOf parts
decreasing_by all_goals simp only [List.cons.sizeOf_spec]; omega

end

def decode (node : Json) : Except Fault Predicate := decodeAt "$" node

end Predicate

end EventRouting
