import EventRouting.Json.Same
import EventRouting.Schema.Format
import EventRouting.Schema.Violation

/-!
# Schemas

* `ValueType`           the types that a schema can ask for
* `Schema`              a condition on values
* `Schema.violations`   every rule that a value breaks, in the order of the rules
* `Schema.accepts`      does a value break no rule?
-/

namespace EventRouting

/-- The types of values that a schema can ask for. -/
inductive ValueType where
  | null
  | boolean
  | integer
  | number
  | string
  | array
  | object
deriving DecidableEq, Inhabited

namespace ValueType

def name : ValueType → String
  | null => "null"
  | boolean => "boolean"
  | integer => "integer"
  | number => "number"
  | string => "string"
  | array => "array"
  | object => "object"

def ofName? : String → Option ValueType
  | "null" => some .null
  | "boolean" => some .boolean
  | "integer" => some .integer
  | "number" => some .number
  | "string" => some .string
  | "array" => some .array
  | "object" => some .object
  | _ => none

/-- Has a value a type?  A number without a fraction is an integer, and a truth value is no number. -/
def has : ValueType → Json → Bool
  | null, .null => true
  | boolean, .bool _ => true
  | integer, .num n => n.isIntegral
  | number, .num _ => true
  | string, .str _ => true
  | array, .arr _ => true
  | object, .obj _ => true
  | _, _ => false

end ValueType

inductive Bound where
  | minimum
  | maximum
  | exclusiveMinimum
  | exclusiveMaximum
deriving DecidableEq, Inhabited

/-- What is counted in a value: characters, items or members. -/
inductive Measure where
  | length
  | items
  | properties
deriving DecidableEq, Inhabited

/-- A condition on values. -/
inductive Schema where
  | never
  | every (parts : List Schema)
  | type (types : List ValueType)
  | required (keys : List String)
  | properties (schemas : List (String × Schema))
  /-- no member but those of these names -/
  | noOthers (names : List String)
  /-- a condition on the members of other names -/
  | others (names : List String) (schema : Schema)
  | items (schema : Schema)
  /-- conditions on the first items -/
  | itemsAt (schemas : List Schema)
  | enum (values : List Json)
  | const (value : Json)
  | bound (bound : Bound) (limit : Number)
  | atLeast (measure : Measure) (limit : Number)
  | atMost (measure : Measure) (limit : Number)
  | unique
  | multipleOf (step : Number)
  | pattern (text : String) (pattern : Pattern)
  | format (format : TextFormat)
  | allOf (schemas : List Schema)
  | anyOf (schemas : List Schema)
  /-- exactly one condition; each is kept as it was written -/
  | oneOf (schemas : List Schema) (written : List Json)
  /-- a condition that must fail, and the same as it was written -/
  | not (schema : Schema) (written : Json)
  /-- a condition in words that are not among these, told by what it reports of each value -/
  | further (report : Json → List Violation)
deriving Inhabited

namespace Bound

def rule : Bound → String
  | minimum => "minimum"
  | maximum => "maximum"
  | exclusiveMinimum => "exclusiveMinimum"
  | exclusiveMaximum => "exclusiveMaximum"

def isBroken (b : Bound) (n limit : Number) : Bool :=
  match b with
  | minimum => n.lt limit
  | maximum => limit.lt n
  | exclusiveMinimum => n.le limit
  | exclusiveMaximum => limit.le n

def text : Bound → String
  | minimum => " is less than the minimum of "
  | maximum => " is greater than the maximum of "
  | exclusiveMinimum => " is less than or equal to the minimum of "
  | exclusiveMaximum => " is greater than or equal to the maximum of "

end Bound

namespace Measure

/-- The count of a value, if it is one of those that are counted. -/
def of? : Measure → Json → Option Nat
  | length, .str s => some s.length
  | items, .arr vs => some vs.length
  | properties, .obj ms => some ms.length
  | _, _ => none

def leastRule : Measure → String
  | length => "minLength"
  | items => "minItems"
  | properties => "minProperties"

def mostRule : Measure → String
  | length => "maxLength"
  | items => "maxItems"
  | properties => "maxProperties"

def leastText (m : Measure) (limit : Number) : String :=
  if limit.same (.int 1) then " should be non-empty"
  else if m = properties then " does not have enough properties"
  else " is too short"

def mostText (m : Measure) (limit : Number) : String :=
  if limit.same (.int 0) then " is expected to be empty"
  else if m = properties then " has too many properties"
  else " is too long"

end Measure

namespace Schema

/-! ## single rules -/

/-- A violation of a rule at the value itself. -/
def here (rule : String) (message : String) : List Violation := [⟨[], message, some rule⟩]

def commaList (texts : List String) : String := ", ".intercalate texts

def typeViolations (types : List ValueType) (v : Json) : List Violation :=
  if types.any (·.has v) then []
  else here "type" (v.literal ++ " is not of type " ++ commaList (types.map fun t => Text.quoted t.name))

def requiredViolations (keys : List String) (v : Json) : List Violation :=
  match v with
  | .obj members =>
    (keys.filter fun k => !Members.contains members k).flatMap fun k =>
      here "required" (Text.quoted k ++ " is a required property")
  | _ => []

def otherMembers (names : List String) (v : Json) : Members Json :=
  match v with
  | .obj members => Members.without members names
  | _ => []

def noOthersViolations (names : List String) (v : Json) : List Violation :=
  let extras := (otherMembers names v).names.mergeSort fun a b => decide (a ≤ b)
  if extras.isEmpty then []
  else
    here "additionalProperties"
      ("Additional properties are not allowed (" ++ commaList (extras.map Text.quoted)
        ++ (if extras.length = 1 then " was" else " were") ++ " unexpected)")

def boundViolations (b : Bound) (limit : Number) (v : Json) : List Violation :=
  match v with
  | .num n =>
    if b.isBroken n limit then here b.rule (v.literal ++ b.text ++ (Json.num limit).literal) else []
  | _ => []

def leastViolations (m : Measure) (limit : Number) (v : Json) : List Violation :=
  match m.of? v with
  | some n =>
    if (Number.int n).lt limit then here m.leastRule (v.literal ++ m.leastText limit) else []
  | none => []

def mostViolations (m : Measure) (limit : Number) (v : Json) : List Violation :=
  match m.of? v with
  | some n =>
    if limit.lt (.int n) then here m.mostRule (v.literal ++ m.mostText limit) else []
  | none => []

def allDifferent : List Json → Bool
  | [] => true
  | v :: rest => !rest.any v.same && allDifferent rest

def uniqueViolations (v : Json) : List Violation :=
  match v with
  | .arr vs =>
    if allDifferent vs then [] else here "uniqueItems" (v.literal ++ " has non-unique elements")
  | _ => []

def multipleViolations (step : Number) (v : Json) : List Violation :=
  match v with
  | .num n =>
    if n.isMultipleOf step then []
    else here "multipleOf" (v.literal ++ " is not a multiple of " ++ (Json.num step).literal)
  | _ => []

def patternViolations (text : String) (p : Pattern) (v : Json) : List Violation :=
  match v with
  | .str s =>
    if p.occurs s then [] else here "pattern" (v.literal ++ " does not match " ++ Text.quoted text)
  | _ => []

def formatViolations (f : TextFormat) (v : Json) : List Violation :=
  match v with
  | .str s =>
    if f.accepts s then [] else here "format" (v.literal ++ " is not a " ++ Text.quoted f.name)
  | _ => []

/-! ## whole schemas -/

def isNever : Schema → Bool
  | never => true
  | _ => false

/-- The violations of a member or an item.  Where nothing is allowed the place is that of the value
that holds it. -/
def descend (s : Segment) (schema : Schema) (vs : List Violation) : List Violation :=
  if schema.isNever then vs else vs.map (·.under s)

/-- The violations when exactly one condition has to hold, given those of each. -/
def oneOfViolations (reports : List (List Violation)) (written : List Json) (v : Json) :
    List Violation :=
  match (reports.zip written).filter fun r => r.1.isEmpty with
  | [] => here "oneOf" (v.literal ++ " is not valid under any of the given schemas")
  | [_] => []
  | first :: more =>
    here "oneOf" (v.literal ++ " is valid under each of "
      ++ commaList ((more ++ [first]).map fun r => r.2.literal))

def anyOfViolations (reports : List (List Violation)) (v : Json) : List Violation :=
  if reports.any (·.isEmpty) then []
  else here "anyOf" (v.literal ++ " is not valid under any of the given schemas")

mutual

/-- Every rule that a value breaks. -/
def violations : Schema → Json → List Violation
  | never, v => [⟨[], "False schema does not allow " ++ v.literal, none⟩]
  | every parts, v => (reports parts v).flatten
  | type types, v => typeViolations types v
  | required keys, v => requiredViolations keys v
  | properties schemas, v =>
    match v with
    | .obj members => propertyViolations schemas members
    | _ => []
  | noOthers names, v => noOthersViolations names v
  | others names schema, v =>
    (otherMembers names v).flatMap fun m => descend (.name m.1) schema (violations schema m.2)
  | items schema, v =>
    match v with
    | .arr vs => (vs.mapIdx fun i w => descend (.index i) schema (violations schema w)).flatten
    | _ => []
  | itemsAt schemas, v =>
    match v with
    | .arr vs => itemViolations 0 schemas vs
    | _ => []
  | enum values, v =>
    if values.any (·.same v) then []
    else here "enum" (v.literal ++ " is not one of " ++ (Json.arr values).literal)
  | const value, v =>
    if value.same v then [] else here "const" (value.literal ++ " was expected")
  | bound b limit, v => boundViolations b limit v
  | atLeast m limit, v => leastViolations m limit v
  | atMost m limit, v => mostViolations m limit v
  | unique, v => uniqueViolations v
  | multipleOf step, v => multipleViolations step v
  | pattern text p, v => patternViolations text p v
  | format f, v => formatViolations f v
  | allOf schemas, v => (reports schemas v).flatten
  | anyOf schemas, v => anyOfViolations (reports schemas v) v
  | oneOf schemas written, v => oneOfViolations (reports schemas v) written v
  | not schema written, v =>
    if (violations schema v).isEmpty then
      here "not" (v.literal ++ " should not be valid under " ++ written.literal)
    else []
  | further report, v => report v

def reports : List Schema → Json → List (List Violation)
  | [], _ => []
  | s :: rest, v => violations s v :: reports rest v

def propertyViolations : List (String × Schema) → Members Json → List Violation
  | [], _ => []
  | (k, s) :: rest, members =>
    (match members.get? k with
      | some v => descend (.name k) s (violations s v)
      | none => []) ++ propertyViolations rest members

/-- The violations of the items from the `i`-th on that have a schema of their own. -/
def itemViolations : Nat → List Schema → List Json → List Violation
  | i, s :: rest, v :: vs => descend (.index i) s (violations s v) ++ itemViolations (i + 1) rest vs
  | _, _, _ => []

end

theorem reports_eq (schemas : List Schema) (v : Json) :
    reports schemas v = schemas.map fun s => violations s v := by
  induction schemas with
  | nil => rfl
  | cons s rest ih => simp [reports, ih]

def accepts (s : Schema) (v : Json) : Bool := (s.violations v).isEmpty

/-- Every rule that a value breaks, by place and message. -/
def check (s : Schema) (v : Json) : List Violation := Violation.inOrder (s.violations v)

end Schema

end EventRouting
