import EventRouting.Fault
import EventRouting.Schema.Basic

/-!
# Reading schemas

* `Schema.read?`         the schema that a document stands for, if it is a schema at all
* `Schema.read`          the same, with the fault of a document that is none
* `Schema.goesFurther`   has a document words or formats that these schemas have no rules for?
* `Dialect`              what such documents stand for
* `Dialect.read`         the schema that a document stands for in a dialect

Words that say nothing about values are checked for their own form and passed over.  `Schema.read` passes over the
further words too, and over formats that it does not know.  What draft 7 makes of the further words is left to a
dialect, and what holds of documents that have them holds in every dialect.  A dialect reports on every value, so a
`$ref` in it leads to a schema that is there.  Formats that only take part where more packages are installed
(`hostname`, `uri`, `date-time` and others) are passed over as they are without these.
-/

namespace EventRouting

namespace Schema

/-- A count: an integer that is not negative, maybe written as a number with a fraction of zero. -/
def count? : Json → Option Number
  | .num n => if n.isIntegral && !n.lt (.int 0) then some n else none
  | _ => none

def number? : Json → Option Number
  | .num n => some n
  | _ => none

def typeName? : Json → Option ValueType
  | .str s => ValueType.ofName? s
  | _ => none

/-- The types that a value names: one, or a list of different ones. -/
def types? : Json → Option (List ValueType)
  | .str s => (ValueType.ofName? s).map fun t => [t]
  | .arr vs =>
    (vs.mapM typeName?).bind fun ts => if ts.isEmpty ∨ ¬ts.Nodup then none else some ts
  | _ => none

def key? : Json → Option String
  | .str s => some s
  | _ => none

/-- The keys that a list names, all different. -/
def keys? : Json → Option (List String)
  | .arr vs => (vs.mapM key?).bind fun ks => if ks.Nodup then some ks else none
  | _ => none

def items? : Json → Option (List Json)
  | .arr vs => some vs
  | _ => none

def pattern? : Json → Option Schema
  | .str s => (Pattern.read? s).map fun p => .pattern s p
  | _ => none

/-- The rules of a word whose value holds no schema; a word that is not known is passed over. -/
def leaf? (word : String) (v : Json) : Option (List Schema) :=
  match word with
  | "type" => (types? v).map fun ts => [.type ts]
  | "required" => (keys? v).map fun ks => [.required ks]
  | "enum" => (items? v).map fun vs => [.enum vs]
  | "const" => some [.const v]
  | "minimum" => (number? v).map fun n => [.bound .minimum n]
  | "maximum" => (number? v).map fun n => [.bound .maximum n]
  | "exclusiveMinimum" => (number? v).map fun n => [.bound .exclusiveMinimum n]
  | "exclusiveMaximum" => (number? v).map fun n => [.bound .exclusiveMaximum n]
  | "minLength" => (count? v).map fun n => [.atLeast .length n]
  | "maxLength" => (count? v).map fun n => [.atMost .length n]
  | "minItems" => (count? v).map fun n => [.atLeast .items n]
  | "maxItems" => (count? v).map fun n => [.atMost .items n]
  | "minProperties" => (count? v).map fun n => [.atLeast .properties n]
  | "maxProperties" => (count? v).map fun n => [.atMost .properties n]
  | "uniqueItems" =>
    match v with
    | .bool b => some (if b then [.unique] else [])
    | _ => none
  | "multipleOf" =>
    (number? v).bind fun n => if (Number.int 0).lt n then some [.multipleOf n] else none
  | "pattern" => (pattern? v).map fun s => [s]
  | "format" => (key? v).map fun f => ((TextFormat.ofName? f).map Schema.format).toList
  | "$schema" | "$id" | "$ref" | "$comment" | "title" | "description" | "contentMediaType"
  | "contentEncoding" => (key? v).map fun _ => []
  | "readOnly" | "writeOnly" =>
    match v with
    | .bool _ => some []
    | _ => none
  | "examples" => (items? v).map fun _ => []
  | _ => some []

/-- The names that have a schema of their own in a document. -/
def propertyNames (document : Members Json) : List String :=
  match document.get? "properties" with
  | some (.obj ms) => Members.names ms
  | _ => []

/-- The rule for the members that have no schema of their own. -/
def othersRule (names : List String) (s : Schema) : Schema :=
  if s.isNever then .noOthers names else .others names s

mutual

/-- The schema that a document stands for. -/
def read? : Json → Option Schema
  | .bool true => some (.every [])
  | .bool false => some .never
  | .obj members => (readWords? members members).map .every
  | _ => none

def readWords? (document : Members Json) : List (String × Json) → Option (List Schema)
  | [] => some []
  | (word, v) :: rest =>
    (match word with
      | "properties" => (readMap? v).map fun schemas => [Schema.properties schemas]
      | "additionalProperties" => (read? v).map fun s => [othersRule (propertyNames document) s]
      | "items" => (readItems? v).map fun s => [s]
      | "allOf" => (readList? v).map fun schemas => [Schema.allOf schemas]
      | "anyOf" => (readList? v).map fun schemas => [Schema.anyOf schemas]
      | "oneOf" => (readList? v).map fun schemas => [Schema.oneOf schemas ((items? v).getD [])]
      | "not" => (read? v).map fun s => [Schema.not s v]
      | "definitions" => (readMap? v).map fun _ => []
      | _ => leaf? word v).bind fun rules =>
        (readWords? document rest).map fun more => rules ++ more

/-- The rule for the items: one schema for all of them, or one for each of the first ones. -/
def readItems? : Json → Option Schema
  | .bool true => some (.items (.every []))
  | .bool false => some (.items .never)
  | .obj members => (readWords? members members).map fun parts => .items (.every parts)
  | .arr (v :: rest) => (readAll? (v :: rest)).map .itemsAt
  | _ => none

/-- The schemas of a list that has some. -/
def readList? : Json → Option (List Schema)
  | .arr (v :: rest) => readAll? (v :: rest)
  | _ => none

def readMap? : Json → Option (List (String × Schema))
  | .obj members => readMembers? members
  | _ => none

def readAll? : List Json → Option (List Schema)
  | [] => some []
  | v :: rest =>
    match read? v with
    | none => none
    | some s => (readAll? rest).map fun schemas => s :: schemas

def readMembers? : List (String × Json) → Option (List (String × Schema))
  | [] => some []
  | (k, v) :: rest =>
    match read? v with
    | none => none
    | some s => (readMembers? rest).map fun schemas => (k, s) :: schemas

end

/-- The fault of a document that is no schema. -/
def noSchema : Fault := Fault.badValue "Invalid JSON schema"

/-- The schema that a document stands for. -/
def read (v : Json) : Except Fault Schema :=
  match read? v with
  | some s => .ok s
  | none => .error noSchema

/-! ## further words -/

/-- Words of draft 7 with rules that are not among those of schemas. -/
def furtherWords : List String :=
  ["$ref", "patternProperties", "propertyNames", "dependencies", "contains", "if", "then", "else",
    "additionalItems"]

/-- Formats that are checked everywhere, beside those of texts above. -/
def furtherFormats : List String := ["idn-email", "ipv6", "time", "uuid"]

mutual

/-- Has a document words or formats that schemas have no rules for?  Values that are no schemas are not looked
into: a default may hold any word, and so may the names of properties. -/
def goesFurther : Json → Bool
  | .obj members => wordsGoFurther members
  | .arr vs => anyGoesFurther vs
  | _ => false

def wordsGoFurther : List (String × Json) → Bool
  | [] => false
  | (word, v) :: rest =>
    (match word with
      | "properties" | "definitions" => mapGoesFurther v
      | "additionalProperties" | "items" | "allOf" | "anyOf" | "oneOf" | "not" => goesFurther v
      | "format" => furtherFormats.any v.isText
      | _ => furtherWords.contains word) || wordsGoFurther rest

def mapGoesFurther : Json → Bool
  | .obj members => membersGoFurther members
  | _ => false

def anyGoesFurther : List Json → Bool
  | [] => false
  | v :: rest => goesFurther v || anyGoesFurther rest

def membersGoFurther : List (String × Json) → Bool
  | [] => false
  | (_, v) :: rest => goesFurther v || membersGoFurther rest

end

end Schema

/-! ## dialects -/

/-- What documents stand for that go further than schemas: what each value breaks, if the document is a schema at
all. -/
structure Dialect where
  further : Json → Option (Json → List Violation)

namespace Dialect

/-- Further words are passed over. -/
def usual : Dialect := ⟨fun document => (Schema.read? document).map Schema.violations⟩

instance : Inhabited Dialect := ⟨usual⟩

/-- The schema that a document stands for in a dialect, if it is a schema at all. -/
def read? (dialect : Dialect) (document : Json) : Option Schema :=
  if Schema.goesFurther document then (dialect.further document).map .further
  else Schema.read? document

def read (dialect : Dialect) (document : Json) : Except Fault Schema :=
  match dialect.read? document with
  | some s => .ok s
  | none => .error Schema.noSchema

theorem read_plain (dialect : Dialect) {document : Json} (h : Schema.goesFurther document = false) :
    dialect.read document = Schema.read document := by
  unfold read read? Schema.read
  rw [h]
  rfl

end Dialect

end EventRouting
