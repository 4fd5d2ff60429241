import EventRouting.Json.Names
import EventRouting.Json.Same

/-!
# Input fields

* `FieldType`               the types of fields
* `Field`                   a field that an action or an authentication asks for
* `Field.ofDeclaration`     the field that an object declares
* `Field.declared`          the fields of a declaration: members by name, or nothing
* `Field.toJson`            a field as a value
* `Field.defaults`, `Field.privateKeys`   the values to start from, and the fields to keep secret
-/

namespace EventRouting

inductive FieldType where
  | string
  | text
  | password
  | datetime
  | number
  | integer
  | boolean
  | object
deriving DecidableEq, Inhabited

namespace FieldType

def name : FieldType → String
  | string => "string"
  | text => "text"
  | password => "password"
  | datetime => "datetime"
  | number => "number"
  | integer => "integer"
  | boolean => "boolean"
  | object => "object"

def ofName? : String → Option FieldType
  | "string" => some .string
  | "text" => some .text
  | "password" => some .password
  | "datetime" => some .datetime
  | "number" => some .number
  | "integer" => some .integer
  | "boolean" => some .boolean
  | "object" => some .object
  | _ => none

@[simp] theorem ofName?_name (t : FieldType) : ofName? t.name = some t := by cases t <;> rfl

def ofJson (v : Json) : Except Fault FieldType :=
  let fault := Fault.badValue (v.literal ++ " is not a valid FieldType")
  match v with
  | .str s =>
    match ofName? s with
    | some t => .ok t
    | none => .error fault
  | _ => .error fault

end FieldType

/-- A field that an action or an authentication asks for.  A default that is null differs from none. -/
structure Field where
  key : String
  type : FieldType
  label : Json
  description : Json
  default : Option Json
  required : Bool
  multiple : Bool
  dynamic : Bool
  allowNull : Bool
  placeholder : Json
deriving DecidableEq, Inhabited

namespace Field

/-- The value of a member that is an empty text unless declared. -/
def textMember (members : Members Json) (key : String) : Json :=
  (members.get? key).getD (.str "")

/-- Is a member declared as something that counts as true? -/
def flag (members : Members Json) (key : String) : Bool :=
  ((members.get? key).getD (.bool false)).isTruthy

def ofDeclaration (key : String) (v : Json) : Except Fault Field :=
  match v with
  | .obj members =>
    match FieldType.ofJson ((Members.get? members "type").getD (.str "string")) with
    | .error e => .error e
    | .ok type => .ok {
        key := key
        type := type
        label := textMember members "label"
        description := textMember members "description"
        default := Members.get? members "default"
        required := flag members "required"
        multiple := flag members "multiple"
        dynamic := flag members "dynamic"
        allowNull :=
          if Members.contains members "allow_null" then flag members "allow_null"
          else flag members "allowNull"
        placeholder := textMember members "placeholder" }
  | _ => .error .wrongShape

def ofMembers : List (String × Json) → Except Fault (List Field)
  | [] => .ok []
  | (k, v) :: rest =>
    match ofDeclaration k v with
    | .error e => .error e
    | .ok f =>
      match ofMembers rest with
      | .error e => .error e
      | .ok fs => .ok (f :: fs)

/-- The fields of a declaration: an object of fields by key; null and what is empty declare none. -/
def declared (v : Json) : Except Fault (List Field) :=
  match v with
  | .null => .ok []
  | .obj members => ofMembers members
  | _ =>
    match v.collected with
    | .ok [] => .ok []
    | _ => .error .wrongShape

def toJson (f : Field) : Json :=
  .obj ([("key", .str f.key), ("type", .str f.type.name), ("label", f.label),
      ("description", f.description), ("required", .bool f.required), ("multiple", .bool f.multiple),
      ("dynamic", .bool f.dynamic), ("allowNull", .bool f.allowNull)]
    ++ (f.default.map fun d => ("default", d)).toList
    ++ (if f.placeholder.isTruthy then [("placeholder", f.placeholder)] else []))

def defaults (fields : List Field) : Members Json :=
  Members.ofList (fields.filterMap fun f => f.default.map fun d => (f.key, d))

/-- The keys of the fields whose values are kept secret. -/
def privateKeys (fields : List Field) : List String :=
  (fields.filter fun f => f.type = .password).map (·.key)

/-- The keys of the fields whose choices are looked up. -/
def dynamicKeys (fields : List Field) : List String :=
  (fields.filter (·.dynamic)).map (·.key)

/-- The last field that is declared under a key. -/
def find? (fields : List Field) (key : String) : Option Field :=
  fields.reverse.find? fun f => f.key = key

def alikeOption : Option Json → Option Json → Bool
  | some a, some b => a.alike b
  | none, none => true
  | _, _ => false

/-- Equality with the values of labels and defaults compared by value. -/
def alike (f g : Field) : Bool :=
  f.key = g.key && f.type = g.type && f.label.alike g.label && f.description.alike g.description &&
    alikeOption f.default g.default && f.required = g.required && f.multiple = g.multiple &&
    f.dynamic = g.dynamic && f.allowNull = g.allowNull && f.placeholder.alike g.placeholder

def allAlike : List Field → List Field → Bool
  | [], [] => true
  | f :: fs, g :: gs => alike f g && allAlike fs gs
  | _, _ => false

end Field

end EventRouting
