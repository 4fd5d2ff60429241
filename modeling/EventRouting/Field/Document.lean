import EventRouting.Field.Basic

/-!
# Fields as schema documents

* `Field.property`        the property that describes a field
* `Field.ofProperty`      the field that a property describes
* `Field.document`        the document that describes fields, open for other properties or not
* `FieldList.ofDocument`  the fields that a document describes, and whether it is open

A list of values is an array, and a field that may be null adds `null` to its outermost type.
-/

namespace EventRouting

namespace FieldType

def valueType : FieldType → String
  | string | text | password | datetime => "string"
  | number => "number"
  | integer => "integer"
  | boolean => "boolean"
  | object => "object"

/-- The format that tells the texts apart. -/
def format? : FieldType → Option String
  | text => some "text"
  | password => some "password"
  | datetime => some "date-time"
  | _ => none

/-- The field type of a type and a format in a document.  A format that means nothing is passed over. -/
def ofValueType? (type : String) (format : Option String) : Option FieldType :=
  match type, format with
  | "string", some "text" => some .text
  | "string", some "password" => some .password
  | "string", some "date-time" => some .datetime
  | "string", _ => some .string
  | "number", _ => some .number
  | "integer", _ => some .integer
  | "boolean", _ => some .boolean
  | "object", _ => some .object
  | _, _ => none

@[simp] theorem ofValueType?_valueType (t : FieldType) : ofValueType? t.valueType t.format? = some t := by
  cases t <;> rfl

end FieldType

namespace Field

def schemaMark : String := "http://json-schema.org/schema#"

def outerType (f : Field) : Json :=
  let type := if f.multiple then "array" else f.type.valueType
  if f.allowNull then .arr [.str type, .str "null"] else .str type

/-- What describes the values of a property beside its type. -/
def innerMembers (f : Field) : Members Json :=
  let format := (f.type.format?.map fun s => ("format", Json.str s)).toList
  if f.multiple then [("items", .obj (("type", .str f.type.valueType) :: format))] else format

/-- A member that is there if its value counts as true. -/
def truthyMember (key : String) (v : Json) : Members Json := if v.isTruthy then [(key, v)] else []

def property (f : Field) : Json :=
  .obj ([("type", f.outerType)] ++ f.innerMembers
    ++ truthyMember "title" f.label
    ++ truthyMember "description" f.description
    ++ (f.default.map fun d => ("default", d)).toList
    ++ truthyMember "placeholder" f.placeholder
    ++ (if f.dynamic then [("dynamic", .bool true)] else []))

/-- The document that describes fields.  It lists the keys of required fields in order. -/
def document (fields : List Field) (isOpen : Bool) : Json :=
  .obj [("$schema", .str schemaMark), ("type", .str "object"),
    ("additionalProperties", .bool isOpen),
    ("properties", .obj (Members.ofList (fields.map fun f => (f.key, f.property)))),
    ("required", .arr ((fields.filter (·.required)).map fun f => .str f.key))]

/-! ## reading documents -/

/-- The type of a property and whether null is allowed beside it. -/
def outerTypeOf (key : String) (type : Json) : Except Fault (Json × Bool) :=
  match type with
  | .arr types =>
    match types.filter fun t => !t.isText "null" with
    | [t] => .ok (t, types.any fun t => t.isText "null")
    | _ =>
      .error (Fault.badValue
        ("Property " ++ Text.quoted key ++ " has an unsupported type union " ++ type.literal))
  | _ => .ok (type, false)

/-- The type of the values of a field, from the type and the format in its property. -/
def typeOf (key : String) (type format : Json) : Except Fault FieldType :=
  let fault := Fault.badValue
    ("Property " ++ Text.quoted key ++ " has an unsupported type " ++ type.literal)
  if !type.isElement || !format.isElement then .error .wrongShape
  else
    match type with
    | .str s =>
      match FieldType.ofValueType? s format.text? with
      | some t => .ok t
      | none => .error fault
    | _ => .error fault

/-- The type of the values of a property, given its type without null. -/
def innerTypeOf (key : String) (members : Members Json) (type : Json) : Except Fault FieldType :=
  if type.isText "array" then
    match (members.get? "items").getD (.obj []) with
    | .obj inner =>
      typeOf key ((Members.get? inner "type").getD (.str "string"))
        ((Members.get? inner "format").getD .null)
    | _ => .error .wrongShape
  else typeOf key type ((members.get? "format").getD .null)

def ofProperty (key : String) (required : Bool) (v : Json) : Except Fault Field :=
  match v with
  | .obj members =>
    match outerTypeOf key ((Members.get? members "type").getD (.str "string")) with
    | .error e => .error e
    | .ok (type, allowNull) =>
      match innerTypeOf key members type with
      | .error e => .error e
      | .ok fieldType => .ok {
          key := key
          type := fieldType
          label := textMember members "title"
          description := textMember members "description"
          default := Members.get? members "default"
          required := required
          multiple := type.isText "array"
          dynamic := flag members "dynamic"
          allowNull := allowNull
          placeholder := textMember members "placeholder" }
  | _ => .error .wrongShape

def ofProperties (required : List String) : List (String × Json) → Except Fault (List Field)
  | [] => .ok []
  | (k, v) :: rest =>
    match ofProperty k (required.contains k) v with
    | .error e => .error e
    | .ok f =>
      match ofProperties required rest with
      | .error e => .error e
      | .ok fs => .ok (f :: fs)

end Field

/-- Fields that were read from a document, and whether it is open for other properties. -/
structure FieldList where
  fields : List Field
  isOpen : Bool
deriving DecidableEq, Inhabited

namespace FieldList

/-- The fields that a document describes; a document that says nothing describes none. -/
def ofDocument (v : Json) : Except Fault FieldList :=
  if !v.isTruthy then .ok ⟨[], false⟩
  else
    match v with
    | .obj members =>
      match ((Members.get? members "required").getD (.arr [])).names with
      | .error e => .error e
      | .ok required =>
        match (Members.get? members "properties").getD (.obj []) with
        | .obj properties =>
          match Field.ofProperties required properties with
          | .error e => .error e
          | .ok fields => .ok ⟨fields, Field.flag members "additionalProperties"⟩
        | _ => .error .wrongShape
    | _ => .error .wrongShape

/-- The document that the fields were read from, as far as they tell it. -/
def document (l : FieldList) : Json := Field.document l.fields l.isOpen

end FieldList

end EventRouting
