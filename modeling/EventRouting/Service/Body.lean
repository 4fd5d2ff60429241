import EventRouting.Json.Names
import EventRouting.Json.Read

/-!
# Bodies of requests to a service

What a request may say, and what is wrong with one that says something else.

* `Complaint`            one thing that is wrong, and where
* `EventBody.read`       an event, settings, and the settings to be kept secret
* `SettingsBody.read`    settings
* `PayloadBody.read`     settings and a payload
-/

namespace EventRouting

/-- One thing that is wrong with a body, and where. -/
structure Complaint where
  field : String
  message : String
  type : String
deriving DecidableEq, Inhabited

namespace Complaint

def toJson (c : Complaint) : Json :=
  .obj [("field", .str c.field), ("message", .str c.message), ("type", .str c.type)]

def missing (field : String) : Complaint := ⟨field, "Field required", "missing"⟩

def notObject (field : String) : Complaint := ⟨field, "Input should be a valid dictionary", "dict_type"⟩

def notList (field : String) : Complaint := ⟨field, "Input should be a valid list", "list_type"⟩

def notText (field : String) : Complaint := ⟨field, "Input should be a valid string", "string_type"⟩

def notBody : Complaint :=
  ⟨"body", "Input should be a valid dictionary or object to extract fields from",
    "model_attributes_type"⟩

def noDocument (position : Nat) : Complaint :=
  ⟨"body." ++ toString position, "JSON decode error", "json_invalid"⟩

/-- The document for a request that cannot be answered. -/
def document (complaints : List Complaint) : Json :=
  .obj [("error", .obj [("type", .str "RequestValidationError"), ("code", .str "INVALID_REQUEST"),
    ("message", .str "Invalid request data"), ("status", .int 400),
    ("details", .arr (complaints.map toJson))])]

end Complaint

/-- What is read, or everything that is wrong. -/
abbrev Reading (α : Type) := Except (List Complaint) α

namespace Reading

/-- Two readings; what is wrong with either is told. -/
def both {α β : Type} (a : Reading α) (b : Reading β) : Reading (α × β) :=
  match a, b with
  | .ok a, .ok b => .ok (a, b)
  | .error e, .ok _ => .error e
  | .ok _, .error f => .error f
  | .error e, .error f => .error (e ++ f)

end Reading

namespace Body

/-- The members of a body.  Nothing and null are a missing body. -/
def members (text : String) : Reading (Members Json) :=
  if text.isEmpty then .error [.missing "body"]
  else
    match Json.readBytes text with
    | .error e => .error [.noDocument e.position]
    | .ok .null => .error [.missing "body"]
    | .ok (.obj ms) => .ok ms
    | .ok _ => .error [.notBody]

def asObject (field : String) : Json → Reading (Members Json)
  | .obj ms => .ok ms
  | _ => .error [.notObject field]

def optionalObject (ms : Members Json) (name : String) : Reading (Members Json) :=
  match ms.get? name with
  | none => .ok []
  | some v => asObject ("body." ++ name) v

def requiredObject (ms : Members Json) (name : String) : Reading (Members Json) :=
  match ms.get? name with
  | none => .error [.missing ("body." ++ name)]
  | some v => asObject ("body." ++ name) v

/-- The texts of a list; every item that is none is told. -/
def textsFrom (field : String) : Nat → List Json → Reading (List String)
  | _, [] => .ok []
  | n, v :: rest =>
    let first : Reading String := match v with
      | .str s => .ok s
      | _ => .error [.notText (field ++ "." ++ toString n)]
    (first.both (textsFrom field (n + 1) rest)).map fun (s, rest) => s :: rest

def optionalTexts (ms : Members Json) (name : String) : Reading (List String) :=
  match ms.get? name with
  | none => .ok []
  | some (.arr items) => textsFrom ("body." ++ name) 0 items
  | some _ => .error [.notList ("body." ++ name)]

end Body

structure EventBody where
  event : Members Json
  settings : Members Json
  privateSettings : List String
deriving DecidableEq, Inhabited

def EventBody.read (text : String) : Reading EventBody := do
  let ms ← Body.members text
  let read := (Body.requiredObject ms "event").both
    ((Body.optionalObject ms "settings").both (Body.optionalTexts ms "private_settings"))
  return (fun r => ⟨r.1, r.2.1, r.2.2⟩) (← read)

structure SettingsBody where
  settings : Members Json
deriving DecidableEq, Inhabited

def SettingsBody.read (text : String) : Reading SettingsBody := do
  let ms ← Body.members text
  return ⟨← Body.optionalObject ms "settings"⟩

structure PayloadBody where
  settings : Members Json
  payload : Members Json
deriving DecidableEq, Inhabited

def PayloadBody.read (text : String) : Reading PayloadBody := do
  let ms ← Body.members text
  let read := (Body.optionalObject ms "settings").both (Body.optionalObject ms "payload")
  return (fun r => ⟨r.1, r.2⟩) (← read)

end EventRouting
