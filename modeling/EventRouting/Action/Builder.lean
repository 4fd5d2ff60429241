import EventRouting.Action.Basic

/-!
# Building actions

* `Builder`              an action in the making
* `Builder.build`        the action, which starts with the mapping
* `FieldSource`          where the fields of a declaration come from
* `ActionDeclaration`    an action described by its fields, its cached requests and its last call
* `ActionSpec`           an action to be built: a declaration, or calls of a builder
-/

namespace EventRouting

/-- An action in the making. -/
structure Builder where
  slug : String
  extensions : List Extension
  steps : List Step
  fields : List Field
  handlers : Members Callable
  title : Json
  description : Json
  defaultSubscription : Json
  hidden : Json
deriving Inhabited

namespace Builder

def start (slug : String) (extensions : List Extension) : Builder :=
  ⟨slug, extensions, [], [], [], .str "", .str "", .null, .bool false⟩

def describe (b : Builder) (title description defaultSubscription hidden : Json) : Builder :=
  { b with
    title := title
    description := description
    defaultSubscription := defaultSubscription
    hidden := hidden }

def setFields (b : Builder) (fields : List Field) : Builder := { b with fields := fields }

def addStep (b : Builder) (s : Step) : Builder := { b with steps := b.steps ++ [s] }

def validate (b : Builder) (dialect : Dialect) (target : Target) (schema : Json) : Except Fault Builder :=
  (dialect.read schema).map fun s => b.addStep (.validate target s)

def cachedRequest (b : Builder) (ttl : Json) (key : KeyRule) (value : Callable) (field : Json) :
    Except Fault Builder :=
  (Step.cachedRequest ttl key value field).map b.addStep

def request (b : Builder) (callable : Callable) (name : String) : Builder :=
  b.addStep (.request name callable)

def handle (b : Builder) (key : String) (handler : Callable) : Builder :=
  { b with handlers := b.handlers.set key handler }

/-- The first handler for a declared field whose choices are not looked up. -/
def misplacedHandler? (b : Builder) : Option String :=
  b.handlers.names.find? fun key =>
    match Field.find? b.fields key with
    | some f => !f.dynamic
    | none => false

/-- The action, which starts with the mapping.  A handler goes with a field whose choices are looked up, or
with none. -/
def build (b : Builder) : Except Fault Action :=
  match b.misplacedHandler? with
  | some key => .error (.badValue ("Autocomplete handler for non-dynamic field " ++ Text.quoted key))
  | none => .ok {
      slug := b.slug
      steps := .mapInput :: b.steps
      extensions := b.extensions
      title := b.title
      description := b.description
      defaultSubscription := b.defaultSubscription
      fields := b.fields
      hidden := b.hidden
      handlers := b.handlers }

end Builder

/-! ## declarations -/

/-- Where fields come from: a declaration, or a document that was read. -/
inductive FieldSource where
  | declared (v : Json)
  | read (l : FieldList)
deriving Inhabited

def FieldSource.fields : FieldSource → Except Fault (List Field)
  | declared v => Field.declared v
  | read l => .ok l.fields

structure CachedRequest where
  ttl : Json
  key : KeyRule
  value : Callable
  field : Json

/-- An action described by its fields, its cached requests and its last call. -/
structure ActionDeclaration where
  title : Json
  description : Json
  fields : FieldSource
  defaultSubscription : Json
  hidden : Json
  perform : Callable
  cachedRequests : List CachedRequest
  handlers : Members Callable

namespace ActionDeclaration

def addCached (b : Builder) : List CachedRequest → Except Fault Builder
  | [] => .ok b
  | c :: rest =>
    match b.cachedRequest c.ttl c.key c.value c.field with
    | .error f => .error f
    | .ok b => addCached b rest

/-- The validations of a declaration: the settings where there is a schema of them, and the payload where
fields are declared. -/
def validations (b : Builder) (dialect : Dialect) (settingsSchema : Option Json) (fields : List Field) :
    Except Fault Builder := do
  let b ← match settingsSchema with
    | some s => b.validate dialect .settings s
    | none => .ok b
  if fields.isEmpty then return b else b.validate dialect .payload (Field.document fields false)

/-- The action of a declaration: the mapping, the validations, the cached requests, and the call. -/
def build (d : ActionDeclaration) (slug : String) (extensions : List Extension)
    (settingsSchema : Option Json) (dialect : Dialect) : Except Fault Action := do
  let fields ← d.fields.fields
  let b := ((Builder.start slug extensions).describe d.title d.description d.defaultSubscription
    d.hidden).setFields fields
  let b ← validations b dialect settingsSchema fields
  let b ← addCached b d.cachedRequests
  let b := b.request d.perform "perform"
  (d.handlers.foldl (fun b h => b.handle h.1 h.2) b).build

end ActionDeclaration

/-! ## either -/

/-- An action to be built.  Whatever else is given as an action is none. -/
inductive ActionSpec where
  | declared (d : ActionDeclaration)
  /-- calls of the builder that is given, which is given back with the slug that it had -/
  | built (fill : Builder → Except Fault Builder)
  | invalid

namespace ActionSpec

def noAction (slug : String) : Fault :=
  .mishap .misfit
    (some ("Action " ++ Text.quoted slug ++ " must be an ActionDefinition or a builder function"))

def build (spec : ActionSpec) (slug : String) (extensions : List Extension)
    (settingsSchema : Option Json) (dialect : Dialect) : Except Fault Action :=
  match spec with
  | declared d => d.build slug extensions settingsSchema dialect
  | built fill => (fill (Builder.start slug extensions)).bind Builder.build
  | invalid => .error (noAction slug)

end ActionSpec

end EventRouting
