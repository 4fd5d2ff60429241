import EventRouting.Request.Client
import EventRouting.Schema.Read
import EventRouting.Template.Parse

/-!
# Steps

A step of an action reads an invocation and comes to a result, or ends the run with a fault.

* `Target`         the part of an invocation that is validated
* `Step`           the mapping, a validation, a cached request, a request
* `Step.execute`   the invocation after a step, and the result of the step
* `Step.lookUp`    a value through a cache
-/

namespace EventRouting

/-- The part of an invocation that is validated. -/
inductive Target where
  | settings
  | payload
deriving DecidableEq, Inhabited

namespace Target

def name : Target → String
  | settings => "settings"
  | payload => "payload"

def ofName? : String → Option Target
  | "settings" => some settings
  | "payload" => some payload
  | _ => none

def ofJson (v : Json) : Except Fault Target :=
  match v.text?.bind ofName? with
  | some t => .ok t
  | none =>
    .error (.badValue
      ("Validation target must be one of ('settings', 'payload'), got " ++ v.literal))

def value (t : Target) (i : Invocation) : Json :=
  match t with
  | settings => i.settings
  | payload => i.payload

def validText : Target → String
  | settings => "Settings validated"
  | payload => "Payload validated"

end Target

inductive Step where
  /-- the payload becomes what the mapping makes of it -/
  | mapInput
  /-- a part of the invocation satisfies a schema -/
  | validate (target : Target) (schema : Schema)
  /-- a value is looked up through a cache and stored under a field -/
  | cached (ttl : Json) (key : KeyRule) (value : Callable) (field : String)
  /-- a callable is called -/
  | request (name : String) (callable : Callable)
deriving Inhabited

namespace Step

def name : Step → String
  | mapInput => "map_input"
  | validate target _ => "validate_" ++ target.name
  | cached _ _ _ field => "cached_request(" ++ field ++ ")"
  | request name _ => name

def kindName : Step → String
  | mapInput => "MapInputStep"
  | validate .. => "ValidateStep"
  | cached .. => "CachedRequestStep"
  | request .. => "RequestStep"

def literal (s : Step) : String := s.kindName ++ "(name='" ++ s.name ++ "')"

/-- The field that a cached request stores into. -/
def field? : Step → Option String
  | cached _ _ _ field => some field
  | _ => none

/-- A cached request.  The names of the parts of an invocation are not free for what is looked up. -/
def cachedRequest (ttl : Json) (key : KeyRule) (value : Callable) (field : Json) : Except Fault Step :=
  if !field.isTruthy || Invocation.reserved.any field.isText then
    .error (.badValue ("Invalid result field " ++ field.literal ++ " for cached request"))
  else .ok (.cached ttl key value field.display)

def validation (dialect : Dialect) (schema : Json) (target : Json) : Except Fault Step := do
  let target ← Target.ofJson target
  return .validate target (← dialect.read schema)

/-! ## running -/

def mapped (i : Invocation) : Except Fault (Invocation × StepResult) :=
  if i.mapping = .null then .ok (i, .said "No mappings")
  else (Json.transform i.mapping i.payload).map fun payload =>
    ({ i with payload := payload }, .said "Mappings resolved")

/-- A validation leaves the invocation as it is. -/
def validated (target : Target) (schema : Schema) (i : Invocation) :
    Except Fault (Invocation × StepResult) :=
  match schema.check (target.value i) with
  | [] => .ok (i, .said target.validText)
  | violations => .error (.validation target.name (violations.map Violation.toJson))

def enter (site : Site) : Attempt Unit :=
  Strand.perform (.enter site) fun _ => Strand.done (.ok ())

/-- The end of a flight: its value is kept for a while, and the call that led it has the outcome. -/
def settle (cell : Cell) (key : String) (flight : Nat) (ttl : Json) (outcome : Except Fault Json) :
    Attempt Json :=
  Strand.perform (.settle cell key flight ttl outcome) Strand.done

def await (cell : Cell) (flight : Nat) : Attempt Json := Strand.perform (.await cell flight) Strand.done

/-- The value of a key through a cache: kept from before, shared with a call under way, or computed. -/
def lookUp (cell : Cell) (key : String) (ttl : Json) (compute : Attempt Json) : Attempt Json :=
  Strand.perform (.look cell key) fun
    | .hit v => Strand.done (.ok v)
    | .join flight => await cell flight
    | .lead flight => Strand.bind compute.outcome (settle cell key flight ttl)

def computed (cell : Cell) (o : Options) (value : Callable) (i : Invocation) : Attempt Json := do
  enter (.value cell)
  return (← Client.converse o (value i)).output

/-- The value of a cached request; a key of null goes past the cache. -/
def fetched (f : Factory) (cell : Cell) (ttl : Json) (key : KeyRule) (value : Callable)
    (i : Invocation) : Attempt Json := do
  enter (.key cell)
  let key ← Attempt.ofExcept (key i)
  let o ← Attempt.ofExcept (f.optionsFor i)
  if key = .null then computed cell o value i
  else lookUp cell key.display ttl (computed cell o value i)

/-- The invocation after a step, and the result of the step. -/
def execute (f : Factory) (cell : Cell) (i : Invocation) : Step → Attempt (Invocation × StepResult)
  | mapInput => Attempt.ofExcept (mapped i)
  | validate target schema => Attempt.ofExcept (validated target schema i)
  | cached ttl key value field => do
    let v ← fetched f cell ttl key value i
    return (i.store field v, .of v)
  | request _ callable => do
    let reply ← f.call (.request cell) callable i
    return (i, .of reply.output)

end Step

end EventRouting
