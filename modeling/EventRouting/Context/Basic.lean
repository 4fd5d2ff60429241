import EventRouting.Context.Log
import EventRouting.Context.Stats
import EventRouting.World.Basic

/-!
# Contexts

What is noted while one request is answered, for one log line and one set of measurements at its end.

* `Context`            fields, an error, and records of subscriptions
* `Context.set`        a field set
* `Context.toJson`     a context as a value, its fields in a fixed order
* `Context.line`       the log line of a context
* `Context.measure`    the measurements of a context
-/

namespace EventRouting

/-- The error of a request: a value as it was set, or a fault. -/
inductive Noted where
  | value (v : Json)
  | fault (f : Fault)
deriving Inhabited

def Noted.toJson : Noted → Json
  | value v => v
  | fault f => .str f.literal

def Noted.isThere : Noted → Bool
  | value .null => false
  | _ => true

/-- What is noted while a request is answered. -/
structure Context where
  /-- the fields that are set, apart from the error -/
  fields : Members Json
  error : Noted
  records : List Record
deriving Inhabited

namespace Context

def empty : Context := ⟨[], .value .null, []⟩

/-- The fields that can be set, in the order in which they are shown. -/
def settable : List String :=
  ["http_req_method", "http_req_path", "http_req_query", "http_req_headers", "http_req_ip",
    "http_res_status", "http_res_headers", "http_res_size", "req_route", "req_duration", "req_source",
    "req_destination", "error"]

/-- The value of a field, null before it is set. -/
def field (c : Context) (name : String) : Json :=
  if name == "error" then c.error.toJson else (c.fields.get? name).getD .null

def set (c : Context) (name : String) (v : Json) : Except Fault Context :=
  if !settable.contains name then .error (.missingKey ("Unknown context field: " ++ name))
  else if name == "error" then .ok { c with error := .value v }
  else .ok { c with fields := c.fields.set name v }

def setFault (c : Context) (f : Fault) : Context := { c with error := .fault f }

def append (c : Context) (r : Record) : Context := { c with records := c.records ++ [r] }

def actionNames (c : Context) : List String := c.records.map (·.action)

/-- The value of a field; the records stand for the actions they are of. -/
def get (c : Context) (name : String) : Except Fault Json :=
  if name == "subscriptions" then .ok (.arr (c.actionNames.map .str))
  else if settable.contains name then .ok (c.field name)
  else .error (.missingKey name)

/-- A context by fields in order, the records last. -/
def values (c : Context) : Members Json :=
  settable.map (fun name => (name, c.field name))
    ++ [("subscriptions", .arr (c.records.map Record.toJson))]

def toJson (c : Context) : Json := .obj c.values

/-! ## log and measurements -/

/-- The log line of a context, with more values that win. -/
def line (c : Context) (l : Logger) (level : LogLevel) (message : Json) (more : Members Json) :
    LogLine :=
  l.line level message (c.values.update more)

/-- The first value unless it counts as false. -/
def orElse (v otherwise : Json) : Json := if v.isTruthy then v else otherwise

/-- The hundreds of a status. -/
def statusGroup (status : Json) : Except Fault String :=
  match status.numeric? with
  | some n => .ok (String.ofList (n.floorDivNat 100).text ++ "xx")
  | none => .error .wrongShape

def userAgent (headers : Json) : Except Fault Json :=
  match headers with
  | .obj ms => .ok ((Members.get? ms "user-agent").getD (.str "unknown"))
  | _ => .error .wrongShape

/-- A text with a bar in place of each colon. -/
def withoutColons (s : String) : String := s.map fun c => if c = ':' then '_' else c

def tags (c : Context) : Except Fault (List Json) := do
  let status := orElse (c.field "http_res_status") (.int 500)
  let group ← statusGroup status
  let endpoint := withoutColons
    ((c.field "http_req_method").display ++ " " ++ (c.field "http_req_path").display)
  let agent ← userAgent (orElse (c.field "http_req_headers") (.obj []))
  return [.str ("status_code:" ++ status.display), .str ("status_group:" ++ group),
    .str ("endpoint:" ++ endpoint), .str ("user_agent:" ++ agent.display)]

/-- The measurements of a context: one request, how long it took, the size of the answer if it is known,
and one error if there is one. -/
def measure (c : Context) (s : Stats) : Except Fault Stats := do
  let tags ← c.tags
  let s := s.increment "request" (.int 1) tags
  let s := s.histogram "request_duration" (orElse (c.field "req_duration") (.int 0)) tags
  let size := c.field "http_res_size"
  let s := if size.isTruthy then s.histogram "response_size" size tags else s
  return if c.error.isThere then s.increment "error" (.int 1) tags else s

end Context

end EventRouting
