import EventRouting.Context.Basic
import EventRouting.Service.Body
import EventRouting.Service.Loading
import EventRouting.Service.Route

/-!
# The service

Destinations behind an HTTP interface.

* `Service`               a registry and a configuration
* `Arrival`               a request to the service
* `Handled`               the answer, the log lines, and the measurements of a request
* `Service.handleEvent`   an event for a destination
* `Service.handle`        any request
-/

namespace EventRouting

structure Service where
  registry : Registry
  configuration : Configuration
deriving Inhabited

structure Arrival where
  method : String
  target : String
  headers : Members Json
  /-- where the request comes from -/
  origin : Json
  body : String
  /-- how long it took, where that was measured -/
  duration : Json
deriving Inhabited

structure Answer where
  status : Int
  body : Json
deriving DecidableEq, Inhabited

/-- The answer to a request, with the lines and the points that it left behind. -/
structure Handled where
  answer : Answer
  log : List LogLine
  points : List Point
deriving DecidableEq, Inhabited

def Handled.sentTo (h : Handled) (method : String) : Handled :=
  if Text.upper method == "HEAD" then { h with answer := { h.answer with body := .str "" } } else h

namespace Answer

def detail (status : Int) (text : String) : Answer := ⟨status, .obj [("detail", .str text)]⟩

def notFound : Answer := detail 404 "Not Found"

def methodNotAllowed : Answer := detail 405 "Method Not Allowed"

/-- The answer that gives nothing away. -/
def internal : Answer :=
  ⟨500, .obj [("error", .obj [("type", .str "InternalError"), ("code", .str "INTERNAL_ERROR"),
    ("message", .str "An unexpected error occurred"), ("status", .int 500)])]⟩

/-- A document as an answer; a value without a document is an internal error. -/
def ofDocument (v : Json) : Answer := if v.hasDocument then ⟨200, v⟩ else internal

/-- A fault as an answer.  Faults outside the family of destinations give nothing away. -/
def ofFault (f : Fault) : Answer :=
  if f.isOfFamily then ⟨f.status, .obj [("error", f.document)]⟩ else internal

def ofExcept : Except Fault Json → Answer
  | .ok v => ofDocument v
  | .error f => ofFault f

def ofComplaints (complaints : List Complaint) : Answer := ⟨400, Complaint.document complaints⟩

def alone (a : Answer) : Handled := ⟨a, [], []⟩

end Answer

namespace Service

def version : String := "0.1.0"

/-! ## descriptions -/

def describe (slug : String) (d : Destination) : Json :=
  .obj [("slug", .str slug), ("name", .str d.name), ("actions", .arr (d.actions.names.map .str))]

def listed (s : Service) : Json :=
  .obj [("destinations", .arr (s.registry.all.map fun d => describe d.slug d))]

def health (s : Service) : Json :=
  .obj [("status", .str "healthy"), ("service", .str s.configuration.serviceName),
    ("environment", .str s.configuration.environment), ("version", .str version),
    ("destinations", .arr (s.registry.names.map .str))]

/-! ## events -/

/-- What is noted of an event before it is handled. -/
def contextOf (a : Arrival) (path slug : String) : Context :=
  { Context.empty with fields :=
    [("http_req_method", .str (Text.upper a.method)), ("http_req_path", .str path),
      ("http_req_headers", .obj a.headers), ("http_req_ip", a.origin),
      ("req_route", .str "/v1/destinations/:slug/events"), ("req_destination", .str slug)] }

/-- An event handed to a destination, and what came of it. -/
def dispatch (s : Service) (partner : Partner) (w : World) (slug : String) (b : EventBody) :
    World × Except Fault (List StepResult) :=
  let runs : Except Fault (List (Strand (List StepResult))) := do
    let d ← s.registry.require slug
    d.onEvent (.obj b.event) (.obj b.settings) (.arr (b.privateSettings.map .str))
  match runs with
  | .error f => (w, .error f)
  | .ok runs =>
    let (w, all) := (Strand.inOrder runs).run partner w
    (w, .ok ((all.result?.getD []).flatten))

/-- The context at the end of an event: its records, how it ended, and how long it took. -/
def concluded (c : Context) (records : List Record) (outcome : Except Fault (List StepResult))
    (duration : Json) : Context :=
  let fields := c.fields ++ [("req_duration", duration)]
  match outcome with
  | .ok _ => { c with fields := fields ++ [("http_res_status", .int 200)], records := records }
  | .error f =>
    { fields := fields ++ [("http_res_status", .int f.status)], error := .fault f, records := records }

def levelOf (c : Context) : LogLevel := if c.error.isThere then .error else .info

/-- An event for a destination: one log line and one set of measurements, whatever happens. -/
def handleEvent (s : Service) (partner : Partner) (w : World) (a : Arrival) (path slug : String)
    (b : EventBody) : World × Handled :=
  let (after, outcome) := s.dispatch partner w slug b
  let records := after.records.drop w.records.length
  let c := concluded (contextOf a path slug) records outcome a.duration
  let line := c.line ⟨[]⟩ (levelOf c) (.str "Event handled") []
  let answer := Answer.ofExcept (outcome.map fun results =>
    .obj [("results", .arr (results.map StepResult.toJson))])
  match c.measure (Stats.start Stats.defaultLimit) with
  | .ok stats => (after, ⟨answer, [line], stats.points⟩)
  | .error f => (after, ⟨Answer.ofFault f, [line], []⟩)

/-! ## all requests -/

/-- A run that ends with a document. -/
def respond (partner : Partner) (w : World) (run : Attempt Json) : World × Handled :=
  let (w, s) := run.outcome.run partner w
  (w, (Answer.ofExcept (s.result?.getD (.error .wrongShape))).alone)

def testCredentials (s : Service) (slug : String) (b : SettingsBody) : Attempt Json := do
  let d ← Attempt.ofExcept (s.registry.require slug)
  d.testCredentials b.settings
  return .obj [("ok", .bool true)]

def autocomplete (s : Service) (slug action field : String) (b : PayloadBody) : Attempt Json := do
  let d ← Attempt.ofExcept (s.registry.require slug)
  return (← d.autocomplete action field (.obj b.settings) (.obj b.payload)).toJson

/-- A body read before it is used; what is wrong with it is the answer. -/
def withBody {α : Type} (w : World) (read : Reading α) (use : α → World × Handled) : World × Handled :=
  match read with
  | .error complaints => (w, (Answer.ofComplaints complaints).alone)
  | .ok b => use b

def handleRouted (s : Service) (partner : Partner) (w : World) (a : Arrival) : World × Handled :=
  match Routing.find a.method (Routing.pathOf a.target) with
  | .notFound => (w, Answer.notFound.alone)
  | .methodNotAllowed => (w, Answer.methodNotAllowed.alone)
  | .found .destinations _ => (w, (Answer.ofDocument s.listed).alone)
  | .found .health _ => (w, (Answer.ofDocument s.health).alone)
  | .found (.events slug) path =>
    withBody w (EventBody.read a.body) (s.handleEvent partner w a path slug)
  | .found (.authentication slug) _ =>
    withBody w (SettingsBody.read a.body) fun b => respond partner w (s.testCredentials slug b)
  | .found (.autocomplete slug action field) _ =>
    withBody w (PayloadBody.read a.body) fun b =>
      respond partner w (s.autocomplete slug action field b)

def handle (s : Service) (partner : Partner) (w : World) (a : Arrival) : World × Handled :=
  let (w, h) := s.handleRouted partner w a
  (w, h.sentTo a.method)

end Service

end EventRouting
