import EventRouting.Number.Reading
import EventRouting.Request.Client
import EventRouting.Settings

/-!
# Configuration

What a service is set up with.

* `Configuration`                  the values
* `Configuration.ofValues`         the configuration of named values, or the list of what is wrong
* `Configuration.ofEnvironment`    the configuration of texts in the environment
* `Configuration.setup`            how the runs of its destinations are set up
-/

namespace EventRouting

structure Configuration where
  serviceName : String
  environment : String
  debug : Bool
  logLevel : String
  /-- how long to wait for a partner -/
  requestTimeout : Binary64
  /-- how long to wait for the answer of a probe -/
  credentialTestTimeout : Binary64
  userAgent : String
  redactionPlaceholder : String
  destinationModules : List String
deriving DecidableEq, Inhabited

namespace Configuration

def usual : Configuration :=
  ⟨"destkit", "development", false, "INFO", Binary64.ofInt 10, Binary64.ofInt 3,
    Factory.defaultUserAgent, Settings.redactedText, []⟩

def toJson (c : Configuration) : Json :=
  .obj [("service_name", .str c.serviceName), ("environment", .str c.environment),
    ("debug", .bool c.debug), ("log_level", .str c.logLevel),
    ("request_timeout", .num (.float c.requestTimeout)),
    ("credential_test_timeout", .num (.float c.credentialTestTimeout)),
    ("user_agent", .str c.userAgent), ("redaction_placeholder", .str c.redactionPlaceholder),
    ("destination_modules", .arr (c.destinationModules.map .str))]

/-! ## values -/

/-- A value, or the name of what is wrong with it. -/
abbrev Checked (α : Type) := Except String α

def levels : List String := ["DEBUG", "INFO", "WARNING", "ERROR", "CRITICAL"]

def checkText : Json → Checked String
  | .str s => .ok s
  | _ => .error "string_type"

def checkFlag : Json → Checked Bool
  | .bool b => .ok b
  | .num n =>
    if n.same (.int 0) then .ok false else if n.same (.int 1) then .ok true else .error "bool_parsing"
  | .str s =>
    let lowered := Text.lower s
    if ["1", "true", "t", "yes", "y", "on"].contains lowered then .ok true
    else if ["0", "false", "f", "no", "n", "off"].contains lowered then .ok false
    else .error "bool_parsing"
  | _ => .error "bool_type"

def checkLevel (v : Json) : Checked String := do
  let level := Text.upper (← checkText v)
  if levels.contains level then return level else throw "value_error"

def checkNumber (v : Json) : Checked Binary64 :=
  match v with
  | .str s =>
    match Binary64.ofText? s.toList with
    | some x => .ok x
    | none => .error "float_parsing"
  | _ =>
    match v.numeric? with
    | some n => .ok n.toBinary64
    | none => .error "float_type"

/-- A time to wait is more than nothing. -/
def checkTimeout (v : Json) : Checked Binary64 := do
  let x ← checkNumber v
  if (Number.int 0).lt (.float x) then return x else throw "greater_than"

def checkTexts : Json → Checked (List String)
  | .arr items => items.mapM checkText
  | _ => .error "list_type"

/-- A checked value, or the usual one where none is given. -/
def checked {α : Type} (values : Members Json) (name : String) (check : Json → Checked α) (usual : α) :
    Checked α :=
  match values.get? name with
  | some v => check v
  | none => .ok usual

/-- What is wrong with a value, under its name. -/
def complaint {α : Type} (name : String) : Checked α → List String
  | .ok _ => []
  | .error kind => [name ++ ":" ++ kind]

/-- The configuration of named values; other names are passed over. -/
def ofValues (values : Members Json) : Except Fault Configuration :=
  let u := usual
  let serviceName := checked values "service_name" checkText u.serviceName
  let environment := checked values "environment" checkText u.environment
  let debug := checked values "debug" checkFlag u.debug
  let logLevel := checked values "log_level" checkLevel u.logLevel
  let requestTimeout := checked values "request_timeout" checkTimeout u.requestTimeout
  let probeTimeout := checked values "credential_test_timeout" checkTimeout u.credentialTestTimeout
  let userAgent := checked values "user_agent" checkText u.userAgent
  let placeholder := checked values "redaction_placeholder" checkText u.redactionPlaceholder
  let modules := checked values "destination_modules" checkTexts u.destinationModules
  let complaints := complaint "credential_test_timeout" probeTimeout ++ complaint "debug" debug
    ++ complaint "destination_modules" modules ++ complaint "environment" environment
    ++ complaint "log_level" logLevel ++ complaint "redaction_placeholder" placeholder
    ++ complaint "request_timeout" requestTimeout ++ complaint "service_name" serviceName
    ++ complaint "user_agent" userAgent
  match serviceName, environment, debug, logLevel, requestTimeout, probeTimeout, userAgent, placeholder,
    modules with
  | .ok s, .ok e, .ok d, .ok l, .ok r, .ok p, .ok a, .ok h, .ok m => .ok ⟨s, e, d, l, r, p, a, h, m⟩
  | _, _, _, _, _, _, _, _, _ => .error (.mishap .badSettings (some ("; ".intercalate complaints)))

/-! ## environment -/

/-- The names of modules between commas, without the blanks around them. -/
def splitModules (s : String) : List String :=
  ((s.toList.splitOn ',').map fun cs => String.ofList (Text.strip cs)).filter fun m => !m.isEmpty

def numberOf (s : String) : Except Fault Binary64 :=
  match Binary64.ofText? s.toList with
  | some x => .ok x
  | none => .error (.badValue ("could not convert string to float: " ++ Text.quoted s))

/-- The configuration of texts in the environment, each under its name after the common start. -/
def ofEnvironment (environment : Members String) : Except Fault Configuration := do
  let read (name otherwise : String) : String :=
    (environment.get? ("DESTKIT_" ++ name)).getD otherwise
  let requestTimeout ← numberOf (read "REQUEST_TIMEOUT" "10.0")
  let probeTimeout ← numberOf (read "CREDENTIAL_TEST_TIMEOUT" "3.0")
  let u := usual
  ofValues [("service_name", .str (read "SERVICE_NAME" u.serviceName)),
    ("environment", .str (read "ENVIRONMENT" u.environment)),
    ("debug", .bool (Text.lower (read "DEBUG" "false") == "true")),
    ("log_level", .str (read "LOG_LEVEL" u.logLevel)),
    ("request_timeout", .num (.float requestTimeout)),
    ("credential_test_timeout", .num (.float probeTimeout)),
    ("user_agent", .str (read "USER_AGENT" u.userAgent)),
    ("redaction_placeholder", .str (read "REDACTION_PLACEHOLDER" u.redactionPlaceholder)),
    ("destination_modules", .arr ((splitModules (read "DESTINATION_MODULES" "")).map .str))]

end Configuration

end EventRouting
