import EventRouting.Json.Literal

/-!
# Faults

Everything that can go wrong, as causes.  What is shown of a fault is computed from its cause.

A fault is its class and its message, with status and details in the family of destinations.  That is all that
callables can raise here: the message of a fault can always be told, and a fault passes through whatever runs a
callable as it is, so that nothing raised stands for the end of an iteration or of a run.

* `Fault`           a cause
* `Fault.name`      the name of the class of a fault
* `Fault.message`   what a fault says
* `Fault.report`    kind, status, text and details as they are put into results
* `Fault.document`  the answer to a request that failed
-/

namespace EventRouting

/-- What can happen between sending a request and having its answer. -/
inductive TransportFault where
  | connectTimeout
  | readTimeout
  | writeTimeout
  | poolTimeout
  | connectError
  | readError
  | remoteProtocolError
  | tooManyRedirects
  | unsupportedProtocol
deriving DecidableEq, Inhabited

namespace TransportFault

def name : TransportFault → String
  | connectTimeout => "ConnectTimeout"
  | readTimeout => "ReadTimeout"
  | writeTimeout => "WriteTimeout"
  | poolTimeout => "PoolTimeout"
  | connectError => "ConnectError"
  | readError => "ReadError"
  | remoteProtocolError => "RemoteProtocolError"
  | tooManyRedirects => "TooManyRedirects"
  | unsupportedProtocol => "UnsupportedProtocol"

def isTimeout : TransportFault → Bool
  | connectTimeout | readTimeout | writeTimeout | poolTimeout => true
  | _ => false

/-- A partner that takes too long is told apart from one that cannot be reached. -/
def status (t : TransportFault) : Nat := if t.isTimeout then 504 else 502

end TransportFault

/-- Faults that have no class of their own in the family of destinations. -/
inductive Mishap where
  | exception
  | lookup
  | missingKey
  /-- a value of the wrong type, as a callable says -/
  | badType
  /-- something given in place of an action or a definition -/
  | misfit
  | badValue
  | runtime
  | overflow
  | zeroDivision
  | unencodable
  | badAddress
  | missingModule
  | badDocument
  | cancelled
  | badSettings
deriving DecidableEq, Inhabited

def Mishap.name : Mishap → String
  | exception => "Exception"
  | lookup => "LookupError"
  | missingKey => "KeyError"
  | badType | misfit => "TypeError"
  | badValue => "ValueError"
  | runtime => "RuntimeError"
  | overflow => "OverflowError"
  | zeroDivision => "ZeroDivisionError"
  | unencodable => "UnicodeEncodeError"
  | badAddress => "InvalidURL"
  | missingModule => "ModuleNotFoundError"
  | badDocument => "JSONDecodeError"
  | cancelled => "CancelledError"
  | badSettings => "SettingsError"

/-- A cause of failure. -/
inductive Fault where
  /-- a failure of a destination that is nothing more special -/
  | destination (text : String) (status : Option Int)
  /-- a predicate that cannot be read, with the place where reading stopped -/
  | predicateParse (text : String) (position : Option Nat)
  /-- a predicate against something that is no event -/
  | predicateEvaluation (text : String) (status : Option Int)
  /-- subscriptions that cannot be read -/
  | subscriptionParse (text : String) (status : Option Int)
  /-- a subscription to an action that is not there -/
  | unknownAction (slug : String)
  /-- a destination that is not there, with those that are -/
  | destinationNotFound (slug : String) (available : Option (List String))
  /-- an action without the operation asked for -/
  | unsupportedAction (text : String) (status : Option Int)
  /-- a value that breaks its schema, with every violation -/
  | validation (target : String) (reports : List Json)
  /-- a malformed template, with the place in it -/
  | transform (text : String) (location : String)
  /-- an answer of a partner that is no success -/
  | request (text : String) (code : Option Int)
  /-- credentials that do not work -/
  | credentials
  /-- a request without an answer -/
  | transport (cause : TransportFault) (text : String)
  /-- a value of the wrong shape for what is done with it -/
  | wrongShape
  /-- anything else, with what it was given to say; a missing key gives the key -/
  | mishap (kind : Mishap) (text : Option String)
deriving Inhabited

namespace Fault

/-- Wrong content of a value of the right shape. -/
def badValue (text : String) : Fault := .mishap .badValue (some text)

def missingKey (key : String) : Fault := .mishap .missingKey (some key)

/-- An integer that has no place among the binary64 numbers. -/
def tooLarge : Fault := .mishap .overflow (some "int too large to convert to float")

/-! ## names and texts -/

def name : Fault → String
  | destination .. => "DestinationError"
  | predicateParse .. => "PredicateParseError"
  | predicateEvaluation .. => "PredicateEvaluationError"
  | subscriptionParse .. => "SubscriptionParseError"
  | unknownAction .. => "UnknownActionError"
  | destinationNotFound .. => "DestinationNotFoundError"
  | unsupportedAction .. => "UnsupportedActionError"
  | validation .. => "ValidationError"
  | transform .. => "TransformError"
  | request .. => "RequestError"
  | credentials => "CredentialTestError"
  | transport cause _ => cause.name
  | wrongShape => Mishap.badType.name
  | mishap kind _ => kind.name

/-- The code of a fault of the family of destinations; other faults have none. -/
def code? : Fault → Option String
  | destination .. => some "DESTINATION_ERROR"
  | predicateParse .. => some "PREDICATE_PARSE_ERROR"
  | predicateEvaluation .. => some "PREDICATE_EVALUATION_ERROR"
  | subscriptionParse .. => some "SUBSCRIPTION_PARSE_ERROR"
  | unknownAction .. => some "UNKNOWN_ACTION"
  | destinationNotFound .. => some "DESTINATION_NOT_FOUND"
  | unsupportedAction .. => some "UNSUPPORTED_ACTION"
  | validation .. => some "VALIDATION_ERROR"
  | transform .. => some "TRANSFORM_ERROR"
  | request .. => some "REQUEST_ERROR"
  | credentials => some "INVALID_CREDENTIALS"
  | transport .. | wrongShape | mishap .. => none

def isOfFamily (f : Fault) : Bool := f.code?.isSome

def violationText (report : Json) : String :=
  match report.member? "message" with
  | some v => v.display
  | none => ""

/-- What the violations of a value say, all of them. -/
def violationSummary (reports : List Json) : String :=
  let all := "; ".intercalate (reports.map violationText)
  if all.isEmpty then "invalid value" else all

def message : Fault → String
  | destination text _ => text
  | predicateParse text none => text
  | predicateParse text (some position) => text ++ " (at position " ++ toString position ++ ")"
  | predicateEvaluation text _ => text
  | subscriptionParse text _ => text
  | unknownAction slug => "\"" ++ slug ++ "\" is not a valid action"
  | destinationNotFound slug none => "Destination \"" ++ slug ++ "\" not found"
  | destinationNotFound slug (some available) =>
    "Destination \"" ++ slug ++ "\" not found. Available destinations: " ++ Text.quotedList available
  | unsupportedAction text _ => text
  | validation target reports => "Invalid " ++ target ++ ": " ++ violationSummary reports
  | transform text location => text ++ " at " ++ location
  | request text _ => text
  | credentials => "Credentials are invalid"
  | transport _ text => text
  | wrongShape => ""
  | mishap .missingKey (some key) => Text.quoted key
  | mishap _ text => text.getD ""

/-- The status that a fault answers a request with. -/
def status : Fault → Int
  | destination _ s => s.getD 500
  | predicateParse .. => 400
  | predicateEvaluation _ s => s.getD 400
  | subscriptionParse _ s => s.getD 400
  | unknownAction .. => 400
  | destinationNotFound .. => 404
  | unsupportedAction _ s => s.getD 400
  | validation .. => 400
  | transform .. => 400
  | request _ code => if code.getD 0 = 0 then 502 else code.getD 0
  | credentials => 400
  | transport cause _ => cause.status
  | wrongShape | mishap .. => 500

/-- The kind of a fault in results: its own class, a failed request, or something internal. -/
def kind (f : Fault) : String :=
  match f with
  | transport .. => "RequestError"
  | _ => if f.isOfFamily then f.name else "InternalError"

def details? : Fault → Option Json
  | validation target reports =>
    some (.obj [("target", .str target), ("violations", .arr reports)])
  | request _ (some code) => some (.obj [("status_code", .int code)])
  | _ => none

/-! ## reports -/

/-- A fault as it is put into results.  A fault outside the family that says nothing is named. -/
structure Report where
  type : String
  message : String
  status : Int
  details : Option Json
deriving DecidableEq

def report (f : Fault) : Report where
  type := f.kind
  message := if f.isOfFamily || !f.message.isEmpty then f.message else f.name
  status := f.status
  details := f.details?

def Report.toJson (r : Report) : Json :=
  .obj ([("type", .str r.type), ("message", .str r.message), ("status", .int r.status)]
    ++ (r.details.map fun d => ("details", d)).toList)

/-- A fault of the family as the answer to the request that it ended. -/
def document (f : Fault) : Json :=
  .obj ([("type", .str f.name), ("code", .str (f.code?.getD "")), ("message", .str f.message),
      ("status", .int f.status)]
    ++ (f.details?.map fun d => ("details", d)).toList)

/-- A fault in a log line: its class and what it was given to say. -/
def literal (f : Fault) : String :=
  match f with
  | wrongShape | mishap _ none => f.name ++ "()"
  | mishap _ (some text) => f.name ++ "(" ++ Text.quoted text ++ ")"
  | _ => f.name ++ "(" ++ Text.quoted f.message ++ ")"

end Fault

theorem exists_of_bind_eq_ok {α β : Type} {x : Except Fault α} {f : α → Except Fault β} {b : β}
    (h : x >>= f = .ok b) : ∃ a, x = .ok a ∧ f a = .ok b := by
  cases x with
  | error e => cases h
  | ok a => exact ⟨a, rfl, h⟩

end EventRouting
