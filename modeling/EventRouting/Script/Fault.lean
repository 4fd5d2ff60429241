import EventRouting.Fault
import EventRouting.Json.Names

/-!
# Faults as data

* `Fault.ofScript`   the fault that a value describes: a name, and what the fault was given to say

A fault that cannot be made of what it is given is another fault.
-/

namespace EventRouting

namespace TransportFault

def all : List TransportFault :=
  [connectTimeout, readTimeout, writeTimeout, poolTimeout, connectError, readError,
    remoteProtocolError, tooManyRedirects, unsupportedProtocol]

def ofName? (s : String) : Option TransportFault := all.find? fun t => t.name == s

end TransportFault

/-- The faults outside the family of destinations that can be described by name alone. -/
def Mishap.ofName? (s : String) : Option Mishap :=
  [exception, lookup, missingKey, badType, badValue, runtime].find? fun m => m.name == s

namespace Fault

def integerOf? : Json → Option Int
  | .num (.int i) => some i
  | .bool b => some (if b then 1 else 0)
  | _ => none

def textOf? (ms : Members Json) (key : String) : Option String := (ms.get? key).map Json.display

def textOf (ms : Members Json) (key : String) : String := (textOf? ms key).getD ""

/-- Every violation says something. -/
def checkReports : List Json → Except Fault Unit
  | [] => .ok ()
  | r :: rest =>
    match r with
    | .obj ms =>
      match Members.get? ms "message" with
      | some (.str _) => checkReports rest
      | some _ => .error .wrongShape
      | none => .error (.missingKey "message")
    | _ => .error .wrongShape

def ofMembers (ms : Members Json) : Except Fault Fault :=
  let text := textOf ms "message"
  let status := (ms.get? "status").bind integerOf?
  match textOf ms "type" with
  | "DestinationError" => .ok (.destination text status)
  | "PredicateParseError" =>
    .ok (.predicateParse text (((ms.get? "position").bind integerOf?).map Int.toNat))
  | "PredicateEvaluationError" => .ok (.predicateEvaluation text status)
  | "SubscriptionParseError" => .ok (.subscriptionParse text status)
  | "UnknownActionError" => .ok (.unknownAction (textOf ms "slug"))
  | "DestinationNotFoundError" =>
    .ok (.destinationNotFound (textOf ms "slug") (match ms.get? "available" with
      | some (.arr items) => some (items.map Json.display)
      | _ => none))
  | "UnsupportedActionError" => .ok (.unsupportedAction text status)
  | "ValidationError" =>
    match (ms.get? "violations").getD (.arr []) with
    | .arr reports => do
      checkReports reports
      return .validation (textOf ms "target") reports
    | _ => .error .wrongShape
  | "TransformError" => .ok (.transform text ((textOf? ms "location").getD "$"))
  | "RequestError" => .ok (.request text ((ms.get? "status_code").bind integerOf?))
  | "CredentialTestError" => .ok .credentials
  | name =>
    match TransportFault.ofName? name with
    | some t => .ok (.transport t text)
    | none => .ok (.mishap ((Mishap.ofName? name).getD .exception) (textOf? ms "message"))

def ofScript (v : Json) : Except Fault Fault :=
  match v with
  | .obj ms => ofMembers ms
  | _ => .error .wrongShape

/-- The fault that raising what a value describes comes to. -/
def raised (v : Json) : Fault :=
  match ofScript v with
  | .ok f => f
  | .error f => f

end Fault

end EventRouting
