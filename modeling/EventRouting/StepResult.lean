import EventRouting.Fault
import EventRouting.Json.Same

/-!
# Results of steps

* `StepResult`               what a step or a whole subscription came to
* `StepResult.notSubscribed` the result of a subscription that does not want the event
* `StepResult.failed`        the result of a subscription that a fault ended
* `StepResult.toJson`        a result as a value
-/

namespace EventRouting

/-- What a step came to, or a subscription that was skipped or failed. -/
structure StepResult where
  output : Json
  error : Option Fault.Report
deriving DecidableEq, Inhabited

namespace StepResult

def of (output : Json) : StepResult := ⟨output, none⟩

/-- A step with something to say. -/
def said (text : String) : StepResult := of (.str text)

def notSubscribedText : String := "not subscribed"

def notSubscribed : StepResult := said notSubscribedText

def failed (f : Fault) : StepResult := ⟨.null, some f.report⟩

def isOk (r : StepResult) : Bool := r.error.isNone

def isSkipped (r : StepResult) : Bool := r.output.isText notSubscribedText && r.isOk

def toJson (r : StepResult) : Json :=
  .obj (("output", r.output) :: (r.error.map fun e => ("error", e.toJson)).toList)

end StepResult

end EventRouting
