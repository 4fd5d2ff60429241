import EventRouting.Request.Call

/-!
# Callables

A callable is given an invocation and talks to its client: it asks for one answer after the other and ends
with a value, with an answer as it is, or with a fault.

* `Talk`        what a callable does next
* `Reply`       how a talk ends when it does not fail
* `Callable`    a talk for every invocation
* `KeyRule`     the key under which a value is looked up, null for none
-/

namespace EventRouting

/-- What a callable does next. -/
inductive Talk where
  | fail (f : Fault)
  | give (v : Json)
  /-- an answer handed on as it is -/
  | pass (r : Response)
  | ask (c : Call) (next : Except Fault Response → Talk)

/-- How a talk ends when it does not fail. -/
inductive Reply where
  | value (v : Json)
  | response (r : Response)
deriving DecidableEq, Inhabited

def Reply.output : Reply → Json
  | value v => v
  | response r => r.toOutput

abbrev Callable := Invocation → Talk

abbrev KeyRule := Invocation → Except Fault Json

namespace Talk

/-- A value, or the fault that kept it away. -/
def ofExcept : Except Fault Json → Talk
  | .ok v => give v
  | .error f => fail f

def askFor (c : Call) (use : Response → Talk) : Talk :=
  ask c fun
    | .ok r => use r
    | .error f => fail f

end Talk

instance : Inhabited Talk := ⟨.give .null⟩

end EventRouting
