import EventRouting.Action.Choices
import EventRouting.Action.Step
import EventRouting.Field.Document

/-!
# Actions

An action is a fixed sequence of steps.

* `Action`               its steps, its fields, and the handlers of the fields that are looked up
* `Action.execute`       the steps in order, up to the first fault
* `Action.autocomplete`  the choices of a field
-/

namespace EventRouting

/-- A fixed sequence of steps with what is said about it. -/
structure Action where
  slug : String
  steps : List Step
  extensions : List Extension
  title : Json
  description : Json
  /-- the predicate of the subscription that is offered, null for none -/
  defaultSubscription : Json
  fields : List Field
  hidden : Json
  handlers : Members Callable
deriving Inhabited

namespace Action

def stepNames (a : Action) : List String := a.steps.map Step.name

/-- The document that describes the payload of an action. -/
def document (a : Action) : Json := Field.document a.fields false

def literal (a : Action) : String :=
  "Action(slug='" ++ a.slug ++ "', steps=" ++ Text.quotedList a.stepNames ++ ")"

/-- The cell of the cache of a step.  Every step has a cache of its own as long as no two actions of a destination
have one slug. -/
def cell (a : Action) (home : String) (step : Nat) : Cell := ⟨home, a.slug, step⟩

/-- Steps from a position on, with the results before them.  A fault leaves the invocation as it was before
the step that failed. -/
def executeFrom (f : Factory) (a : Action) (home : String) :
    Nat → List Step → Invocation → List StepResult →
      Strand (Invocation × Except Fault (List StepResult))
  | _, [], i, before => .done (i, .ok before)
  | n, s :: rest, i, before =>
    Strand.bind (s.execute f (a.cell home n) i).outcome fun
      | .error fault => .done (i, .error fault)
      | .ok (i, r) => executeFrom f a home (n + 1) rest i (before ++ [r])

/-- The steps in order up to the first fault: the invocation at the end, and one result for each step.  The
extensions are always those of the action. -/
def execute (a : Action) (home : String) (f : Factory) (i : Invocation) :
    Strand (Invocation × Except Fault (List StepResult)) :=
  executeFrom { f with extensions := a.extensions } a home 0 a.steps i []

def withoutHandler (a : Action) (key : String) : Fault :=
  .unsupportedAction
    ("Field \"" ++ key ++ "\" of action \"" ++ a.slug ++ "\" does not support autocomplete") none

def autocomplete (a : Action) (home : String) (f : Factory) (key : String) (i : Invocation) :
    Attempt Choices :=
  match a.handlers.get? key with
  | none => throw (a.withoutHandler key)
  | some handler => do
    let reply ← { f with extensions := a.extensions }.call (.autocomplete home a.slug key) handler i
    Attempt.ofExcept (Choices.ofReply reply)

end Action

end EventRouting
