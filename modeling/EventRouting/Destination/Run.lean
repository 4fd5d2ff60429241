import EventRouting.Destination.Basic

/-!
# Runs of destinations

* `Destination.onSubscription`   the run of one subscription
* `Destination.onEvent`          the runs of all subscriptions to an event
* `Destination.credentialFault`  why credentials do not work
* `Destination.testCredentials`  the same without the reason
* `Destination.autocomplete`     the choices of a field of an action
-/

namespace EventRouting

namespace Destination

/-! ## events -/

/-- An invocation as it is written down: private settings are hidden. -/
def redacted (d : Destination) (isPrivate : List String) (i : Invocation) : Invocation :=
  match i.settings with
  | .obj ms => { i with settings := .obj (Settings.redact ms isPrivate d.setup.placeholder) }
  | _ => i

/-- The run of the action of a subscription: the invocation at the end, and the results. -/
def attempt (d : Destination) (s : Subscription) (i : Invocation) :
    Strand (Invocation × List StepResult) :=
  match d.action s.action with
  | .error f => .done (i, [.failed f])
  | .ok a =>
    Strand.bind (a.execute d.slug d.factory i) fun
      | (i, .ok results) => .done (i, results)
      | (i, .error f) => .done (i, [.failed f])

/-- What is written down of a subscription that wanted the event, or could not tell. -/
def recorded (d : Destination) (s : Subscription) (isPrivate : List String) (i : Invocation)
    (results : List StepResult) : Strand (List StepResult) :=
  Strand.perform (.record ⟨d.name, s.action, d.redacted isPrivate i, results, none⟩) fun _ => .done results

/-- The run of one subscription.  Whatever goes wrong becomes its only result. -/
def onSubscription (d : Destination) (event : Json) (isPrivate : List String) (i : Invocation)
    (s : Subscription) : Strand (List StepResult) :=
  match s.wants event with
  | .ok false => .done [.notSubscribed]
  | .error f => d.recorded s isPrivate i [.failed f]
  | .ok true => Strand.bind (d.attempt s i) fun (i, results) => d.recorded s isPrivate i results

def invocation (payload settings : Members Json) (s : Subscription) : Invocation where
  payload := .obj payload
  settings := .obj settings
  mapping := match s.mapping with
    | some ms => .obj ms
    | none => .null
  state := []

/-- The runs of all subscriptions to an event, in the order of the settings.  Malformed settings are the
only way to have no runs at all. -/
def onEvent (d : Destination) (event settings isPrivate : Json) :
    Except Fault (List (Strand (List StepResult))) := do
  let settings := if settings.isTruthy then settings else .obj []
  let subscriptions ← Subscription.ofSettings settings
  let settings := Settings.withoutSubscriptions (← settings.members)
  let isPrivate := d.privateKeys (← isPrivate.names)
  if subscriptions.isEmpty then return []
  let payload ← event.namedValues
  return subscriptions.map fun s =>
    d.onSubscription event isPrivate (invocation payload settings s) s

/-! ## credentials -/

/-- What the clients of a probe send besides the extensions. -/
def probeFactory (d : Destination) : Factory :=
  d.factory.withBase
    { Options.empty with timeout := d.setup.probeTimeout, headers := [("User-Agent", .null)] }

/-- The settings satisfy their document. -/
def checkSettings (d : Destination) (i : Invocation) : Except Fault Unit :=
  match d.settingsSchema with
  | none => .ok ()
  | some document => do
    let _ ← Step.validated .settings (← Schema.read document) i
    return ()

/-- Settings that hold, and a probe that works. -/
def probe (d : Destination) (i : Invocation) : Attempt Unit := do
  Attempt.ofExcept (d.checkSettings i)
  match d.definition.authentication.bind Authentication.probe with
  | none => return ()
  | some callable =>
    let _ ← d.probeFactory.call (.probe d.slug) callable i
    return ()

def probeInvocation (settings : Members Json) : Invocation :=
  ⟨.obj [], .obj (Settings.withoutSubscriptions settings), .null, []⟩

/-- Why credentials do not work, if they do not. -/
def credentialFault (d : Destination) (settings : Members Json) : Strand (Option Fault) :=
  Strand.bind (d.probe (probeInvocation settings)).outcome fun
    | .ok _ => .done none
    | .error f => .done (some f)

/-- Do credentials work?  The answer never says why not. -/
def testCredentials (d : Destination) (settings : Members Json) : Attempt Unit :=
  Strand.bind (d.credentialFault settings) fun
    | none => Strand.done (.ok ())
    | some _ => Strand.done (.error .credentials)

/-! ## choices -/

def notDynamic (action key : String) : Fault :=
  .unsupportedAction ("Field \"" ++ key ++ "\" of action \"" ++ action ++ "\" is not dynamic") none

def autocomplete (d : Destination) (action key : String) (settings payload : Json) :
    Attempt Choices := do
  let a ← Attempt.ofExcept (d.action action)
  match Field.find? a.fields key with
  | some f => if !f.dynamic then throw (notDynamic action key)
  | none => pure ()
  let payload ← Attempt.ofExcept (if payload.isTruthy then payload.namedValues else .ok [])
  let settings ← Attempt.ofExcept settings.members
  a.autocomplete d.slug d.factory key
    ⟨.obj payload, .obj (Settings.withoutSubscriptions settings), .null, []⟩

end Destination

end EventRouting
