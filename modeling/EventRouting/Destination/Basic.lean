import EventRouting.Action.Builder
import EventRouting.Subscription

/-!
# Destinations

A destination compiles the definition of a partner into actions.

* `Definition`                 what a partner is
* `Destination`                a definition with its actions built
* `Destination.ofDefinition`   the destination of a definition
* `Destination.action`         the action of a slug
* `Destination.defaultSubscriptions`   the subscriptions that a destination offers
-/

namespace EventRouting

/-- What a destination asks of its settings, and how it tells whether they work. -/
structure Authentication where
  fields : FieldSource
  probe : Option Callable

/-- What a partner is. -/
structure Definition where
  name : String
  slug : String
  authentication : Option Authentication
  extensions : List Extension
  actions : Members ActionSpec
  presets : List Json

/-- The name that a definition goes by: its slug, or its name if it has none. -/
def Definition.key (d : Definition) : String := if d.slug.isEmpty then d.name else d.slug

/-- How the runs of a destination are set up. -/
structure Setup where
  base : Options
  /-- what stands in place of a private setting in records -/
  placeholder : Json
  /-- how long to wait for the answer of a probe -/
  probeTimeout : Json

def Setup.usual : Setup :=
  ⟨Factory.defaultBase, Settings.redacted, .num (.float (Binary64.ofInt 3))⟩

instance : Inhabited Setup := ⟨Setup.usual⟩

/-- A definition with its actions built. -/
structure Destination where
  definition : Definition
  actions : Members Action
  /-- the document that the settings have to satisfy -/
  settingsSchema : Option Json
  /-- the settings that are kept secret whatever the caller says -/
  secretKeys : List String
  setup : Setup

namespace Destination

def name (d : Destination) : String := d.definition.name

def slug (d : Destination) : String := d.definition.key

def literal (d : Destination) : String :=
  "<Destination slug=" ++ Text.quoted d.slug ++ " actions=" ++ Text.quotedList d.actions.names ++ ">"

def settingsFields (d : Definition) : Except Fault (List Field) :=
  match d.authentication with
  | none => .ok []
  | some a => a.fields.fields

/-- The actions of a definition.  What they are checked against by declaration are documents of fields, which every
dialect reads alike. -/
def buildActions (extensions : List Extension) (settingsSchema : Option Json) :
    List (String × ActionSpec) → Except Fault (Members Action)
  | [] => .ok []
  | (slug, spec) :: rest =>
    match spec.build slug extensions settingsSchema .usual with
    | .error f => .error f
    | .ok a => (buildActions extensions settingsSchema rest).map ((slug, a) :: ·)

def ofDefinition (d : Definition) (setup : Setup) : Except Fault Destination := do
  let fields ← settingsFields d
  let settingsSchema := if fields.isEmpty then none else some (Field.document fields true)
  let actions ← buildActions d.extensions settingsSchema d.actions
  return ⟨d, actions, settingsSchema, Field.privateKeys fields, setup⟩

def factory (d : Destination) : Factory := ⟨d.setup.base, d.definition.extensions⟩

def action (d : Destination) (slug : String) : Except Fault Action :=
  match d.actions.get? slug with
  | some a => .ok a
  | none => .error (.unknownAction slug)

def offered (slug : String) (a : Action) : Option Json :=
  if a.defaultSubscription.isTruthy && !a.hidden.isTruthy then
    some (.obj [("partnerAction", .str slug), ("subscribe", a.defaultSubscription)])
  else none

def presetsOf : List Json → Except Fault (List Json)
  | [] => .ok []
  | v :: rest =>
    match v.namedValues with
    | .error f => .error f
    | .ok ms => (presetsOf rest).map (.obj ms :: ·)

/-- The subscriptions that a destination offers: its presets, and one for each action with a predicate of
its own that is not hidden. -/
def defaultSubscriptions (d : Destination) : Except Fault (List Subscription) := do
  let presets ← presetsOf d.definition.presets
  Subscription.parseAll (.arr (presets ++ d.actions.filterMap fun a => offered a.1 a.2))

def privateKeys (d : Destination) (given : List String) : List String := given ++ d.secretKeys

end Destination

end EventRouting
