import EventRouting.Json.Read
import EventRouting.Predicate.Parse
import EventRouting.Settings

/-!
# Subscriptions

A subscription sends the events that satisfy a predicate to an action.

* `Subscription`             an action, its predicate, and the template of its payload
* `Subscription.ofJson`      the subscription that a value stands for
* `Subscription.toJson`      a subscription as a value
* `Subscription.parseAll`    the subscriptions of a list, or of a JSON document of one
* `Subscription.ofSettings`  the subscriptions of the settings of a destination
* `Subscription.wants`       is an event wanted?
-/

namespace EventRouting

/-- The events that satisfy a predicate go to an action. -/
structure Subscription where
  action : String
  predicate : Predicate
  /-- the predicate as it was given -/
  subscribe : Json
  /-- the template of the payload, an object -/
  mapping : Option (Members Json)
  name : String
  enabled : Bool
deriving Inhabited

namespace Subscription

def faultAt (index : Nat) (text : String) : Fault :=
  .subscriptionParse ("Subscription " ++ toString index ++ " " ++ text) none

/-- The value under a name, or under another one if the first is not there. -/
def either (members : Members Json) (first second : String) : Json :=
  match members.get? first with
  | some v => v
  | none => (members.get? second).getD .null

def actionOf (index : Nat) (members : Members Json) : Except Fault String :=
  match either members "partnerAction" "actionSlug" with
  | .str s => if s.isEmpty then .error (faultAt index "is missing 'partnerAction'") else .ok s
  | _ => .error (faultAt index "is missing 'partnerAction'")

def subscribeOf (index : Nat) (members : Members Json) : Except Fault Json :=
  match either members "subscribe" "predicate" with
  | .null => .error (faultAt index "is missing 'subscribe'")
  | v => .ok v

def mappingOf (index : Nat) (members : Members Json) : Except Fault (Option (Members Json)) :=
  match members.get? "mapping" with
  | none | some .null => .ok none
  | some (.obj ms) => .ok (some ms)
  | some _ => .error (faultAt index "mapping must be an object")

def enabledOf (index : Nat) (members : Members Json) : Except Fault Bool :=
  match members.get? "enabled" with
  | none => .ok true
  | some (.bool b) => .ok b
  | some _ => .error (faultAt index "enabled must be a boolean")

def ofJson (index : Nat) (v : Json) : Except Fault Subscription :=
  match v with
  | .obj members => do
    let action ← actionOf index members
    let subscribe ← subscribeOf index members
    let mapping ← mappingOf index members
    let enabled ← enabledOf index members
    let predicate ← Predicate.parse subscribe
    let name := ((Members.get? members "name").getD (.str "")).display
    return ⟨action, predicate, subscribe, mapping, name, enabled⟩
  | _ => .error (faultAt index "must be an object")

def toJson (s : Subscription) : Json :=
  .obj ([("partnerAction", .str s.action), ("subscribe", s.subscribe), ("enabled", .bool s.enabled)]
    ++ (if s.name.isEmpty then [] else [("name", .str s.name)])
    ++ (s.mapping.map fun ms => ("mapping", .obj ms)).toList)

def ofItems (index : Nat) : List Json → Except Fault (List Subscription)
  | [] => .ok []
  | v :: rest =>
    match ofJson index v with
    | .error e => .error e
    | .ok s =>
      match ofItems (index + 1) rest with
      | .error e => .error e
      | .ok ss => .ok (s :: ss)

def ofList (v : Json) : Except Fault (List Subscription) :=
  match v with
  | .arr items => ofItems 0 items
  | _ =>
    .error (.subscriptionParse
      ("Subscriptions must be a list or a JSON-encoded list, got " ++ v.kindName) none)

/-- The subscriptions of a value: a list, a document of one, or null for none. -/
def parseAll (v : Json) : Except Fault (List Subscription) :=
  match v with
  | .null => .ok []
  | .str document =>
    match Json.read document with
    | .ok v => ofList v
    | .error e =>
      .error (.subscriptionParse ("Subscriptions are not valid JSON: " ++ e.cause.message) none)
  | _ => ofList v

def ofSettings (settings : Json) : Except Fault (List Subscription) :=
  match settings with
  | .obj members => parseAll ((Members.get? members Settings.subscriptionsKey).getD .null)
  | _ => .error (.subscriptionParse "Settings must be an object" none)

/-- Is an event wanted?  A subscription that is not enabled wants none. -/
def wants (s : Subscription) (event : Json) : Except Fault Bool :=
  if s.enabled then s.predicate.accepts event else .ok false

end Subscription

end EventRouting
