import EventRouting.Fault

/-!
# Invocations

What the steps of an action read and write.

* `Invocation`         the payload, the settings, the mapping, and what steps have looked up
* `Invocation.item`    the part of a name, or what was looked up under it
* `Invocation.getD`    the same with a fallback
* `Invocation.view`    an invocation as a value, the root of the templates of callables
* `Invocation.store`   with one more value looked up
-/

namespace EventRouting

/-- The input of one run of an action.  The payload starts as the event and is replaced by the
mapping; a mapping of null is none. -/
structure Invocation where
  payload : Json
  settings : Json
  mapping : Json
  /-- what cached requests have looked up, by result field -/
  state : Members Json
deriving Inhabited, DecidableEq

namespace Invocation

/-- The names that always stand for a part of an invocation. -/
def reserved : List String := ["payload", "settings", "mapping", "state"]

/-- The part of a name; other names stand for what was looked up under them. -/
def find? (i : Invocation) (key : String) : Option Json :=
  match key with
  | "payload" => some i.payload
  | "settings" => some i.settings
  | "mapping" => some i.mapping
  | "state" => some (.obj i.state)
  | _ => i.state.get? key

def item (i : Invocation) (key : String) : Except Fault Json :=
  match i.find? key with
  | some v => .ok v
  | none => .error (.missingKey key)

def getD (i : Invocation) (key : String) (fallback : Json) : Json := (i.find? key).getD fallback

/-- An invocation as a value: a mapping of null and an empty state are left out. -/
def view (i : Invocation) : Json :=
  .obj ([("payload", i.payload), ("settings", i.settings)]
    ++ (if i.mapping = .null then [] else [("mapping", i.mapping)])
    ++ (if i.state.isEmpty then [] else [("state", .obj i.state)]))

def store (i : Invocation) (key : String) (value : Json) : Invocation :=
  { i with state := i.state.set key value }

end Invocation

end EventRouting
