import EventRouting.Destination.Run

/-!
# Registries

The destinations that are there, by slug.

* `Registry.register`     one more destination, if its slug is free
* `Registry.unregister`   without a destination
* `Registry.require`      the destination of a slug, or a fault that says which there are
-/

namespace EventRouting

/-- Destinations by slug, in the order in which they were registered. -/
structure Registry where
  destinations : Members Destination

namespace Registry

def empty : Registry := ⟨[]⟩

instance : Inhabited Registry := ⟨empty⟩

def names (r : Registry) : List String := r.destinations.names

def all (r : Registry) : List Destination := r.destinations.map (·.2)

def size (r : Registry) : Nat := r.destinations.length

def get? (r : Registry) (slug : String) : Option Destination := r.destinations.get? slug

def contains (r : Registry) (slug : String) : Bool := r.destinations.contains slug

def literal (r : Registry) : String :=
  "<DestinationRegistry destinations=" ++ Text.quotedList r.names ++ ">"

/-- One more destination.  It needs a slug, and one that is free. -/
def register (r : Registry) (d : Destination) : Except Fault Registry :=
  if d.slug.isEmpty then
    .error (.badValue ("Destination must have a slug or name: " ++ d.literal))
  else if r.contains d.slug then
    .error (.badValue ("Destination '" ++ d.slug
      ++ "' already registered. Use a unique slug or unregister first."))
  else .ok ⟨r.destinations ++ [(d.slug, d)]⟩

def unregister (r : Registry) (slug : String) : Registry := ⟨r.destinations.erase slug⟩

def require (r : Registry) (slug : String) : Except Fault Destination :=
  match r.get? slug with
  | some d => .ok d
  | none => .error (.destinationNotFound slug (some r.names))

end Registry

end EventRouting
