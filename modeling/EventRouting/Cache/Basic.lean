import EventRouting.Fault
import EventRouting.Number.Basic

/-!
# Caches

A cache keeps values for a while and lets one flight at a time compute the value of a key.

* `Cache`             the entries, the flights under way, and the counts
* `Cache.look`        what a call for a key finds: a fresh entry, a flight, or nothing, and then it leads
* `Cache.land`        the end of a flight
* `Cache.lose`        a flight that is given up without an end
* `Cache.expiry`      when a value computed now goes stale
* `Cache.get?`, `Cache.contains`, `Cache.isInFlight`   looking without computing
* `Cache.invalidate`, `Cache.clear`                    forgetting

A flight is numbered by the misses before it.
-/

namespace EventRouting

namespace Cache

/-- A value and the reading of the clock from which on it is stale. -/
structure Entry where
  value : Json
  staleAt : Binary64
deriving DecidableEq, Inhabited

def Entry.isStale (e : Entry) (now : Binary64) : Bool :=
  match now.compare? e.staleAt with
  | some .lt | none => false
  | _ => true

/-- How a flight ends. -/
inductive Landing where
  | value (v : Json)
  | fault (f : Fault)
  | cancelled
deriving Inhabited

def Landing.result : Landing → Except Fault Json
  | value v => .ok v
  | fault f => .error f
  | cancelled => .error (.mishap .cancelled none)

def Landing.of : Except Fault Json → Landing
  | .ok v => value v
  | .error f => fault f

/-- What a call finds. -/
inductive Look where
  | hit (v : Json)
  | join (flight : Nat)
  | lead (flight : Nat)
deriving DecidableEq, Inhabited

end Cache

/-- Entries by key, flights by key, and the flights that have landed. -/
structure Cache where
  entries : Members Cache.Entry
  inFlight : Members Nat
  landed : List (Nat × Cache.Landing)
  hits : Nat
  misses : Nat
  shared : Nat
deriving Inhabited

namespace Cache

def empty : Cache := ⟨[], [], [], 0, 0, 0⟩

def size (c : Cache) : Nat := c.entries.length

/-- What a call finds where no fresh entry is: a flight to join, or none, and then it leads one. -/
def board (c : Cache) (key : String) : Look × Cache :=
  match c.inFlight.get? key with
  | some flight => (.join flight, { c with shared := c.shared + 1 })
  | none =>
    (.lead c.misses, { c with misses := c.misses + 1, inFlight := c.inFlight.set key c.misses })

/-- What a call for a key finds.  A stale entry is dropped on the way. -/
def look (c : Cache) (now : Binary64) (key : String) : Look × Cache :=
  match c.entries.get? key with
  | some e =>
    if e.isStale now then { c with entries := c.entries.erase key }.board key
    else (.hit e.value, { c with hits := c.hits + 1 })
  | none => c.board key

/-- When a value computed now goes stale; with a lifetime that is not positive it is not kept. -/
def expiry (now : Binary64) (ttl : Json) : Except Fault (Option Binary64) :=
  match ttl.numeric? with
  | none => .error .wrongShape
  | some n =>
    if (Number.int 0).lt n then
      match n with
      | .int i =>
        if (Binary64.ofInt i).isFinite then .ok (some (now.add (Binary64.ofInt i)))
        else .error .tooLarge
      | .float x => .ok (some (now.add x))
    else .ok none

def kept (c : Cache) (key : String) (landing : Landing) (staleAt : Option Binary64) : Members Entry :=
  match landing, staleAt with
  | .value v, some t => c.entries.set key ⟨v, t⟩
  | _, _ => c.entries

/-- The end of a flight: a value that stays fresh for a while is kept, nothing else is. -/
def land (c : Cache) (key : String) (flight : Nat) (landing : Landing) (staleAt : Option Binary64) :
    Cache :=
  { c with
    entries := c.kept key landing staleAt
    inFlight := c.inFlight.erase key
    landed := c.landed ++ [(flight, landing)] }

/-- A flight is given up.  It never ends for those who wait for it. -/
def lose (c : Cache) (key : String) : Cache := { c with inFlight := c.inFlight.erase key }

/-- How a flight ended, if it has. -/
def landing? (c : Cache) (flight : Nat) : Option Landing :=
  (c.landed.find? fun l => l.1 == flight).map (·.2)

def get? (c : Cache) (now : Binary64) (key : String) : Option Json :=
  match c.entries.get? key with
  | some e => if e.isStale now then none else some e.value
  | none => none

def contains (c : Cache) (now : Binary64) (key : String) : Bool :=
  match c.entries.get? key with
  | some e => !e.isStale now
  | none => false

def isInFlight (c : Cache) (key : String) : Bool := c.inFlight.contains key

def invalidate (c : Cache) (key : String) : Cache := { c with entries := c.entries.erase key }

def clear (c : Cache) : Cache := { c with entries := [] }

end Cache

end EventRouting
