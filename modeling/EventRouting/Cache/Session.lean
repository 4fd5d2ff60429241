import EventRouting.Cache.Basic

/-!
# Calls of a cache

Calls of one cache under way at the same time, in any order of what happens to them.

* `Cache.Caller`        where a call stands
* `Cache.Session`       a cache, a clock, and its calls
* `Cache.Event`         what can happen next
* `Cache.Session.step`  the session after an event
-/

namespace EventRouting.Cache

/-- Where a call stands. -/
inductive Caller where
  /-- it computes the value of a key, which then stays fresh for a while -/
  | leading (key : String) (flight : Nat) (ttl : Json)
  /-- it waits for the end of a flight -/
  | waiting (flight : Nat)
  | finished (landing : Landing)
deriving Inhabited

/-- A cache, the reading of the clock, and the calls in the order in which they began. -/
structure Session where
  cache : Cache
  now : Binary64
  callers : List Caller
deriving Inhabited

inductive Event where
  | call (key : String) (ttl : Json)
  /-- the computation of a leading call comes to an end -/
  | complete (caller : Nat) (outcome : Except Fault Json)
  | cancel (caller : Nat)
  /-- a waiting call goes on after the end of its flight -/
  | resume (caller : Nat)
  /-- looking at what is kept for a key -/
  | get (key : String)
  | invalidate (key : String)
  | clear
  | tick (seconds : Number)

namespace Session

def start (now : Binary64) : Session := ⟨Cache.empty, now, []⟩

def setCaller (s : Session) (i : Nat) (c : Caller) : Session := { s with callers := s.callers.set i c }

def call (s : Session) (key : String) (ttl : Json) : Session :=
  let (found, cache) := s.cache.look s.now key
  let caller := match found with
    | .hit v => .finished (.value v)
    | .join flight => .waiting flight
    | .lead flight => .leading key flight ttl
  { s with cache := cache, callers := s.callers ++ [caller] }

/-- A flight ends with a value or a fault.  A lifetime that is no number is a fault of the call alone: the
flight is lost. -/
def complete (s : Session) (i : Nat) (key : String) (flight : Nat) (ttl : Json)
    (outcome : Except Fault Json) : Session :=
  match outcome with
  | .error f =>
    { s with cache := s.cache.land key flight (.fault f) none }.setCaller i (.finished (.fault f))
  | .ok v =>
    match expiry s.now ttl with
    | .ok staleAt =>
      { s with cache := s.cache.land key flight (.value v) staleAt }.setCaller i (.finished (.value v))
    | .error f => { s with cache := s.cache.lose key }.setCaller i (.finished (.fault f))

/-- The session after an event; an event that does not fit where a call stands changes nothing. -/
def step (s : Session) : Event → Session
  | .call key ttl => s.call key ttl
  | .complete i outcome =>
    match s.callers[i]? with
    | some (.leading key flight ttl) => s.complete i key flight ttl outcome
    | _ => s
  | .cancel i =>
    match s.callers[i]? with
    | some (.leading key flight _) =>
      { s with cache := s.cache.land key flight .cancelled none }.setCaller i (.finished .cancelled)
    | some (.waiting _) => s.setCaller i (.finished .cancelled)
    | _ => s
  | .resume i =>
    match s.callers[i]? with
    | some (.waiting flight) =>
      match s.cache.landing? flight with
      | some l => s.setCaller i (.finished l)
      | none => s
    | _ => s
  | .get _ => s
  | .invalidate key => { s with cache := s.cache.invalidate key }
  | .clear => { s with cache := s.cache.clear }
  | .tick seconds => { s with now := (Number.add (.float s.now) seconds).toBinary64 }

def run (s : Session) (events : List Event) : Session := events.foldl step s

end Session

end EventRouting.Cache
