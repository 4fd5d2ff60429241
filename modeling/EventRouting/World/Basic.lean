import EventRouting.Cache.Basic
import EventRouting.Request.Talk
import EventRouting.StepResult

/-!
# The world around a run

What actions act on: partners, caches, a clock, and what is written down.

* `Partner`         how a partner answers, given the requests before
* `Exchange`        a request and its answer
* `World`           the exchanges, the caches, the clock, the records, and the callables entered
* `Op`              one thing that a run asks of the world, with `Op.Answer`
* `World.perform`   the answer, and the world after it
-/

namespace EventRouting

/-- How a partner answers a request, given the requests before it. -/
abbrev Partner := List Request → Request → Except Fault Response

structure Exchange where
  request : Request
  answer : Except Fault Response
deriving Inhabited

/-- The cache of a step of an action of a destination.  Actions are told apart by the slug that their builder had,
which is the one they are registered under: a builder function gives back the builder that it was given. -/
structure Cell where
  destination : String
  action : String
  step : Nat
deriving DecidableEq, Inhabited

/-- A place where a callable of an action or of a destination is entered. -/
inductive Site where
  /-- the key of a cached request -/
  | key (cell : Cell)
  /-- the value of a cached request -/
  | value (cell : Cell)
  /-- the call of a request step -/
  | request (cell : Cell)
  | autocomplete (destination action field : String)
  | probe (destination : String)
deriving DecidableEq, Inhabited

/-- What is written down of a subscription that wanted the event. -/
structure Record where
  destination : String
  action : String
  input : Invocation
  output : List StepResult
  /-- how long it took, where that was measured -/
  duration : Option Json
deriving DecidableEq, Inhabited

def Record.toJson (r : Record) : Json :=
  .obj ((r.duration.map fun d => ("duration", d)).toList
    ++ [("destination", .str r.destination), ("action", .str r.action), ("input", r.input.view),
      ("output", .arr (r.output.map StepResult.toJson))])

/-- Everything that runs share. -/
structure World where
  exchanges : List Exchange
  caches : List (Cell × Cache)
  now : Binary64
  records : List Record
  entered : List Site
deriving Inhabited

/-- One thing that a run asks of the world. -/
inductive Op where
  /-- a request to a partner -/
  | ask (r : Request)
  /-- a call of a cache -/
  | look (cell : Cell) (key : String)
  /-- waiting for the end of a flight -/
  | await (cell : Cell) (flight : Nat)
  /-- the end of a flight, and how long its value stays fresh -/
  | settle (cell : Cell) (key : String) (flight : Nat) (ttl : Json) (outcome : Except Fault Json)
  | record (r : Record)
  | enter (s : Site)

def Op.Answer : Op → Type
  | ask _ => Except Fault Response
  | look .. => Cache.Look
  | await .. => Except Fault Json
  | settle .. => Except Fault Json
  | record _ => Unit
  | enter _ => Unit

namespace World

def start (now : Binary64) : World := ⟨[], [], now, [], []⟩

def requests (w : World) : List Request := w.exchanges.map (·.request)

/-- A world with only the exchanges after the first so many. -/
def since (w : World) (passed : Nat) : World := { w with exchanges := w.exchanges.drop passed }

def responses (w : World) : List Response := w.exchanges.filterMap fun e => e.answer.toOption

/-- The cache of a cell; nothing is in it before its first use. -/
def cache (w : World) (cell : Cell) : Cache :=
  match w.caches.find? fun c => c.1 == cell with
  | some c => c.2
  | none => Cache.empty

def setCache (w : World) (cell : Cell) (c : Cache) : World :=
  { w with caches := (cell, c) :: w.caches.filter fun d => d.1 != cell }

def tick (w : World) (seconds : Number) : World :=
  { w with now := (Number.add (.float w.now) seconds).toBinary64 }

def exchange (w : World) (partner : Partner) (r : Request) : World × Except Fault Response :=
  let answer := partner w.requests r
  ({ w with exchanges := w.exchanges ++ [⟨r, answer⟩] }, answer)

/-- A flight ended.  A lifetime that is no number is a fault of the run that led the flight alone: the
flight is lost. -/
def settle (w : World) (cell : Cell) (key : String) (flight : Nat) (ttl : Json)
    (outcome : Except Fault Json) : World × Except Fault Json :=
  match outcome with
  | .error f => (w.setCache cell ((w.cache cell).land key flight (.fault f) none), .error f)
  | .ok v =>
    match Cache.expiry w.now ttl with
    | .ok staleAt => (w.setCache cell ((w.cache cell).land key flight (.value v) staleAt), .ok v)
    | .error f => (w.setCache cell ((w.cache cell).lose key), .error f)

/-- The answer to one thing asked, and the world after it.  There is none while a flight that is waited
for has not ended. -/
def perform (w : World) (partner : Partner) : (op : Op) → Option (World × op.Answer)
  | .ask r => some (w.exchange partner r)
  | .look cell key =>
    let found := (w.cache cell).look w.now key
    some (w.setCache cell found.2, found.1)
  | .await cell flight =>
    match (w.cache cell).landing? flight with
    | some l => some (w, l.result)
    | none => none
  | .settle cell key flight ttl outcome => some (w.settle cell key flight ttl outcome)
  | .record r => some ({ w with records := w.records ++ [r] }, ())
  | .enter s => some ({ w with entered := w.entered ++ [s] }, ())

theorem cache_setCache (w : World) (cell other : Cell) (c : Cache) :
    (w.setCache cell c).cache other = if cell = other then c else w.cache other := by
  by_cases h : cell = other
  · subst h
    simp [cache, setCache]
  · have hne : (cell == other) = false := by simpa using h
    simp only [cache, setCache, List.find?_cons, hne, if_neg h]
    rw [List.find?_filter]
    congr 1
    congr 1
    funext d
    by_cases hd : d.1 = other
    · simp [hd, Ne.symm h]
    · simp [hd]

end World

end EventRouting
