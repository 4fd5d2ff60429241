import EventRouting.Fault

/-!
# Statistics

Points of measurement, of which the latest are kept.

* `Point`             a count or a value of a metric
* `Stats.add`         one more point; beyond the limit the earliest go
* `Stats.count`       the sum of the counts of a metric
* `Stats.values`      the values of a metric
* `Tally`             the counts and the values of all metrics, gathered in one pass
* `Stats.summary`     sums of counts, and number, mean and maximum of values
-/

namespace EventRouting

inductive PointKind where
  | increment
  | histogram
deriving DecidableEq, Inhabited

def PointKind.name : PointKind → String
  | increment => "increment"
  | histogram => "histogram"

/-- A count or a value of a metric. -/
structure Point where
  kind : PointKind
  metric : String
  value : Json
  tags : List Json
deriving DecidableEq, Inhabited

def Point.toJson (p : Point) : Json :=
  .arr [.str p.kind.name, .str p.metric, p.value, .arr p.tags]

/-- The points that are kept, and how many may be. -/
structure Stats where
  limit : Int
  points : List Point
deriving DecidableEq, Inhabited

namespace Stats

def defaultLimit : Int := 10000

def start (limit : Int) : Stats := ⟨limit, []⟩

/-- The end of a list from a limit counted from its end; a limit of zero leaves all of it. -/
def latest {α : Type} (limit : Int) (l : List α) : List α :=
  if limit ≤ 0 then l.drop (-limit).toNat else l.drop (l.length - limit.toNat)

def add (s : Stats) (p : Point) : Stats :=
  let points := s.points ++ [p]
  { s with points := if s.limit < points.length then latest s.limit points else points }

def increment (s : Stats) (metric : String) (value : Json) (tags : List Json) : Stats :=
  s.add ⟨.increment, metric, value, tags⟩

def histogram (s : Stats) (metric : String) (value : Json) (tags : List Json) : Stats :=
  s.add ⟨.histogram, metric, value, tags⟩

def reset (s : Stats) : Stats := { s with points := [] }

/-! ## queries -/

def valuesOf (s : Stats) (kind : PointKind) (metric : String) : List Json :=
  (s.points.filter fun p => p.kind = kind && p.metric == metric).map (·.value)

def plus (total : Number) (v : Json) : Except Fault Number :=
  match v.numeric? with
  | some n => if total.mixes n then .ok (total.add n) else .error .tooLarge
  | none => .error .wrongShape

/-- The sum of values from left to right. -/
def sum (values : List Json) : Except Fault Number := values.foldlM plus (.int 0)

/-- The sum of the counts of a metric. -/
def count (s : Stats) (metric : String) : Except Fault Number := sum (s.valuesOf .increment metric)

def values (s : Stats) (metric : String) : List Json := s.valuesOf .histogram metric

/-! ## the summary -/

/-- The greater of two values; of two that are equal, the first. -/
def greater (a b : Json) : Json :=
  match a.numeric?, b.numeric? with
  | some m, some n => if m.lt n then b else a
  | _, _ => a

def maximum : List Json → Json
  | [] => .null
  | v :: rest => rest.foldl greater v

/-- A sum divided by the number of its parts.  The quotient of an integer has to be in the range of binary64. -/
def quotient (total : Number) (parts : Nat) : Except Fault Number :=
  if parts = 0 then .error (.mishap .zeroDivision (some "division by zero"))
  else
    let q := total.divNat parts
    match total with
    | .int _ =>
      if q.toBinary64.isFinite then .ok q
      else .error (.mishap .overflow (some "integer division result too large for a float"))
    | .float _ => .ok q

/-- Number, mean and maximum of values. -/
def distribution (values : List Json) : Except Fault Json := do
  let mean ← quotient (← sum values) values.length
  return .obj [("count", .int values.length), ("avg", .num mean), ("max", maximum values)]

def distributions : Members (List Json) → Except Fault (Members Json)
  | [] => .ok []
  | (metric, values) :: rest =>
    match distribution values with
    | .error f => .error f
    | .ok d => (distributions rest).map ((metric, d) :: ·)

end Stats

/-- The sums of the counts and the values, by metric, each in the order of the first points. -/
structure Tally where
  counters : Members Number
  histograms : Members (List Json)

namespace Tally

def empty : Tally := ⟨[], []⟩

/-- One more point: a count goes into the sum of its metric, a value behind the values of its metric. -/
def add (t : Tally) (p : Point) : Except Fault Tally :=
  match p.kind with
  | .increment =>
    (Stats.plus ((t.counters.get? p.metric).getD (.int 0)) p.value).map fun total =>
      { t with counters := t.counters.set p.metric total }
  | .histogram =>
    .ok { t with
      histograms := t.histograms.set p.metric ((t.histograms.get? p.metric).getD [] ++ [p.value]) }

def addAll (t : Tally) : List Point → Except Fault Tally
  | [] => .ok t
  | p :: rest =>
    match t.add p with
    | .error f => .error f
    | .ok t => addAll t rest

end Tally

namespace Stats

/-- Sums of counts, and number, mean and maximum of values, by metric. -/
def summary (s : Stats) : Except Fault Json := do
  let tally ← Tally.empty.addAll s.points
  let histograms ← distributions tally.histograms
  return .obj [("counters", .obj (tally.counters.map fun c => (c.1, .num c.2))),
    ("histograms", .obj histograms)]

end Stats

end EventRouting
