import EventRouting.Number.Binary64

/-!
# Numbers

A number is an integer of any size or a binary64 number.  The two are different values with a common
order: they compare by exact value.

* `Number`             an integer or a binary64 number
* `Number.compare?`    the order by value; a NaN has no place in it
* `Number.same`        equality by value
* `Number.add`         the sum; it is exact when both parts are integers
* `Number.mixes`       can two numbers be added?
-/

namespace EventRouting

inductive Number where
  | int (value : Int)
  | float (value : Binary64)
deriving DecidableEq, Inhabited

namespace Number

/-- The exact value of a number that has one. -/
def scaled? : Number → Option Scaled
  | int i => some (.ofInt i)
  | float x => x.scaled?

/-- An integer against a binary64 number. -/
def compareIntFloat? (i : Int) (x : Binary64) : Option Ordering :=
  if x.isNaN then none
  else
    match x.scaled? with
    | some a => some ((Scaled.ofInt i).compare a)
    | none => some (if x.negative then .gt else .lt)

/-- Comparison by exact value. -/
def compare? : Number → Number → Option Ordering
  | int i, int j => some (Ord.compare i j)
  | int i, float y => compareIntFloat? i y
  | float x, int j => (compareIntFloat? j x).map Ordering.swap
  | float x, float y => x.compare? y

/-- Equality by exact value. -/
def same (a b : Number) : Bool := a.compare? b == some .eq

def lt (a b : Number) : Bool := a.compare? b == some .lt

def le (a b : Number) : Bool := a.lt b || a.same b

def toBinary64 : Number → Binary64
  | int i => .ofInt i
  | float x => x

def add : Number → Number → Number
  | int i, int j => int (i + j)
  | a, b => float (a.toBinary64.add b.toBinary64)

/-- Can two numbers be added?  An integer that meets a binary64 number has to be in their range. -/
def mixes : Number → Number → Bool
  | int i, float _ | float _, int i => (Binary64.ofInt i).isFinite
  | int _, int _ | float _, float _ => true

/-- The quotient by a positive natural number, always a binary64 number. -/
def divNat (a : Number) (n : Nat) : Number :=
  match a with
  | int i => float (.ofRatio (decide (i < 0)) i.natAbs n)
  | float x => float (x.divNat n)

/-- The quotient by a positive natural number, rounded down, of the same kind as the number. -/
def floorDivNat (a : Number) (n : Nat) : Number :=
  match a with
  | int i => int (i.fdiv n)
  | float x => float (x.floorDivNat n)

def isZero (a : Number) : Bool := a.same (int 0)

/-- Is the value an integer, of either kind? -/
def isIntegral : Number → Bool
  | int _ => true
  | float x => match x.scaled? with
    | some a => a.isIntegral
    | none => false

/-- Is a number an exact multiple of one that is not zero? -/
def isExactMultipleOf (a step : Number) : Bool :=
  match a.scaled?, step.scaled? with
  | some x, some y => x.ratio.1 * y.ratio.2 % (x.ratio.2 * y.ratio.1) == 0
  | _, _ => false

/-- Is a number a multiple of a positive one?  With a step in binary64 the quotient is rounded before
it is looked at, unless it is out of range. -/
def isMultipleOf (a step : Number) : Bool :=
  match step with
  | int _ => a.isExactMultipleOf step
  | float y =>
    let quotient := a.toBinary64.div y
    if quotient.isInfinite then a.isExactMultipleOf step else (float quotient).isIntegral

@[simp] theorem compare?_int (i j : Int) : compare? (int i) (int j) = some (Ord.compare i j) := rfl

theorem same_int (i j : Int) : same (int i) (int j) = decide (i = j) := by
  simp only [same, compare?_int]
  by_cases h : i = j
  · subst h; simp
  · simp [h]

theorem lt_int (i j : Int) : lt (int i) (int j) = decide (i < j) := by
  simp only [lt, compare?_int]
  by_cases h : i < j
  · simp [h, Int.compare_eq_lt]
  · simp [h, Int.compare_eq_lt]

end Number

end EventRouting
