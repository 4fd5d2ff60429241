import EventRouting.Number.Rounding

/-!
# Binary64 numbers

Double-precision numbers as words of 64 bits, with their exact values.  No machine arithmetic is
used: every operation decodes to integers, works exactly and rounds once.

* `Binary64`              a word: sign, 11 bits of exponent, 52 bits of fraction
* `Binary64.scaled?`      the finite value as `c * 2 ^ q`
* `Binary64.ofRatio`      the number nearest to a quotient of naturals
* `Binary64.ofDecimal`    the number nearest to `digits * 10 ^ exponent`
* `Binary64.add`          the sum, rounded once
-/

namespace EventRouting

/-- A double-precision number. -/
structure Binary64 where
  bits : UInt64
deriving DecidableEq, Inhabited

/-- The exact number `coefficient * 2 ^ exponent`. -/
structure Scaled where
  coefficient : Int
  exponent : Int
deriving DecidableEq, Inhabited

namespace Scaled

def ofInt (i : Int) : Scaled := ⟨i, 0⟩

/-- The coefficient of the same number at the exponent `e`, when `e` is not the larger one. -/
def coefficientAt (x : Scaled) (e : Int) : Int := x.coefficient * (Nat.pow 2 (x.exponent - e).toNat : Nat)

def compare (x y : Scaled) : Ordering :=
  let e := min x.exponent y.exponent
  Ord.compare (x.coefficientAt e) (y.coefficientAt e)

def add (x y : Scaled) : Scaled :=
  let e := min x.exponent y.exponent
  ⟨x.coefficientAt e + y.coefficientAt e, e⟩

def numerator (x : Scaled) : Int := x.coefficient * (Nat.pow 2 x.exponent.toNat : Nat)

/-- The denominator of the number, a power of two. -/
def denominator (x : Scaled) : Nat := Nat.pow 2 (-x.exponent).toNat

/-- The numerator and the denominator of the absolute value. -/
def ratio (x : Scaled) : Nat × Nat := (x.numerator.natAbs, x.denominator)

/-- The integer next to the number on the side of zero. -/
def truncate (x : Scaled) : Int := x.numerator.tdiv x.denominator

def isIntegral (x : Scaled) : Bool := x.numerator.tmod x.denominator == 0

@[simp] theorem ofInt_coefficient (i : Int) : (ofInt i).coefficient = i := rfl
@[simp] theorem ofInt_exponent (i : Int) : (ofInt i).exponent = 0 := rfl

end Scaled

namespace Binary64

/-! ## fields -/

/-- The bit of the sign, `2 ^ 63`. -/
def signBit : Nat := 0x8000000000000000

/-- The number of fractions, `2 ^ 52`, which is also the leading bit of a mantissa. -/
def fractions : Nat := 0x10000000000000

def negative (x : Binary64) : Bool := decide (signBit ≤ x.bits.toNat)

def magnitude (x : Binary64) : Nat := x.bits.toNat % signBit

def exponentField (x : Binary64) : Nat := x.magnitude / fractions

def fraction (x : Binary64) : Nat := x.magnitude % fractions

/-- The word of infinity without its sign. -/
def infinityMagnitude : Nat := 2047 * fractions

def isFinite (x : Binary64) : Bool := decide (x.magnitude < infinityMagnitude)

def isInfinite (x : Binary64) : Bool := x.magnitude == infinityMagnitude

def isNaN (x : Binary64) : Bool := decide (infinityMagnitude < x.magnitude)

def mantissa (x : Binary64) : Nat :=
  if x.exponentField = 0 then x.fraction else fractions + x.fraction

/-- The exponent of two that goes with the mantissa. -/
def exponent (x : Binary64) : Int :=
  if x.exponentField = 0 then -1074 else (x.exponentField : Int) - 1075

/-- The exact value of a finite number. -/
def scaled? (x : Binary64) : Option Scaled :=
  if x.isFinite then
    some ⟨if x.negative then -(x.mantissa : Int) else x.mantissa, x.exponent⟩
  else none

/-! ## building words -/

def ofParts (negative : Bool) (magnitude : Nat) : Binary64 :=
  ⟨UInt64.ofNat ((if negative then signBit else 0) + magnitude)⟩

def zero (negative : Bool) : Binary64 := ofParts negative 0

def infinity (negative : Bool) : Binary64 := ofParts negative infinityMagnitude

def nan : Binary64 := ofParts false (infinityMagnitude + fractions / 2)

/-- The word for `q * 2 ^ e`, where `q` is at most `2 ^ 53`, and at least `2 ^ 52` unless `e` is the
least exponent.  A mantissa that was rounded up to `2 ^ 53` carries into the exponent. -/
def encode (negative : Bool) (q : Nat) (e : Int) : Binary64 :=
  let word := (e + 1074).toNat * fractions + q
  if infinityMagnitude ≤ word then infinity negative else ofParts negative word

/-- The exponent at which `n / d` has a mantissa of 53 bits, or the least exponent. -/
def exponentFor (n d : Nat) : Int :=
  let e : Int := (n.log2 : Int) - d.log2 - 53
  let high := n * Nat.pow 2 (-e).toNat / (d * Nat.pow 2 e.toNat) < 2 * fractions
  max (if high then e else e + 1) (-1074)

/-- The number nearest to `n / d`, a tie going to the even mantissa. -/
def ofRatio (negative : Bool) (n d : Nat) : Binary64 :=
  if n = 0 then zero negative
  else
    let e := exponentFor n d
    encode negative (roundHalfEven (n * Nat.pow 2 (-e).toNat) (d * Nat.pow 2 e.toNat)) e

def ofInt (i : Int) : Binary64 := ofRatio (decide (i < 0)) i.natAbs 1

def ofScaled (x : Scaled) : Binary64 :=
  ofRatio (decide (x.coefficient < 0)) x.ratio.1 x.ratio.2

/-- The number nearest to `digits * 10 ^ exponent`.  Outside the range of the format the exponent is
not expanded. -/
def ofDecimal (negative : Bool) (digits : Nat) (exponent : Int) : Binary64 :=
  if digits = 0 then zero negative
  else
    let order := (Nat.toDigits 10 digits).length + exponent
    if 400 < order then infinity negative
    else if order < -400 then zero negative
    else ofRatio negative (digits * Nat.pow 10 exponent.toNat) (Nat.pow 10 (-exponent).toNat)

/-! ## arithmetic -/

/-- The sum, rounded once.  A sum that is exactly zero is positive unless both parts are negative. -/
def add (x y : Binary64) : Binary64 :=
  match x.scaled?, y.scaled? with
  | some a, some b =>
    let s := a.add b
    if s.coefficient = 0 then zero (x.negative && y.negative) else ofScaled s
  | some _, none => y
  | none, some _ => x
  | none, none =>
    if x.isNaN then x else if y.isNaN then y else if x.negative = y.negative then x else nan

/-- The quotient by a positive natural number, rounded once. -/
def divNat (x : Binary64) (n : Nat) : Binary64 :=
  match x.scaled? with
  | some a => ofRatio x.negative a.ratio.1 (a.ratio.2 * n)
  | none => x

/-- The quotient by a number that is finite and not zero, rounded once. -/
def div (x y : Binary64) : Binary64 :=
  match x.scaled?, y.scaled? with
  | some a, some b =>
    ofRatio (x.negative != y.negative) (a.ratio.1 * b.ratio.2) (a.ratio.2 * b.ratio.1)
  | _, _ => x

/-- The largest integral number that is not above the quotient by a positive natural number. -/
def floorDivNat (x : Binary64) (n : Nat) : Binary64 :=
  match x.scaled? with
  | some a =>
    let q := a.numerator.fdiv (a.denominator * n : Nat)
    if q = 0 then zero x.negative else ofInt q
  | none => nan

/-- Comparison by value; nothing is comparable with a NaN. -/
def compare? (x y : Binary64) : Option Ordering :=
  if x.isNaN || y.isNaN then none
  else
    match x.scaled?, y.scaled? with
    | some a, some b => some (a.compare b)
    | some _, none => some (if y.negative then .gt else .lt)
    | none, some _ => some (if x.negative then .lt else .gt)
    | none, none =>
      some (if x.negative = y.negative then .eq else if x.negative then .lt else .gt)

end Binary64

end EventRouting
