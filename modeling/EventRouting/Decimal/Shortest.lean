import EventRouting.Number.Binary64

/-!
# Shortest decimals

The decimal with the fewest digits that reads back as a given positive finite number.

* `Decimal`             `digits * 10 ^ exponent`
* `Decimal.shortest`    the fewest digits, of those the nearest, a tie going to even digits
-/

namespace EventRouting

/-- The number `digits * 10 ^ exponent`. -/
structure Decimal where
  digits : Nat
  exponent : Int
deriving DecidableEq, Inhabited

namespace Decimal

/-- Twice the distance between `a / b` and `c / d`, over the common denominator `b * d`. -/
def gap (a b c d : Nat) : Nat := (a * d - c * b) + (c * b - a * d)

/-- The reals that round to one number, with the number itself, over a common denominator. -/
structure Basin where
  low : Nat
  value : Nat
  high : Nat
  denominator : Nat
  closed : Bool
deriving DecidableEq, Inhabited

def Basin.contains (b : Basin) (n d : Nat) : Bool :=
  let low := b.low * d
  let high := b.high * d
  let x := n * b.denominator
  if b.closed then decide (low ≤ x) && decide (x ≤ high) else decide (low < x) && decide (x < high)

/-- The basin of a positive finite number.  Below a power of two the neighbour is nearer by half. -/
def basin (x : Binary64) : Basin :=
  let m := x.mantissa
  let scale := Nat.pow 2 x.exponent.toNat
  let below := if m = Binary64.fractions && decide (-1074 < x.exponent) then 1 else 2
  ⟨(4 * m - below) * scale, 4 * m * scale, (4 * m + 2) * scale, 4 * Nat.pow 2 (-x.exponent).toNat,
    m % 2 = 0⟩

/-- The exponent `p` with `10 ^ p ≤ n / d < 10 ^ (p + 1)`, by stepping from an estimate. -/
def leadingExponent (n d : Nat) : Int :=
  let atLeast (p : Int) : Bool := decide (d * Nat.pow 10 p.toNat ≤ n * Nat.pow 10 (-p).toNat)
  let guess : Int := (((n.log2 : Int) - d.log2) * 1233).fdiv 4096
  if atLeast (guess + 1) then guess + 1
  else if atLeast guess then guess
  else guess - 1

/-- The nearest point of the grid `10 ^ e` in the basin, if one is there. -/
def onGrid (b : Basin) (e : Int) : Option Decimal :=
  let up := Nat.pow 10 e.toNat
  let down := Nat.pow 10 (-e).toNat
  let a := b.value * down / (b.denominator * up)
  let hit (k : Nat) : Bool := b.contains (k * up) down
  let far (k : Nat) : Nat := gap (k * up) down b.value b.denominator
  if hit a then
    if hit (a + 1) then
      if far a < far (a + 1) then some ⟨a, e⟩
      else if far (a + 1) < far a then some ⟨a + 1, e⟩
      else some ⟨if a % 2 = 0 then a else a + 1, e⟩
    else some ⟨a, e⟩
  else if hit (a + 1) then some ⟨a + 1, e⟩
  else none

/-- The digits of a positive finite number: the coarsest of the grids with 1 to 17 digits that has a
point in the basin. -/
def shortest (x : Binary64) : Decimal :=
  let b := basin x
  let p := leadingExponent b.value b.denominator
  let grids := (List.range 17).map fun (k : Nat) => p - k
  (grids.findSome? (onGrid b)).getD ⟨b.value / b.denominator, 0⟩

end Decimal

end EventRouting
