import EventRouting.Decimal.Shortest
import EventRouting.Number.Basic

/-!
# Number texts

* `FloatNotation`     the decisions of a notation for binary64 numbers
* `Number.valueNotation`, `Number.documentNotation`   the two notations in use
* `Number.text`       the text of a number
-/

namespace EventRouting

/-- How a binary64 number is written once its digits are known. -/
structure FloatNotation where
  /-- the least exponent of the leading digit that is written positionally -/
  leastPositional : Int
  /-- the greatest exponent of the leading digit that is written positionally -/
  greatestPositional : Int
  /-- the least number of digits of a written exponent -/
  exponentWidth : Nat
  nan : String
  infinity : String

namespace FloatNotation

def padLeft (width : Nat) (digits : List Char) : List Char :=
  List.replicate (width - digits.length) '0' ++ digits

/-- The text of an exponent: a sign, then at least two digits. -/
def exponentText (f : FloatNotation) (e : Int) : List Char :=
  (if e < 0 then '-' else '+') :: padLeft f.exponentWidth (Nat.toDigits 10 e.natAbs)

/-- The text of the digits `ds` whose leading digit has the weight `10 ^ e`. -/
def decimalText (f : FloatNotation) (ds : List Char) (e : Int) : List Char :=
  if f.leastPositional ≤ e && e ≤ f.greatestPositional then
    if e < 0 then
      ['0', '.'] ++ List.replicate (-e - 1).toNat '0' ++ ds
    else
      let whole := e.toNat + 1
      let front := ds.take whole ++ List.replicate (whole - ds.length) '0'
      let back := ds.drop whole
      front ++ ['.'] ++ (if back.isEmpty then ['0'] else back)
  else
    let back := ds.drop 1
    ds.take 1 ++ (if back.isEmpty then [] else '.' :: back) ++ 'e' :: f.exponentText e

def magnitudeText (f : FloatNotation) (x : Binary64) : List Char :=
  if x.isInfinite then f.infinity.toList
  else if x.mantissa = 0 then ['0', '.', '0']
  else
    let d := Decimal.shortest x
    let ds := Nat.toDigits 10 d.digits
    let trimmed := (ds.reverse.dropWhile (· == '0')).reverse
    f.decimalText trimmed (d.exponent + ds.length - 1)

def text (f : FloatNotation) (x : Binary64) : List Char :=
  if x.isNaN then f.nan.toList
  else if x.negative then '-' :: f.magnitudeText x
  else f.magnitudeText x

end FloatNotation

namespace Number

/-- Positional between `0.0001` and `10 ^ 16`, always with a point; otherwise an exponent with a sign
and two digits. -/
def valueNotation : FloatNotation := ⟨-4, 15, 2, "nan", "inf"⟩

/-- The same notation with the words that the JSON format borrows for what it cannot write. -/
def documentNotation : FloatNotation := ⟨-4, 15, 2, "NaN", "Infinity"⟩

def intText (i : Int) : List Char :=
  if i < 0 then '-' :: Nat.toDigits 10 i.natAbs else Nat.toDigits 10 i.natAbs

def textIn (f : FloatNotation) : Number → List Char
  | int i => intText i
  | float x => f.text x

def text (n : Number) : List Char := n.textIn valueNotation

end Number

end EventRouting
