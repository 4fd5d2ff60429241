import EventRouting.Text.Blank
import EventRouting.Text.Digit

/-!
# Integers in texts

* `isPadding`   may a character stand around an integer?
* `digitRun?`   digits with single underscores between them
* `integer?`    an integer with an optional sign and blanks around it
-/

namespace EventRouting.Text

/-- The blanks around an integer: of the ASCII ones, the four separators do not count. -/
def isPadding (c : Char) : Bool := isBlank c && !(decide (28 ≤ c.toNat) && decide (c.toNat ≤ 31))

/-- The number that digits spell, single underscores being allowed between them.  `total` is the
number spelled so far and `pending` tells whether a digit has to follow. -/
def digitRunFrom? (total : Nat) (pending : Bool) : List Char → Option Nat
  | [] => if pending then none else some total
  | c :: rest =>
    match digitValue? c with
    | some d => digitRunFrom? (10 * total + d) false rest
    | none => if c = '_' && !pending then digitRunFrom? total true rest else none

def digitRun? (cs : List Char) : Option Nat := digitRunFrom? 0 true cs

def trimPadding (cs : List Char) : List Char :=
  ((cs.dropWhile isPadding).reverse.dropWhile isPadding).reverse

def integer? (cs : List Char) : Option Int :=
  match trimPadding cs with
  | '-' :: rest => (digitRun? rest).map fun n => -(n : Int)
  | '+' :: rest => (digitRun? rest).map fun n => (n : Int)
  | rest => (digitRun? rest).map fun n => (n : Int)

example : integer? " +1_0\n".toList = some 10 := by decide
example : integer? "1__0".toList = none := by decide
example : integer? "-7".toList = some (-7) := by decide
example : integer? "".toList = none := by decide

end EventRouting.Text
