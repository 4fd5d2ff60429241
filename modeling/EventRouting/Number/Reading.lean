import EventRouting.Number.Basic
import EventRouting.Text.Integer

/-!
# Numbers in texts

* `Binary64.ofText?`   the number that a text spells, in digits of any script
* `Number.ofDigits`    the number of a text that is known to spell one: an integer if it has digits only

A text may have blanks around the number and single underscores between digits.  Infinity and what is
no number may be spelled out.  There is no limit on the digits of an integer, other than for a float that is made
of it.
-/

namespace EventRouting

namespace Text

/-- Does every underscore stand between two digits?  `before` tells whether a digit came before. -/
def underscoresFit (before : Bool) : List Char → Bool
  | [] => true
  | '_' :: c :: rest => before && isDigit c && underscoresFit true rest
  | '_' :: [] => false
  | c :: rest => underscoresFit (isDigit c) rest

/-- A small letter for a capital one, among the letters of ASCII. -/
def asciiLower (c : Char) : Char := if 'A' ≤ c && c ≤ 'Z' then Char.ofNat (c.toNat + 32) else c

end Text

namespace Binary64

/-- An exponent: digits after an optional sign. -/
def exponentOf? : List Char → Option Int
  | '-' :: rest => if rest ≠ [] && rest.all Text.isDigit then some (-(Text.digitsValue rest : Int)) else none
  | '+' :: rest => if rest ≠ [] && rest.all Text.isDigit then some (Text.digitsValue rest) else none
  | rest => if rest ≠ [] && rest.all Text.isDigit then some (Text.digitsValue rest) else none

/-- The number of digits, a point and an exponent; the digits may stand on one side of the point. -/
def ofDigits? (negative : Bool) (cs : List Char) : Option Binary64 :=
  let whole := cs.takeWhile Text.isDigit
  let rest := cs.dropWhile Text.isDigit
  let (fraction, rest) :=
    match rest with
    | '.' :: after => (after.takeWhile Text.isDigit, after.dropWhile Text.isDigit)
    | _ => ([], rest)
  if whole.isEmpty && fraction.isEmpty then none
  else
    let digits := Text.digitsValue (whole ++ fraction)
    match rest with
    | [] => some (ofDecimal negative digits (-(fraction.length : Int)))
    | c :: after =>
      if c = 'e' || c = 'E' then
        (exponentOf? after).map fun e => ofDecimal negative digits (e - fraction.length)
      else none

def ofUnsigned? (negative : Bool) (cs : List Char) : Option Binary64 :=
  let word := String.ofList (cs.map Text.asciiLower)
  if word = "inf" || word = "infinity" then some (infinity negative)
  else if word = "nan" then some nan
  else if Text.underscoresFit false cs then ofDigits? negative (cs.filter (· ≠ '_'))
  else none

def ofText? (cs : List Char) : Option Binary64 :=
  match Text.trimPadding cs with
  | '-' :: rest => ofUnsigned? true rest
  | '+' :: rest => ofUnsigned? false rest
  | rest => ofUnsigned? false rest

end Binary64

namespace Number

/-- The number of a text that has a sign at most, digits, and maybe a point or an exponent. -/
def ofDigits (cs : List Char) : Number :=
  match Text.integer? cs with
  | some i => .int i
  | none => .float ((Binary64.ofText? cs).getD .nan)

end Number

end EventRouting
