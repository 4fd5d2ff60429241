import EventRouting.Pattern.Read

/-!
# Formats of texts

* `TextFormat`           the formats that are checked
* `TextFormat.accepts`   has a text a format?
-/

namespace EventRouting

/-- The formats of texts that are checked; others are passed over. -/
inductive TextFormat where
  | email
  | ipv4
  | date
  | regex
deriving DecidableEq, Inhabited

namespace TextFormat

def name : TextFormat → String
  | email => "email"
  | ipv4 => "ipv4"
  | date => "date"
  | regex => "regex"

def ofName? : String → Option TextFormat
  | "email" => some .email
  | "ipv4" => some .ipv4
  | "date" => some .date
  | "regex" => some .regex
  | _ => none

def splitAt (sep : Char) : List Char → List (List Char)
  | [] => [[]]
  | c :: rest =>
    if c = sep then [] :: splitAt sep rest
    else
      match splitAt sep rest with
      | [] => [[c]]
      | part :: parts => (c :: part) :: parts

/-- One to three digits without a leading zero, at most 255. -/
def isOctet (cs : List Char) : Bool :=
  !cs.isEmpty && cs.length ≤ 3 && cs.all Pattern.isAsciiDigit && (cs == ['0'] || cs.head? != some '0') &&
    Text.digitsValue cs ≤ 255

def isAddress (cs : List Char) : Bool :=
  let parts := splitAt '.' cs
  parts.length == 4 && parts.all isOctet

def isLeapYear (year : Nat) : Bool := year % 4 == 0 && (year % 100 != 0 || year % 400 == 0)

def daysOf (year month : Nat) : Nat :=
  if month = 2 then (if isLeapYear year then 29 else 28)
  else if month = 4 || month = 6 || month = 9 || month = 11 then 30
  else 31

/-- A day of the calendar in the form `YYYY-MM-DD`. -/
def isDate (cs : List Char) : Bool :=
  match splitAt '-' cs with
  | [y, m, d] =>
    y.length == 4 && m.length == 2 && d.length == 2 && (y ++ m ++ d).all Pattern.isAsciiDigit &&
      (let year := Text.digitsValue y
       let month := Text.digitsValue m
       let day := Text.digitsValue d
       1 ≤ year && 1 ≤ month && month ≤ 12 && 1 ≤ day && day ≤ daysOf year month)
  | _ => false

def accepts (f : TextFormat) (text : String) : Bool :=
  match f with
  | email => text.toList.contains '@'
  | ipv4 => isAddress text.toList
  | date => isDate text.toList
  | regex => (Pattern.read? text).isSome

end TextFormat

end EventRouting
