import EventRouting.Number.Notation
import EventRouting.Text.Digit
import EventRouting.Text.Integer

/-!
# Paths

A path names a place inside a value: from a value to one of its members, or to an item at a position.

* `Segment`       a step of a path, a name or a position
* `isNameChar`    the characters of a name: all but the point and the square brackets
* `bracketed?`    a position between square brackets at the front of a text
* `Path.split`    the names and positions of a text in order; what is neither is skipped

Digits are read as integers however many they are, and a path may be of any length: a limit on digits or on the
depth of recursion belongs to the machine that runs a program and is in none of its definitions.  The range of
binary64 numbers is in them, with `Fault.tooLarge` for an integer beyond it.
-/

namespace EventRouting

inductive Segment where
  | name (text : String)
  | index (position : Nat)
deriving DecidableEq, Inhabited

/-- The steps from a value to a place inside it. -/
abbrev Path := List Segment

namespace Segment

/-- The member that a step leads to in an object. -/
def key : Segment → String
  | .name text => text
  | .index position => String.ofList (Number.intText position)

/-- The position that a step leads to in a list.  A name is one if it spells an integer; negative
positions count from the end. -/
def position? : Segment → Option Int
  | .name text => Text.integer? text.toList
  | .index position => some position

end Segment

namespace Path

def isNameChar (c : Char) : Bool := c != '.' && c != '[' && c != ']'

/-- Digits and a closing bracket at the front, behind an opening one: the digits and what is left. -/
def bracketed? (cs : List Char) : Option (List Char × List Char) :=
  match cs.takeWhile Text.isDigit, cs.dropWhile Text.isDigit with
  | d :: ds, ']' :: rest => some (d :: ds, rest)
  | _, _ => none

theorem bracketed?_length {cs ds rest : List Char} (h : bracketed? cs = some (ds, rest)) :
    rest.length < cs.length := by
  unfold bracketed? at h
  split at h
  · rename_i _ _ d ds' rest' _ hr
    cases h
    have : (cs.dropWhile Text.isDigit).length ≤ cs.length := (List.dropWhile_sublist _).length_le
    rw [hr] at this
    simp only [List.length_cons] at this
    omega
  · cases h

def splitChars (cs : List Char) : Path :=
  match cs with
  | [] => []
  | '[' :: rest =>
    match _h : bracketed? rest with
    | some (ds, left) => .index (Text.digitsValue ds) :: splitChars left
    | none => splitChars rest
  | c :: rest =>
    if isNameChar c then
      .name (String.ofList (c :: rest.takeWhile isNameChar)) :: splitChars (rest.dropWhile isNameChar)
    else splitChars rest
termination_by cs.length
decreasing_by
  · have := bracketed?_length _h; simp; omega
  · simp
  · have : (rest.dropWhile isNameChar).length ≤ rest.length := (List.dropWhile_sublist _).length_le
    simp
    omega
  · simp

/-- The names and positions of a text in order. -/
def split (text : String) : Path := splitChars text.toList

/-- A path as one name: its keys with points between them. -/
def dotted (p : Path) : String := ".".intercalate (p.map Segment.key)

end Path

end EventRouting
