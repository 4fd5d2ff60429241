import EventRouting.Text.Blank
import EventRouting.Text.Digit
import EventRouting.Text.Word

/-!
# Patterns

* `Pattern`           what a part of a text has to look like
* `Pattern.ends`      the places where a match that starts at a place can end
* `Pattern.occurs`    is there a match anywhere in a text?

A place in a text is the character before it, if there is one, and the characters behind it.
-/

namespace EventRouting

/-- The classes of characters that have a letter of their own. -/
inductive CharClass where
  | digit
  | word
  | blank
deriving DecidableEq, Inhabited

def CharClass.contains : CharClass → Char → Bool
  | digit, c => Text.isDigit c
  | word, c => Text.isWord c
  | blank, c => Text.isBlank c

/-- A part of a set of characters. -/
inductive CharRange where
  | range (first last : Char)
  | ofClass (negated : Bool) (cls : CharClass)
deriving DecidableEq, Inhabited

def CharRange.contains : CharRange → Char → Bool
  | range first last, c => decide (first.toNat ≤ c.toNat) && decide (c.toNat ≤ last.toNat)
  | ofClass negated cls, c => negated != cls.contains c

inductive Pattern where
  | empty
  /-- any character but a line feed -/
  | any
  | oneOf (negated : Bool) (ranges : List CharRange)
  | seq (first second : Pattern)
  | alt (first second : Pattern)
  /-- at least `least` times, and at most `most` times if there is a bound -/
  | repeated (least : Nat) (most : Option Nat) (part : Pattern)
  | start
  /-- the end of the text -/
  | finish
  /-- the end of the text, or the place before a line feed that ends it -/
  | lineFinish
  /-- a place where a word starts or ends, or one where none does -/
  | boundary (negated : Bool)
  /-- a place from which the part matches, or one from which it does not -/
  | ahead (negated : Bool) (part : Pattern)
deriving Inhabited

namespace Pattern

structure Place where
  before : Option Char
  behind : List Char
deriving DecidableEq, Inhabited

/-- The places without those that are as far in the text as an earlier one. -/
def dedup : List Place → List Place
  | [] => []
  | p :: rest => p :: (dedup rest).filter fun q => q.behind.length != p.behind.length

/-- The places after up to `n` more steps from places. -/
def closure (step : Place → List Place) : Nat → List Place → List Place
  | 0, ps => ps
  | n + 1, ps => dedup (ps ++ closure step n (dedup (ps.flatMap step)))

/-- The places after exactly `n` steps. -/
def iterate (step : Place → List Place) : Nat → List Place → List Place
  | 0, ps => ps
  | n + 1, ps => iterate step n (dedup (ps.flatMap step))

def isWordAt : Option Char → Bool
  | some c => Text.isWord c
  | none => false

/-- Does a word start or end at a place? -/
def isBoundary (p : Place) : Bool := isWordAt p.before != isWordAt p.behind.head?

/-- The places where a match that starts at a place can end. -/
def ends : Pattern → Place → List Place
  | empty, p => [p]
  | any, p =>
    match p.behind with
    | c :: rest => if c = '\n' then [] else [⟨some c, rest⟩]
    | [] => []
  | oneOf negated ranges, p =>
    match p.behind with
    | c :: rest => if negated != ranges.any (·.contains c) then [⟨some c, rest⟩] else []
    | [] => []
  | seq first second, p => dedup ((ends first p).flatMap (ends second))
  | alt first second, p => dedup (ends first p ++ ends second p)
  | repeated least most part, p =>
    let more := match most with
      | some n => n - least
      | none => p.behind.length + 1
    closure (ends part) more (iterate (ends part) least [p])
  | start, p => if p.before.isNone then [p] else []
  | finish, p => if p.behind.isEmpty then [p] else []
  | lineFinish, p => if p.behind.isEmpty || p.behind = ['\n'] then [p] else []
  | boundary negated, p => if negated != isBoundary p then [p] else []
  | ahead negated part, p => if negated != !(ends part p).isEmpty then [p] else []

def occursFrom (pattern : Pattern) (before : Option Char) (behind : List Char) : Bool :=
  !(pattern.ends ⟨before, behind⟩).isEmpty ||
    match behind with
    | [] => false
    | c :: rest => occursFrom pattern (some c) rest

def occurs (pattern : Pattern) (text : String) : Bool := pattern.occursFrom none text.toList

end Pattern

end EventRouting
