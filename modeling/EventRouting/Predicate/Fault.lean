import EventRouting.Fault

/-!
# Unreadable predicates

* `Token`              a word of a predicate in shorthand, with its place
* `Predicate.Unreadable`   why a text is no predicate
* `Unreadable.position?`   where reading stopped; at the end of the text there is no such place
-/

namespace EventRouting

/-- The sorts of words that a predicate in shorthand is made of. -/
inductive TokenKind where
  | string
  | number
  | operator
  | opening
  | closing
  | word
deriving DecidableEq, Inhabited

/-- A word of a predicate in shorthand, with the number of characters before it. -/
structure Token where
  kind : TokenKind
  text : String
  position : Nat
deriving DecidableEq, Inhabited

namespace Predicate

inductive Expected where
  | field
  | operator
  | value
  | closing
deriving DecidableEq, Inhabited

def Expected.text : Expected → String
  | field => "a field name"
  | operator => "an operator"
  | value => "a value"
  | closing => "')'"

inductive Unreadable where
  /-- the text has no word at all -/
  | empty
  /-- no word starts with this character -/
  | character (c : Char) (position : Nat)
  /-- the text ends too early -/
  | missing (expected : Expected)
  /-- another word than the one that has to come -/
  | instead (expected : Expected) (token : Token)
  /-- a word behind the end of the predicate -/
  | surplus (token : Token)
  /-- a text in double quotes with a bad escape or a control character -/
  | badString (token : Token)
deriving DecidableEq, Inhabited

namespace Unreadable

def text : Unreadable → String
  | empty => "Empty predicate"
  | character c _ => "Unexpected character " ++ Text.quoted (String.singleton c)
  | missing expected => "Unexpected end of predicate, expected " ++ expected.text
  | instead expected token => "Expected " ++ expected.text ++ " but found " ++ Text.quoted token.text
  | surplus token => "Unexpected token " ++ Text.quoted token.text
  | badString token => "Invalid string literal " ++ token.text

def position? : Unreadable → Option Nat
  | empty | missing _ => none
  | character _ position => some position
  | instead _ token | surplus token | badString token => some token.position

def fault (u : Unreadable) : Fault := .predicateParse u.text u.position?

end Unreadable

end Predicate

end EventRouting
