import EventRouting.Json.Basic
import EventRouting.Number.Notation
import EventRouting.Text.Quoted

/-!
# Values in messages

* `Json.literal`   the text of a value in a message: `None`, `True`, `[1, 'a']`, `{'k': 1}`
* `Json.display`   the same, but a text stands for itself
-/

namespace EventRouting

/-- Texts between brackets, separated by a comma and a space. -/
def Text.bracketed (left right : Char) (parts : List (List Char)) : List Char :=
  left :: ((parts.intersperse [',', ' ']).flatten ++ [right])

namespace Json

mutual

def literalChars : Json → List Char
  | .null => "None".toList
  | .bool true => "True".toList
  | .bool false => "False".toList
  | .num n => n.text
  | .str s => Text.quotedChars s.toList
  | .arr items => Text.bracketed '[' ']' (literalItems items)
  | .obj members => Text.bracketed '\x7b' '\x7d' (literalMembers members)

def literalItems : List Json → List (List Char)
  | [] => []
  | v :: rest => literalChars v :: literalItems rest

def literalMembers : List (String × Json) → List (List Char)
  | [] => []
  | (k, v) :: rest =>
    (Text.quotedChars k.toList ++ ':' :: ' ' :: literalChars v) :: literalMembers rest

end

/-- The text of a value in a message. -/
def literal (v : Json) : String := String.ofList (literalChars v)

/-- The text that stands for a value: a text itself, any other value as in a message. -/
def display : Json → String
  | .str s => s
  | v => v.literal

end Json

def Text.quotedList (texts : List String) : String :=
  String.ofList (Text.bracketed '[' ']' (texts.map fun s => Text.quotedChars s.toList))

end EventRouting
