import EventRouting.Path.Basic
import EventRouting.Predicate.Fault
import EventRouting.Text.Word

/-!
# Words of a predicate in shorthand

* `Token.lexeme?`   the sort and the length of the word at the front of a text
* `Token.scan`      the words of a text with their places, blanks between them being skipped

The first character of a word decides its sort, and a word is as long as it can be.
-/

namespace EventRouting.Token

/-- How many characters at the front satisfy `p`? -/
def runLength (p : Char → Bool) (cs : List Char) : Nat := (cs.takeWhile p).length

/-- The length of a text in quotes behind its opening quote.  A backslash takes the next character
with it, which is no line feed. -/
def stringLength? (quote : Char) : List Char → Option Nat
  | [] => none
  | '\\' :: [] => none
  | '\\' :: c :: rest => if c = '\n' then none else (stringLength? quote rest).map (· + 2)
  | c :: rest => if c = quote then some 1 else (stringLength? quote rest).map (· + 1)

/-- The length of a point and digits, if they are there. -/
def fractionLength : List Char → Nat
  | '.' :: rest => if runLength Text.isDigit rest = 0 then 0 else 1 + runLength Text.isDigit rest
  | _ => 0

def signLength : List Char → Nat
  | '+' :: _ => 1
  | '-' :: _ => 1
  | _ => 0

/-- The length of an exponent with its letter, if it is there. -/
def exponentLength : List Char → Nat
  | c :: rest =>
    if c = 'e' || c = 'E' then
      let digits := runLength Text.isDigit (rest.drop (signLength rest))
      if digits = 0 then 0 else 1 + signLength rest + digits
    else 0
  | [] => 0

/-- The length of a number that starts with a digit. -/
def unsignedLength (cs : List Char) : Nat :=
  let whole := runLength Text.isDigit cs
  let fraction := fractionLength (cs.drop whole)
  whole + fraction + exponentLength (cs.drop (whole + fraction))

def isWordStart (c : Char) : Bool :=
  ('A' ≤ c && c ≤ 'Z') || ('a' ≤ c && c ≤ 'z') || c = '_' || c = '$'

def isWordChar (c : Char) : Bool := Text.isWord c || c = '$' || c = '-'

/-- The length of what continues a word: names behind points and positions in brackets. -/
def tailLength (cs : List Char) : Nat :=
  match cs with
  | '.' :: rest =>
    let n := runLength isWordChar rest
    if n = 0 then 0 else 1 + n + tailLength (rest.drop n)
  | '[' :: rest =>
    match _h : Path.bracketed? rest with
    | some (ds, left) => 2 + ds.length + tailLength left
    | none => 0
  | _ => 0
termination_by cs.length
decreasing_by
  · simp only [List.length_cons, List.length_drop]; omega
  · have := Path.bracketed?_length _h; simp; omega

/-- The length of a word behind its first character. -/
def wordLength (cs : List Char) : Nat :=
  let n := runLength isWordChar cs
  n + tailLength (cs.drop n)

def operatorLength? : List Char → Option Nat
  | '!' :: '=' :: _ => some 2
  | '<' :: '=' :: _ => some 2
  | '>' :: '=' :: _ => some 2
  | '=' :: '=' :: _ => some 2
  | '=' :: _ => some 1
  | '<' :: _ => some 1
  | '>' :: _ => some 1
  | _ => none

/-- The sort and the length of the word that a text starts with. -/
def lexeme? (cs : List Char) : Option (TokenKind × Nat) :=
  match cs with
  | [] => none
  | '"' :: rest => (stringLength? '"' rest).map fun n => (.string, n + 1)
  | '\'' :: rest => (stringLength? '\'' rest).map fun n => (.string, n + 1)
  | '(' :: _ => some (.opening, 1)
  | ')' :: _ => some (.closing, 1)
  | '-' :: rest =>
    if runLength Text.isDigit rest = 0 then none else some (.number, 1 + unsignedLength rest)
  | c :: rest =>
    if Text.isDigit c then some (.number, unsignedLength (c :: rest))
    else if isWordStart c then some (.word, 1 + wordLength rest)
    else (operatorLength? (c :: rest)).map fun n => (.operator, n)

/-- The words of a text of which `position` characters came before. -/
def scanFrom (position : Nat) (cs : List Char) : Except Predicate.Unreadable (List Token) :=
  match cs with
  | [] => .ok []
  | c :: rest =>
    if Text.isBlank c then scanFrom (position + 1) rest
    else
      match lexeme? (c :: rest) with
      | none => .error (.character c position)
      | some (_, 0) => .error (.character c position)
      | some (kind, n + 1) =>
        match scanFrom (position + (n + 1)) (rest.drop n) with
        | .error e => .error e
        | .ok tokens => .ok (⟨kind, String.ofList ((c :: rest).take (n + 1)), position⟩ :: tokens)
termination_by cs.length
decreasing_by
  · simp
  · simp only [List.length_cons, List.length_drop]; omega

def scan (source : String) : Except Predicate.Unreadable (List Token) := scanFrom 0 source.toList

end EventRouting.Token
