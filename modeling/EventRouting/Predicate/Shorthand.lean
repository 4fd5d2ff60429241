import EventRouting.Json.Read
import EventRouting.Number.Reading
import EventRouting.Predicate.Basic
import EventRouting.Predicate.Token
import EventRouting.Text.Case

/-!
# Predicates in shorthand

Reading takes one word at a time.  What has been read is a `State`: the open parentheses with the parts
that were finished inside each, and what the next word may be.

* `Shorthand.Level`    the parts that were read inside one pair of parentheses
* `Shorthand.State`    the levels from the inside out, and what has to come next
* `State.step`         the state after one more word
* `State.finish`       the predicate, if the text may end here
* `Predicate.ofTokens` the predicate of a list of words
* `Predicate.ofText`   the predicate of a text
-/

namespace EventRouting.Predicate

namespace Shorthand

/-- The parts of a group joined by `and` or `or`; a part alone stands for itself. -/
def join (c : Connective) : List Predicate → Predicate
  | [p] => p
  | parts => .group c parts

def negate : Nat → Predicate → Predicate
  | 0, p => p
  | n + 1, p => .not (negate n p)

/-- What was read inside one pair of parentheses: alternatives that are finished, the parts of the last
one, and the negations before the next part.  Lists are in the order of reading. -/
structure Level where
  alternatives : List Predicate
  parts : List Predicate
  negations : Nat
deriving Inhabited

namespace Level

def start : Level := ⟨[], [], 0⟩

/-- One more part, under the negations that were read before it. -/
def take (l : Level) (p : Predicate) : Level := ⟨l.alternatives, l.parts ++ [negate l.negations p], 0⟩

/-- The last alternative ends and another one starts. -/
def next (l : Level) : Level := ⟨l.alternatives ++ [join .and l.parts], [], 0⟩

def close (l : Level) : Predicate := join .or (l.alternatives ++ [join .and l.parts])

end Level

inductive Phase where
  /-- a part has to start -/
  | part
  /-- the test of a field has to come -/
  | test (field : Path)
  /-- the value of a comparison has to come -/
  | value (field : Path) (relation : Relation)
  /-- a part has ended -/
  | after
deriving Inhabited

/-- The level that is open, those around it from the inside out, and what comes next. -/
structure State where
  level : Level
  outer : List Level
  phase : Phase
deriving Inhabited

/-! ## words -/

def lowered (t : Token) : String := Text.lower t.text

def isKeyword (t : Token) (word : String) : Bool := t.kind = .word && lowered t == word

def wordTest? : String → Option (Relation ⊕ Test)
  | "exists" => some (.inr .present)
  | "not_exists" => some (.inr .absent)
  | "contains" => some (.inl .contains)
  | "not_contains" => some (.inl .notContains)
  | "starts_with" => some (.inl .startsWith)
  | "ends_with" => some (.inl .endsWith)
  | _ => none

def signRelation? : String → Option Relation
  | "=" => some .equal
  | "==" => some .equal
  | "!=" => some .notEqual
  | "<" => some .less
  | "<=" => some .lessEqual
  | ">" => some .greater
  | ">=" => some .greaterEqual
  | _ => none

/-- Words that name no field. -/
def isReserved (word : String) : Bool :=
  ["and", "or", "not", "true", "false", "null"].contains word || (wordTest? word).isSome

def field? (t : Token) : Option Path :=
  if t.kind = .word && !isReserved (lowered t) then some (Path.split t.text) else none

/-- The comparison or the test that a word stands for. -/
def test? (t : Token) : Option (Relation ⊕ Test) :=
  match t.kind with
  | .operator => (signRelation? t.text).map .inl
  | .word => wordTest? (lowered t)
  | _ => none

/-- The characters of a text without the backslashes that escape. -/
def unescape : List Char → List Char
  | '\\' :: c :: rest => c :: unescape rest
  | c :: rest => c :: unescape rest
  | [] => []

/-- The text of a word in quotes.  Between double quotes the escapes of a JSON text are read; between
single quotes a backslash makes any character stand for itself. -/
def string? (t : Token) : Option String :=
  match t.text.toList with
  | '"' :: _ =>
    match Json.read t.text with
    | .ok (.str s) => some s
    | _ => none
  | _ :: rest => some (String.ofList (unescape rest.dropLast))
  | [] => none

/-- The value that a word stands for. -/
def value? (t : Token) : Except Unreadable Json :=
  match t.kind with
  | .string =>
    match string? t with
    | some s => .ok (.str s)
    | none => .error (.badString t)
  | .number => .ok (.num (Number.ofDigits t.text.toList))
  | .word =>
    if lowered t = "true" then .ok (.bool true)
    else if lowered t = "false" then .ok (.bool false)
    else if lowered t = "null" then .ok .null
    else .error (.instead .value t)
  | _ => .error (.instead .value t)

/-! ## reading -/

namespace State

def start : State := ⟨.start, [], .part⟩

def took (s : State) (p : Predicate) : State := ⟨s.level.take p, s.outer, .after⟩

/-- What a word is when a part has to start. -/
def stepPart (s : State) (t : Token) : Except Unreadable State :=
  if isKeyword t "not" then
    .ok ⟨⟨s.level.alternatives, s.level.parts, s.level.negations + 1⟩, s.outer, .part⟩
  else if t.kind = .opening then .ok ⟨.start, s.level :: s.outer, .part⟩
  else
    match field? t with
    | some path => .ok ⟨s.level, s.outer, .test path⟩
    | none => .error (.instead .field t)

/-- What a word is when a part has ended. -/
def stepAfter (s : State) (t : Token) : Except Unreadable State :=
  if isKeyword t "and" then .ok ⟨s.level, s.outer, .part⟩
  else if isKeyword t "or" then .ok ⟨s.level.next, s.outer, .part⟩
  else
    match s.outer with
    | [] => .error (.surplus t)
    | around :: outer =>
      if t.kind = .closing then .ok ⟨around.take s.level.close, outer, .after⟩
      else .error (.instead .closing t)

def step (s : State) (t : Token) : Except Unreadable State :=
  match s.phase with
  | .part => s.stepPart t
  | .test path =>
    match test? t with
    | some (.inl relation) => .ok ⟨s.level, s.outer, .value path relation⟩
    | some (.inr test) => .ok (s.took (.field path test))
    | none => .error (.instead .operator t)
  | .value path relation =>
    match value? t with
    | .ok v => .ok (s.took (.field path (.compare relation v)))
    | .error e => .error e
  | .after => s.stepAfter t

/-- The predicate, if no word is missing. -/
def finish (s : State) : Except Unreadable Predicate :=
  match s.phase with
  | .part => .error (.missing .field)
  | .test _ => .error (.missing .operator)
  | .value _ _ => .error (.missing .value)
  | .after => if s.outer.isEmpty then .ok s.level.close else .error (.missing .closing)

/-- The predicate after all the words that are left. -/
def run (s : State) : List Token → Except Unreadable Predicate
  | [] => s.finish
  | t :: rest =>
    match s.step t with
    | .ok s' => run s' rest
    | .error e => .error e

end State

end Shorthand

/-- The predicate of a list of words.  The word `all` alone is satisfied by every event. -/
def ofTokens (tokens : List Token) : Except Unreadable Predicate :=
  match tokens with
  | [] => .error .empty
  | [t] => if Shorthand.lowered t = "all" then .ok .all else Shorthand.State.start.run [t]
  | _ => Shorthand.State.start.run tokens

def ofText (source : String) : Except Unreadable Predicate :=
  match Token.scan source with
  | .ok tokens => ofTokens tokens
  | .error e => .error e

end EventRouting.Predicate
