import EventRouting.Json.Same
import EventRouting.Path.Lookup

/-!
# Predicates

A predicate tells which events a subscription wants.

* `Relation`             how the value of a field is compared
* `Test`                 what is asked about a field
* `Predicate`            tests, joined by `and`, `or` and `not`
* `Predicate.holds`      does an event satisfy a predicate?
* `Predicate.paths`      the fields that are asked about, left to right
* `Predicate.induct`     induction with the hypothesis on every part of a group
-/

namespace EventRouting

/-- How the value of a field is compared with a given one. -/
inductive Relation where
  | equal
  | notEqual
  | contains
  | notContains
  | startsWith
  | endsWith
  | less
  | lessEqual
  | greater
  | greaterEqual
deriving DecidableEq, Inhabited

/-- What is asked about a field. -/
inductive Test where
  | present
  | absent
  | compare (relation : Relation) (value : Json)
deriving DecidableEq, Inhabited

/-- How the parts of a group are joined. -/
inductive Connective where
  | and
  | or
deriving DecidableEq, Inhabited

/-- A condition on events. -/
inductive Predicate where
  | all
  | field (path : Path) (test : Test)
  | group (connective : Connective) (parts : List Predicate)
  | not (part : Predicate)
deriving Inhabited

/-! ## comparisons -/

namespace Relation

/-- Are a value of an event and an expected one equal?  A truth value equals truth values only; inside
lists and objects the truth values equal one and zero. -/
def equals (actual expected : Json) : Bool :=
  match actual, expected with
  | .bool a, .bool b => a == b
  | .bool _, _ => false
  | _, .bool _ => false
  | _, _ => actual.alike expected

def occursIn (part : List Char) : List Char → Bool
  | [] => part.isEmpty
  | c :: rest => part.isPrefixOf (c :: rest) || occursIn part rest

/-- Is the expected value a part of the text, or an item of the list? -/
def isPart (actual expected : Json) : Bool :=
  match actual, expected with
  | .str s, .str t => occursIn t.toList s.toList
  | .arr items, _ => items.any fun v => equals v expected
  | _, _ => false

/-- The order of two numbers or of two texts; nothing else is ordered. -/
def order? (actual expected : Json) : Option Ordering :=
  match actual, expected with
  | .num a, .num b => a.compare? b
  | .str s, .str t => some (compareOfLessAndEq s t)
  | _, _ => none

def holds (r : Relation) (actual : Option Json) (expected : Json) : Bool :=
  match r, actual with
  | equal, some v => equals v expected
  | equal, none => false
  | notEqual, some v => !equals v expected
  | notEqual, none => true
  | contains, some v => isPart v expected
  | contains, none => false
  | notContains, some v => !isPart v expected
  | notContains, none => true
  | startsWith, some (.str s) =>
    (match expected with | .str t => t.toList.isPrefixOf s.toList | _ => false)
  | endsWith, some (.str s) =>
    (match expected with | .str t => t.toList.isSuffixOf s.toList | _ => false)
  | startsWith, _ => false
  | endsWith, _ => false
  | less, some v => order? v expected == some .lt
  | lessEqual, some v => order? v expected == some .lt || order? v expected == some .eq
  | greater, some v => order? v expected == some .gt
  | greaterEqual, some v => order? v expected == some .gt || order? v expected == some .eq
  | less, none => false
  | lessEqual, none => false
  | greater, none => false
  | greaterEqual, none => false

end Relation

/-- Is there a value, and is it other than null? -/
def Test.isPresent : Option Json → Bool
  | none => false
  | some .null => false
  | some _ => true

def Test.holds (t : Test) (actual : Option Json) : Bool :=
  match t with
  | present => isPresent actual
  | absent => !isPresent actual
  | compare relation value => relation.holds actual value

namespace Predicate

mutual

/-- Does an event satisfy a predicate? -/
def holds (event : Json) : Predicate → Bool
  | all => true
  | field path test => test.holds (event.lookup path)
  | group .and parts => holdsAll event parts
  | group .or parts => holdsAny event parts
  | not part => !holds event part

def holdsAll (event : Json) : List Predicate → Bool
  | [] => true
  | p :: rest => holds event p && holdsAll event rest

def holdsAny (event : Json) : List Predicate → Bool
  | [] => false
  | p :: rest => holds event p || holdsAny event rest

end

theorem holdsAll_eq (event : Json) (parts : List Predicate) :
    holdsAll event parts = parts.all (holds event) := by
  induction parts with
  | nil => rfl
  | cons p rest ih => simp [holdsAll, ih]

theorem holdsAny_eq (event : Json) (parts : List Predicate) :
    holdsAny event parts = parts.any (holds event) := by
  induction parts with
  | nil => rfl
  | cons p rest ih => simp [holdsAny, ih]

/-- Of its parts a group knows the answers alone. -/
theorem holds_group (event : Json) (c : Connective) (parts : List Predicate) :
    holds event (group c parts) =
      match c with
      | .and => (parts.map (holds event)).all id
      | .or => (parts.map (holds event)).any id := by
  cases c with
  | and =>
    rw [List.all_map, Function.id_comp]
    exact holdsAll_eq event parts
  | or =>
    rw [List.any_map, Function.id_comp]
    exact holdsAny_eq event parts

mutual

def paths : Predicate → List Path
  | all => []
  | field path _ => [path]
  | group _ parts => pathsAll parts
  | not part => paths part

def pathsAll : List Predicate → List Path
  | [] => []
  | p :: rest => paths p ++ pathsAll rest

end

theorem pathsAll_eq (parts : List Predicate) : pathsAll parts = parts.flatMap paths := by
  induction parts with
  | nil => rfl
  | cons p rest ih => rw [pathsAll, ih, List.flatMap_cons]

/-! ## induction -/

mutual

theorem inductOne {q : Predicate → Prop} (all : q .all) (field : ∀ path test, q (.field path test))
    (group : ∀ c parts, (∀ p ∈ parts, q p) → q (.group c parts))
    (not : ∀ part, q part → q (.not part)) : ∀ p, q p
  | .all => all
  | .field path test => field path test
  | .group c parts => group c parts (inductParts all field group not parts)
  | .not part => not part (inductOne all field group not part)

theorem inductParts {q : Predicate → Prop} (all : q .all) (field : ∀ path test, q (.field path test))
    (group : ∀ c parts, (∀ p ∈ parts, q p) → q (.group c parts))
    (not : ∀ part, q part → q (.not part)) : ∀ parts : List Predicate, ∀ p ∈ parts, q p
  | [], _, h => nomatch h
  | r :: rest, p, h => by
    rcases List.mem_cons.1 h with h | h
    · exact h ▸ inductOne all field group not r
    · exact inductParts all field group not rest p h

end

/-- Induction on a predicate, with the hypothesis on every part of a group. -/
@[elab_as_elim]
theorem induct {q : Predicate → Prop} (p : Predicate) (all : q .all)
    (field : ∀ path test, q (.field path test))
    (group : ∀ c parts, (∀ p ∈ parts, q p) → q (.group c parts))
    (not : ∀ part, q part → q (.not part)) : q p :=
  inductOne all field group not p

end Predicate

end EventRouting
