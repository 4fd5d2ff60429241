import EventRouting.Predicate.Parse
import EventRouting.Proofs.Json.Place
import Mathlib.Data.List.Basic

/-!
# Negation at the leaves

A predicate is negated without a `not` around groups: the connectives change places, and a test that has an
opposite turns into it.

* `Relation.opposite?`, `Test.opposite?`   the question with the opposite answer, where the operators have one
* `Predicate.negation`          the predicate with the negation at its leaves
* `Predicate.holds_negation`    it answers the opposite
* `Predicate.accepts_negation`  to every event, and no event makes either of them fail
-/

namespace EventRouting

/-- Orders and the tests of how a text starts and ends have no opposite: where a value is absent or of another kind,
each of them fails. -/
def Relation.opposite? : Relation → Option Relation
  | equal => some notEqual
  | notEqual => some equal
  | contains => some notContains
  | notContains => some contains
  | startsWith | endsWith | less | lessEqual | greater | greaterEqual => none

def Test.opposite? : Test → Option Test
  | present => some absent
  | absent => some present
  | compare relation value => relation.opposite?.map fun opposite => compare opposite value

def Connective.dual : Connective → Connective
  | and => or
  | or => and

theorem Relation.holds_opposite {r s : Relation} (h : r.opposite? = some s) (actual : Option Json) (expected : Json) :
    s.holds actual expected = !r.holds actual expected := by
  cases r with
  | equal | contains =>
    cases h
    cases actual <;> rfl
  | notEqual | notContains =>
    cases h
    cases actual with
    | none => rfl
    | some v => exact (Bool.not_not _).symm
  | startsWith | endsWith | less | lessEqual | greater | greaterEqual => cases h

theorem Test.holds_opposite {t u : Test} (h : t.opposite? = some u) (actual : Option Json) :
    u.holds actual = !t.holds actual := by
  cases t with
  | present =>
    cases h
    rfl
  | absent =>
    cases h
    exact (Bool.not_not _).symm
  | compare relation value =>
    obtain ⟨opposite, ho, rfl⟩ := Option.map_eq_some_iff.mp h
    exact Relation.holds_opposite ho actual value

namespace Predicate

mutual

/-- The predicate with the negation at its leaves. -/
def negation : Predicate → Predicate
  | all => not all
  | field path test =>
    match test.opposite? with
    | some opposite => field path opposite
    | none => not (field path test)
  | group c parts => group c.dual (negations parts)
  | not part => part

def negations : List Predicate → List Predicate
  | [] => []
  | p :: rest => negation p :: negations rest

end

theorem negations_eq (parts : List Predicate) : negations parts = parts.map negation := by
  induction parts with
  | nil => rfl
  | cons p rest ih => rw [negations, ih, List.map_cons]

theorem holds_negation (event : Json) (p : Predicate) : p.negation.holds event = !p.holds event := by
  induction p using induct with
  | all => rfl
  | field path test =>
    cases h : test.opposite? with
    | none =>
      have kept : (field path test).negation = not (field path test) := by rw [negation, h]
      rw [kept]
      rfl
    | some opposite =>
      have flipped : (field path test).negation = field path opposite := by rw [negation, h]
      rw [flipped]
      exact Test.holds_opposite h (event.lookup path)
  | group c parts ih =>
    -- a group knows the answers of its parts alone, and these are flipped one by one
    have flipped : (negations parts).map (holds event) = parts.map (fun p => !holds event p) := by
      rw [negations_eq, List.map_map]
      exact List.map_congr_left ih
    rw [negation, holds_group, holds_group, flipped]
    cases c with
    | and =>
      show (parts.map fun p => !holds event p).any id = !(parts.map (holds event)).all id
      rw [List.not_all_eq_any_not, List.any_map, List.any_map]
      rfl
    | or =>
      show (parts.map fun p => !holds event p).all id = !(parts.map (holds event)).any id
      rw [List.not_any_eq_all_not, List.all_map, List.all_map]
      rfl
  | not part _ => exact (Bool.not_not _).symm

theorem paths_negation (p : Predicate) : p.negation.paths = p.paths := by
  induction p using induct with
  | all => rfl
  | field path test =>
    rw [negation]
    cases test.opposite? <;> rfl
  | group c parts ih =>
    show pathsAll (negations parts) = pathsAll parts
    rw [pathsAll_eq, pathsAll_eq, negations_eq, List.flatMap_map]
    exact List.flatMap_congr ih
  | not part _ => rfl

/-- **Negation at the leaves.**  To every event a predicate and its negation give opposite answers.  Neither of them
fails: they ask about the same fields, and to look one of these up never fails. -/
theorem accepts_negation (p : Predicate) (members : Members Json) :
    (∃ answer, p.accepts (.obj members) = .ok answer ∧ p.negation.accepts (.obj members) = .ok (!answer)) ∧
      p.negation.paths = p.paths ∧
      ∀ path ∈ p.paths,
        (Json.obj members).lookupBy (path.map Segment.toJson) = .ok ((Json.obj members).lookup path) := by
  refine ⟨⟨p.holds (.obj members), accepts_obj p members, ?_⟩, paths_negation p, ?_⟩
  · rw [accepts_obj, holds_negation]
  · intro path _
    exact Json.lookupBy_path (.obj members) path

end Predicate

end EventRouting
