import EventRouting.Predicate.Basic
import EventRouting.Proofs.Json.Equality

/-!
# Equality in predicates

`=` tells booleans from numbers where a boolean is the whole value, but not inside lists and objects.

* `Relation.Equates`     the values that `=` takes for the same
* `Relation.equals_iff`  the checker decides it
* `Predicate.equates_json`   how `=`, `!=` and `contains` answer, and where that is equality of JSON values
-/

namespace EventRouting

namespace Relation

/-- A boolean is equated with itself only, any other value with what is alike. -/
def Equates (a b : Json) : Prop := (a.kind = .boolean ↔ b.kind = .boolean) ∧ a.Alike b

theorem equals_iff {a b : Json} (wa : a.WellFormed) (wb : b.WellFormed) (na : a.HasNoNaN) (nb : b.HasNoNaN) :
    equals a b = true ↔ Equates a b := by
  have alike : a.alike b = true ↔ a.Alike b := Json.sameWith_iff true wa wb na nb
  cases a with
  | bool t =>
    cases b with
    | bool u => exact alike.trans (and_iff_right Iff.rfl).symm
    | null | num | str | arr | obj => exact iff_of_false Bool.false_ne_true fun h => nomatch h.1.mp rfl
  | null | num | str | arr | obj =>
    cases b with
    | bool u => exact iff_of_false Bool.false_ne_true fun h => nomatch h.1.mpr rfl
    | null | num | str | arr | obj => exact alike.trans (and_iff_right (iff_of_false nofun nofun)).symm

/-- Equal JSON values are equated, and values that are equated are equal where no boolean in the one stands at
the place of a number in the other. -/
theorem equal_iff_equates {a b : Json} (wa : a.WellFormed) (wb : b.WellFormed) :
    a.Equal b ↔ Equates a b ∧ ¬ a.Mixes b := by
  rw [Json.equal_iff_alike wa wb]
  constructor
  · rintro ⟨h, apart⟩
    refine ⟨⟨?_, h⟩, apart⟩
    cases h with
    | @boolNum t n => exact absurd ⟨[], t, n, .inl ⟨.here _, .here _⟩⟩ apart
    | @numBool t n => exact absurd ⟨[], t, n, .inr ⟨.here _, .here _⟩⟩ apart
    | null | bool | num | str | arr | obj => exact Iff.rfl
  · rintro ⟨⟨-, h⟩, apart⟩
    exact ⟨h, apart⟩

end Relation

namespace Predicate

open EventRouting.Relation (Equates)

/-- **Equality.**  For a value `a` of an event, `=` equates it with `b` or not, `!=` answers the opposite, and a
list contains `b` where one of its items is equated with it.  What is the same JSON value is what is equated and
has no boolean at the place of a number: there alone `=` differs from equality. -/
theorem equates_json (event : Json) (path : Path) {a b : Json} (found : event.lookup path = some a)
    (wa : a.WellFormed) (wb : b.WellFormed) (na : a.HasNoNaN) (nb : b.HasNoNaN) :
    let asks (relation : Relation) : Bool := (field path (.compare relation b)).holds event
    (asks .equal = true ↔ Equates a b) ∧ (asks .notEqual = !asks .equal) ∧
      (a.Equal b ↔ Equates a b ∧ ¬ a.Mixes b) ∧
      ∀ items, a = .arr items →
        (asks .contains = true ↔ ∃ v ∈ items, Equates v b) ∧
          ∀ v ∈ items, v.Equal b ↔ Equates v b ∧ ¬ v.Mixes b := by
  intro asks
  have answer (relation : Relation) : asks relation = relation.holds (some a) b := by
    show relation.holds (event.lookup path) b = _
    rw [found]
  refine ⟨?_, ?_, Relation.equal_iff_equates wa wb, ?_⟩
  · rw [answer]
    exact Relation.equals_iff wa wb na nb
  · rw [answer, answer]
    rfl
  · rintro items rfl
    have parts := (Json.wellFormed_arr_iff items).mp wa
    have numbers := (Json.hasNoNaN_arr_iff items).mp na
    refine ⟨?_, fun v hv => Relation.equal_iff_equates (parts v hv) wb⟩
    rw [answer]
    show (items.any fun v => Relation.equals v b) = true ↔ _
    rw [List.any_eq_true]
    refine exists_congr fun v => and_congr_right fun hv => ?_
    exact Relation.equals_iff (parts v hv) wb (numbers v hv) nb

/-- The order of names and the point in `1.0` do not matter. -/
theorem equates_json_oneInTwoForms :
    let a : Json := .obj [("n", .int 1), ("on", .arr [.bool true])]
    let b : Json := .obj [("on", .arr [.bool true]), ("n", .num (.float ⟨0x3FF0000000000000⟩))]
    let event : Json := .obj [("a", a)]
    (event.lookup [.name "a"] = some a ∧ a.WellFormed ∧ b.WellFormed ∧ a.HasNoNaN ∧ b.HasNoNaN) ∧
      a.Equal b ∧ (field [.name "a"] (.compare .equal b)).holds event = true := by
  intro a b event
  have wa : a.WellFormed := by
    simp [a, Json.WellFormed, Json.WellFormedItems, Json.WellFormedMembers, Json.int]
  have wb : b.WellFormed := by
    simp [b, Json.WellFormed, Json.WellFormedItems, Json.WellFormedMembers]
  have on : (Json.arr [.bool true]).HasNoNaN := by
    rw [Json.hasNoNaN_arr_iff, List.forall_mem_singleton]
    intro path n place
    cases place
  have na : a.HasNoNaN := by
    rw [Json.hasNoNaN_obj_iff, List.forall_mem_cons, List.forall_mem_singleton]
    exact ⟨(Json.hasNoNaN_num_iff _).mpr rfl, on⟩
  have nb : b.HasNoNaN := by
    rw [Json.hasNoNaN_obj_iff, List.forall_mem_cons, List.forall_mem_singleton]
    exact ⟨on, (Json.hasNoNaN_num_iff _).mpr (by decide)⟩
  have value : (Number.int 1).position = (Number.float ⟨0x3FF0000000000000⟩).position :=
    (Number.same_iff rfl (by decide)).mp (by decide +kernel)
  have equal : a.Equal b := by
    have da := ((Json.wellFormed_obj_iff _).mp wa).1
    have db := ((Json.wellFormed_obj_iff _).mp wb).1
    refine .obj ((Members.rel_iff da db).mp ⟨rfl, ?_⟩)
    rw [List.forall_mem_cons, List.forall_mem_singleton]
    exact ⟨⟨_, rfl, .num value⟩, _, rfl, .arr (.cons (.bool true) .nil)⟩
  have answers := equates_json event [.name "a"] rfl wa wb na nb
  exact ⟨⟨rfl, wa, wb, na, nb⟩, equal, answers.1.mpr (answers.2.2.1.mp equal).1⟩

/-- Inside a list a boolean is equated with a number that it is not equal to. -/
theorem equates_json_nestedTrue :
    let event : Json := .obj [("a", .arr [.bool true]), ("b", .arr [.arr [.bool true]])]
    let one : Json := .arr [.int 1]
    (field [.name "a"] (.compare .equal one)).holds event = true ∧
      (field [.name "a"] (.compare .notEqual one)).holds event = false ∧
      (field [.name "b"] (.compare .contains one)).holds event = true ∧
      ¬ (Json.arr [.bool true]).Equal one := by
  intro event one
  refine ⟨by decide, by decide, by decide, ?_⟩
  intro h
  cases h.items with
  | cons first rest =>
    cases first with
    | boolNum loose => cases loose

end Predicate

end EventRouting
