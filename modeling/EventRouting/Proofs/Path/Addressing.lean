import EventRouting.Proofs.Json.Place
import EventRouting.Proofs.Path.Written

/-!
# Addresses

Every place in a value has an address, unless one of the names on the way to it is empty or has a point or a
bracket in it.

* `Path.reference`             a path in writing, from the root on
* `Path.reference_addresses`   it is read as that path and leads to what stands there
-/

namespace EventRouting.Path

def reference (path : Path) : String := String.ofList ('$' :: path.flatMap Segment.written)

theorem plain_of_names {path : Path} (named : ∀ t, .name t ∈ path →
    t ≠ "" ∧ '.' ∉ t.toList ∧ '[' ∉ t.toList ∧ ']' ∉ t.toList) : ∀ s ∈ path, s.Plain := by
  intro s hs
  cases s with
  | index n => exact Segment.plain_index n
  | name t =>
    obtain ⟨nonempty, point, opening, closing⟩ := named t hs
    refine ⟨?_, fun c hc => isNameChar_iff.mpr ⟨?_, ?_, ?_⟩⟩
    · intro he
      exact nonempty (String.toList_inj.mp he)
    · rintro rfl
      exact point hc
    · rintro rfl
      exact opening hc
    · rintro rfl
      exact closing hc

theorem spells_reference {path : Path} (plain : ∀ s ∈ path, s.Plain) : Spells path.reference path :=
  ⟨_, String.toList_ofList, spelled_written plain⟩

/-- **Addresses.**  A path whose names have characters, and no points and brackets among them, is a reference in
writing and read as the same path.  From a root it leads to what stands at the path, and from any value to
something or nothing, without a fault. -/
theorem reference_addresses {path : Path} (named : ∀ t, .name t ∈ path →
    t ≠ "" ∧ '.' ∉ t.toList ∧ '[' ∉ t.toList ∧ ']' ∉ t.toList) :
    isReference path.reference = true ∧ parse (.str path.reference) = .ok path ∧
      (∀ root v, Json.WellFormed root → Json.Place root path v →
        root.lookupBy (path.map Segment.toJson) = .ok (some v)) ∧
      ∀ root : Json, root.lookupBy (path.map Segment.toJson) = .ok (root.lookup path) := by
  have spelled := spells_reference (plain_of_names named)
  have read := spelled.parse
  refine ⟨?_, read, fun root v single place => ?_, fun root => root.lookupBy_path path⟩
  · exact (isReference_iff _).mpr ⟨path, (parse_str_iff _ _).mp read⟩
  · rw [root.lookupBy_path, place.lookup single]

/-- A line feed in a name, a name of digits beside a position, and neighbours that no reference reaches. -/
theorem reference_addresses_digits :
    let path : Path := [.name "a b\n", .index 1, .name "0"]
    let root : Json := .obj [("a.b", .null), ("a b\n", .arr [.null, .obj [("", .null), ("0", .str "found")]])]
    (∀ t, .name t ∈ path → t ≠ "" ∧ '.' ∉ t.toList ∧ '[' ∉ t.toList ∧ ']' ∉ t.toList) ∧
      root.WellFormed ∧ Json.Place root path (.str "found") ∧ path.reference = "$.a b\n[1].0" ∧
      parse (.str path.reference) = .ok path ∧
      root.lookupBy (path.map Segment.toJson) = .ok (some (.str "found")) := by
  intro path root
  have named : ∀ t, .name t ∈ path → t ≠ "" ∧ '.' ∉ t.toList ∧ '[' ∉ t.toList ∧ ']' ∉ t.toList := by
    intro t ht
    simp only [path, List.mem_cons, Segment.name.injEq, reduceCtorEq, List.not_mem_nil, or_false, false_or] at ht
    rcases ht with rfl | rfl <;> decide
  have single : root.WellFormed := by simp [root, Json.WellFormed, Json.WellFormedItems, Json.WellFormedMembers]
  have inside : Json.Place (.obj [("", .null), ("0", .str "found")]) [.name "0"] (.str "found") :=
    .member (List.mem_cons_of_mem _ List.mem_cons_self) (.here _)
  have listed : Json.Place (.arr [.null, .obj [("", .null), ("0", .str "found")]]) [.index 1, .name "0"]
      (.str "found") :=
    .item rfl inside
  have place : Json.Place root path (.str "found") :=
    .member (List.mem_cons_of_mem _ List.mem_cons_self) listed
  obtain ⟨_, read, leads, _⟩ := reference_addresses named
  exact ⟨named, single, place, by decide, read, leads root _ single place⟩

end EventRouting.Path
