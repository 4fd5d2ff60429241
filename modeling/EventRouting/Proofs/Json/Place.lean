import EventRouting.Path.Lookup

/-!
# Places inside values

* `Json.wellFormed_arr_iff`, `Json.wellFormed_obj_iff`   values without doubled names, told by their parts
* `Json.Place`           what stands in a value under names of members and positions of items
* `Json.Place.lookup`    looking up finds what stands at a place
* `Segment.toJson`       a step as a value
* `Json.lookupBy_path`   names and positions are always steps
-/

namespace EventRouting

def Segment.toJson : Segment → Json
  | .name text => .str text
  | .index position => .int position

namespace Json

/-! ## values without doubled names -/

theorem wellFormed_arr_iff (items : List Json) : (Json.arr items).WellFormed ↔ ∀ v ∈ items, v.WellFormed := by
  rw [WellFormed]
  induction items with
  | nil => simp [WellFormedItems]
  | cons v rest ih => rw [WellFormedItems, ih, List.forall_mem_cons]

theorem wellFormed_obj_iff (members : Members Json) :
    (Json.obj members).WellFormed ↔ members.Distinct ∧ ∀ m ∈ members, m.2.WellFormed := by
  rw [WellFormed]
  refine and_congr_right' ?_
  induction members with
  | nil => simp [WellFormedMembers]
  | cons m rest ih =>
    obtain ⟨k, v⟩ := m
    rw [WellFormedMembers, ih, List.forall_mem_cons]

theorem WellFormed.get? {members : Members Json} (h : (Json.obj members).WellFormed) {key : String} {v : Json}
    (hv : members.get? key = some v) : v.WellFormed :=
  ((wellFormed_obj_iff members).mp h).2 _ (Members.mem_of_get?_eq_some hv)

theorem WellFormed.step {v w : Json} (h : v.WellFormed) {s : Segment} (hw : v.step? s = some w) : w.WellFormed := by
  cases v with
  | obj members => exact WellFormed.get? h hw
  | arr items =>
    obtain ⟨i, _, hi⟩ := Option.bind_eq_some_iff.mp hw
    refine (wellFormed_arr_iff items).mp h w ?_
    unfold itemAt? at hi
    split at hi
    · exact List.mem_of_getElem? hi
    · split at hi
      · exact List.mem_of_getElem? hi
      · cases hi
  | null | bool | num | str => cases hw

theorem WellFormed.lookup {v w : Json} (h : v.WellFormed) {p : Path} (hw : v.lookup p = some w) : w.WellFormed := by
  induction p generalizing v with
  | nil =>
    cases hw
    exact h
  | cons s p ih =>
    obtain ⟨u, hu, hw⟩ := Option.bind_eq_some_iff.mp hw
    exact ih (h.step hu) hw

/-! ## places -/

/-- `Place root path v`: in `root` the path leads to `v`, from an object to a member of a name and from a list to
the item at a position -/
inductive Place : Json → Path → Json → Prop where
  | here (v : Json) : Place v [] v
  | member {members : Members Json} {key : String} {v w : Json} {path : Path} (h : (key, v) ∈ members)
      (rest : Place v path w) : Place (.obj members) (.name key :: path) w
  | item {items : List Json} {i : Nat} {v w : Json} {path : Path} (h : items[i]? = some v) (rest : Place v path w) :
      Place (.arr items) (.index i :: path) w

theorem itemAt?_natCast (items : List Json) (i : Nat) : itemAt? items i = items[i]? := by
  rw [itemAt?, if_pos (by omega), Int.toNat_natCast]

theorem Place.lookup {root v : Json} {path : Path} (single : root.WellFormed) (h : Place root path v) :
    root.lookup path = some v := by
  induction h with
  | here v => rfl
  | @member members key v w path hm _ ih =>
    have hk : members.get? key = some v := ((wellFormed_obj_iff members).mp single).1.get?_of_mem hm
    have inside := ih (single.get? hk)
    show (members.get? key).bind (fun u => u.lookup path) = some w
    rw [hk]
    exact inside
  | @item items i v w path hi _ ih =>
    have inside := ih ((wellFormed_arr_iff items).mp single v (List.mem_of_getElem? hi))
    show (itemAt? items i).bind (fun u => u.lookup path) = some w
    rw [itemAt?_natCast, hi]
    exact inside

/-! ## steps as values -/

theorem stepBy?_toJson (v : Json) (s : Segment) : v.stepBy? s.toJson = .ok (v.step? s) := by
  cases v with
  | obj members => cases s <;> rfl
  | arr items => cases s <;> rfl
  | null | bool | num | str => rfl

/-- Looking up by names and positions finds a value or none, and never fails. -/
theorem lookupBy_path (v : Json) (path : Path) :
    v.lookupBy (path.map Segment.toJson) = .ok (v.lookup path) := by
  induction path generalizing v with
  | nil => rfl
  | cons s path ih =>
    rw [List.map_cons, lookupBy, stepBy?_toJson, lookup_cons]
    cases v.step? s with
    | none => rfl
    | some w => exact ih w

end Json

end EventRouting
