import Mathlib.Data.List.Forall2
import Mathlib.Logic.Relation
import EventRouting.Proofs.Template.Compositional

/-!
# What a draft settles to

A draft settles to itself without its holes, and nothing else of it changes.

* `Json.spread`, `Draft.spread`   a draft of its own for every item and member, also inside of values
* `Draft.HasHole`    something is missing, at whatever depth
* `Draft.DropsOne`   one missing item, or one missing member, is left out
* `Draft.Drops`      any number of them, one after the other
* `Draft.settle_spread`        settling does not see how far a draft is spread
* `Draft.DropsOne.settle_eq`, `Draft.Drops.settle_eq`   nor does it see a hole that is dropped
* `Draft.drops_of_settle`      a draft drops its holes until it is what it settles to
* `Draft.drops_spread_iff`     and that is the only value that it comes to
* `Draft.spread_of_settle`     a draft without holes is what it settles to

The value that a draft settles to is compared with the draft once both are spread, since a list can be a value
as well as a list of drafts.
-/

namespace EventRouting

/-! ## spread drafts -/

namespace Json

mutual

/-- The draft of a value, with a draft of its own for each item and each member. -/
def spread : Json → Draft
  | .arr vs => .list (spreadItems vs)
  | .obj members => .object (spreadMembers members)
  | scalar => .value scalar

def spreadItems : List Json → List Draft
  | [] => []
  | v :: rest => spread v :: spreadItems rest

def spreadMembers : List (String × Json) → List (String × Draft)
  | [] => []
  | (k, v) :: rest => (k, spread v) :: spreadMembers rest

end

theorem spread_arr (vs : List Json) : (Json.arr vs).spread = .list (vs.map spread) := by
  rw [spread]
  congr 1
  induction vs with
  | nil => rfl
  | cons v rest ih => rw [spreadItems, ih, List.map_cons]

theorem spread_obj (members : Members Json) :
    (Json.obj members).spread = .object (members.map fun m => (m.1, m.2.spread)) := by
  rw [spread]
  congr 1
  induction members with
  | nil => rfl
  | cons m rest ih =>
    obtain ⟨k, v⟩ := m
    rw [spreadMembers, ih, List.map_cons]

end Json

namespace Draft

mutual

/-- The draft with a draft of its own for each item and each member of the values in it. -/
def spread : Draft → Draft
  | absent => .absent
  | value v => v.spread
  | list items => .list (spreadItems items)
  | object members => .object (spreadMembers members)

def spreadItems : List Draft → List Draft
  | [] => []
  | d :: rest => spread d :: spreadItems rest

def spreadMembers : List (String × Draft) → List (String × Draft)
  | [] => []
  | (k, d) :: rest => (k, spread d) :: spreadMembers rest

end

theorem spread_list (items : List Draft) : (list items).spread = .list (items.map spread) := by
  rw [spread]
  congr 1
  induction items with
  | nil => rfl
  | cons d rest ih => rw [spreadItems, ih, List.map_cons]

theorem spread_object (members : Members Draft) :
    (object members).spread = .object (members.map fun m => (m.1, m.2.spread)) := by
  rw [spread]
  congr 1
  induction members with
  | nil => rfl
  | cons m rest ih =>
    obtain ⟨k, d⟩ := m
    rw [spreadMembers, ih, List.map_cons]

/-- Induction on a draft, with the hypothesis on every item of a list and every member of an object. -/
@[elab_as_elim]
theorem induct {p : Draft → Prop} (d : Draft) (absent : p .absent) (value : ∀ v, p (.value v))
    (list : ∀ items, (∀ d ∈ items, p d) → p (.list items))
    (object : ∀ members, (∀ m ∈ members, p m.2) → p (.object members)) : p d :=
  match d with
  | .absent => absent
  | .value v => value v
  | .list items => list items fun d _ => induct d absent value list object
  | .object members => object members fun m _ => induct m.2 absent value list object
termination_by sizeOf d
decreasing_by
  · have := List.sizeOf_lt_of_mem ‹d ∈ items›
    simp only [Draft.list.sizeOf_spec]
    omega
  · obtain ⟨k, d⟩ := m
    have := List.sizeOf_lt_of_mem ‹(k, d) ∈ members›
    simp only [Draft.object.sizeOf_spec, Prod.mk.sizeOf_spec] at this ⊢
    omega

end Draft

/-! ## settling a spread draft -/

theorem Draft.settleItems_map {α : Type} (f : α → Draft) (xs : List α) :
    settleItems (xs.map f) = xs.filterMap fun x => (f x).settle := by
  rw [settleItems_eq, List.filterMap_map]
  rfl

theorem Draft.settleMembers_map {α : Type} (f : α → Draft) (ms : Members α) :
    settleMembers (ms.map fun m => (m.1, f m.2)) = ms.filterMap fun m => (f m.2).settle.map fun v => (m.1, v) := by
  rw [settleMembers_eq, List.filterMap_map]
  rfl

theorem Json.settle_spread (v : Json) : v.spread.settle = some v := by
  induction v using Json.induct with
  | null | bool b | num n | str s => rfl
  | arr vs ih =>
    rw [spread_arr, Draft.settle, Draft.settleItems_map, List.filterMap_congr ih, List.filterMap_some]
  | obj members ih =>
    have same : ∀ m ∈ members, (m.2.spread.settle.map fun v => (m.1, v)) = some m := fun m hm => by
      rw [ih m hm]
      rfl
    rw [spread_obj, Draft.settle, Draft.settleMembers_map, List.filterMap_congr same, List.filterMap_some]

namespace Draft

theorem settle_spread (d : Draft) : d.spread.settle = d.settle := by
  induction d using Draft.induct with
  | absent => rfl
  | value v => exact v.settle_spread
  | list items ih => rw [spread_list, settle, settle, settleItems_map, List.filterMap_congr ih, settleItems_eq]
  | object members ih =>
    have same : ∀ m ∈ members, (m.2.spread.settle.map fun v => (m.1, v)) = m.2.settle.map fun v => (m.1, v) :=
      fun m hm => by rw [ih m hm]
    rw [spread_object, settle, settle, settleMembers_map, List.filterMap_congr same, settleMembers_eq]

/-! ## holes -/

/-- Something in the draft is missing, at whatever depth. -/
inductive HasHole : Draft → Prop where
  | absent : HasHole .absent
  | item {items : List Draft} {d : Draft} (hd : d ∈ items) (h : HasHole d) : HasHole (.list items)
  | member {members : Members Draft} {k : String} {d : Draft} (hd : (k, d) ∈ members) (h : HasHole d) :
      HasHole (.object members)

theorem hasHole_list_iff (items : List Draft) : (list items).HasHole ↔ ∃ d ∈ items, d.HasHole := by
  constructor
  · intro h
    cases h with
    | item hd h => exact ⟨_, hd, h⟩
  · rintro ⟨d, hd, h⟩
    exact .item hd h

theorem hasHole_object_iff (members : Members Draft) :
    (object members).HasHole ↔ ∃ m ∈ members, m.2.HasHole := by
  constructor
  · intro h
    cases h with
    | member hd h => exact ⟨_, hd, h⟩
  · rintro ⟨m, hm, h⟩
    exact .member hm h

end Draft

theorem Json.not_hasHole_spread (v : Json) : ¬ v.spread.HasHole := by
  induction v using Json.induct with
  | null | bool b | num n | str s => rintro ⟨⟩
  | arr vs ih =>
    rw [spread_arr, Draft.hasHole_list_iff]
    rintro ⟨d, hd, h⟩
    obtain ⟨v, hv, rfl⟩ := List.mem_map.mp hd
    exact ih v hv h
  | obj members ih =>
    rw [spread_obj, Draft.hasHole_object_iff]
    rintro ⟨n, hn, h⟩
    obtain ⟨m, hm, rfl⟩ := List.mem_map.mp hn
    exact ih m hm h

namespace Draft

theorem hasHole_of_spread {d : Draft} (h : d.spread.HasHole) : d.HasHole := by
  induction d using Draft.induct with
  | absent => exact .absent
  | value v => exact absurd h v.not_hasHole_spread
  | list items ih =>
    rw [spread_list, hasHole_list_iff] at h
    obtain ⟨e, he, h⟩ := h
    obtain ⟨d, hd, rfl⟩ := List.mem_map.mp he
    exact .item hd (ih d hd h)
  | object members ih =>
    rw [spread_object, hasHole_object_iff] at h
    obtain ⟨n, hn, h⟩ := h
    obtain ⟨m, hm, rfl⟩ := List.mem_map.mp hn
    exact .member hm (ih m hm h)

/-! ## dropping what is missing -/

/-- `DropsOne d e`: `e` is `d` without one missing item, or without one missing member, at whatever depth; all
else is as it was and where it was -/
inductive DropsOne : Draft → Draft → Prop where
  | item (before after : List Draft) : DropsOne (.list (before ++ .absent :: after)) (.list (before ++ after))
  | member (before after : Members Draft) (k : String) :
      DropsOne (.object (before ++ (k, .absent) :: after)) (.object (before ++ after))
  | inItem (before after : List Draft) {d e : Draft} (h : DropsOne d e) :
      DropsOne (.list (before ++ d :: after)) (.list (before ++ e :: after))
  | inMember (before after : Members Draft) (k : String) {d e : Draft} (h : DropsOne d e) :
      DropsOne (.object (before ++ (k, d) :: after)) (.object (before ++ (k, e) :: after))

/-- `Drops d e`: `e` is `d` without any number of missing items and missing members -/
def Drops : Draft → Draft → Prop := Relation.ReflTransGen DropsOne

variable {d e : Draft}

/-- **One step** does not change what a draft settles to. -/
theorem DropsOne.settle_eq (h : DropsOne d e) : e.settle = d.settle := by
  induction h with
  | item before after => simp [settle, settleItems_eq, List.filterMap_cons]
  | member before after k => simp [settle, settleMembers_eq, List.filterMap_cons]
  | inItem before after h ih => simp [settle, settleItems_eq, List.filterMap_cons, ih]
  | inMember before after k h ih => simp [settle, settleMembers_eq, List.filterMap_cons, ih]

theorem DropsOne.hasHole (h : DropsOne d e) : d.HasHole := by
  induction h with
  | item before after => exact .item (List.mem_append_cons_self ..) .absent
  | member before after k => exact .member (List.mem_append_cons_self ..) .absent
  | inItem before after h ih => exact .item (List.mem_append_cons_self ..) ih
  | inMember before after k h ih => exact .member (List.mem_append_cons_self ..) ih

/-- **A whole run** does not change what a draft settles to. -/
theorem Drops.settle_eq (h : Drops d e) : e.settle = d.settle := by
  induction h with
  | refl => rfl
  | tail _ step ih => rw [step.settle_eq, ih]

theorem Drops.eq_of_not_hasHole (h : Drops d e) (whole : ¬ d.HasHole) : e = d := by
  rcases Relation.ReflTransGen.cases_head h with rfl | ⟨_, step, _⟩
  · rfl
  · exact absurd step.hasHole whole

theorem Drops.item (before after : List Draft) (h : Drops d e) :
    Drops (.list (before ++ d :: after)) (.list (before ++ e :: after)) :=
  Relation.ReflTransGen.lift (fun x => list (before ++ x :: after)) (fun _ _ => .inItem before after) _ _ h

theorem Drops.member (before after : Members Draft) (k : String) (h : Drops d e) :
    Drops (.object (before ++ (k, d) :: after)) (.object (before ++ (k, e) :: after)) :=
  Relation.ReflTransGen.lift (fun x => object (before ++ (k, x) :: after)) (fun _ _ => .inMember before after k) _ _ h

/-- Parts that are gone are dropped and the others made into what they come to, one part after the other.  The
draft `wrap` is put together of the parts, those `before` being done. -/
theorem drops_of_kept {α β γ : Type} {gone : α → Prop} {made : α → β → Prop} (wrap : List γ → Draft) (f : α → γ)
    (g : β → γ) (drop : ∀ before x after, gone x → DropsOne (wrap (before ++ f x :: after)) (wrap (before ++ after)))
    (inside : ∀ before x y after, made x y → Drops (wrap (before ++ f x :: after)) (wrap (before ++ g y :: after)))
    {xs : List α} {ys : List β} (h : Template.Kept gone made xs ys) (before : List γ) :
    Drops (wrap (before ++ xs.map f)) (wrap (before ++ ys.map g)) := by
  induction h generalizing before with
  | nil => exact .refl
  | @drop x xs ys hx _ ih => exact .head (drop before x (xs.map f) hx) (ih before)
  | @keep x y xs ys _ hy _ ih =>
    have rest := ih (before ++ [g y])
    rw [List.append_assoc, List.append_assoc] at rest
    exact (inside before x y (xs.map f) hy).trans rest

/-- **Its holes dropped**, a draft is what it settles to. -/
theorem drops_of_settle {v : Json} (h : d.settle = some v) : Drops d.spread v.spread := by
  induction d using Draft.induct generalizing v with
  | absent => cases h
  | value w =>
    cases h
    exact .refl
  | list items ih =>
    cases h
    -- gone are the holes themselves; what the other items come to is the hypothesis
    have kept : Template.Kept (fun d => d = .absent) (fun d v => Drops d.spread v.spread) items
        (items.filterMap settle) := by
      refine Template.Kept.of_filterMap (List.forall₂_same.mpr fun d hd => ⟨?_, fun v hv => ih d hd hv⟩)
      exact d.settle_eq_none_iff.symm
    rw [spread_list, settleItems_eq, Json.spread_arr]
    refine drops_of_kept .list spread Json.spread ?_ ?_ kept []
    · rintro before _ after rfl
      exact .item before after
    · exact fun before d v after => Drops.item before after
  | object members ih =>
    cases h
    have kept : Template.Kept (fun m => m.2 = .absent) (fun m n => n.1 = m.1 ∧ Drops m.2.spread n.2.spread) members
        (members.filterMap fun m => m.2.settle.map fun v => (m.1, v)) := by
      refine Template.Kept.of_filterMap (List.forall₂_same.mpr fun m hm => ⟨?_, fun n hn => ?_⟩)
      · rw [Option.map_eq_none_iff, settle_eq_none_iff]
      · obtain ⟨v, hv, rfl⟩ := Option.map_eq_some_iff.mp hn
        exact ⟨rfl, ih m hm hv⟩
    rw [spread_object, settleMembers_eq, Json.spread_obj]
    refine drops_of_kept .object (fun m => (m.1, m.2.spread)) (fun n => (n.1, n.2.spread)) ?_ ?_ kept []
    · rintro before ⟨k, _⟩ after rfl
      exact .member before after k
    · rintro before ⟨k, d⟩ ⟨_, v⟩ after ⟨rfl, h⟩
      exact Drops.member before after _ h

/-- What a draft comes to when it has dropped its holes is what it settles to. -/
theorem drops_spread_iff (d : Draft) (v : Json) : Drops d.spread v.spread ↔ d.settle = some v := by
  refine ⟨fun h => ?_, drops_of_settle⟩
  rw [← d.settle_spread, ← h.settle_eq, v.settle_spread]

theorem spread_of_settle {v : Json} (whole : ¬ d.HasHole) (h : d.settle = some v) : v.spread = d.spread :=
  (drops_of_settle h).eq_of_not_hasHole fun hole => whole (hasHole_of_spread hole)

theorem exists_settle (there : d ≠ .absent) : ∃ v, d.settle = some v := by
  rw [← Option.ne_none_iff_exists']
  exact fun h => there (d.settle_eq_none_iff.mp h)

end Draft

end EventRouting
