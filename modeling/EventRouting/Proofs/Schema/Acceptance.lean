import EventRouting.Schema.Basic

/-!
# What schemas accept

A schema accepts what breaks none of its rules, told rule by rule.

* `Schema.violations_every`, `Schema.violations_type` and the others of their kind
                               what each rule reports
* `Schema.check_eq_nil_iff`      a check reports nothing where nothing is broken
* `Schema.accepts_every_iff`     several rules at once
* `Schema.accepts_type_iff`, `Schema.accepts_items_iff`   rules for every value
* `Schema.accepts_required_iff`, `Schema.accepts_properties_iff`, `Schema.accepts_noOthers_iff`,
  `Schema.accepts_others_iff`    rules for the members of an object
-/

namespace EventRouting.Schema

/-! ## what each rule reports -/

theorem violations_every (parts : List Schema) (v : Json) :
    (every parts).violations v = (parts.map fun s => s.violations v).flatten :=
  congrArg List.flatten (reports_eq parts v)

theorem violations_type (types : List ValueType) (v : Json) :
    (type types).violations v = typeViolations types v := rfl

theorem violations_items_arr (schema : Schema) (vs : List Json) :
    (items schema).violations (.arr vs) =
      (vs.mapIdx fun i w => descend (.index i) schema (schema.violations w)).flatten := rfl

theorem violations_required (keys : List String) (v : Json) :
    (required keys).violations v = requiredViolations keys v := rfl

theorem violations_properties_obj (schemas : List (String × Schema)) (members : Members Json) :
    (properties schemas).violations (.obj members) =
      schemas.flatMap fun p =>
        ((members.get? p.1).map fun v => descend (.name p.1) p.2 (p.2.violations v)).getD [] := by
  induction schemas with
  | nil => rfl
  | cons p rest ih =>
    refine congr (congrArg (· ++ ·) ?_) ih
    dsimp only
    cases members.get? p.1 <;> rfl

theorem violations_noOthers (names : List String) (v : Json) :
    (noOthers names).violations v = noOthersViolations names v := rfl

theorem violations_others (names : List String) (schema : Schema) (v : Json) :
    (others names schema).violations v =
      (otherMembers names v).flatMap fun m => descend (.name m.1) schema (schema.violations m.2) := rfl

/-! ## what is accepted -/

theorem accepts_iff (s : Schema) (v : Json) : s.accepts v = true ↔ s.violations v = [] := List.isEmpty_iff

/-- Violations are put in order, and none is lost or added. -/
theorem check_eq_nil_iff (s : Schema) (v : Json) : s.check v = [] ↔ s.accepts v = true := by
  rw [accepts_iff]
  unfold check Violation.inOrder
  constructor
  · intro h
    have perm := List.mergeSort_perm (s.violations v) Violation.le
    rw [h] at perm
    exact perm.nil_eq.symm
  · intro h
    rw [h, List.mergeSort_nil]

theorem here_ne_nil (rule message : String) : here rule message ≠ [] := List.cons_ne_nil _ _

theorem descend_eq_nil_iff (s : Segment) (schema : Schema) (vs : List Violation) :
    descend s schema vs = [] ↔ vs = [] := by
  unfold descend
  split
  · rfl
  · exact List.map_eq_nil_iff

/-! ## rules for every value -/

theorem accepts_every_iff (parts : List Schema) (v : Json) :
    (every parts).accepts v = true ↔ ∀ s ∈ parts, s.accepts v = true := by
  rw [accepts_iff, violations_every, List.flatten_eq_nil_iff, List.forall_mem_map]
  exact forall₂_congr fun s _ => (s.accepts_iff v).symm

theorem accepts_type_iff (types : List ValueType) (v : Json) :
    (type types).accepts v = true ↔ ∃ t ∈ types, t.has v = true := by
  rw [accepts_iff, violations_type, ← List.any_eq_true]
  unfold typeViolations
  split
  · next h => exact iff_of_true rfl h
  · next h => exact iff_of_false (here_ne_nil _ _) h

theorem accepts_items_iff (schema : Schema) (v : Json) :
    (items schema).accepts v = true ↔ ∀ vs, v = .arr vs → ∀ w ∈ vs, schema.accepts w = true := by
  rw [accepts_iff]
  cases v with
  | arr vs =>
    have each : (items schema).violations (.arr vs) = [] ↔ ∀ w ∈ vs, schema.accepts w = true := by
      rw [violations_items_arr, List.flatten_eq_nil_iff]
      refine ⟨fun h w hw => ?_, fun h l hl => ?_⟩
      · obtain ⟨i, hi, rfl⟩ := List.getElem_of_mem hw
        exact (accepts_iff ..).mpr ((descend_eq_nil_iff ..).mp (h _ (List.mem_mapIdx.mpr ⟨i, hi, rfl⟩)))
      · obtain ⟨i, hi, rfl⟩ := List.mem_mapIdx.mp hl
        exact (descend_eq_nil_iff ..).mpr ((accepts_iff ..).mp (h _ (List.getElem_mem hi)))
    rw [each]
    exact ⟨fun h vs' hv => Json.arr.inj hv ▸ h, fun h => h vs rfl⟩
  | null | bool | num | str | obj => exact iff_of_true rfl nofun

/-! ## rules for the members of an object -/

theorem accepts_required_iff (keys : List String) (members : Members Json) :
    (required keys).accepts (.obj members) = true ↔ ∀ k ∈ keys, members.contains k = true := by
  rw [accepts_iff, violations_required, requiredViolations, List.flatMap_eq_nil_iff]
  refine ⟨fun h k hk => ?_, fun h k hk => ?_⟩
  · refine Classical.byContradiction fun hn => ?_
    exact here_ne_nil _ _ (h k (List.mem_filter.mpr ⟨hk, by simp [hn]⟩))
  · obtain ⟨hk, hn⟩ := List.mem_filter.mp hk
    rw [h k hk] at hn
    cases hn

theorem accepts_properties_iff (schemas : List (String × Schema)) (members : Members Json) :
    (properties schemas).accepts (.obj members) = true ↔
      ∀ p ∈ schemas, ∀ v, members.get? p.1 = some v → p.2.accepts v = true := by
  rw [accepts_iff, violations_properties_obj, List.flatMap_eq_nil_iff]
  refine forall₂_congr fun p _ => ?_
  cases members.get? p.1 with
  | none => exact iff_of_true rfl nofun
  | some v =>
    have answered : descend (.name p.1) p.2 (p.2.violations v) = [] ↔ p.2.accepts v = true :=
      (descend_eq_nil_iff ..).trans (accepts_iff ..).symm
    exact answered.trans ⟨fun h w hw => Option.some.inj hw ▸ h, fun h => h v rfl⟩

theorem mem_otherMembers_iff (names : List String) (members : Members Json) (m : String × Json) :
    m ∈ otherMembers names (.obj members) ↔ m ∈ members ∧ m.1 ∉ names := by
  unfold otherMembers Members.without
  rw [List.mem_filter]
  simp

theorem accepts_noOthers_iff (names : List String) (members : Members Json) :
    (noOthers names).accepts (.obj members) = true ↔ ∀ k ∈ members.names, k ∈ names := by
  have sorted : ((otherMembers names (.obj members)).names.mergeSort fun a b => decide (a ≤ b)) = [] ↔
      otherMembers names (.obj members) = [] := by
    rw [← List.length_eq_zero_iff, List.length_mergeSort, List.length_eq_zero_iff]
    exact List.map_eq_nil_iff
  have reported : noOthersViolations names (.obj members) = [] ↔ otherMembers names (.obj members) = [] := by
    rw [← sorted]
    unfold noOthersViolations
    dsimp only
    split
    · next h => exact iff_of_true rfl (List.isEmpty_iff.mp h)
    · next h => exact iff_of_false (here_ne_nil _ _) fun hn => h (List.isEmpty_iff.mpr hn)
  rw [accepts_iff, violations_noOthers, reported, List.eq_nil_iff_forall_not_mem]
  refine ⟨fun h k hk => Classical.byContradiction fun hn => ?_, fun h m hm => ?_⟩
  · obtain ⟨m, hm, rfl⟩ := List.mem_map.mp hk
    exact h m ((mem_otherMembers_iff ..).mpr ⟨hm, hn⟩)
  · obtain ⟨hm, hn⟩ := (mem_otherMembers_iff ..).mp hm
    exact hn (h m.1 (List.mem_map.mpr ⟨m, hm, rfl⟩))

theorem accepts_others_iff (names : List String) (schema : Schema) (members : Members Json) :
    (others names schema).accepts (.obj members) = true ↔
      ∀ m ∈ members, m.1 ∉ names → schema.accepts m.2 = true := by
  rw [accepts_iff, violations_others, List.flatMap_eq_nil_iff]
  refine ⟨fun h m hm hn => ?_, fun h m hm => ?_⟩
  · have := h m ((mem_otherMembers_iff ..).mpr ⟨hm, hn⟩)
    exact (accepts_iff ..).mpr ((descend_eq_nil_iff ..).mp this)
  · obtain ⟨hm, hn⟩ := (mem_otherMembers_iff ..).mp hm
    exact (descend_eq_nil_iff ..).mpr ((accepts_iff ..).mp (h m hm hn))

end EventRouting.Schema
