import EventRouting.Proofs.Template.Settling

/-!
# Templates that stay as they are

A value without the name of a directive in it is a template of itself, from every root.

* `Json.Mentions`      an object in a value has a member of a name, at whatever depth
* `Template.Plain`     no name in a value starts like that of a directive
* `Template.sound_of_plain`, `Template.not_vanishes_of_plain`   such a value is a sound template, and there is
  always something that it resolves to
* `Template.transform_plain`, `Template.transform_literal`   plain values and literals are transformed into themselves
* `Template.transform_fixed`   this, and what settling leaves out of a draft
-/

namespace EventRouting

/-- `v.Mentions name`: an object in the value, at whatever depth, has a member of that name -/
inductive Json.Mentions : Json → String → Prop where
  | here {members : Members Json} {name : String} (h : name ∈ members.names) : Mentions (.obj members) name
  | item {vs : List Json} {v : Json} {name : String} (hv : v ∈ vs) (h : Mentions v name) : Mentions (.arr vs) name
  | member {members : Members Json} {m : String × Json} {name : String} (hm : m ∈ members)
      (h : Mentions m.2 name) : Mentions (.obj members) name

namespace Template

/-- no name in the value, at whatever depth, starts like that of a directive -/
def Plain (v : Json) : Prop := ∀ name, v.Mentions name → isDirectiveName name = false

/-! ## plain values -/

theorem plain_arr_iff (vs : List Json) : Plain (.arr vs) ↔ ∀ v ∈ vs, Plain v := by
  refine ⟨fun plain v hv name h => plain name (.item hv h), fun all name h => ?_⟩
  cases h with
  | item hv h => exact all _ hv name h

theorem plain_obj_iff (members : Members Json) :
    Plain (.obj members) ↔
      (∀ name ∈ members.names, isDirectiveName name = false) ∧ ∀ m ∈ members, Plain m.2 := by
  refine ⟨fun plain => ⟨fun name h => plain name (.here h), fun m hm name h => plain name (.member hm h)⟩, ?_⟩
  rintro ⟨names, all⟩ name h
  cases h with
  | here h => exact names name h
  | member hm h => exact all _ hm name h

theorem not_plain_directive (d : Directive) (argument : Json) : ¬ Plain (.obj [(d.name, argument)]) := by
  intro plain
  have other := plain d.name (.here (List.mem_singleton.mpr rfl))
  rw [isDirectiveName_name] at other
  cases other

/-- Nothing in a plain value is a directive, and so nothing is a malformed one. -/
theorem sound_of_plain {v : Json} (plain : Plain v) : ¬ Faulty v := by
  induction v using Json.induct with
  | null | bool b | num n | str s =>
    rw [faulty_iff]
    rintro (⟨_, ⟨⟩, _⟩ | ⟨_, ⟨⟩, _⟩)
  | arr vs ih =>
    rw [faulty_arr_iff]
    rintro ⟨v, hv, bad⟩
    exact ih v hv ((plain_arr_iff vs).mp plain v hv) bad
  | obj members ih =>
    obtain ⟨names, all⟩ := (plain_obj_iff members).mp plain
    rw [faulty_obj_iff names]
    rintro ⟨m, hm, bad⟩
    exact ih m hm (all m hm) bad

variable {root : Json}

theorem not_vanishes_of_plain {v : Json} (plain : Plain v) : ¬ Vanishes root v := by
  intro gone
  cases gone with
  | path => exact not_plain_directive .path _ plain
  | items => exact not_plain_directive .items _ plain
  | missing | branch => exact not_plain_directive .choice _ plain
  | default | defaultNull => exact not_plain_directive .default _ plain

/-! ## what stays as it is -/

theorem Kept.eq_self {α : Type} {gone : α → Prop} {made : α → α → Prop} {xs ys : List α}
    (h : Kept gone made xs ys) (there : ∀ x ∈ xs, ¬ gone x) (same : ∀ x ∈ xs, ∀ y, made x y → y = x) :
    ys = xs := by
  induction h with
  | nil => rfl
  | drop hx => exact absurd hx (there _ (List.mem_cons_self ..))
  | keep _ hy _ ih =>
    rw [same _ (List.mem_cons_self ..) _ hy, ih (fun x hx => there x (List.mem_cons_of_mem _ hx))
      fun x hx => same x (List.mem_cons_of_mem _ hx)]

/-- **A plain value** is a template of itself. -/
theorem transform_plain {v : Json} (plain : Plain v) (root : Json) : v.transform root = .ok v := by
  induction v using Json.induct with
  | null | bool b | num n | str s =>
    refine transform_of_walk (d := .value _) (sound_of_plain plain) ?_
    rw [walk]
    rfl
  | arr vs ih =>
    have all := (plain_arr_iff vs).mp plain
    obtain ⟨made, hm, kept⟩ := transform_arr (sound_of_plain plain) root
    have stays : made = vs := kept.eq_self (fun v hv => not_vanishes_of_plain (all v hv)) fun v hv w hw => by
      rw [ih v hv (all v hv)] at hw
      exact (Except.ok.inj hw).symm
    rw [hm, stays]
  | obj members ih =>
    obtain ⟨names, all⟩ := (plain_obj_iff members).mp plain
    obtain ⟨made, hm, kept⟩ := transform_obj names (sound_of_plain plain) root
    have stays : made = members := kept.eq_self (fun m hm => not_vanishes_of_plain (all m hm)) fun m hm n hn => by
      obtain ⟨name, value⟩ := hn
      rw [ih m hm (all m hm)] at value
      exact Prod.ext name (Except.ok.inj value).symm
    rw [hm, stays]

/-- **A literal** is transformed into its argument, whatever names that has. -/
theorem transform_literal (w root : Json) : (Json.obj [("@literal", w)]).transform root = .ok w := by
  have sound : ¬ Faulty (.obj [("@literal", w)]) := by
    refine (sound_directive_iff .literal w).mpr ⟨.literal w, fun v hu => ?_⟩
    cases hu
  have walked : walkDirective .literal w root = .ok (.value w) := by rw [walkDirective]
  exact transform_of_walk sound (walk_directive walked)

/-- **Settling is exact, and plain templates are fixed.**  A draft that is not missing itself settles to a
value that has no hole at any depth and settles to itself again.  A draft without holes is that value already.
In any case the value is the one that a draft comes to when its missing items and members are left out and all
else stays in its order.  So a value without the name of a directive is transformed into itself from every root,
a literal into its argument, and what a template is transformed into stays as it is from every other root, if
there is no name of a directive in it. -/
theorem transform_fixed :
    (∀ d : Draft, d ≠ .absent → ∃ v : Json, d.settle = some v ∧ ¬ v.spread.HasHole ∧ v.spread.settle = some v ∧
      (¬ d.HasHole → v.spread = d.spread) ∧ ∀ w : Json, Draft.Drops d.spread w.spread ↔ w = v) ∧
    (∀ v root : Json, Plain v → v.transform root = .ok v) ∧
    (∀ w root : Json, (Json.obj [("@literal", w)]).transform root = .ok w) ∧
    ∀ template root v other : Json, template.transform root = .ok v → Plain v → v.transform other = .ok v := by
  refine ⟨fun d there => ?_, fun v root plain => transform_plain plain root, transform_literal,
    fun _ _ v other _ plain => transform_plain plain other⟩
  obtain ⟨v, hv⟩ := Draft.exists_settle there
  refine ⟨v, hv, v.not_hasHole_spread, v.settle_spread, fun whole => Draft.spread_of_settle whole hv, fun w => ?_⟩
  rw [Draft.drops_spread_iff, hv, Option.some_inj, eq_comm]

/-- A missing item and a missing member further inside, and a null that stays. -/
theorem transform_fixed_missingInside :
    let d : Draft := .list [.absent, .object [("name", .absent), ("plan", .value .null)]]
    let whole : Draft := .object [("plan", .value .null)]
    let template : Json := .arr [.obj [("@path", .str "$.user")],
      .obj [("name", .obj [("@path", .str "$.name")]), ("plan", .null)]]
    let plan : Json := .obj [("plan", .null)]
    (d ≠ .absent ∧ ¬ whole.HasHole ∧ template.transform (.obj []) = .ok (.arr [plan]) ∧ Plain (.arr [plan])) ∧
      d.settle = some (.arr [plan]) ∧ Draft.Drops d.spread (Json.arr [plan]).spread ∧ plan.spread = whole.spread ∧
      (Json.arr [plan]).transform (.str "other") = .ok (.arr [plan]) := by
  intro d whole template plan
  have there : d ≠ .absent := by simp [d]
  have wholeThere : whole ≠ .absent := by simp [whole]
  have noHole : ¬ whole.HasHole := by
    rw [Draft.hasHole_object_iff]
    rintro ⟨m, hm, h⟩
    obtain rfl := List.mem_singleton.mp hm
    cases h
  have made : template.transform (.obj []) = .ok (.arr [plan]) := by cbv
  have plain : Plain (.arr [plan]) := by
    rw [plain_arr_iff, List.forall_mem_singleton, plain_obj_iff, List.forall_mem_singleton]
    refine ⟨by decide, fun name h => ?_⟩
    cases h
  obtain ⟨exact, _, _, again⟩ := transform_fixed
  obtain ⟨v, hv, _, _, _, drops⟩ := exact d there
  obtain ⟨w, hw, _, _, same, _⟩ := exact whole wholeThere
  have settled : d.settle = some (.arr [plan]) := rfl
  have wholeSettled : whole.settle = some plan := rfl
  obtain rfl : v = .arr [plan] := Option.some.inj (hv.symm.trans settled)
  obtain rfl : w = plan := Option.some.inj (hw.symm.trans wholeSettled)
  exact ⟨⟨there, noHole, made, plain⟩, settled, (drops _).mpr rfl, same noHole, again _ _ _ _ made plain⟩

end Template

end EventRouting
