import EventRouting.Proofs.Template.Validity

/-!
# What a template looks up in its root

A template reads no more of a root than what its references name.

* `Template.OfRoot`     the parts of a template that look into the root, those outside item templates
* `Template.Looks`      the paths that a directive itself looks up
* `Template.RootReference`   the paths that a template looks up in its root
* `Template.Agree`      two roots have the same at every path that is looked up
* `Template.walkDirective_agree`, `Template.walk_agree`   a walk does not tell such roots apart
* `Template.transform_references`   nor does a transform
-/

namespace EventRouting.Template

/-- `OfRoot part v`: the part stands in the template `v`, and in no item template -/
inductive OfRoot : Json → Json → Prop where
  | here (v : Json) : OfRoot v v
  | deeper {part v w : Json} (h : Child w v) (outside : ∀ argument, w ≠ .obj [("@arrayPath", argument)])
      (rest : OfRoot part v) : OfRoot part w

/-- the paths that a directive itself looks up -/
inductive Looks : Json → Path → Prop where
  | path {s : String} {p : Path} (h : Path.ofReference? s = some p) : Looks (.obj [("@path", .str s)]) p
  | items {s : String} {p : Path} {rest : List Json} (h : Path.ofReference? s = some p) :
      Looks (.obj [("@arrayPath", .arr (.str s :: rest))]) p
  | text {s : String} {p : Path} (h : Piece.reference p ∈ pieces s.toList) :
      Looks (.obj [("@template", .str s)]) p

/-- a path that a template looks up in its root -/
def RootReference (v : Json) (p : Path) : Prop := ∃ part, OfRoot part v ∧ Looks part p

/-- Two roots have the same value, or none, at every path that a template looks up. -/
def Agree (root other v : Json) : Prop := ∀ p, RootReference v p → root.lookup p = other.lookup p

/-! ## parts -/

theorem Looks.reference {v : Json} {p : Path} (h : Looks v p) : RootReference v p := ⟨v, OfRoot.here v, h⟩

theorem faulty_of_child {w v : Json} (h : Child w v) (hf : Faulty v) : Faulty w :=
  (faulty_iff w).mpr (.inr ⟨v, h, hf⟩)

/-- A sound object with the name of a directive is a directive and nothing else. -/
theorem directive_of_sound {members : Members Json} (sound : ¬ Faulty (.obj members))
    (named : ¬ ∀ name ∈ members.names, isDirectiveName name = false) :
    ∃ d argument, members = [(Directive.name d, argument)] ∧ Proper d argument := by
  obtain ⟨name, hn, hd⟩ : ∃ name ∈ members.names, isDirectiveName name = true := by
    simpa using named
  refine Classical.byContradiction fun other => ?_
  exact sound ((faulty_iff _).mpr (.inl ⟨members, rfl, ⟨name, hn, hd⟩, other⟩))

variable {root other : Json}

theorem Agree.child {w v : Json} (h : Agree root other w) (hc : Child w v)
    (outside : ∀ argument, w ≠ .obj [("@arrayPath", argument)]) : Agree root other v := by
  rintro p ⟨part, hp, hl⟩
  exact h p ⟨part, OfRoot.deeper hc outside hp, hl⟩

theorem Agree.item {vs : List Json} (h : Agree root other (.arr vs)) {v : Json} (hv : v ∈ vs) :
    Agree root other v :=
  h.child (Child.item hv) fun _ he => by cases he

theorem Agree.member {members : Members Json} (h : Agree root other (.obj members))
    (plain : ∀ name ∈ members.names, isDirectiveName name = false) {m : String × Json} (hm : m ∈ members) :
    Agree root other m.2 := by
  refine h.child (Child.member plain hm) fun argument he => ?_
  cases he
  have hname := plain "@arrayPath" (List.mem_singleton.mpr rfl)
  cases hname

theorem Agree.under {d : Directive} {argument v : Json} (h : Agree root other (.obj [(d.name, argument)]))
    (hd : d ≠ .items) (hu : Under d argument v) : Agree root other v := by
  refine h.child (Child.argument hu) fun a he => hd (name_inj ?_)
  simp only [Json.obj.injEq, List.cons.injEq, Prod.mk.injEq, and_true] at he
  exact he.1

/-! ## the directives -/

/-- a bound below which walks are known not to tell two roots apart -/
def WalksBelow (root other : Json) (n : Nat) : Prop :=
  ∀ v, sizeOf v < n → ¬ Faulty v → Agree root other v → walk v root = walk v other

theorem itemsAt_agree {p : Path} (h : root.lookup p = other.lookup p) : itemsAt root p = itemsAt other p := by
  unfold itemsAt
  rw [h]

theorem interpolate_agree {parts : List Piece}
    (h : ∀ p, Piece.reference p ∈ parts → root.lookup p = other.lookup p) :
    interpolate root parts = interpolate other parts := by
  induction parts with
  | nil => rfl
  | cons piece rest ih =>
    have hrest := ih fun p hp => h p (List.mem_cons_of_mem _ hp)
    have hpiece : piece.render root = piece.render other := by
      cases piece with
      | text cs => rfl
      | reference p =>
        show render (root.lookup p) = render (other.lookup p)
        rw [h p (List.mem_cons_self ..)]
    unfold interpolate at hrest ⊢
    rw [List.flatMap_cons, List.flatMap_cons, hpiece, hrest]

section walks

variable {n : Nat} (ih : WalksBelow root other n)
include ih

theorem walkItems_agree {vs : List Json} (hn : sizeOf vs ≤ n) (sound : ∀ v ∈ vs, ¬ Faulty v)
    (h : ∀ v ∈ vs, Agree root other v) : walkItems vs root = walkItems vs other := by
  induction vs with
  | nil => rw [walkItems, walkItems]
  | cons v rest ihRest =>
    rw [List.cons.sizeOf_spec] at hn
    have hv := ih v (by omega) (sound v (List.mem_cons_self ..)) (h v (List.mem_cons_self ..))
    have hrest := ihRest (by omega) (fun w hw => sound w (List.mem_cons_of_mem _ hw))
      (fun w hw => h w (List.mem_cons_of_mem _ hw))
    rw [walkItems, walkItems, hv, hrest]

theorem walkMembers_agree {members : Members Json} (hn : sizeOf members ≤ n)
    (sound : ∀ m ∈ members, ¬ Faulty m.2) (h : ∀ m ∈ members, Agree root other m.2) :
    walkMembers members root = walkMembers members other := by
  induction members with
  | nil => rw [walkMembers, walkMembers]
  | cons m rest ihRest =>
    obtain ⟨k, v⟩ := m
    rw [List.cons.sizeOf_spec, Prod.mk.sizeOf_spec] at hn
    have hv := ih v (by omega) (sound (k, v) (List.mem_cons_self ..)) (h (k, v) (List.mem_cons_self ..))
    have hrest := ihRest (by omega) (fun w hw => sound w (List.mem_cons_of_mem _ hw))
      (fun w hw => h w (List.mem_cons_of_mem _ hw))
    rw [walkMembers, walkMembers, hv, hrest]

end walks

theorem Under.sizeOf_lt {d : Directive} {argument v : Json} (h : Under d argument v) :
    sizeOf v < sizeOf argument := by
  cases h with
  | choice _ h | default _ h =>
    have := Members.sizeOf_lt_of_get?_eq_some h
    simp only [Json.obj.sizeOf_spec]
    omega
  | merge h hv =>
    have h1 := Members.sizeOf_lt_of_get?_eq_some h
    have h2 := List.sizeOf_lt_of_mem hv
    simp only [Json.obj.sizeOf_spec, Json.arr.sizeOf_spec] at *
    omega
  | each =>
    simp only [Json.arr.sizeOf_spec, List.cons.sizeOf_spec, List.nil.sizeOf_spec]
    omega

theorem walk_agree_under {d : Directive} {argument v : Json} (ih : WalksBelow root other (sizeOf argument))
    (h : Agree root other (.obj [(d.name, argument)])) (sound : ∀ v, Under d argument v → ¬ Faulty v)
    (hd : d ≠ .items) (hu : Under d argument v) : walk v root = walk v other :=
  ih v hu.sizeOf_lt (sound v hu) (h.under hd hu)

theorem under_of_fetchQuestion {members : Members Json} {c : Condition} {subject : Json}
    (h : fetchQuestion members = .ok (c, subject)) : Under .choice (.obj members) subject := by
  unfold fetchQuestion fetch at h
  split at h
  · next hv =>
    cases h
    exact Under.choice (by decide) hv
  · cases hb : Members.get? members "blank" with
    | none =>
      rw [hb] at h
      cases h
    | some v =>
      rw [hb] at h
      cases h
      exact Under.choice (by decide) hb

section directives

variable {members : Members Json}

theorem choice_agree (ih : WalksBelow root other (sizeOf (Json.obj members)))
    (h : Agree root other (.obj [("@if", .obj members)]))
    (sound : ∀ v, Under .choice (.obj members) v → ¬ Faulty v) :
    walkDirective .choice (.obj members) root = walkDirective .choice (.obj members) other := by
  have part : ∀ {v}, Under .choice (.obj members) v → walk v root = walk v other :=
    walk_agree_under (d := .choice) ih h sound (by decide)
  have branch : ∀ k ∈ choiceNames,
      walkBranch (Members.get? members k) root = walkBranch (Members.get? members k) other := by
    intro k hk
    cases hv : Members.get? members k with
    | none => rfl
    | some v => exact part (Under.choice hk hv)
  rw [walkDirective_choice_eq, walkDirective_choice_eq]
  cases hq : fetchQuestion members with
  | error e => rfl
  | ok question =>
    obtain ⟨c, subject⟩ := question
    have hsubject : walk subject root = walk subject other := part (under_of_fetchQuestion hq)
    dsimp only
    rw [hsubject]
    cases walk subject other with
    | error e => rfl
    | ok draft =>
      dsimp only
      cases c.asks draft with
      | true => exact branch "then" (by decide)
      | false => exact branch "else" (by decide)

theorem default_agree (ih : WalksBelow root other (sizeOf (Json.obj members)))
    (h : Agree root other (.obj [("@default", .obj members)]))
    (sound : ∀ v, Under .default (.obj members) v → ¬ Faulty v)
    (names : members.names.Perm ["value", "fallback"]) :
    walkDirective .default (.obj members) root = walkDirective .default (.obj members) other := by
  obtain ⟨_, hv, hf⟩ := (names_perm_iff members).mp names
  obtain ⟨v, hv⟩ := (Members.mem_names_iff members _).mp hv
  obtain ⟨f, hf⟩ := (Members.mem_names_iff members _).mp hf
  have hvalue : walk v root = walk v other :=
    walk_agree_under (d := .default) ih h sound (by decide) (Under.default (by decide) hv)
  have hfallback : walk f root = walk f other :=
    walk_agree_under (d := .default) ih h sound (by decide) (Under.default (by decide) hf)
  rw [walkDirective_default_eq hv hf, walkDirective_default_eq hv hf, hvalue, hfallback]

theorem merge_agree (ih : WalksBelow root other (sizeOf (Json.obj members)))
    (h : Agree root other (.obj [("@merge", .obj members)]))
    (sound : ∀ v, Under .merge (.obj members) v → ¬ Faulty v) {objects : List Json}
    (ho : Members.get? members "objects" = some (.arr objects)) :
    walkDirective .merge (.obj members) root = walkDirective .merge (.obj members) other := by
  have hn : sizeOf objects ≤ sizeOf (Json.obj members) := by
    have := Members.sizeOf_lt_of_get?_eq_some ho
    simp only [Json.obj.sizeOf_spec, Json.arr.sizeOf_spec] at *
    omega
  have hitems := walkItems_agree ih hn (fun v hv => sound v (Under.merge ho hv))
    (fun v hv => h.under (d := .merge) (by decide) (Under.merge ho hv))
  rw [walkDirective_merge_eq ho, walkDirective_merge_eq ho, hitems]

end directives

/-- The items are the same for both roots, and an item template looks into the items only. -/
theorem items_agree {s : String} {rest : List Json}
    (h : Agree root other (.obj [("@arrayPath", .arr (.str s :: rest))])) :
    walkDirective .items (.arr (.str s :: rest)) root = walkDirective .items (.arr (.str s :: rest)) other := by
  rw [walkDirective, walkDirective]
  cases hp : Path.ofReference? s with
  | none => simp only [fetchPath, hp]
  | some p =>
    have hitems := itemsAt_agree (h p (Looks.items hp).reference)
    rw [fetchPath_eq_ok hp]
    dsimp only
    rw [hitems]

theorem path_agree {s : String} (h : Agree root other (.obj [("@path", .str s)])) :
    walkDirective .path (.str s) root = walkDirective .path (.str s) other := by
  rw [walkDirective, walkDirective]
  cases hp : Path.ofReference? s with
  | none => simp only [fetchPath, hp, Except.map]
  | some p =>
    have hlookup := h p (Looks.path hp).reference
    rw [fetchPath_eq_ok hp]
    show Except.ok (Draft.ofOption (root.lookup p)) = Except.ok (Draft.ofOption (other.lookup p))
    rw [hlookup]

theorem text_agree {s : String} (h : Agree root other (.obj [("@template", .str s)])) :
    walkDirective .text (.str s) root = walkDirective .text (.str s) other := by
  have htext := interpolate_agree fun p hp => h p (Looks.text hp).reference
  rw [walkDirective, walkDirective, htext]

theorem walkDirective_agree {d : Directive} {argument : Json} (proper : Proper d argument)
    (ih : WalksBelow root other (sizeOf argument)) (h : Agree root other (.obj [(d.name, argument)]))
    (sound : ∀ v, Under d argument v → ¬ Faulty v) :
    walkDirective d argument root = walkDirective d argument other := by
  cases proper with
  | path hs =>
    obtain ⟨s, rfl, _⟩ := hs
    exact path_agree h
  | literal v => rw [walkDirective, walkDirective]
  | text s => exact text_agree h
  | choice one names => exact choice_agree ih h sound
  | default names => exact default_agree ih h sound names
  | merge ho direction => exact merge_agree ih h sound ho
  | items hs | each hs =>
    obtain ⟨s, rfl, _⟩ := hs
    exact items_agree h

/-! ## templates -/

/-- **A walk does not tell two roots apart** that have the same at every reference of the template. -/
theorem walk_agree (v : Json) (sound : ¬ Faulty v) (h : Agree root other v) : walk v root = walk v other := by
  have ih : WalksBelow root other (sizeOf v) := fun w _ hw ha => walk_agree w hw ha
  cases v with
  | obj members =>
    by_cases plain : ∀ name ∈ Members.names members, isDirectiveName name = false
    · have hmembers := walkMembers_agree ih (by simp only [Json.obj.sizeOf_spec]; omega)
        (fun m hm hf => sound ((faulty_obj_iff plain).mpr ⟨m, hm, hf⟩)) (fun m hm => h.member plain hm)
      rw [walk_obj_eq plain, walk_obj_eq plain, hmembers]
    · obtain ⟨d, argument, rfl, proper⟩ := directive_of_sound sound plain
      have below : WalksBelow root other (sizeOf argument) := fun w hw =>
        ih w (by simp only [Json.obj.sizeOf_spec, List.cons.sizeOf_spec, Prod.mk.sizeOf_spec]; omega)
      have hdirective := walkDirective_agree proper below h
        (fun w hu hf => sound (faulty_of_child (Child.argument hu) hf))
      rw [walk_directive_eq, walk_directive_eq, hdirective]
  | arr vs =>
    have hitems := walkItems_agree ih (by simp only [Json.arr.sizeOf_spec]; omega)
      (fun w hw hf => sound ((faulty_arr_iff vs).mpr ⟨w, hw, hf⟩)) (fun w hw => h.item hw)
    rw [walk_arr_eq, walk_arr_eq, hitems]
  | null | bool | num | str =>
    rw [walk, walk]
    rfl
termination_by sizeOf v

/-- **A mapping reads only what it references.**  Two roots that have the same value, or none, at every
reference of a valid template outside its item templates are transformed into the same value. -/
theorem transform_references {template : Json} {t : Template} (valid : parse template = .ok t)
    (root other : Json) (same : ∀ p, RootReference template p → root.lookup p = other.lookup p) :
    ∃ v, template.transform root = .ok v ∧ template.transform other = .ok v := by
  have read := parseAt_justified "$" template
  rw [show parseAt "$" template = .ok t from valid] at read
  obtain ⟨stands, sound⟩ := read.good
  have hwalk := walk_agree template sound same
  rw [stands root, stands other] at hwalk
  have hdraft : t.resolve root = t.resolve other := Except.ok.inj hwalk
  have htransform : ∀ r, template.transform r = .ok (((t.resolve r).settle).getD .null) := by
    intro r
    unfold Json.transform
    rw [valid]
    rfl
  exact ⟨_, htransform root, by rw [htransform other, hdraft]⟩

/-- The item template names a member of the items, which the root may have as well. -/
theorem transform_references_items :
    let template : Json := .obj [("@arrayPath", .arr [.str "$.items", .obj [("@path", .str "$.sku")]])]
    let items : String × Json := ("items", .arr [.obj [("sku", .int 1)]])
    let root : Json := .obj [items, ("sku", .int 2)]
    let other : Json := .obj [("sku", .int 3), items, ("total", .int 4)]
    let t : Template := .each [.name "items"] (.path [.name "sku"])
    parse template = .ok t ∧ (∀ p, RootReference template p → root.lookup p = other.lookup p) ∧
      ∃ v, template.transform root = .ok v ∧ template.transform other = .ok v := by
  intro template items root other t
  have hitems : Path.ofReference? "$.items" = some [.name "items"] := by cbv
  have hsku : Path.ofReference? "$.sku" = some [.name "sku"] := by cbv
  have valid : parse template = .ok t :=
    (parseAt_directive "$" .items _).trans (parseDirective_each _ hitems
      ((parseAt_directive _ .path _).trans (parseDirective_path _ hsku)))
  have same : ∀ p, RootReference template p → root.lookup p = other.lookup p := by
    rintro p ⟨part, hp, hl⟩
    cases hp with
    | here =>
      generalize hv : template = v at hl
      cases hl with
      | items h =>
        simp only [template, Json.obj.injEq, List.cons.injEq, Prod.mk.injEq, Json.arr.injEq,
          Json.str.injEq] at hv
        obtain ⟨⟨-, rfl, -⟩, -⟩ := hv
        rw [hitems] at h
        cases h
        rfl
      | path h | text h =>
        simp only [template, Json.obj.injEq, List.cons.injEq, Prod.mk.injEq] at hv
        exact absurd hv.1.1 (by decide)
    | deeper _ outside _ => exact absurd rfl (outside _)
  exact ⟨valid, same, transform_references valid root other same⟩

end EventRouting.Template
