import EventRouting.Proofs.Template.References

/-!
# Templates are compositional

What a template is transformed into, told by what its parts are transformed into.

* `Template.Chooses`     the branch of a choice, told by what its subject is transformed into
* `Template.Vanishes`    the templates that resolve to nothing
* `Template.Selects`     the items at a path: those of a list, or an object alone
* `Template.Kept`        the items of a list that are not gone, each made into something, in order
* `Template.walk_choice`, `Template.walk_default`, `Template.walk_items`   the directives with parts
* `Template.absent_of_vanishes`, `Template.vanishes_of_absent`   what resolves to nothing is what a walk finds absent
* `Template.transform_compositional`   a law for each kind of template
-/

namespace EventRouting

/-! ## drafts -/

namespace Draft

/-- the value that a draft comes to in the end, null if it is missing -/
def final (d : Draft) : Json := d.settle.getD .null

theorem settle_eq_none_iff (d : Draft) : d.settle = none ↔ d = .absent := by
  cases d <;> simp [settle]

theorem isAbsent_iff (d : Draft) : d.isAbsent = true ↔ d.final = .null := by
  unfold final
  cases d with
  | absent => simp [isAbsent, settle]
  | value v => cases v <;> simp [isAbsent, settle]
  | list items => simp [isAbsent, settle]
  | object members => simp [isAbsent, settle]

theorem isBlank_iff (d : Draft) : d.isBlank = true ↔ d.final = .null ∨ d.final = .str "" := by
  unfold final
  cases d with
  | absent => simp [isBlank, isAbsent, settle]
  | value v => cases v <;> simp [isBlank, isAbsent, settle]
  | list items => simp [isBlank, isAbsent, settle]
  | object members => simp [isBlank, isAbsent, settle]

theorem final_of_settle {d : Draft} {v : Json} (h : d.settle = some v) : d.final = v := by
  unfold final
  rw [h]
  rfl

end Draft

namespace Template

/-! ## what resolves to nothing -/

/-- The branch that a choice chooses from a root: `exists` asks for anything but null, `blank` for null or
the empty text. -/
inductive Chooses (root : Json) (members : Members Json) : String → Prop where
  | present {subject v : Json} (h : members.get? "exists" = some subject)
      (made : subject.transform root = .ok v) (hv : v ≠ .null) : Chooses root members "then"
  | missing {subject : Json} (h : members.get? "exists" = some subject)
      (made : subject.transform root = .ok .null) : Chooses root members "else"
  | blank {subject v : Json} (h : members.get? "blank" = some subject)
      (made : subject.transform root = .ok v) (hv : v = .null ∨ v = .str "") : Chooses root members "then"
  | filled {subject v : Json} (h : members.get? "blank" = some subject)
      (made : subject.transform root = .ok v) (hv : ¬ (v = .null ∨ v = .str "")) :
      Chooses root members "else"

/-- `Selects root p vs`: at the path is a list of the items `vs`, or an object, and then `vs` is that object
alone -/
inductive Selects (root : Json) (p : Path) : List Json → Prop where
  | list {vs : List Json} (h : root.lookup p = some (.arr vs)) : Selects root p vs
  | object {members : Members Json} (h : root.lookup p = some (.obj members)) :
      Selects root p [.obj members]

/-- The templates that resolve to nothing from a root. -/
inductive Vanishes (root : Json) : Json → Prop where
  | path {s : String} {p : Path} (hp : Path.ofReference? s = some p) (absent : root.lookup p = none) :
      Vanishes root (.obj [("@path", .str s)])
  | items {s : String} {p : Path} {rest : List Json} (hp : Path.ofReference? s = some p)
      (none : ∀ vs, ¬ Selects root p vs) : Vanishes root (.obj [("@arrayPath", .arr (.str s :: rest))])
  /-- the branch that is chosen is not written down -/
  | missing {members : Members Json} {branch : String} (chosen : Chooses root members branch)
      (missing : members.get? branch = none) : Vanishes root (.obj [("@if", .obj members)])
  | branch {members : Members Json} {branch : String} {v : Json} (chosen : Chooses root members branch)
      (h : members.get? branch = some v) (gone : Vanishes root v) :
      Vanishes root (.obj [("@if", .obj members)])
  /-- neither is there a value nor a fallback -/
  | default {members : Members Json} {v f : Json} (hv : members.get? "value" = some v)
      (hf : members.get? "fallback" = some f) (goneValue : Vanishes root v) (gone : Vanishes root f) :
      Vanishes root (.obj [("@default", .obj members)])
  | defaultNull {members : Members Json} {v f : Json} (hv : members.get? "value" = some v)
      (hf : members.get? "fallback" = some f) (null : v.transform root = .ok .null)
      (gone : Vanishes root f) : Vanishes root (.obj [("@default", .obj members)])

/-- `Kept gone made xs ys`: the items of `xs` that are not gone, each made into one of `ys`, in order -/
inductive Kept {α β : Type} (gone : α → Prop) (made : α → β → Prop) : List α → List β → Prop where
  | nil : Kept gone made [] []
  | drop {x : α} {xs : List α} {ys : List β} (h : gone x) (rest : Kept gone made xs ys) :
      Kept gone made (x :: xs) ys
  | keep {x : α} {y : β} {xs : List α} {ys : List β} (h : ¬ gone x) (hy : made x y)
      (rest : Kept gone made xs ys) : Kept gone made (x :: xs) (y :: ys)

/-- What a list is filtered and mapped into is kept, where each item is. -/
theorem Kept.of_filterMap {α β γ : Type} {gone : α → Prop} {made : α → γ → Prop} {g : β → Option γ}
    {xs : List α} {ds : List β}
    (h : List.Forall₂ (fun x d => (gone x ↔ g d = none) ∧ ∀ y, g d = some y → made x y) xs ds) :
    Kept gone made xs (ds.filterMap g) := by
  induction h with
  | nil => exact .nil
  | @cons x d xs ds h _ ih =>
    cases hd : g d with
    | none =>
      rw [List.filterMap_cons_none hd]
      exact .drop (h.1.mpr hd) ih
    | some y =>
      rw [List.filterMap_cons_some hd]
      refine .keep (fun gone => ?_) (h.2 y hd) ih
      rw [h.1.mp gone] at hd
      cases hd

/-! ## walks -/

/-- A sound template is walked through from every root, and what the walk comes to is what it is
transformed into. -/
theorem exists_walk {v : Json} (sound : ¬ Faulty v) (root : Json) :
    ∃ d, walk v root = .ok d ∧ v.transform root = .ok d.final := by
  unfold Json.transform
  rcases (parseAt_justified "$" v).cases with ⟨t, ht, stands, _⟩ | ⟨_, _, _, bad⟩
  · rw [show parse v = .ok t from ht]
    exact ⟨_, stands root, rfl⟩
  · exact absurd bad sound

theorem transform_of_walk {v root : Json} {d : Draft} (sound : ¬ Faulty v) (h : walk v root = .ok d) :
    v.transform root = .ok d.final := by
  obtain ⟨d', hw, ht⟩ := exists_walk sound root
  rw [h] at hw
  cases hw
  exact ht

theorem sound_of_parse {v : Json} {t : Template} (valid : parse v = .ok t) : ¬ Faulty v := by
  have read := parseAt_justified "$" v
  rw [show parseAt "$" v = .ok t from valid] at read
  exact read.good.2

theorem exists_parse {v : Json} (sound : ¬ Faulty v) : ∃ t, parse v = .ok t := by
  rcases (parseAt_justified "$" v).cases with ⟨t, ht, _⟩ | ⟨_, _, _, bad⟩
  · exact ⟨t, ht⟩
  · exact absurd bad sound

theorem sound_directive_iff (d : Directive) (argument : Json) :
    ¬ Faulty (.obj [(d.name, argument)]) ↔ Proper d argument ∧ ∀ v, Under d argument v → ¬ Faulty v := by
  rw [faulty_directive_iff, not_or, Classical.not_not]
  exact and_congr_right fun _ => ⟨fun h v hu hf => h ⟨v, hu, hf⟩, fun h ⟨v, hu, hf⟩ => h v hu hf⟩

variable {root : Json}

theorem walk_path_eq {s : String} {p : Path} (hp : Path.ofReference? s = some p) :
    walk (.obj [("@path", .str s)]) root = .ok (.ofOption (root.lookup p)) := by
  rw [show ("@path" : String) = Directive.path.name from rfl, walk_directive_eq, walkDirective,
    fetchPath_eq_ok hp]
  rfl

/-! ## the branch of a choice -/

/-- A choice has one question, whose answer is that of a walk. -/
theorem chooses_iff {members : Members Json} (one : "exists" ∈ members.names ↔ "blank" ∉ members.names)
    {c : Condition} {subject : Json} {d : Draft} (question : fetchQuestion members = .ok (c, subject))
    (made : subject.transform root = .ok d.final) (branch : String) :
    Chooses root members branch ↔ branch = if c.asks d then "then" else "else" := by
  rw [Members.mem_names_iff, Members.mem_names_iff] at one
  unfold fetchQuestion fetch at question
  cases he : members.get? "exists" with
  | some v =>
    rw [he] at question
    cases question
    have hb : members.get? "blank" = none := by
      cases hb : members.get? "blank" with
      | none => rfl
      | some w => exact absurd ⟨w, hb⟩ (one.mp ⟨_, he⟩)
    have asks : Condition.present.asks d = true ↔ d.final ≠ .null := by
      rw [Ne, ← Draft.isAbsent_iff]
      simp [Condition.asks]
    constructor
    · intro h
      cases h with
      | present h hm hv =>
        rw [he] at h
        cases h
        rw [made] at hm
        cases hm
        rw [if_pos (asks.mpr hv)]
      | missing h hm =>
        rw [he] at h
        cases h
        rw [made] at hm
        rw [if_neg fun ha => asks.mp ha (Except.ok.inj hm)]
      | blank h | filled h =>
        rw [hb] at h
        cases h
    · rintro rfl
      split
      · next ha => exact .present he made (asks.mp ha)
      · next ha =>
        refine .missing he ?_
        rw [made, Classical.not_not.mp fun hn => ha (asks.mpr hn)]
  | none =>
    rw [he] at question
    cases hb : members.get? "blank" with
    | none =>
      rw [hb] at question
      cases question
    | some v =>
      rw [hb] at question
      cases question
      have asks : Condition.blank.asks d = true ↔ d.final = .null ∨ d.final = .str "" := d.isBlank_iff
      constructor
      · intro h
        cases h with
        | present h | missing h =>
          rw [he] at h
          cases h
        | blank h hm hv =>
          rw [hb] at h
          cases h
          rw [made] at hm
          cases hm
          rw [if_pos (asks.mpr hv)]
        | filled h hm hv =>
          rw [hb] at h
          cases h
          rw [made] at hm
          cases hm
          rw [if_neg fun ha => hv (asks.mp ha)]
      · rintro rfl
        split
        · next ha => exact .blank hb made (asks.mp ha)
        · next ha => exact .filled hb made fun hv => ha (asks.mpr hv)

theorem exists_question {members : Members Json} (one : "exists" ∈ members.names ↔ "blank" ∉ members.names) :
    ∃ c subject, fetchQuestion members = .ok (c, subject) := by
  unfold fetchQuestion
  cases he : members.get? "exists" with
  | some v => exact ⟨.present, v, rfl⟩
  | none =>
    obtain ⟨v, hb⟩ := (Members.mem_names_iff members "blank").mp <| Classical.not_not.mp fun hb =>
      (Members.get?_eq_none_iff members "exists").mp he (one.mpr hb)
    rw [fetch_eq_ok hb]
    exact ⟨.blank, v, rfl⟩

/-! ## directives with parts -/

/-- **A choice** walks on to the one branch that it chooses, and that branch is sound. -/
theorem walk_choice {argument : Json} (sound : ¬ Faulty (.obj [("@if", argument)])) (root : Json) :
    ∃ (members : Members Json) (branch : String), argument = .obj members ∧
      (∀ b, Chooses root members b ↔ b = branch) ∧
      (∀ v, members.get? branch = some v → ¬ Faulty v) ∧
      walk (.obj [("@if", argument)]) root = walkBranch (members.get? branch) root := by
  obtain ⟨proper, soundUnder⟩ := (sound_directive_iff .choice argument).mp sound
  cases proper with
  | @choice members one names =>
    obtain ⟨c, subject, question⟩ := exists_question one
    obtain ⟨d, hw, made⟩ := exists_walk (soundUnder subject (under_of_fetchQuestion question)) root
    refine ⟨members, _, rfl, chooses_iff one question made, fun v hv => ?_, ?_⟩
    · refine soundUnder v (.choice (k := if c.asks d then "then" else "else") ?_ hv)
      split <;> decide
    · rw [show ("@if" : String) = Directive.choice.name from rfl, walk_directive_eq,
        walkDirective_choice_eq, question]
      dsimp only
      rw [hw]

/-- **A default** walks on to its fallback where its value is missing or null. -/
theorem walk_default {argument : Json} (sound : ¬ Faulty (.obj [("@default", argument)])) (root : Json) :
    ∃ members v f d, argument = .obj members ∧ Members.get? members "value" = some v ∧
      Members.get? members "fallback" = some f ∧ ¬ Faulty v ∧ ¬ Faulty f ∧ walk v root = .ok d ∧
      walk (.obj [("@default", argument)]) root = if d.isAbsent then walk f root else .ok d := by
  obtain ⟨proper, soundUnder⟩ := (sound_directive_iff .default argument).mp sound
  cases proper with
  | @default members names =>
    obtain ⟨_, hv, hf⟩ := (names_perm_iff members).mp names
    obtain ⟨v, hv⟩ := (Members.mem_names_iff members _).mp hv
    obtain ⟨f, hf⟩ := (Members.mem_names_iff members _).mp hf
    have soundValue := soundUnder v (.default (by decide) hv)
    obtain ⟨d, hw, _⟩ := exists_walk soundValue root
    refine ⟨members, v, f, d, rfl, hv, hf, soundValue, soundUnder f (.default (by decide) hf), hw, ?_⟩
    rw [show ("@default" : String) = Directive.default.name from rfl, walk_directive_eq,
      walkDirective_default_eq hv hf, hw]

theorem itemsAt_eq_some_iff {p : Path} {vs : List Json} : itemsAt root p = some vs ↔ Selects root p vs := by
  unfold itemsAt
  constructor
  · intro h
    split at h
    · next hp =>
      cases h
      exact .list hp
    · next hp =>
      cases h
      exact .object hp
    · cases h
  · intro h
    cases h with
    | list hp => rw [hp]
    | object hp => rw [hp]

theorem itemsAt_eq_none_iff {p : Path} : itemsAt root p = none ↔ ∀ vs, ¬ Selects root p vs := by
  rw [Option.eq_none_iff_forall_ne_some]
  exact forall_congr' fun vs => not_congr itemsAt_eq_some_iff

/-- **A list of items** is taken as it is, or its template walks through each of them. -/
theorem walk_items {argument : Json} (sound : ¬ Faulty (.obj [("@arrayPath", argument)])) (root : Json) :
    ∃ s p, Path.ofReference? s = some p ∧
      ((argument = .arr [.str s] ∧ walk (.obj [("@arrayPath", argument)]) root =
          .ok ((itemsAt root p).elim .absent fun vs => .value (.arr vs))) ∨
        ∃ item, argument = .arr [.str s, item] ∧ ¬ Faulty item ∧
          walk (.obj [("@arrayPath", argument)]) root =
            (itemsAt root p).elim (.ok .absent) fun vs => (vs.mapM fun v => walk item v).map .list) := by
  obtain ⟨proper, soundUnder⟩ := (sound_directive_iff .items argument).mp sound
  have directive : ∀ argument, walk (.obj [("@arrayPath", argument)]) root =
      walkDirective .items argument root := fun argument => walk_directive_eq .items argument root
  cases proper with
  | items h =>
    obtain ⟨s, rfl, hs⟩ := h
    obtain ⟨p, hp⟩ := (Path.isReference_iff s).mp hs
    refine ⟨s, p, hp, .inl ⟨rfl, ?_⟩⟩
    rw [directive, walkDirective, fetchPath_eq_ok hp]
    dsimp only
    cases itemsAt root p <;> rfl
  | @each _ item h =>
    obtain ⟨s, rfl, hs⟩ := h
    obtain ⟨p, hp⟩ := (Path.isReference_iff s).mp hs
    refine ⟨s, p, hp, .inr ⟨item, rfl, soundUnder item .each, ?_⟩⟩
    rw [directive, walkDirective, fetchPath_eq_ok hp]
    dsimp only
    cases itemsAt root p <;> rfl

/-- Nothing comes of a list of items only where there is none. -/
theorem walk_items_absent_iff {s : String} {p : Path} {rest : List Json}
    (sound : ¬ Faulty (.obj [("@arrayPath", .arr (.str s :: rest))])) (hp : Path.ofReference? s = some p) :
    walk (.obj [("@arrayPath", .arr (.str s :: rest))]) root = .ok .absent ↔ ∀ vs, ¬ Selects root p vs := by
  rw [← itemsAt_eq_none_iff]
  obtain ⟨s', p', hp', ⟨he, hw⟩ | ⟨item, he, -, hw⟩⟩ := walk_items sound root
  · cases he
    cases hp.symm.trans hp'
    rw [hw]
    cases itemsAt root p <;> simp
  · cases he
    cases hp.symm.trans hp'
    rw [hw]
    cases itemsAt root p with
    | none => simp
    | some vs => cases hm : vs.mapM fun v => walk item v <;> simp [hm, Except.map]

/-! ## what resolves to nothing is absent -/

theorem absent_of_vanishes {v : Json} (h : Vanishes root v) (sound : ¬ Faulty v) :
    walk v root = .ok .absent := by
  induction h with
  | path hp absent => rw [walk_path_eq hp, absent]; rfl
  | items hp none => exact (walk_items_absent_iff sound hp).mpr none
  | missing chosen missing =>
    obtain ⟨_, branch, ⟨⟩, only, _, hw⟩ := walk_choice sound root
    obtain rfl := (only _).mp chosen
    rw [hw, missing]
    rfl
  | branch chosen h gone ih =>
    obtain ⟨_, branch, ⟨⟩, only, soundBranch, hw⟩ := walk_choice sound root
    obtain rfl := (only _).mp chosen
    rw [hw, h]
    exact ih (soundBranch _ h)
  | default hv hf goneValue gone ihValue ih =>
    obtain ⟨_, v, f, d, ⟨⟩, hv', hf', soundValue, soundFallback, walked, hw⟩ := walk_default sound root
    cases hv.symm.trans hv'
    cases hf.symm.trans hf'
    rw [ihValue soundValue] at walked
    cases walked
    rw [hw]
    exact ih soundFallback
  | defaultNull hv hf null gone ih =>
    obtain ⟨_, v, f, d, ⟨⟩, hv', hf', soundValue, soundFallback, walked, hw⟩ := walk_default sound root
    cases hv.symm.trans hv'
    cases hf.symm.trans hf'
    rw [transform_of_walk soundValue walked] at null
    rw [hw, if_pos (d.isAbsent_iff.mpr (Except.ok.inj null))]
    exact ih soundFallback

/-- `AbsentBelow root n`: below a size, what a walk finds absent is known to resolve to nothing -/
def AbsentBelow (root : Json) (n : Nat) : Prop :=
  ∀ v, sizeOf v < n → ¬ Faulty v → walk v root = .ok .absent → Vanishes root v

theorem vanishes_path {argument : Json} (sound : ¬ Faulty (.obj [("@path", argument)]))
    (h : walk (.obj [("@path", argument)]) root = .ok .absent) : Vanishes root (.obj [("@path", argument)]) := by
  cases ((sound_directive_iff .path argument).mp sound).1 with
  | path hs =>
    obtain ⟨s, rfl, hs⟩ := hs
    obtain ⟨p, hp⟩ := (Path.isReference_iff s).mp hs
    refine .path hp ?_
    rw [walk_path_eq hp] at h
    cases hl : root.lookup p with
    | none => rfl
    | some w =>
      rw [hl] at h
      cases h

theorem vanishes_items {argument : Json} (sound : ¬ Faulty (.obj [("@arrayPath", argument)]))
    (h : walk (.obj [("@arrayPath", argument)]) root = .ok .absent) :
    Vanishes root (.obj [("@arrayPath", argument)]) := by
  obtain ⟨s, p, hp, ⟨rfl, _⟩ | ⟨item, rfl, _⟩⟩ := walk_items sound root
  · exact .items hp ((walk_items_absent_iff sound hp).mp h)
  · exact .items hp ((walk_items_absent_iff sound hp).mp h)

theorem vanishes_choice {argument : Json} (ih : AbsentBelow root (sizeOf argument))
    (sound : ¬ Faulty (.obj [("@if", argument)])) (h : walk (.obj [("@if", argument)]) root = .ok .absent) :
    Vanishes root (.obj [("@if", argument)]) := by
  obtain ⟨members, branch, rfl, only, soundBranch, hw⟩ := walk_choice sound root
  have chosen := (only branch).mpr rfl
  rw [hw] at h
  cases hb : Members.get? members branch with
  | none => exact .missing chosen hb
  | some w =>
    rw [hb] at h
    have hk : branch ∈ choiceNames := by
      cases chosen <;> decide
    exact .branch chosen hb (ih w (Under.choice hk hb).sizeOf_lt (soundBranch w hb) h)

theorem vanishes_default {argument : Json} (ih : AbsentBelow root (sizeOf argument))
    (sound : ¬ Faulty (.obj [("@default", argument)]))
    (h : walk (.obj [("@default", argument)]) root = .ok .absent) :
    Vanishes root (.obj [("@default", argument)]) := by
  obtain ⟨members, v, f, d, rfl, hv, hf, soundValue, soundFallback, walked, hw⟩ := walk_default sound root
  rw [hw] at h
  split at h
  · next hd =>
    have gone := ih f (Under.default (by decide) hf).sizeOf_lt soundFallback h
    have null := transform_of_walk soundValue walked
    rw [d.isAbsent_iff.mp hd] at null
    exact .defaultNull hv hf null gone
  · next hd =>
    cases h
    exact absurd rfl hd

/-- **Nothing else**: a template that a walk finds absent is one of those that resolve to nothing. -/
theorem vanishes_of_absent (v : Json) (sound : ¬ Faulty v) (h : walk v root = .ok .absent) : Vanishes root v := by
  have ih : AbsentBelow root (sizeOf v) := fun w _ hs hw => vanishes_of_absent w hs hw
  cases v with
  | null | bool | num | str =>
    rw [walk] at h
    cases h
  | arr vs =>
    rw [walk_arr_eq] at h
    cases hi : walkItems vs root <;> rw [hi] at h <;> cases h
  | obj members =>
    by_cases plain : ∀ name ∈ Members.names members, isDirectiveName name = false
    · rw [walk_obj_eq plain] at h
      cases hm : walkMembers members root <;> rw [hm] at h <;> cases h
    · obtain ⟨d, argument, rfl, proper⟩ := directive_of_sound sound plain
      have below : AbsentBelow root (sizeOf argument) := fun w hw => ih w (by
        simp only [Json.obj.sizeOf_spec, List.cons.sizeOf_spec, Prod.mk.sizeOf_spec]
        omega)
      cases d with
      | path => exact vanishes_path sound h
      | items => exact vanishes_items sound h
      | choice => exact vanishes_choice below sound h
      | default => exact vanishes_default below sound h
      | literal =>
        rw [walk_directive_eq, walkDirective] at h
        cases h
      | text =>
        cases proper
        rw [walk_directive_eq, walkDirective] at h
        cases h
      | merge =>
        cases proper with
        | merge ho _ =>
          rw [walk_directive_eq, walkDirective_merge_eq ho] at h
          cases hi : walkItems _ root <;> rw [hi] at h <;> cases h
termination_by sizeOf v

/-- **Gone or made**: a template that is walked through resolves to nothing exactly where the draft settles
to nothing, and otherwise the draft settles to what the template is transformed into. -/
theorem settles_of_walk {v : Json} (sound : ¬ Faulty v) {d : Draft} (h : walk v root = .ok d) :
    (Vanishes root v ↔ d.settle = none) ∧ ∀ w, d.settle = some w → v.transform root = .ok w := by
  rw [d.settle_eq_none_iff]
  refine ⟨⟨fun gone => ?_, ?_⟩, fun w hw => ?_⟩
  · rw [absent_of_vanishes gone sound] at h
    exact (Except.ok.inj h).symm
  · rintro rfl
    exact vanishes_of_absent v sound h
  · rw [transform_of_walk sound h, Draft.final_of_settle hw]

/-! ## lists and objects -/

theorem exists_mapM {α β ε : Type} (f : α → Except ε β) {R : α → β → Prop} (xs : List α)
    (h : ∀ x ∈ xs, ∃ y, f x = .ok y ∧ R x y) : ∃ ys, xs.mapM f = .ok ys ∧ List.Forall₂ R xs ys := by
  induction xs with
  | nil => exact ⟨[], rfl, .nil⟩
  | cons x xs ih =>
    obtain ⟨y, hy, hr⟩ := h x (List.mem_cons_self ..)
    obtain ⟨ys, hys, hrs⟩ := ih fun z hz => h z (List.mem_cons_of_mem _ hz)
    refine ⟨y :: ys, ?_, .cons hr hrs⟩
    rw [List.mapM_cons, hy, hys]
    rfl

theorem walkItems_eq_mapM (vs : List Json) (root : Json) : walkItems vs root = vs.mapM fun v => walk v root := by
  induction vs with
  | nil => rw [walkItems]; rfl
  | cons v vs ih =>
    rw [walkItems, List.mapM_cons, ih]
    cases walk v root with
    | error e => rfl
    | ok d => cases vs.mapM fun v => walk v root <;> rfl

theorem walkMembers_eq_mapM (members : Members Json) (root : Json) :
    walkMembers members root = members.mapM fun m => (walk m.2 root).map fun d => (m.1, d) := by
  induction members with
  | nil => rw [walkMembers]; rfl
  | cons m ms ih =>
    obtain ⟨k, v⟩ := m
    rw [walkMembers, List.mapM_cons, ih]
    cases walk v root with
    | error e => rfl
    | ok d => cases ms.mapM fun m => (walk m.2 root).map fun d => (m.1, d) <;> rfl

/-- Templates, each with a root of its own, walked through one after the other. -/
theorem kept_of_walks {α : Type} (part scope : α → Json) {xs : List α} (sound : ∀ x ∈ xs, ¬ Faulty (part x)) :
    ∃ ds, (xs.mapM fun x => walk (part x) (scope x)) = .ok ds ∧
      Kept (fun x => Vanishes (scope x) (part x)) (fun x w => (part x).transform (scope x) = .ok w) xs
        (Draft.settleItems ds) := by
  obtain ⟨ds, hm, h⟩ := exists_mapM (fun x => walk (part x) (scope x)) xs fun x hx => by
    obtain ⟨d, hw, _⟩ := exists_walk (sound x hx) (scope x)
    exact ⟨d, hw, settles_of_walk (sound x hx) hw⟩
  refine ⟨ds, hm, ?_⟩
  rw [Draft.settleItems_eq]
  exact Kept.of_filterMap h

theorem kept_of_members {members : Members Json} (sound : ∀ m ∈ members, ¬ Faulty m.2) (root : Json) :
    ∃ ds, walkMembers members root = .ok ds ∧
      Kept (fun m => Vanishes root m.2) (fun m n => n.1 = m.1 ∧ m.2.transform root = .ok n.2) members
        (Draft.settleMembers ds) := by
  rw [walkMembers_eq_mapM]
  obtain ⟨ds, hm, h⟩ := exists_mapM (fun m => (walk m.2 root).map fun d => (m.1, d)) members
    (R := fun m d => (Vanishes root m.2 ↔ (d.2.settle.map fun v => (d.1, v)) = none) ∧
      ∀ n, (d.2.settle.map fun v => (d.1, v)) = some n → n.1 = m.1 ∧ m.2.transform root = .ok n.2) fun m hm => by
    obtain ⟨d, hw, _⟩ := exists_walk (sound m hm) root
    obtain ⟨gone, made⟩ := settles_of_walk (sound m hm) hw
    refine ⟨(m.1, d), by rw [hw]; rfl, by rw [gone, Option.map_eq_none_iff], fun n hn => ?_⟩
    obtain ⟨w, hw, rfl⟩ := Option.map_eq_some_iff.mp hn
    exact ⟨rfl, made w hw⟩
  refine ⟨ds, hm, ?_⟩
  rw [Draft.settleMembers_eq]
  exact Kept.of_filterMap h

/-! ## one law for each kind -/

theorem transform_obj {members : Members Json} (plain : ∀ name ∈ members.names, isDirectiveName name = false)
    (sound : ¬ Faulty (.obj members)) (root : Json) :
    ∃ made, (Json.obj members).transform root = .ok (.obj made) ∧
      Kept (fun m => Vanishes root m.2) (fun m n => n.1 = m.1 ∧ m.2.transform root = .ok n.2) members made := by
  obtain ⟨ds, hm, kept⟩ := kept_of_members
    (fun m hm hf => sound ((faulty_obj_iff plain).mpr ⟨m, hm, hf⟩)) root
  exact ⟨_, transform_of_walk sound (walk_obj plain hm), kept⟩

theorem transform_arr {vs : List Json} (sound : ¬ Faulty (.arr vs)) (root : Json) :
    ∃ made, (Json.arr vs).transform root = .ok (.arr made) ∧
      Kept (Vanishes root) (fun v w => v.transform root = .ok w) vs made := by
  obtain ⟨ds, hm, kept⟩ := kept_of_walks (fun v => v) (fun _ => root)
    fun v hv hf => sound ((faulty_arr_iff vs).mpr ⟨v, hv, hf⟩)
  rw [← walkItems_eq_mapM] at hm
  exact ⟨_, transform_of_walk sound (walk_arr hm), kept⟩

theorem transform_choice {argument : Json} (sound : ¬ Faulty (.obj [("@if", argument)])) (root : Json) :
    ∃ (members : Members Json) (branch : String), argument = .obj members ∧
      (∀ b, Chooses root members b ↔ b = branch) ∧
      (Json.obj [("@if", argument)]).transform root =
        (members.get? branch).elim (.ok .null) fun v => v.transform root := by
  obtain ⟨members, branch, rfl, only, soundBranch, hw⟩ := walk_choice sound root
  refine ⟨members, branch, rfl, only, ?_⟩
  cases hb : members.get? branch with
  | none =>
    rw [hb] at hw
    exact transform_of_walk sound hw
  | some v =>
    obtain ⟨d, walked, made⟩ := exists_walk (soundBranch v hb) root
    rw [hb] at hw
    rw [transform_of_walk sound (hw.trans walked), Option.elim_some, made]

theorem transform_default {argument : Json} (sound : ¬ Faulty (.obj [("@default", argument)])) (root : Json) :
    ∃ (members : Members Json) (v f w : Json), argument = .obj members ∧ members.get? "value" = some v ∧
      members.get? "fallback" = some f ∧ v.transform root = .ok w ∧
      (Json.obj [("@default", argument)]).transform root = if w = .null then f.transform root else .ok w := by
  obtain ⟨members, v, f, d, rfl, hv, hf, soundValue, soundFallback, walked, hw⟩ := walk_default sound root
  refine ⟨members, v, f, d.final, rfl, hv, hf, transform_of_walk soundValue walked, ?_⟩
  by_cases hd : d.isAbsent = true
  · obtain ⟨b, walkedFallback, made⟩ := exists_walk soundFallback root
    rw [if_pos hd, walkedFallback] at hw
    rw [if_pos (d.isAbsent_iff.mp hd), made, transform_of_walk sound hw]
  · rw [if_neg hd] at hw
    rw [if_neg fun h => hd (d.isAbsent_iff.mpr h), transform_of_walk sound hw]

theorem transform_items {argument : Json} (sound : ¬ Faulty (.obj [("@arrayPath", argument)])) (root : Json) :
    ∃ (s : String) (p : Path) (rest : List Json), argument = .arr (.str s :: rest) ∧
      Path.ofReference? s = some p ∧
      (((∀ vs, ¬ Selects root p vs) ∧ (Json.obj [("@arrayPath", argument)]).transform root = .ok .null) ∨
        ∃ vs, Selects root p vs ∧
          ((rest = [] ∧ (Json.obj [("@arrayPath", argument)]).transform root = .ok (.arr vs)) ∨
            ∃ item made, rest = [item] ∧
              (Json.obj [("@arrayPath", argument)]).transform root = .ok (.arr made) ∧
              Kept (fun v => Vanishes v item) (fun v w => item.transform v = .ok w) vs made)) := by
  obtain ⟨s, p, hp, ⟨rfl, hw⟩ | ⟨item, rfl, soundItem, hw⟩⟩ := walk_items sound root
  · refine ⟨s, p, [], rfl, hp, ?_⟩
    cases hi : itemsAt root p with
    | none =>
      rw [hi] at hw
      exact .inl ⟨itemsAt_eq_none_iff.mp hi, transform_of_walk sound hw⟩
    | some vs =>
      rw [hi] at hw
      exact .inr ⟨vs, itemsAt_eq_some_iff.mp hi, .inl ⟨rfl, transform_of_walk sound hw⟩⟩
  · refine ⟨s, p, [item], rfl, hp, ?_⟩
    cases hi : itemsAt root p with
    | none =>
      rw [hi] at hw
      exact .inl ⟨itemsAt_eq_none_iff.mp hi, transform_of_walk sound hw⟩
    | some vs =>
      obtain ⟨ds, hm, kept⟩ := kept_of_walks (fun _ => item) (fun v => v)
        fun v (_ : v ∈ vs) => soundItem
      rw [hi, Option.elim_some, hm] at hw
      exact .inr ⟨vs, itemsAt_eq_some_iff.mp hi, .inr ⟨item, _, rfl, transform_of_walk sound hw, kept⟩⟩

/-- **Compositionality** of a valid template, from any root.  What resolves to nothing is transformed into
null.  An object that is no directive is transformed member by member and a list item by item, in order,
without those that resolve to nothing.  A choice is transformed into what the branch that it chooses is, a
default into what its value is, or its fallback where that is null.  A list of items is taken as it is, or
its template is transformed from each item, without the items from which it resolves to nothing. -/
theorem transform_compositional {template : Json} {t : Template} (valid : parse template = .ok t)
    (root : Json) :
    (Vanishes root template → template.transform root = .ok .null) ∧
    (∀ members : Members Json, template = .obj members →
      (∀ name ∈ members.names, isDirectiveName name = false) →
      ∃ made, template.transform root = .ok (.obj made) ∧
        Kept (fun m => Vanishes root m.2) (fun m n => n.1 = m.1 ∧ m.2.transform root = .ok n.2) members made) ∧
    (∀ vs, template = .arr vs → ∃ made, template.transform root = .ok (.arr made) ∧
      Kept (Vanishes root) (fun v w => v.transform root = .ok w) vs made) ∧
    (∀ argument, template = .obj [("@if", argument)] →
      ∃ (members : Members Json) (branch : String), argument = .obj members ∧
        (∀ b, Chooses root members b ↔ b = branch) ∧
        template.transform root = (members.get? branch).elim (.ok .null) fun v => v.transform root) ∧
    (∀ argument, template = .obj [("@default", argument)] →
      ∃ (members : Members Json) (v f w : Json), argument = .obj members ∧ members.get? "value" = some v ∧
        members.get? "fallback" = some f ∧ v.transform root = .ok w ∧
        template.transform root = if w = .null then f.transform root else .ok w) ∧
    ∀ argument, template = .obj [("@arrayPath", argument)] →
      ∃ (s : String) (p : Path) (rest : List Json), argument = .arr (.str s :: rest) ∧
        Path.ofReference? s = some p ∧
        (((∀ vs, ¬ Selects root p vs) ∧ template.transform root = .ok .null) ∨
          ∃ vs, Selects root p vs ∧ ((rest = [] ∧ template.transform root = .ok (.arr vs)) ∨
            ∃ item made, rest = [item] ∧ template.transform root = .ok (.arr made) ∧
              Kept (fun v => Vanishes v item) (fun v w => item.transform v = .ok w) vs made)) := by
  have sound := sound_of_parse valid
  refine ⟨fun gone => transform_of_walk sound (absent_of_vanishes gone sound), ?_, ?_, ?_, ?_, ?_⟩
  · rintro members rfl plain
    exact transform_obj plain sound root
  · rintro vs rfl
    exact transform_arr sound root
  · rintro argument rfl
    exact transform_choice sound root
  · rintro argument rfl
    exact transform_default sound root
  · rintro argument rfl
    exact transform_items sound root

/-- A choice whose branch is a path that leads nowhere, in front of a null that stays. -/
theorem transform_compositional_choiceInList :
    let name : Json := .obj [("@path", .str "$.name")]
    let nick : Json := .obj [("@path", .str "$.nick")]
    let choice : Json := .obj [("@if", .obj [("exists", name), ("then", nick)])]
    let template : Json := .arr [choice, .null]
    let root : Json := .obj [("name", .int 1)]
    Vanishes root choice ∧ ∃ t, parse template = .ok t ∧
      ∃ made, template.transform root = .ok (.arr made) ∧
        Kept (Vanishes root) (fun v w => v.transform root = .ok w) [choice, .null] made := by
  intro name nick choice template root
  have hname : Path.ofReference? "$.name" = some [.name "name"] := by cbv
  have hnick : Path.ofReference? "$.nick" = some [.name "nick"] := by cbv
  have soundPath : ∀ s p, Path.ofReference? s = some p → ¬ Faulty (.obj [("@path", .str s)]) := by
    refine fun s p hp => (sound_directive_iff .path (.str s)).mpr ⟨.path (.of_reference hp), fun v hu => ?_⟩
    cases hu
  have soundChoice : ¬ Faulty choice := by
    refine (sound_directive_iff .choice _).mpr ⟨.choice (by decide) (by decide), fun v hu => ?_⟩
    have isChoice : IsChoice (.obj [("exists", name), ("then", nick)])
        ⟨.present, "exists", name, some nick, none⟩ := ⟨_, rfl, rfl, rfl, rfl⟩
    rcases (under_choice_iff isChoice v).mp hu with rfl | hv | hv
    · exact soundPath _ _ hname
    · cases hv
      exact soundPath _ _ hnick
    · cases hv
  have soundTemplate : ¬ Faulty template := by
    rw [faulty_arr_iff]
    rintro ⟨v, hv, hf⟩
    rcases List.mem_pair.mp hv with rfl | rfl
    · exact soundChoice hf
    · obtain ⟨_, ⟨⟩, _⟩ | ⟨w, hc, _⟩ := (faulty_iff _).mp hf
      cases hc
  have chosen : Chooses root [("exists", name), ("then", nick)] "then" :=
    .present rfl (transform_of_walk (soundPath _ _ hname) (walk_path_eq hname)) (by
      show Json.int 1 ≠ .null
      decide)
  obtain ⟨t, valid⟩ := exists_parse soundTemplate
  exact ⟨.branch chosen rfl (.path hnick rfl), t, valid, (transform_compositional valid root).2.2.1 _ rfl⟩

end Template

end EventRouting
