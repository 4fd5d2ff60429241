import EventRouting.Proofs.Template.Malformed
import EventRouting.Proofs.Template.Walk

/-!
# Valid templates

A template is faulty or not before any root is there, and one that is not faulty builds from every root.

* `Template.Faulty`      a part of the template is malformed
* `Template.parseAt_justified`, `Template.parseDirective_justified`   reading finds a faulty part, or what it
  gives is where a walk through the value comes to, from every root
* `Template.transform_validity`   all of this about a transform
-/

namespace EventRouting.Template

def Faulty (v : Json) : Prop := ∃ part, Within part v ∧ Malformed part

theorem faulty_iff (v : Json) : Faulty v ↔ Malformed v ∨ ∃ w, Child v w ∧ Faulty w := by
  constructor
  · rintro ⟨part, hw, hm⟩
    cases hw with
    | here => exact .inl hm
    | deeper hc rest => exact .inr ⟨_, hc, part, rest, hm⟩
  · rintro (hm | ⟨w, hc, part, hw, hm⟩)
    · exact ⟨v, Within.here v, hm⟩
    · exact ⟨part, Within.deeper hc hw, hm⟩

/-! ## one lemma per kind of value -/

theorem faulty_arr_iff (vs : List Json) : Faulty (.arr vs) ↔ ∃ v ∈ vs, Faulty v := by
  rw [faulty_iff]
  constructor
  · rintro (⟨members, he, _⟩ | ⟨w, hc, hw⟩)
    · cases he
    · cases hc with
      | item h => exact ⟨w, h, hw⟩
  · rintro ⟨v, hv, hf⟩
    exact .inr ⟨v, Child.item hv, hf⟩

theorem faulty_obj_iff {members : Members Json}
    (plain : ∀ name ∈ members.names, isDirectiveName name = false) :
    Faulty (.obj members) ↔ ∃ m ∈ members, Faulty m.2 := by
  rw [faulty_iff]
  constructor
  · rintro (⟨_, ⟨⟩, ⟨name, hn, hd⟩, _⟩ | ⟨w, hc, hw⟩)
    · rw [plain name hn] at hd
      cases hd
    · cases hc with
      | member _ h => exact ⟨_, h, hw⟩
      | @argument d =>
        have hd := plain d.name (by simp)
        rw [isDirectiveName_name] at hd
        cases hd
  · rintro ⟨⟨k, v⟩, hm, hf⟩
    exact .inr ⟨v, Child.member plain hm, hf⟩

theorem name_inj {d d' : Directive} (h : d.name = d'.name) : d = d' := by
  have hd := Directive.ofName?_name d
  rw [h, Directive.ofName?_name] at hd
  exact (Option.some.inj hd).symm

theorem malformed_directive_iff (d : Directive) (argument : Json) :
    Malformed (.obj [(d.name, argument)]) ↔ ¬ Proper d argument := by
  constructor
  · rintro ⟨_, ⟨⟩, _, hn⟩ hp
    exact hn ⟨d, argument, rfl, hp⟩
  · intro hn
    refine ⟨_, rfl, ⟨d.name, by simp, isDirectiveName_name d⟩, ?_⟩
    rintro ⟨d', argument', he, hp⟩
    simp only [List.cons.injEq, Prod.mk.injEq, and_true] at he
    obtain ⟨hd, rfl⟩ := he
    rw [name_inj hd] at hn
    exact hn hp

theorem faulty_directive_iff (d : Directive) (argument : Json) :
    Faulty (.obj [(d.name, argument)]) ↔
      ¬ Proper d argument ∨ ∃ v, Under d argument v ∧ Faulty v := by
  rw [faulty_iff, malformed_directive_iff]
  refine or_congr_right ⟨?_, ?_⟩
  · rintro ⟨v, hc, hf⟩
    generalize hv : Json.obj [(d.name, argument)] = w at hc
    cases hc with
    | item => cases hv
    | member plain h =>
      cases hv
      have hd := plain d.name (by simp)
      rw [isDirectiveName_name] at hd
      cases hd
    | argument h =>
      simp only [Json.obj.injEq, List.cons.injEq, Prod.mk.injEq, and_true] at hv
      obtain ⟨hd, rfl⟩ := hv
      rw [name_inj hd]
      exact ⟨v, h, hf⟩
  · rintro ⟨v, hu, hf⟩
    exact ⟨v, Child.argument hu, hf⟩

theorem under_choice_iff {argument : Json} {a : ChoiceArgument} (h : IsChoice argument a) (v : Json) :
    Under .choice argument v ↔ v = a.subject ∨ a.yes = some v ∨ a.no = some v := by
  obtain ⟨condition, name, subject, yes, no⟩ := a
  obtain ⟨members, rfl, hc, rfl, rfl⟩ := h
  unfold conditionOf? at hc
  constructor
  · intro hu
    cases hu with
    | choice hk hv =>
      simp only [choiceNames, List.mem_cons, List.not_mem_nil, or_false] at hk
      rcases hk with rfl | rfl | rfl | rfl
      · rw [hv] at hc
        split at hc
        · next he _ =>
          cases he
          cases hc
          exact .inl rfl
        · next he _ => cases he
        · cases hc
      · rw [hv] at hc
        split at hc
        · next hb => cases hb
        · next hb =>
          cases hb
          cases hc
          exact .inl rfl
        · cases hc
      · exact .inr (.inl hv)
      · exact .inr (.inr hv)
  · rintro (rfl | hv | hv)
    · split at hc
      · next he _ =>
        cases hc
        exact Under.choice (by simp [choiceNames]) he
      · next hb =>
        cases hc
        exact Under.choice (by simp [choiceNames]) hb
      · cases hc
    · exact Under.choice (by simp [choiceNames]) hv
    · exact Under.choice (by simp [choiceNames]) hv

theorem under_default_iff {members : Members Json} {v f : Json}
    (hv : Members.get? members "value" = some v) (hf : Members.get? members "fallback" = some f)
    (w : Json) : Under .default (.obj members) w ↔ w = v ∨ w = f := by
  constructor
  · intro hu
    cases hu with
    | default hk hw =>
      simp only [List.mem_cons, List.not_mem_nil, or_false] at hk
      rcases hk with rfl | rfl
      · rw [hv] at hw
        exact .inl (Option.some.inj hw).symm
      · rw [hf] at hw
        exact .inr (Option.some.inj hw).symm
  · rintro (rfl | rfl)
    · exact Under.default (by simp) hv
    · exact Under.default (by simp) hf

theorem under_merge_iff {members : Members Json} {objects : List Json}
    (h : Members.get? members "objects" = some (.arr objects)) (w : Json) :
    Under .merge (.obj members) w ↔ w ∈ objects := by
  constructor
  · intro hu
    cases hu with
    | merge ho hw =>
      rw [h] at ho
      cases ho
      exact hw
  · exact Under.merge h

/-! ## reading and walking -/

/-- a walk through a value comes to what the template resolves to -/
def Stands (v : Json) (t : Template) : Prop := ∀ root, walk v root = .ok (t.resolve root)

abbrev JustifiedFor (v : Json) (r : Except Fault Template) : Prop :=
  Justified (fun t => Stands v t ∧ ¬ Faulty v) (Faulty v) r

theorem Justified.good {α : Type} {good : α → Prop} {bad : Prop} {a : α} (h : Justified good bad (.ok a)) :
    good a := by
  cases h with
  | ok h => exact h

theorem Justified.pass {α β : Type} {good : α → Prop} {good' : β → Prop} {bad bad' : Prop} {f : Fault}
    (h : Justified good bad (.error f)) (hb : bad → bad') : Justified good' bad' (.error f) := by
  cases h with
  | fault text location h => exact Justified.fault text location (hb h)

/-- what is wrong with a directive or below it -/
def Flawed (d : Directive) (argument : Json) : Prop :=
  ¬ Proper d argument ∨ ∃ v, Under d argument v ∧ Faulty v

abbrev JustifiedForDirective (d : Directive) (argument : Json) (r : Except Fault Template) : Prop :=
  Justified (fun t => (∀ root, walkDirective d argument root = .ok (t.resolve root)) ∧ ¬ Flawed d argument)
    (Flawed d argument) r

/-- a bound below which every reading is known to be justified -/
def JustifiedBelow (n : Nat) : Prop := ∀ location v, sizeOf v < n → JustifiedFor v (parseAt location v)

section parts

variable {n : Nat} (ih : JustifiedBelow n)
include ih

theorem parseBranch_justified (location : String) (branch : Option Json)
    (h : ∀ v, branch = some v → sizeOf v < n) :
    Justified (fun t => (∀ root, walkBranch branch root = .ok (t.resolve root)) ∧
        ¬ ∃ v, branch = some v ∧ Faulty v)
      (∃ v, branch = some v ∧ Faulty v) (parseBranch location branch) := by
  rw [parseBranch.eq_def]
  cases branch with
  | none =>
    refine Justified.ok ⟨fun root => ?_, ?_⟩
    · rw [walkBranch, resolve]
    · rintro ⟨_, ⟨⟩, _⟩
  | some v =>
    dsimp only
    rcases (ih location v (h v rfl)).cases with ⟨t, ht, stands, sound⟩ | ⟨text, place, ht, bad⟩
    · rw [ht]
      refine Justified.ok ⟨fun root => stands root, ?_⟩
      rintro ⟨_, ⟨⟩, hf⟩
      exact sound hf
    · rw [ht]
      exact Justified.fault _ _ ⟨v, rfl, bad⟩

theorem parseItems_justified (location : String) (i : Nat) (items : List Json) (h : sizeOf items ≤ n) :
    Justified (fun ts => (∀ root, walkItems items root = .ok (resolveAll ts root)) ∧ ¬ ∃ v ∈ items, Faulty v)
      (∃ v ∈ items, Faulty v) (parseItems location i items) := by
  induction items generalizing i with
  | nil =>
    rw [parseItems]
    refine Justified.ok ⟨fun root => ?_, ?_⟩
    · rw [walkItems, resolveAll]
    · rintro ⟨_, ⟨⟩, _⟩
  | cons v rest ihRest =>
    rw [List.cons.sizeOf_spec] at h
    have hv := ih (location ++ "[" ++ toString i ++ "]") v (by omega)
    have hr := ihRest (i + 1) (by omega)
    rw [parseItems]
    split
    · next e he =>
      rw [he] at hv
      exact hv.pass fun bad => ⟨v, List.mem_cons_self .., bad⟩
    · next t he =>
      rw [he] at hv
      split
      · next e he =>
        rw [he] at hr
        refine hr.pass ?_
        rintro ⟨w, hw, bad⟩
        exact ⟨w, List.mem_cons_of_mem _ hw, bad⟩
      · next ts he =>
        rw [he] at hr
        obtain ⟨stands, sound⟩ := hv.good
        obtain ⟨standsRest, soundRest⟩ := hr.good
        refine Justified.ok ⟨fun root => ?_, ?_⟩
        · rw [walkItems, stands root, standsRest root, resolveAll]
          rfl
        · rintro ⟨w, hw, hf⟩
          rcases List.mem_cons.mp hw with rfl | hw
          · exact sound hf
          · exact soundRest ⟨w, hw, hf⟩

theorem parseMembers_justified (location : String) (members : Members Json) (h : sizeOf members ≤ n) :
    Justified (fun ts => (∀ root, walkMembers members root = .ok (resolveMembers ts root)) ∧
        ¬ ∃ m ∈ members, Faulty m.2)
      (∃ m ∈ members, Faulty m.2) (parseMembers location members) := by
  induction members with
  | nil =>
    rw [parseMembers]
    refine Justified.ok ⟨fun root => ?_, ?_⟩
    · rw [walkMembers, resolveMembers]
    · rintro ⟨_, ⟨⟩, _⟩
  | cons m rest ihRest =>
    obtain ⟨k, v⟩ := m
    rw [List.cons.sizeOf_spec, Prod.mk.sizeOf_spec] at h
    have hv := ih (location ++ "." ++ k) v (by omega)
    have hr := ihRest (by omega)
    rw [parseMembers]
    split
    · next e he =>
      rw [he] at hv
      exact hv.pass fun bad => ⟨(k, v), List.mem_cons_self .., bad⟩
    · next t he =>
      rw [he] at hv
      split
      · next e he =>
        rw [he] at hr
        refine hr.pass ?_
        rintro ⟨w, hw, bad⟩
        exact ⟨w, List.mem_cons_of_mem _ hw, bad⟩
      · next ts he =>
        rw [he] at hr
        obtain ⟨stands, sound⟩ := hv.good
        obtain ⟨standsRest, soundRest⟩ := hr.good
        refine Justified.ok ⟨fun root => ?_, ?_⟩
        · rw [walkMembers, stands root, standsRest root, resolveMembers]
          rfl
        · rintro ⟨w, hw, hf⟩
          rcases List.mem_cons.mp hw with rfl | hw
          · exact sound hf
          · exact soundRest ⟨w, hw, hf⟩

end parts

/-! ## one lemma per directive -/

theorem path_justified (location : String) (argument : Json) :
    JustifiedForDirective .path argument (parseDirective location .path argument) := by
  rw [parseDirective]
  rcases (pathAt_justified location argument).cases with ⟨p, hp, s, rfl, hs⟩ | ⟨text, place, hp, bad⟩
  · rw [hp]
    refine Justified.ok ⟨fun root => ?_, ?_⟩
    · rw [walkDirective, fetchPath_eq_ok hs, resolve]
      rfl
    · rintro (hn | ⟨v, hu, _⟩)
      · exact hn (Proper.path (IsPath.of_reference hs))
      · cases hu
  · rw [hp]
    refine Justified.fault _ _ (.inl fun h => ?_)
    cases h with
    | path h => exact bad h

theorem literal_justified (location : String) (argument : Json) :
    JustifiedForDirective .literal argument (parseDirective location .literal argument) := by
  rw [parseDirective]
  refine Justified.ok ⟨fun root => ?_, ?_⟩
  · rw [walkDirective, resolve]
  · rintro (hn | ⟨v, hu, _⟩)
    · exact hn (Proper.literal argument)
    · cases hu

theorem text_justified (location : String) (argument : Json) :
    JustifiedForDirective .text argument (parseDirective location .text argument) := by
  rw [parseDirective.eq_def]
  dsimp only
  split
  · next s =>
    refine Justified.ok ⟨fun root => ?_, ?_⟩
    · rw [walkDirective, resolve]
    · rintro (hn | ⟨v, hu, _⟩)
      · exact hn (Proper.text s)
      · cases hu
  · next hne =>
    refine Justified.fault _ _ (.inl fun h => ?_)
    cases h with
    | text s => exact hne s rfl

section directives

variable {argument : Json} (ih : JustifiedBelow (sizeOf argument))
include ih

theorem choice_justified (location : String) :
    JustifiedForDirective .choice argument (parseDirective location .choice argument) := by
  have hc := choiceArgument_justified location argument
  rw [parseDirective]
  split
  · next e he =>
    rw [he] at hc
    exact hc.pass .inl
  · next a he =>
    rw [he] at hc
    obtain ⟨parts, proper⟩ := hc.good
    have under := under_choice_iff parts
    obtain ⟨smaller, smallerYes, smallerNo⟩ := choiceArgument_sizeOf he
    have hs := ih (location ++ "." ++ a.name) a.subject smaller
    have hy := parseBranch_justified ih (location ++ ".then") a.yes smallerYes
    have hn := parseBranch_justified ih (location ++ ".else") a.no smallerNo
    split
    · next e he =>
      rw [he] at hs
      exact hs.pass fun bad => .inr ⟨a.subject, (under _).mpr (.inl rfl), bad⟩
    · next subject he =>
      rw [he] at hs
      split
      · next e he =>
        rw [he] at hy
        refine hy.pass ?_
        rintro ⟨v, hv, bad⟩
        exact .inr ⟨v, (under v).mpr (.inr (.inl hv)), bad⟩
      · next yes he =>
        rw [he] at hy
        split
        · next e he =>
          rw [he] at hn
          refine hn.pass ?_
          rintro ⟨v, hv, bad⟩
          exact .inr ⟨v, (under v).mpr (.inr (.inr hv)), bad⟩
        · next no he =>
          rw [he] at hn
          obtain ⟨stands, sound⟩ := hs.good
          obtain ⟨standsYes, soundYes⟩ := hy.good
          obtain ⟨standsNo, soundNo⟩ := hn.good
          refine Justified.ok ⟨fun root => ?_, ?_⟩
          · obtain ⟨members, rfl, question, hyes, hno⟩ := parts
            rw [hyes] at standsYes
            rw [hno] at standsNo
            rw [walkDirective_choice question (stands root) (standsYes root) (standsNo root), resolve]
          · rintro (bad | ⟨v, hu, hf⟩)
            · exact bad proper
            · rcases (under v).mp hu with rfl | hv | hv
              · exact sound hf
              · exact soundYes ⟨v, hv, hf⟩
              · exact soundNo ⟨v, hv, hf⟩

theorem default_justified (location : String) :
    JustifiedForDirective .default argument (parseDirective location .default argument) := by
  have hc := defaultArgument_justified location argument
  rw [parseDirective]
  split
  · next e he =>
    rw [he] at hc
    exact hc.pass .inl
  · next v f he =>
    rw [he] at hc
    obtain ⟨⟨members, rfl, hv, hf⟩, proper⟩ := hc.good
    have under := under_default_iff hv hf
    obtain ⟨smallerValue, smallerFallback⟩ := defaultArgument_sizeOf he
    have hd := ih (location ++ ".value") v smallerValue
    have hb := ih (location ++ ".fallback") f smallerFallback
    split
    · next e he =>
      rw [he] at hd
      exact hd.pass fun bad => .inr ⟨v, (under v).mpr (.inl rfl), bad⟩
    · next value he =>
      rw [he] at hd
      split
      · next e he =>
        rw [he] at hb
        exact hb.pass fun bad => .inr ⟨f, (under f).mpr (.inr rfl), bad⟩
      · next fallback he =>
        rw [he] at hb
        obtain ⟨stands, sound⟩ := hd.good
        obtain ⟨standsFallback, soundFallback⟩ := hb.good
        refine Justified.ok ⟨fun root => ?_, ?_⟩
        · rw [walkDirective_default hv hf (stands root) (standsFallback root), resolve]
        · rintro (bad | ⟨w, hu, hw⟩)
          · exact bad proper
          · rcases (under w).mp hu with rfl | rfl
            · exact sound hw
            · exact soundFallback hw

theorem merge_justified (location : String) :
    JustifiedForDirective .merge argument (parseDirective location .merge argument) := by
  have hc := mergeArgument_justified location argument
  rw [parseDirective]
  split
  · next e he =>
    rw [he] at hc
    exact hc.pass .inl
  · next direction objects he =>
    rw [he] at hc
    obtain ⟨⟨members, rfl, ho, hd⟩, proper⟩ := hc.good
    have under := under_merge_iff ho
    have hi := parseItems_justified ih (location ++ ".objects") 0 objects
      (Nat.le_of_lt (mergeArgument_sizeOf he))
    split
    · next e he =>
      rw [he] at hi
      refine hi.pass ?_
      rintro ⟨v, hv, bad⟩
      exact .inr ⟨v, (under v).mpr hv, bad⟩
    · next ts he =>
      rw [he] at hi
      obtain ⟨stands, sound⟩ := hi.good
      refine Justified.ok ⟨fun root => ?_, ?_⟩
      · rw [walkDirective_merge ho hd (stands root), resolve]
      · rintro (bad | ⟨v, hu, hf⟩)
        · exact bad proper
        · exact sound ⟨v, (under v).mp hu, hf⟩

theorem items_justified (location : String) :
    JustifiedForDirective .items argument (parseDirective location .items argument) := by
  have hc := itemsArgument_justified location argument
  rw [parseDirective]
  split
  · next e he =>
    rw [he] at hc
    exact hc.pass .inl
  · next p he =>
    rw [he] at hc
    obtain ⟨⟨s, hs, rfl⟩, proper⟩ := hc.good
    refine Justified.ok ⟨fun root => walkDirective_items hs, ?_⟩
    rintro (bad | ⟨v, hu, _⟩)
    · exact bad proper
    · cases hu
  · next p item he =>
    rw [he] at hc
    obtain ⟨⟨s, hs, rfl⟩, proper⟩ := hc.good
    have hi := ih (location ++ "[1]") item (itemsArgument_sizeOf he)
    split
    · next e he =>
      rw [he] at hi
      exact hi.pass fun bad => .inr ⟨item, Under.each, bad⟩
    · next t he =>
      rw [he] at hi
      obtain ⟨stands, sound⟩ := hi.good
      refine Justified.ok ⟨fun root => walkDirective_each hs stands, ?_⟩
      rintro (bad | ⟨v, hu, hf⟩)
      · exact bad proper
      · cases hu with
        | each => exact sound hf

theorem parseDirective_justified (location : String) (d : Directive) :
    JustifiedForDirective d argument (parseDirective location d argument) := by
  cases d with
  | path => exact path_justified location argument
  | literal => exact literal_justified location argument
  | text => exact text_justified location argument
  | choice => exact choice_justified ih location
  | default => exact default_justified ih location
  | merge => exact merge_justified ih location
  | items => exact items_justified ih location

end directives

theorem parseAt_directive (location : String) (d : Directive) (argument : Json) :
    parseAt location (.obj [(d.name, argument)]) = parseDirective (location ++ "." ++ d.name) d argument := by
  rw [parseAt]
  split
  · next he =>
    rw [directive?_name] at he
    cases he
  · next he =>
    rw [directive?_name] at he
    cases he
  · next he =>
    rw [directive?_name] at he
    cases he
    rfl

theorem parseDirective_path (location : String) {s : String} {p : Path} (hp : Path.ofReference? s = some p) :
    parseDirective location .path (.str s) = .ok (.path p) := by
  rw [parseDirective]
  simp only [pathAt, hp]

theorem parseDirective_each (location : String) {s : String} {p : Path} {item : Json} {t : Template}
    (hp : Path.ofReference? s = some p) (ht : parseAt (location ++ "[1]") item = .ok t) :
    parseDirective location .items (.arr [.str s, item]) = .ok (.each p t) := by
  have hargument : itemsArgument location (.arr [.str s, item]) = .ok (p, some item) := by
    simp only [itemsArgument, pathAt, hp, Except.map]
  rw [parseDirective]
  split
  · next he =>
    rw [hargument] at he
    cases he
  · next he =>
    rw [hargument] at he
    cases he
  · next he =>
    rw [hargument] at he
    cases he
    rw [ht]

/-! ## templates -/

theorem obj_justified (location : String) (members : Members Json) (ih : JustifiedBelow (sizeOf (Json.obj members))) :
    JustifiedFor (.obj members) (parseAt location (.obj members)) := by
  have hd := directive?_justified location members
  rw [parseAt]
  split
  · next e he =>
    rw [he] at hd
    refine hd.pass ?_
    rintro ⟨name, hn, hs, alone⟩
    refine (faulty_iff _).mpr (.inl ⟨members, rfl, ⟨name, hn, hs⟩, ?_⟩)
    rintro ⟨d, argument, hm, _⟩
    exact alone d argument hm
  · next he =>
    rw [he] at hd
    have plain : ∀ name ∈ members.names, isDirectiveName name = false := by
      rcases hd.good with ⟨_, plain⟩ | ⟨d, argument, ⟨⟩, _⟩
      exact plain
    have hm := parseMembers_justified ih location members (by simp only [Json.obj.sizeOf_spec]; omega)
    split
    · next e he =>
      rw [he] at hm
      exact hm.pass (faulty_obj_iff plain).mpr
    · next ts he =>
      rw [he] at hm
      obtain ⟨stands, sound⟩ := hm.good
      refine Justified.ok ⟨fun root => ?_, fun hf => sound ((faulty_obj_iff plain).mp hf)⟩
      rw [walk_obj plain (stands root), resolve]
  · next d argument he =>
    rw [he] at hd
    obtain ⟨d', argument', ⟨⟩, rfl⟩ : ∃ d' argument', some (d, argument) = some (d', argument') ∧
        members = [(Directive.name d', argument')] := by
      rcases hd.good with ⟨⟨⟩, _⟩ | h
      exact h
    have below : JustifiedBelow (sizeOf argument) := fun location v hv =>
      ih location v (by simp only [Json.obj.sizeOf_spec, List.cons.sizeOf_spec, Prod.mk.sizeOf_spec]; omega)
    rcases (parseDirective_justified below (location ++ "." ++ d.name) d).cases with
      ⟨t, ht, stands, sound⟩ | ⟨text, place, ht, bad⟩
    · rw [ht]
      refine Justified.ok ⟨fun root => walk_directive (stands root), fun hf => ?_⟩
      exact sound ((faulty_directive_iff d argument).mp hf)
    · rw [ht]
      exact Justified.fault _ _ ((faulty_directive_iff d argument).mpr bad)

theorem arr_justified (location : String) (vs : List Json) (ih : JustifiedBelow (sizeOf (Json.arr vs))) :
    JustifiedFor (.arr vs) (parseAt location (.arr vs)) := by
  have hi := parseItems_justified ih location 0 vs (by simp only [Json.arr.sizeOf_spec]; omega)
  rw [parseAt]
  split
  · next e he =>
    rw [he] at hi
    exact hi.pass (faulty_arr_iff vs).mpr
  · next ts he =>
    rw [he] at hi
    obtain ⟨stands, sound⟩ := hi.good
    refine Justified.ok ⟨fun root => ?_, fun hf => sound ((faulty_arr_iff vs).mp hf)⟩
    rw [walk_arr (stands root), resolve]

/-- **Reading a value**: a faulty part, or a template that every walk agrees with. -/
theorem parseAt_justified (location : String) (v : Json) : JustifiedFor v (parseAt location v) := by
  have ih : JustifiedBelow (sizeOf v) := fun location w _ => parseAt_justified location w
  cases v with
  | obj members => exact obj_justified location members ih
  | arr vs => exact arr_justified location vs ih
  | null | bool | num | str =>
    simp only [parseAt]
    refine Justified.ok ⟨fun root => ?_, fun hf => ?_⟩
    · rw [walk, resolve]
      simp [lone?]
    · rcases (faulty_iff _).mp hf with ⟨_, ⟨⟩, _⟩ | ⟨w, hc, _⟩
      cases hc
termination_by sizeOf v

/-- **Validity**: a transform fails exactly when reading the template fails, with the same fault for
every root, and exactly when a part of the template is malformed.  When reading succeeds, the walk
through the template stops for no root, and the transform gives what it comes to. -/
theorem transform_validity (template : Json) :
    (∀ root, (∃ f, template.transform root = .error f) ↔ ∃ f, parse template = .error f) ∧
    (∀ root f, template.transform root = .error f →
      (∃ text location, f = .transform text location) ∧ ∀ other, template.transform other = .error f) ∧
    (∀ root, (∃ f, template.transform root = .error f) ↔ ∃ part, Within part template ∧ Malformed part) ∧
    ∀ t, parse template = .ok t → ∀ root,
      ∃ draft, walk template root = .ok draft ∧ template.transform root = .ok (draft.settle.getD .null) := by
  unfold Json.transform
  rcases (parseAt_justified "$" template).cases with ⟨t, ht, stands, sound⟩ | ⟨text, location, hf, bad⟩
  · rw [show parse template = .ok t from ht]
    refine ⟨fun root => ?_, fun root f h => ?_, fun root => ?_, fun t' h root => ?_⟩
    · constructor
      · rintro ⟨f, ⟨⟩⟩
      · rintro ⟨f, ⟨⟩⟩
    · cases h
    · constructor
      · rintro ⟨f, ⟨⟩⟩
      · intro h
        exact absurd h sound
    · cases h
      exact ⟨t.resolve root, stands root, rfl⟩
  · rw [show parse template = .error (.transform text location) from hf]
    refine ⟨fun root => ⟨fun _ => ⟨_, rfl⟩, fun _ => ⟨_, rfl⟩⟩, fun root f h => ?_, fun root => ?_, fun t h => ?_⟩
    · cases h
      exact ⟨⟨text, location, rfl⟩, fun _ => rfl⟩
    · exact ⟨fun _ => bad, fun _ => ⟨_, rfl⟩⟩
    · cases h

end EventRouting.Template
