import EventRouting.Proofs.Path.Reference
import EventRouting.Template.Parse
import Mathlib.Data.List.Basic

/-!
# Malformed templates

What is wrong with a template, told without a reader.

* `Template.Proper`         the arguments that a directive takes
* `Template.Malformed`      an object with the name of a directive that is none
* `Template.Under`, `Template.Child`   the parts right below an argument, and below a value
* `Template.Within`         the parts of a template at any depth; what is under `@literal` is none of them
* `Template.Justified`      what a reader comes to: something good, or a fault and then something is bad
* `Template.directive?_justified`, `Template.pathAt_justified`, `Template.choiceArgument_justified`,
  `Template.defaultArgument_justified`, `Template.mergeArgument_justified`, `Template.itemsArgument_justified`
-/

namespace EventRouting.Template

/-! ## directives -/

def IsPath (v : Json) : Prop := ∃ s, v = .str s ∧ Path.isReference s = true

def choiceNames : List String := ["exists", "blank", "then", "else"]

inductive Proper : Directive → Json → Prop where
  | path {v : Json} (h : IsPath v) : Proper .path v
  | literal (v : Json) : Proper .literal v
  | text (s : String) : Proper .text (.str s)
  | choice {members : Members Json} (one : "exists" ∈ members.names ↔ "blank" ∉ members.names)
      (names : ∀ k ∈ members.names, k ∈ choiceNames) : Proper .choice (.obj members)
  | default {members : Members Json} (names : members.names.Perm ["value", "fallback"]) :
      Proper .default (.obj members)
  | merge {members : Members Json} {objects : List Json} (h : members.get? "objects" = some (.arr objects))
      (direction : ∀ v, members.get? "direction" = some v → v = .str "left" ∨ v = .str "right") :
      Proper .merge (.obj members)
  | items {v : Json} (h : IsPath v) : Proper .items (.arr [v])
  | each {v item : Json} (h : IsPath v) : Proper .items (.arr [v, item])

/-- An object with the name of a directive that is not just one directive with a proper argument. -/
def Malformed (v : Json) : Prop :=
  ∃ members : Members Json, v = .obj members ∧ (∃ name ∈ members.names, isDirectiveName name = true) ∧
    ¬ ∃ d argument, members = [(Directive.name d, argument)] ∧ Proper d argument

/-! ## parts -/

/-- the templates right below an argument -/
inductive Under : Directive → Json → Json → Prop where
  | choice {members : Members Json} {k : String} {v : Json} (hk : k ∈ choiceNames)
      (h : members.get? k = some v) : Under .choice (.obj members) v
  | default {members : Members Json} {k : String} {v : Json} (hk : k ∈ ["value", "fallback"])
      (h : members.get? k = some v) : Under .default (.obj members) v
  | merge {members : Members Json} {objects : List Json} {v : Json}
      (h : members.get? "objects" = some (.arr objects)) (hv : v ∈ objects) :
      Under .merge (.obj members) v
  | each {p v : Json} : Under .items (.arr [p, v]) v

/-- the templates right below a value -/
inductive Child : Json → Json → Prop where
  | item {vs : List Json} {v : Json} (h : v ∈ vs) : Child (.arr vs) v
  | member {members : Members Json} {k : String} {v : Json}
      (plain : ∀ name ∈ members.names, isDirectiveName name = false) (h : (k, v) ∈ members) :
      Child (.obj members) v
  | argument {d : Directive} {argument v : Json} (h : Under d argument v) :
      Child (.obj [(d.name, argument)]) v

/-- `Within part v`: the part stands somewhere in the template `v` -/
inductive Within : Json → Json → Prop where
  | here (v : Json) : Within v v
  | deeper {part v w : Json} (h : Child w v) (rest : Within part v) : Within part w

/-! ## the readers of arguments -/

/-- What a reader comes to: something good, or a fault of the template, and then something is bad. -/
inductive Justified {α : Type} (good : α → Prop) (bad : Prop) : Except Fault α → Prop where
  | ok {a : α} (h : good a) : Justified good bad (.ok a)
  | fault (text location : String) (h : bad) : Justified good bad (.error (.transform text location))

theorem Justified.cases {α : Type} {good : α → Prop} {bad : Prop} {r : Except Fault α} (h : Justified good bad r) :
    (∃ a, r = .ok a ∧ good a) ∨ ∃ text location, r = .error (.transform text location) ∧ bad := by
  cases h with
  | ok h => exact .inl ⟨_, rfl, h⟩
  | fault text location h => exact .inr ⟨text, location, rfl, h⟩

theorem isDirectiveName_name (d : Directive) : isDirectiveName d.name = true := by
  cases d <;> rfl

theorem ofName?_eq_some {name : String} {d : Directive} (h : Directive.ofName? name = some d) :
    name = d.name := by
  unfold Directive.ofName? at h
  split at h <;> cases h <;> rfl

/-- Members and a directive are not told apart by more than the names. -/
theorem directive?_justified (location : String) (members : Members Json) :
    Justified (fun o => (o = none ∧ ∀ name ∈ members.names, isDirectiveName name = false) ∨
        ∃ d argument, o = some (d, argument) ∧ members = [(Directive.name d, argument)])
      (∃ name ∈ members.names, isDirectiveName name = true ∧
        ∀ d argument, members ≠ [(Directive.name d, argument)]) (directive? location members) := by
  unfold directive?
  split
  · next hnone =>
    refine Justified.ok (.inl ⟨rfl, fun name hn => ?_⟩)
    have h := List.find?_eq_none.mp hnone name hn
    exact Bool.eq_false_iff.mpr h
  · next name hsome =>
    have hname : isDirectiveName name = true := List.find?_some hsome
    have hmem := List.mem_of_find?_eq_some hsome
    split
    · next k argument =>
      obtain rfl : name = k := List.mem_singleton.mp hmem
      split
      · next d hd =>
        rw [ofName?_eq_some hd]
        exact Justified.ok (.inr ⟨d, argument, rfl, rfl⟩)
      · next hd =>
        refine Justified.fault _ _ ⟨name, hmem, hname, ?_⟩
        intro d a he
        obtain ⟨rfl, _⟩ := Prod.mk.inj (List.cons.inj he).1
        rw [Directive.ofName?_name] at hd
        cases hd
    · next hne =>
      exact Justified.fault _ _ ⟨name, hmem, hname, fun d a he => hne _ _ he⟩

theorem directive?_name (location : String) (d : Directive) (argument : Json) :
    directive? location [(d.name, argument)] = .ok (some (d, argument)) := by
  have hname : List.find? isDirectiveName (Members.names [(d.name, argument)]) = some d.name :=
    List.find?_cons_of_pos (isDirectiveName_name d)
  unfold directive?
  rw [hname]
  dsimp only
  rw [Directive.ofName?_name]

theorem pathAt_justified (location : String) (v : Json) :
    Justified (fun p => ∃ s, v = .str s ∧ Path.ofReference? s = some p) (¬ IsPath v) (pathAt location v) := by
  unfold pathAt
  split
  · next s =>
    split
    · next p hp => exact Justified.ok ⟨s, rfl, hp⟩
    · next hp =>
      refine Justified.fault _ _ ?_
      rintro ⟨_, ⟨⟩, hs⟩
      obtain ⟨p, hp'⟩ := (Path.isReference_iff s).mp hs
      rw [hp] at hp'
      cases hp'
  · next hne =>
    refine Justified.fault _ _ ?_
    rintro ⟨s, rfl, _⟩
    exact hne s rfl

theorem IsPath.of_reference {s : String} {p : Path} (h : Path.ofReference? s = some p) : IsPath (.str s) :=
  ⟨s, rfl, (Path.isReference_iff s).mpr ⟨p, h⟩⟩

theorem conditionOf?_eq_none_iff (members : Members Json) :
    conditionOf? members = none ↔ ¬ ("exists" ∈ members.names ↔ "blank" ∉ members.names) := by
  rw [Members.mem_names_iff, Members.mem_names_iff]
  unfold conditionOf?
  cases members.get? "exists" <;> cases members.get? "blank" <;> simp

theorem unexpectedNames_isEmpty_iff (members : Members Json) :
    (unexpectedNames members).isEmpty = true ↔ ∀ k ∈ members.names, k ∈ choiceNames := by
  unfold unexpectedNames choiceNames
  rw [List.isEmpty_iff, ← List.length_eq_zero_iff, List.length_mergeSort, List.length_eq_zero_iff,
    List.filter_eq_nil_iff]
  refine forall_congr' fun k => forall_congr' fun _ => ?_
  cases h : ["exists", "blank", "then", "else"].contains k
  · simpa using h
  · simpa using h

def IsChoice (argument : Json) (a : ChoiceArgument) : Prop :=
  ∃ members : Members Json, argument = .obj members ∧
    conditionOf? members = some (a.condition, a.name, a.subject) ∧ a.yes = members.get? "then" ∧
    a.no = members.get? "else"

theorem choiceArgument_justified (location : String) (argument : Json) :
    Justified (fun a => IsChoice argument a ∧ Proper .choice argument) (¬ Proper .choice argument)
      (choiceArgument location argument) := by
  unfold choiceArgument
  split
  · next members =>
    split
    · next hc =>
      refine Justified.fault _ _ fun h => ?_
      cases h with
      | choice one names => exact (conditionOf?_eq_none_iff members).mp hc one
    · next condition name subject hc =>
      have one : "exists" ∈ Members.names members ↔ "blank" ∉ Members.names members := by
        refine Classical.byContradiction fun hn => ?_
        rw [(conditionOf?_eq_none_iff members).mpr hn] at hc
        cases hc
      dsimp only
      split
      · next he =>
        have names := (unexpectedNames_isEmpty_iff members).mp he
        exact Justified.ok ⟨⟨members, rfl, hc, rfl, rfl⟩, Proper.choice one names⟩
      · next he =>
        refine Justified.fault _ _ fun h => ?_
        cases h with
        | choice one names => exact he ((unexpectedNames_isEmpty_iff members).mpr names)
  · next hne =>
    refine Justified.fault _ _ fun h => ?_
    cases h with
    | choice one names => exact hne _ rfl

/-- Two names, each there, are all the names if there are two. -/
theorem names_perm_iff (members : Members Json) :
    members.names.Perm ["value", "fallback"] ↔
      members.length = 2 ∧ "value" ∈ members.names ∧ "fallback" ∈ members.names := by
  constructor
  · intro h
    have hl : members.names.length = 2 := h.length_eq
    rw [Members.names, List.length_map] at hl
    exact ⟨hl, h.mem_iff.mpr (by simp), h.mem_iff.mpr (by simp)⟩
  · rintro ⟨hl, hv, hf⟩
    obtain ⟨⟨k, v⟩, ⟨k', v'⟩, rfl⟩ := List.length_eq_two.mp hl
    simp only [Members.names_cons, Members.names_nil, List.mem_cons, List.not_mem_nil, or_false] at hv hf
    rcases hv with rfl | rfl
    · rcases hf with h | rfl
      · exact absurd h (by decide)
      · exact List.Perm.refl _
    · rcases hf with rfl | h
      · exact List.Perm.swap _ _ _
      · exact absurd h (by decide)

theorem defaultArgument_justified (location : String) (argument : Json) :
    Justified (fun a => (∃ members : Members Json, argument = .obj members ∧
        members.get? "value" = some a.1 ∧ members.get? "fallback" = some a.2) ∧ Proper .default argument)
      (¬ Proper .default argument) (defaultArgument location argument) := by
  unfold defaultArgument
  dsimp only
  split
  · next members =>
    split
    · next v f hv hf =>
      split
      · next hl =>
        have names := (names_perm_iff members).mpr
          ⟨hl, (Members.mem_names_iff members _).mpr ⟨v, hv⟩, (Members.mem_names_iff members _).mpr ⟨f, hf⟩⟩
        exact Justified.ok ⟨⟨members, rfl, hv, hf⟩, Proper.default names⟩
      · next hl =>
        refine Justified.fault _ _ fun h => ?_
        cases h with
        | default names => exact hl ((names_perm_iff members).mp names).1
    · next hne =>
      refine Justified.fault _ _ fun h => ?_
      cases h with
      | default names =>
        obtain ⟨_, hv, hf⟩ := (names_perm_iff members).mp names
        obtain ⟨v, hv⟩ := (Members.mem_names_iff members _).mp hv
        obtain ⟨f, hf⟩ := (Members.mem_names_iff members _).mp hf
        exact hne v f hv hf
  · next hne =>
    refine Justified.fault _ _ fun h => ?_
    cases h with
    | default names => exact hne _ rfl

theorem directionOf?_eq_none_iff (members : Members Json) :
    directionOf? members = none ↔
      ¬ ∀ v, members.get? "direction" = some v → v = .str "left" ∨ v = .str "right" := by
  unfold directionOf?
  split
  · next h => simp [h]
  · next h => simp [h]
  · next h => simp [h]
  · next v hr hl h =>
    refine ⟨fun _ all => ?_, fun _ => rfl⟩
    rcases all v h with rfl | rfl
    · exact hl rfl
    · exact hr rfl

theorem mergeArgument_justified (location : String) (argument : Json) :
    Justified (fun a => (∃ members : Members Json, argument = .obj members ∧
        members.get? "objects" = some (.arr a.2) ∧ directionOf? members = some a.1) ∧
          Proper .merge argument)
      (¬ Proper .merge argument) (mergeArgument location argument) := by
  unfold mergeArgument
  dsimp only
  split
  · next members =>
    split
    · next objects ho =>
      split
      · next direction hd =>
        refine Justified.ok ⟨⟨members, rfl, ho, hd⟩, Proper.merge ho ?_⟩
        refine Classical.byContradiction fun hn => ?_
        rw [(directionOf?_eq_none_iff members).mpr hn] at hd
        cases hd
      · next hd =>
        refine Justified.fault _ _ fun h => ?_
        cases h with
        | merge _ direction => exact (directionOf?_eq_none_iff members).mp hd direction
    · next hne =>
      refine Justified.fault _ _ fun h => ?_
      cases h with
      | merge ho _ => exact hne _ ho
  · next hne =>
    refine Justified.fault _ _ fun h => ?_
    cases h with
    | merge _ _ => exact hne _ rfl

theorem itemsArgument_justified (location : String) (argument : Json) :
    Justified (fun a => (∃ s, Path.ofReference? s = some a.1 ∧
        argument = .arr (.str s :: a.2.toList)) ∧ Proper .items argument)
      (¬ Proper .items argument) (itemsArgument location argument) := by
  unfold itemsArgument
  split
  · next v =>
    rcases (pathAt_justified (location ++ "[0]") v).cases with ⟨p, hp, s, rfl, hs⟩ | ⟨text, place, hp, bad⟩
    · rw [hp]
      exact Justified.ok ⟨⟨s, hs, rfl⟩, Proper.items (IsPath.of_reference hs)⟩
    · rw [hp]
      refine Justified.fault _ _ fun h => ?_
      cases h with
      | items h => exact bad h
  · next v item =>
    rcases (pathAt_justified (location ++ "[0]") v).cases with ⟨p, hp, s, rfl, hs⟩ | ⟨text, place, hp, bad⟩
    · rw [hp]
      exact Justified.ok ⟨⟨s, hs, rfl⟩, Proper.each (IsPath.of_reference hs)⟩
    · rw [hp]
      refine Justified.fault _ _ fun h => ?_
      cases h with
      | each h => exact bad h
  · next h1 h2 =>
    refine Justified.fault _ _ fun h => ?_
    cases h with
    | items _ => exact h1 _ rfl
    | each _ => exact h2 _ _ rfl

end EventRouting.Template
