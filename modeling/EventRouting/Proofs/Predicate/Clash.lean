import EventRouting.Json.Names
import EventRouting.Predicate.Parse

/-!
# Values that are looked up

The type and the operator of a predicate given as an object are looked up among those that are known, and
a list or an object cannot be looked up.

* `Closed`                what a reader comes to: something good, a fault of its own, or a clash
* `Predicate.AsksField`, `Predicate.AsksTest`, `Predicate.Groups`, `Predicate.Negates`
                          what an object stands for, told by its members
* `Predicate.Misshapen`   an object with a list or an object where a word is looked up
* `Predicate.Clashes`     a predicate whose reading comes to such an object
* `Predicate.decodeAt_closed`, `Predicate.Clashes.decodeAt`   the decoder at any place
* `Predicate.parse_closed`, `Predicate.Clashes.parse`         predicates in either form
-/

namespace EventRouting

/-! ## readers -/

/-- What a reader comes to: something good, a fault of its own, or a value of the wrong shape and then
there is a clash. -/
inductive Closed {α : Type} (good : α → Prop) (own : Fault → Prop) (clash : Prop) : Except Fault α → Prop where
  | ok {a : α} (h : good a) : Closed good own clash (.ok a)
  | fault {e : Fault} (h : own e) : Closed good own clash (.error e)
  | wrongShape (h : clash) : Closed good own clash (.error .wrongShape)

namespace Closed

variable {α β : Type} {good : α → Prop} {own own' : Fault → Prop} {clash clash' : Prop} {r : Except Fault α}

theorem cases (h : Closed good own clash r) :
    (∃ a, r = .ok a ∧ good a) ∨ (∃ e, r = .error e ∧ own e) ∨ r = .error .wrongShape ∧ clash := by
  cases h with
  | ok h => exact .inl ⟨_, rfl, h⟩
  | fault h => exact .inr (.inl ⟨_, rfl, h⟩)
  | wrongShape h => exact .inr (.inr ⟨rfl, h⟩)

theorem wrongShape_iff (h : Closed good own clash r) (ne : ¬ own .wrongShape)
    (hc : clash → r = .error .wrongShape) : r = .error .wrongShape ↔ clash := by
  refine ⟨fun hr => ?_, hc⟩
  rcases h.cases with ⟨a, ha, _⟩ | ⟨e, he, hown⟩ | ⟨_, hclash⟩
  · cases ha.symm.trans hr
  · cases he.symm.trans hr
    exact absurd hown ne
  · exact hclash

theorem good_of_ok {a : α} (h : Closed good own clash r) (hr : r = .ok a) : good a := by
  cases h with
  | ok h => exact Except.ok.inj hr ▸ h
  | fault => cases hr
  | wrongShape => cases hr

theorem result (h : Closed good own clash r) : Closed (fun a => r = .ok a) own clash r := by
  cases h with
  | ok _ => exact .ok rfl
  | fault h => exact .fault h
  | wrongShape h => exact .wrongShape h

theorem mono (h : Closed good own clash r) (hc : clash → clash') : Closed good own clash' r := by
  cases h with
  | ok h => exact .ok h
  | fault h => exact .fault h
  | wrongShape h => exact .wrongShape (hc h)

theorem mono_own (h : Closed good own clash r) (ho : ∀ e, own e → own' e) : Closed good own' clash r := by
  cases h with
  | ok h => exact .ok h
  | fault h => exact .fault (ho _ h)
  | wrongShape h => exact .wrongShape h

theorem bind {good' : β → Prop} {f : α → Except Fault β} (h : Closed good own clash r)
    (hf : ∀ a, good a → Closed good' own clash (f a)) : Closed good' own clash (r >>= f) := by
  cases h with
  | ok h => exact hf _ h
  | fault h => exact .fault h
  | wrongShape h => exact .wrongShape h

end Closed

/-- The first item that is not good is bad. -/
def FirstBad (good bad : Json → Prop) (items : List Json) : Prop :=
  ∃ before item after, items = before ++ item :: after ∧ (∀ v ∈ before, good v) ∧ bad item

theorem FirstBad.here {good bad : Json → Prop} {v : Json} (rest : List Json) (h : bad v) :
    FirstBad good bad (v :: rest) :=
  ⟨[], v, rest, rfl, fun _ hm => absurd hm List.not_mem_nil, h⟩

theorem FirstBad.later {good bad : Json → Prop} {v : Json} {rest : List Json} (hv : good v)
    (h : FirstBad good bad rest) : FirstBad good bad (v :: rest) := by
  obtain ⟨before, item, after, rfl, hgood, hbad⟩ := h
  exact ⟨v :: before, item, after, rfl, List.forall_mem_cons.mpr ⟨hv, hgood⟩, hbad⟩

/-- The items of a list are read one after the other, at places that follow each other. -/
structure Itemwise {ι α : Type} (next : ι → ι) (one : ι → Json → Except Fault α)
    (all : ι → List Json → Except Fault (List α)) : Prop where
  nil : ∀ i, all i [] = .ok []
  cons : ∀ i v rest, all i (v :: rest) = (do
    let a ← one i v
    let as ← all (next i) rest
    return a :: as)

namespace Itemwise

variable {ι α : Type} {next : ι → ι} {one : ι → Json → Except Fault α}
  {all : ι → List Json → Except Fault (List α)} {good : Json → α → Prop} {bad : Json → Prop}
  {own : Fault → Prop}

theorem closed (h : Itemwise next one all) (anywhere : ∀ v a, good v a → ∀ i, one i v = .ok a)
    {items : List Json} (hone : ∀ v ∈ items, ∀ i, Closed (good v) own (bad v) (one i v)) (i : ι) :
    Closed (fun as => ∀ j, all j items = .ok as) own (FirstBad (fun v => ∃ a, good v a) bad items)
      (all i items) := by
  induction items generalizing i with
  | nil =>
    rw [h.nil]
    exact .ok h.nil
  | cons v rest ih =>
    rw [h.cons]
    have first : Closed _ own (FirstBad (fun v => ∃ a, good v a) bad (v :: rest)) _ :=
      (hone v (List.mem_cons_self ..) i).mono (FirstBad.here rest)
    refine first.bind fun a ha => ?_
    have others := (ih (fun w hw => hone w (List.mem_cons_of_mem _ hw)) (next i)).mono
      (FirstBad.later ⟨a, ha⟩)
    refine others.bind fun as has => .ok fun j => ?_
    rw [h.cons, anywhere v a ha, has]
    rfl

theorem wrongShape (h : Itemwise next one all) {before after : List Json} {item : Json}
    (hbefore : ∀ v ∈ before, ∀ i, ∃ a, one i v = .ok a) (hitem : ∀ i, one i item = .error .wrongShape) (i : ι) :
    all i (before ++ item :: after) = .error .wrongShape := by
  induction before generalizing i with
  | nil =>
    show all i (item :: after) = _
    rw [h.cons, hitem]
    rfl
  | cons v before ih =>
    obtain ⟨a, ha⟩ := hbefore v (List.mem_cons_self ..) i
    show all i (v :: (before ++ item :: after)) = _
    rw [h.cons, ha, ih (fun w hw => hbefore w (List.mem_cons_of_mem _ hw)) (next i)]
    rfl

end Itemwise

namespace Predicate

def IsUnreadable (e : Fault) : Prop := ∃ text position, e = .predicateParse text position

theorem isUnreadable (text : String) : IsUnreadable (unreadable text) := ⟨text, none, rfl⟩

/-! ## objects -/

def fixedFields : List (String × Path) :=
  [("event-type", [.name "type"]), ("event", [.name "event"]), ("name", [.name "name"])]

/-- the types of named fields, with what their names are under -/
def scopes : List (String × Path) :=
  [("event-property", [.name "properties"]), ("event-trait", [.name "traits"]),
    ("event-context", [.name "context"]), ("field", [])]

/-- The type is one of a fixed field, or one of named fields with a name. -/
inductive AsksField (members : Members Json) : Path → Prop where
  | fixed {word : String} {path : Path} (type : members.get? "type" = some (.str word))
      (known : (word, path) ∈ fixedFields) : AsksField members path
  | named {word name : String} {scope : Path} (type : members.get? "type" = some (.str word))
      (known : (word, scope) ∈ scopes) (given : members.get? "name" = some (.str name)) (nonempty : name ≠ "") :
      AsksField members (scope ++ Path.split name)

/-- A field is compared with equality if there is no operator. -/
inductive AsksTest (members : Members Json) : Test → Prop where
  | present (operator : members.get? "operator" = some (.str "exists")) : AsksTest members .present
  | absent (operator : members.get? "operator" = some (.str "not_exists")) : AsksTest members .absent
  | compare {word : String} {relation : Relation} {value : Json}
      (operator : (members.get? "operator").getD (.str "=") = .str word)
      (known : Relation.ofSign? word = some relation) (given : members.get? "value" = some value) :
      AsksTest members (.compare relation value)

structure Groups (members : Members Json) (c : Connective) (parts : List Json) : Prop where
  type : members.get? "type" = some (.str "group")
  operator : Connective.ofWord? (Text.lower ((members.get? "operator").getD (.str "")).display) = some c
  children : members.get? "children" = some (.arr parts)
  nonempty : parts ≠ []

structure Negates (members : Members Json) (part : Json) : Prop where
  type : members.get? "type" = some (.str "not")
  part : members.get? "child" = some part ∨
    members.get? "child" = none ∧ members.get? "children" = some (.arr [part])

/-- A list or an object is looked up among the types, or among the operators when the field is known. -/
inductive Misshapen (members : Members Json) : Prop where
  | type {t : Json} (given : members.get? "type" = some t) (h : t.isElement = false)
  | operator {path : Path} {op : Json} (asks : AsksField members path)
      (given : members.get? "operator" = some op) (h : op.isElement = false)

/-- Reading a predicate comes to a misshapen object: every part before it is read. -/
inductive Clashes : Json → Prop where
  | node {members : Members Json} (h : Misshapen members) : Clashes (.obj members)
  | negated {members : Members Json} {part : Json} (h : Negates members part) (hp : Clashes part) :
      Clashes (.obj members)
  | grouped {members : Members Json} {c : Connective} {before after : List Json} {part : Json}
      (h : Groups members c (before ++ part :: after)) (read : ∀ q ∈ before, ∃ p, decode q = .ok p)
      (hp : Clashes part) : Clashes (.obj members)

/-! ## fields and tests -/

theorem fixedField?_iff {word : String} {path : Path} :
    fixedField? word = some path ↔ (word, path) ∈ fixedFields := by
  simp only [fixedFields, List.mem_cons, List.not_mem_nil, or_false, Prod.mk.injEq]
  constructor
  · intro h
    unfold fixedField? at h
    split at h <;> cases h <;> simp
  · rintro (⟨rfl, rfl⟩ | ⟨rfl, rfl⟩ | ⟨rfl, rfl⟩) <;> rfl

theorem scope?_iff {word : String} {scope : Path} : scope? word = some scope ↔ (word, scope) ∈ scopes := by
  simp only [scopes, List.mem_cons, List.not_mem_nil, or_false, Prod.mk.injEq]
  constructor
  · intro h
    unfold scope? at h
    split at h <;> cases h <;> simp
  · rintro (⟨rfl, rfl⟩ | ⟨rfl, rfl⟩ | ⟨rfl, rfl⟩ | ⟨rfl, rfl⟩) <;> rfl

theorem fixedField?_of_scope? {word : String} {scope : Path} (h : scope? word = some scope) :
    fixedField? word = none := by
  unfold scope? at h
  split at h <;> first | rfl | cases h

theorem given_of_getD {given : Option Json} {otherwise v : Json} (h : given.getD otherwise = v)
    (ne : v ≠ otherwise) : given = some v := by
  cases given with
  | none => exact absurd h.symm ne
  | some w => exact congrArg some h

section

variable {members : Members Json} (location : String)

theorem formPath_closed : Closed (AsksField members) IsUnreadable (Misshapen members)
    (formPath location members ((members.get? "type").getD .null)) := by
  unfold formPath
  split
  · next h => exact .wrongShape (.type (given_of_getD h Json.noConfusion) rfl)
  · next h => exact .wrongShape (.type (given_of_getD h Json.noConfusion) rfl)
  · next word h =>
    have type := given_of_getD h Json.noConfusion
    split
    · next hf => exact .ok (.fixed type (fixedField?_iff.mp hf))
    · next hs =>
      split
      · next name hn =>
        split
        · exact .fault (isUnreadable _)
        · next hne => exact .ok (.named type (scope?_iff.mp hs) hn fun he => hne (he ▸ rfl))
      · exact .fault (isUnreadable _)
    · exact .fault (isUnreadable _)
  · exact .fault (isUnreadable _)

theorem AsksField.formPath {path : Path} (h : AsksField members path) :
    formPath location members ((members.get? "type").getD .null) = .ok path := by
  cases h with
  | fixed type known =>
    rw [type, Option.getD_some, Predicate.formPath, fixedField?_iff.mpr known]
  | @named word name scope type known given nonempty =>
    have hs := scope?_iff.mpr known
    rw [type, Option.getD_some, Predicate.formPath, fixedField?_of_scope? hs, hs]
    dsimp only
    rw [given]
    dsimp only
    rw [if_neg (by simpa using nonempty)]

theorem formTest_closed {path : Path} (asks : AsksField members path) :
    Closed (AsksTest members) IsUnreadable (Misshapen members) (formTest location members) := by
  unfold formTest
  split
  · next h => exact .wrongShape (.operator asks (given_of_getD h Json.noConfusion) rfl)
  · next h => exact .wrongShape (.operator asks (given_of_getD h Json.noConfusion) rfl)
  · next h => exact .ok (.present (given_of_getD h (by decide)))
  · next h => exact .ok (.absent (given_of_getD h (by decide)))
  · next word _ _ h =>
    split
    · next relation hr =>
      split
      · next value hv => exact .ok (.compare h hr hv)
      · exact .fault (isUnreadable _)
    · exact .fault (isUnreadable _)
  · exact .fault (isUnreadable _)

theorem AsksTest.formTest {test : Test} (h : AsksTest members test) : formTest location members = .ok test := by
  unfold Predicate.formTest
  cases h with
  | present h | absent h => rw [h]; rfl
  | compare operator known given =>
    rw [operator]
    split
    · next h => cases h
    · next h => cases h
    · next h => cases h; cases known
    · next h => cases h; cases known
    · next h =>
      cases h
      simp only [known, given]
    · next ne => exact (ne _ rfl).elim

/-! ## forms -/

/-- What an object stands for, told by its members. -/
inductive Stands (members : Members Json) : Form → Prop where
  | all (type : members.get? "type" = some (.str "all")) : Stands members .all
  | field {path : Path} {test : Test} (hp : AsksField members path) (ht : AsksTest members test) :
      Stands members (.field path test)
  | group {c : Connective} {parts : List Json} (h : Groups members c parts) : Stands members (.group c parts)
  | not {part : Json} (h : Negates members part) : Stands members (.not part)

theorem formGroup_closed (type : members.get? "type" = some (.str "group")) :
    Closed (Stands members) IsUnreadable (Misshapen members) (formGroup location members) := by
  unfold formGroup
  dsimp only
  split
  · exact .fault (isUnreadable _)
  · next hc =>
    split
    · next hcs => exact .ok (.group ⟨type, hc, hcs, List.cons_ne_nil _ _⟩)
    · exact .fault (isUnreadable _)

theorem formNot_closed (type : members.get? "type" = some (.str "not")) :
    Closed (Stands members) IsUnreadable (Misshapen members) (formNot location members) := by
  unfold formNot
  split
  · next hc => exact .ok (.not ⟨type, .inl hc⟩)
  · next hc hcs => exact .ok (.not ⟨type, .inr ⟨hc, hcs⟩⟩)
  · exact .fault (isUnreadable _)

theorem form_all (type : members.get? "type" = some (.str "all")) : form location members = .ok .all := by
  unfold form
  rw [type]
  rfl

theorem form_group (type : members.get? "type" = some (.str "group")) :
    form location members = formGroup location members := by
  unfold form
  rw [type]
  rfl

theorem form_not (type : members.get? "type" = some (.str "not")) :
    form location members = formNot location members := by
  unfold form
  rw [type]
  rfl

theorem form_field (all : members.get? "type" ≠ some (.str "all"))
    (group : members.get? "type" ≠ some (.str "group")) (not : members.get? "type" ≠ some (.str "not")) :
    form location members = (do
      let path ← formPath location members ((members.get? "type").getD .null)
      let test ← formTest location members
      return .field path test) := by
  have plain : ∀ {s}, members.get? "type" ≠ some (.str s) →
      ¬ ((members.get? "type").getD .null).isText s = true := by
    intro s ne h
    exact ne (given_of_getD (Json.isText_iff.mp h) Json.noConfusion)
  unfold form
  dsimp only
  rw [if_neg (plain all), if_neg (plain group), if_neg (plain not)]
  cases formPath location members ((members.get? "type").getD .null) with
  | error e => rfl
  | ok path => cases formTest location members <;> rfl

theorem form_closed : Closed (Stands members) IsUnreadable (Misshapen members) (form location members) := by
  by_cases all : members.get? "type" = some (.str "all")
  · rw [form_all location all]
    exact .ok (.all all)
  by_cases group : members.get? "type" = some (.str "group")
  · rw [form_group location group]
    exact formGroup_closed location group
  by_cases not : members.get? "type" = some (.str "not")
  · rw [form_not location not]
    exact formNot_closed location not
  rw [form_field location all group not]
  exact (formPath_closed location).bind fun path hp =>
    (formTest_closed location hp).bind fun test ht => .ok (.field hp ht)

theorem AsksField.form {path : Path} (h : AsksField members path) :
    form location members = (do
      let test ← formTest location members
      return .field path test) := by
  have hpath := h.formPath location
  have other : ∀ s ∈ ["all", "group", "not"], members.get? "type" ≠ some (.str s) := by
    intro s hs he
    rw [he] at hpath
    simp only [List.mem_cons, List.not_mem_nil, or_false] at hs
    rcases hs with rfl | rfl | rfl <;> cases hpath
  rw [form_field location (other _ (by decide)) (other _ (by decide)) (other _ (by decide)), hpath]
  rfl

theorem Stands.form {f : Form} (h : Stands members f) : form location members = .ok f := by
  cases h with
  | all type => exact form_all location type
  | field hp ht =>
    rw [hp.form, ht.formTest]
    rfl
  | @group c parts h =>
    obtain ⟨type, operator, children, nonempty⟩ := h
    obtain ⟨part, rest, rfl⟩ := List.exists_cons_of_ne_nil nonempty
    rw [form_group location type, formGroup]
    simp only [operator, children]
  | not h =>
    rw [form_not location h.type, formNot]
    rcases h.part with hc | ⟨hc, hcs⟩
    · rw [hc]
    · rw [hc, hcs]

theorem Misshapen.form (h : Misshapen members) : form location members = .error .wrongShape := by
  cases h with
  | @type t given h =>
    have ne : ∀ s, members.get? "type" ≠ some (.str s) := by
      intro s he
      cases given.symm.trans he
      cases h
    rw [form_field location (ne _) (ne _) (ne _), given]
    cases t with
    | arr | obj => rfl
    | null | bool | num | str => cases h
  | @operator _ op asks given h =>
    rw [asks.form, formTest, given]
    cases op with
    | arr | obj => rfl
    | null | bool | num | str => cases h

end

theorem Groups.sizeOf {members : Members Json} {c : Connective} {parts : List Json}
    (h : Groups members c parts) : sizeOf parts < sizeOf members :=
  form_group_sizeOf ((Stands.group h).form "$")

theorem Negates.sizeOf {members : Members Json} {part : Json} (h : Negates members part) :
    sizeOf part < sizeOf members :=
  form_not_sizeOf ((Stands.not h).form "$")

/-! ## decoding -/

theorem decodeAt_obj (location : String) (members : Members Json) :
    decodeAt location (.obj members) = (do
      match ← form location members with
      | .all => return .all
      | .field path test => return .field path test
      | .group c parts => return .group c (← decodeParts location 0 parts)
      | .not part => return .not (← decodeAt (partLocation location 0) part)) := by
  rw [decodeAt]
  split
  · next h => rw [h]; rfl
  · next h => rw [h]; rfl
  · next h => rw [h]; rfl
  · next c parts h =>
    rw [h]
    show _ = decodeParts location 0 parts >>= _
    cases decodeParts location 0 parts <;> rfl
  · next part h =>
    rw [h]
    show _ = decodeAt (partLocation location 0) part >>= _
    cases decodeAt (partLocation location 0) part <;> rfl

theorem Groups.decodeAt {members : Members Json} {c : Connective} {parts : List Json}
    (h : Groups members c parts) (location : String) :
    decodeAt location (.obj members) = (do return .group c (← decodeParts location 0 parts)) := by
  rw [decodeAt_obj, (Stands.group h).form]
  rfl

theorem Negates.decodeAt {members : Members Json} {part : Json} (h : Negates members part) (location : String) :
    decodeAt location (.obj members) =
      (do return .not (← Predicate.decodeAt (partLocation location 0) part)) := by
  rw [decodeAt_obj, (Stands.not h).form]
  rfl

theorem decodeParts_itemwise : Itemwise (fun place : String × Nat => (place.1, place.2 + 1))
    (fun place => decodeAt (partLocation place.1 place.2)) (fun place => decodeParts place.1 place.2) where
  nil _ := by rw [decodeParts]
  cons i v rest := by
    rw [decodeParts]
    cases decodeAt (partLocation i.1 i.2) v with
    | error e => rfl
    | ok p => cases decodeParts i.1 (i.2 + 1) rest <;> rfl

-- A value is good if it is read at every place: the parts before a clash are read at places of their own,
-- and what clashes does not say where it stands.
theorem decodeAt_closed (location : String) (node : Json) :
    Closed (fun p => ∀ other, decodeAt other node = .ok p) IsUnreadable (Clashes node)
      (decodeAt location node) := by
  match node with
  | .obj members =>
    rw [decodeAt_obj]
    refine ((form_closed location).mono .node).bind fun f hf => ?_
    cases hf with
    | all type =>
      refine .ok fun other => ?_
      rw [decodeAt_obj, form_all other type]
      rfl
    | field hp ht =>
      refine .ok fun other => ?_
      rw [decodeAt_obj, (Stands.field hp ht).form]
      rfl
    | @group c parts h =>
      have hparts := decodeParts_itemwise.closed (fun _ _ hp _ => hp _)
        (fun v (hv : v ∈ parts) place => decodeAt_closed (partLocation place.1 place.2) v) (location, 0)
      refine (hparts.mono ?_).bind fun ps hps => .ok fun other => ?_
      · rintro ⟨before, part, after, rfl, read, hp⟩
        exact .grouped h (fun q hq => (read q hq).imp fun p hp => hp "$") hp
      · rw [h.decodeAt, hps (other, 0)]
        rfl
    | not h =>
      refine ((decodeAt_closed _ _).mono (.negated h)).bind fun p hp => .ok fun other => ?_
      rw [h.decodeAt, hp]
      rfl
  | .null | .bool _ | .num _ | .str _ | .arr _ =>
    rw [decodeAt]
    · exact .fault (isUnreadable _)
    · exact fun _ => Json.noConfusion
termination_by sizeOf node
decreasing_by
  · have hparts := h.sizeOf
    have hv := List.sizeOf_lt_of_mem hv
    simp only [Json.obj.sizeOf_spec]
    omega
  · have hpart := h.sizeOf
    simp only [Json.obj.sizeOf_spec]
    omega

theorem Clashes.decodeAt {v : Json} (h : Clashes v) (location : String) :
    decodeAt location v = .error .wrongShape := by
  induction h generalizing location with
  | node h =>
    rw [decodeAt_obj, h.form]
    rfl
  | negated h _ ih =>
    rw [h.decodeAt, ih]
    rfl
  | @grouped members c before after part h read _ ih =>
    have hread : ∀ q ∈ before, ∀ place : String × Nat,
        ∃ p, Predicate.decodeAt (partLocation place.1 place.2) q = .ok p := by
      intro q hq place
      obtain ⟨p, hp⟩ := read q hq
      exact ⟨p, (decodeAt_closed "$" q).good_of_ok hp _⟩
    have hparts : decodeParts location 0 (before ++ part :: after) = .error .wrongShape :=
      decodeParts_itemwise.wrongShape hread (fun _ => ih _) (location, 0)
    rw [h.decodeAt, hparts]
    rfl

/-! ## predicates in either form -/

theorem parse_closed (v : Json) :
    Closed (fun p => parse v = .ok p) IsUnreadable (Clashes v) (parse v) := by
  cases v with
  | str source =>
    show Closed _ _ _ (parseText source)
    unfold parseText
    cases hp : ofText source with
    | ok p => exact .ok (by simp only [parse, parseText, hp])
    | error u => exact .fault ⟨u.text, u.position?, rfl⟩
  | obj members => exact (decodeAt_closed "$" (.obj members)).result
  | null | bool | num | arr => exact .fault (isUnreadable _)

theorem Clashes.parse {v : Json} (h : Clashes v) : parse v = .error .wrongShape := by
  have hd := h.decodeAt "$"
  cases h <;> exact hd

end Predicate

end EventRouting
