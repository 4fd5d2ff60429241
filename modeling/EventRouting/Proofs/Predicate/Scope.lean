import EventRouting.Proofs.Path.Joining
import EventRouting.Proofs.Predicate.Clash

/-!
# Fields inside a part of the event

The types of named fields put the steps of the name under the part of the event that the type names.

* `Predicate.AsksField.decodeAt`   an object about a field is read as the test that it asks
* `Predicate.decodeAt_scoped`      which objects about named fields are read, and the fields they ask about
* `Predicate.Node`                 an object with its type, name, operator and value
* `Predicate.Node.abbreviates`     a type with a part of the event abbreviates a longer name
-/

namespace EventRouting.Predicate

/-! ## tests of a field -/

theorem formTest_eq_ok_iff {members : Members Json} {path : Path} (asks : AsksField members path)
    (location : String) (test : Test) : formTest location members = .ok test ↔ AsksTest members test :=
  ⟨(formTest_closed location asks).good_of_ok, fun h => h.formTest location⟩

theorem formTest_congr {members twin : Members Json} (operator : members.get? "operator" = twin.get? "operator")
    (value : members.get? "value" = twin.get? "value") (location : String) :
    formTest location members = formTest location twin := by
  rw [formTest, formTest, operator, value]

theorem AsksField.decodeAt {members : Members Json} {path : Path} (h : AsksField members path)
    (location : String) :
    Predicate.decodeAt location (.obj members) = (formTest location members).map (.field path) := by
  rw [decodeAt_obj, h.form]
  cases formTest location members <;> rfl

theorem AsksField.decodeAt_eq_ok_iff {members : Members Json} {path : Path} (h : AsksField members path)
    (location : String) (p : Predicate) :
    Predicate.decodeAt location (.obj members) = .ok p ↔ ∃ test, AsksTest members test ∧ p = .field path test := by
  rw [h.decodeAt]
  constructor
  · intro hp
    cases ht : formTest location members with
    | error e =>
      rw [ht] at hp
      cases hp
    | ok test =>
      rw [ht] at hp
      cases hp
      exact ⟨test, (formTest_eq_ok_iff h location test).mp ht, rfl⟩
  · rintro ⟨test, ht, rfl⟩
    rw [ht.formTest]
    rfl

/-! ## names -/

theorem decodeAt_unnamed {members : Members Json} {word : String} {scope : Path}
    (type : members.get? "type" = some (.str word)) (known : (word, scope) ∈ scopes)
    (given : members.get? "name" = some (.str "")) (location : String) :
    decodeAt location (.obj members) = .error (unreadable (word ++ " at " ++ location ++ " needs a 'name'")) := by
  have hs := scope?_iff.mpr known
  have other : ∀ s ∈ ["all", "group", "not"], members.get? "type" ≠ some (.str s) := by
    intro s hm he
    cases type.symm.trans he
    simp only [List.mem_cons, List.not_mem_nil, or_false] at hm
    rcases hm with rfl | rfl | rfl <;> cases hs
  have path : formPath location members (.str word) =
      .error (unreadable (word ++ " at " ++ location ++ " needs a 'name'")) := by
    rw [formPath, fixedField?_of_scope? hs, hs]
    dsimp only
    rw [given]
    rfl
  rw [decodeAt_obj, form_field location (other _ (by decide)) (other _ (by decide)) (other _ (by decide)), type,
    Option.getD_some, path]
  rfl

/-- **Named fields.**  An object about a named field is read if it has a name at all and asks a test, and the
field is the part of the event that the type names with the steps of the name below it.  There are such steps
exactly where the name has a character that is no point and no square bracket: any other name that is not empty
is let through and asks about the part of the event itself. -/
theorem decodeAt_scoped {members : Members Json} {word name : String} {scope : Path}
    (type : members.get? "type" = some (.str word)) (known : (word, scope) ∈ scopes)
    (given : members.get? "name" = some (.str name)) (location : String) :
    (name = "" → decodeAt location (.obj members) =
      .error (unreadable (word ++ " at " ++ location ++ " needs a 'name'"))) ∧
    (∀ p, decodeAt location (.obj members) = .ok p ↔
      name ≠ "" ∧ ∃ test, AsksTest members test ∧ p = .field (scope ++ Path.split name) test) ∧
    (Path.split name ≠ [] ↔ ∃ c ∈ name.toList, c ≠ '.' ∧ c ≠ '[' ∧ c ≠ ']') := by
  refine ⟨?_, fun p => ?_, ?_⟩
  · rintro rfl
    exact decodeAt_unnamed type known given location
  · by_cases nonempty : name = ""
    · subst nonempty
      rw [decodeAt_unnamed type known given]
      exact iff_of_false (fun he => nomatch he) fun h => h.1 rfl
    · rw [(AsksField.named type known given nonempty).decodeAt_eq_ok_iff, and_iff_right nonempty]
  · rw [Ne, Path.split_eq_nil_iff]
    simp only [not_forall, not_or, exists_prop]

/-- A bracket that nothing closes is skipped, and what stands behind it is a step. -/
theorem decodeAt_scoped_openBracket :
    let members : Members Json := [("name", .str ".[plan"), ("type", .str "event-trait"), ("operator", .str "exists")]
    members.get? "type" = some (.str "event-trait") ∧ ("event-trait", [.name "traits"]) ∈ scopes ∧
      members.get? "name" = some (.str ".[plan") ∧
      decodeAt "$" (.obj members) = .ok (.field [.name "traits", .name "plan"] .present) := by
  intro members
  have known : ("event-trait", [Segment.name "traits"]) ∈ scopes := by decide
  have type : members.get? "type" = some (.str "event-trait") := rfl
  obtain ⟨_, read, _⟩ := decodeAt_scoped type known rfl "$"
  have steps : Path.split ".[plan" = [.name "plan"] := by with_unfolding_all rfl
  refine ⟨type, known, rfl, (read _).mpr ⟨by decide, .present, .present rfl, ?_⟩⟩
  rw [steps]
  rfl

/-- A name of points and brackets is no fault: the object asks about all properties, or about the whole event,
which every event has. -/
theorem decodeAt_scoped_noName :
    parse (.obj [("type", .str "event-property"), ("name", .str "[]."), ("operator", .str "exists")]) =
        .ok (.field [.name "properties"] .present) ∧
      parse (.obj [("type", .str "field"), ("name", .str "."), ("operator", .str "exists")]) =
        .ok (.field [] .present) ∧
      accepts (.field [] .present) (.obj []) = .ok true := by
  refine ⟨?_, ?_, rfl⟩ <;> with_unfolding_all rfl

/-! ## abbreviations -/

/-- An object with its type, its name, and the operator and the value that it may have. -/
structure Node (members : Members Json) (word name : String) (operator value : Option Json) : Prop where
  type : members.get? "type" = some (.str word)
  name : members.get? "name" = some (.str name)
  operator : members.get? "operator" = operator
  value : members.get? "value" = value

namespace Node

variable {members twin : Members Json} {word part name : String} {operator value : Option Json}

/-- The types that name a part of the event, and the part. -/
def parts : List (String × String) :=
  [("event-property", "properties"), ("event-trait", "traits"), ("event-context", "context")]

theorem mem_scopes (known : (word, part) ∈ parts) : (word, [.name part]) ∈ scopes := by
  have each : ∀ entry ∈ parts, (entry.1, [Segment.name entry.2]) ∈ scopes := by decide
  exact each _ known

theorem split_part (known : (word, part) ∈ parts) : Path.split part = [.name part] := by
  simp only [parts, List.mem_cons, List.not_mem_nil, or_false, Prod.mk.injEq] at known
  rcases known with ⟨_, rfl⟩ | ⟨_, rfl⟩ | ⟨_, rfl⟩ <;> with_unfolding_all rfl

theorem asksField (h : Node members word name operator value) (known : (word, part) ∈ parts)
    (nonempty : name ≠ "") : AsksField members (.name part :: Path.split name) :=
  .named h.type (mem_scopes known) h.name nonempty

/-- A name behind that of a part and a point has the steps of both. -/
theorem asksField_joined (h : Node twin "field" (part ++ "." ++ name) operator value)
    (known : (word, part) ∈ parts) : AsksField twin (.name part :: Path.split name) := by
  have joined : part ++ "." ++ name ≠ "" := by
    intro he
    have length := congrArg String.length he
    simp at length
  have whole : ("field", []) ∈ scopes := by decide
  have asks := AsksField.named h.type whole h.name joined
  rw [Path.split_append, split_part known] at asks
  exact asks

/-- Both objects ask about the same field, and their tests are told by the operator and the value alone. -/
theorem abbreviates (h : Node members word name operator value)
    (h' : Node twin "field" (part ++ "." ++ name) operator value) (known : (word, part) ∈ parts)
    (nonempty : name ≠ "") (location : String) :
    decodeAt location (.obj members) = decodeAt location (.obj twin) := by
  have tests : formTest location members = formTest location twin :=
    formTest_congr (h.operator.trans h'.operator.symm) (h.value.trans h'.value.symm) location
  rw [(h.asksField known nonempty).decodeAt, (h'.asksField_joined known).decodeAt, tests]

end Node

theorem holds_part (event : Members Json) (part : String) (path : Path) (test : Test) :
    holds (.obj event) (.field (.name part :: path) test) =
      test.holds ((event.get? part).bind fun v => v.lookup path) := rfl

/-- **Abbreviations.**  A point between two names divides their steps, and steps in two parts are looked up one
part after the other.  Hence an object that is about a name in a part of the event is read as the object about
the field of that part, a point and the name, or fails as that one does, and its test is about what the name
leads to inside the part. -/
theorem decodeAt_abbreviation :
    (∀ a b : String, Path.split (a ++ "." ++ b) = Path.split a ++ Path.split b) ∧
    (∀ (v : Json) (p q : List Json), (∀ key ∈ p, key.IsStep) →
      v.lookupBy p = .ok none ∧ v.lookupBy (p ++ q) = .ok none ∨
        ∃ w, v.lookupBy p = .ok (some w) ∧ v.lookupBy (p ++ q) = w.lookupBy q) ∧
    ∀ word part, (word, part) ∈ Node.parts → ∀ name, name ≠ "" → ∀ members twin operator value,
      Node members word name operator value → Node twin "field" (part ++ "." ++ name) operator value →
      ∀ location, decodeAt location (.obj members) = decodeAt location (.obj twin) ∧
        ∀ p, decodeAt location (.obj members) = .ok p → ∃ test, AsksTest members test ∧
          p = .field (.name part :: Path.split name) test ∧
          ∀ event : Members Json, p.holds (.obj event) =
            test.holds ((event.get? part).bind fun v => v.lookup (Path.split name)) := by
  refine ⟨Path.split_append, fun v p q steps => ?_, ?_⟩
  · obtain ⟨found, hp⟩ := v.lookupBy_of_isStep steps
    have joined := v.lookupBy_append p q
    rw [hp] at joined ⊢
    cases found with
    | none => exact .inl ⟨rfl, joined⟩
    | some w => exact .inr ⟨w, rfl, joined⟩
  · intro word part known name nonempty members twin operator value h h' location
    refine ⟨h.abbreviates h' known nonempty location, fun p hp => ?_⟩
    obtain ⟨test, asks, rfl⟩ := ((h.asksField known nonempty).decodeAt_eq_ok_iff location p).mp hp
    exact ⟨test, asks, rfl, fun event => holds_part event part _ test⟩

/-- A name with brackets that nothing closes, and an operator that needs a value and has none. -/
theorem decodeAt_abbreviation_openBracket :
    let members : Members Json := [("type", .str "event-context"), ("name", .str "ip[0.]"), ("operator", .str "<")]
    let twin : Members Json := [("type", .str "field"), ("operator", .str "<"), ("name", .str "context.ip[0.]")]
    Node members "event-context" "ip[0.]" (some (.str "<")) none ∧
      Node twin "field" ("context" ++ "." ++ "ip[0.]") (some (.str "<")) none ∧
      decodeAt "$" (.obj members) = decodeAt "$" (.obj twin) ∧
      decodeAt "$" (.obj members) = .error (unreadable "Operator '<' at $ needs a 'value'") := by
  intro members twin
  have node : Node members "event-context" "ip[0.]" (some (.str "<")) none := ⟨rfl, rfl, rfl, rfl⟩
  have longer : Node twin "field" ("context" ++ "." ++ "ip[0.]") (some (.str "<")) none := ⟨rfl, rfl, rfl, rfl⟩
  obtain ⟨_, _, abbreviates⟩ := decodeAt_abbreviation
  have same := (abbreviates _ _ (by decide) _ (by decide) _ _ _ _ node longer "$").1
  exact ⟨node, longer, same, by with_unfolding_all rfl⟩

end EventRouting.Predicate
