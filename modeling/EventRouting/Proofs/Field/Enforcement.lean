import EventRouting.Proofs.Field.RoundTrip
import EventRouting.Proofs.Number.Order
import EventRouting.Proofs.Schema.Acceptance
import EventRouting.Schema.Read

/-!
# What documents of fields enforce

The schema that the document of fields stands for accepts what the fields ask for and nothing else.

* `FieldType.Takes`     the values of a type
* `Field.Holds`         the values of a field: one or a list, and null where it is allowed
* `Field.Conforms`      the objects that fields ask for
* `Field.Titled`        label and description are texts where they say anything
* `Field.rule`          the schema of a field
* `Schema.readWords?_append`, `Schema.readWords?_leaf`   the words of a document are read one by one
* `Dialect.read_document`     every dialect reads the documents of fields alike
* `Field.document_enforces`   what the schema of a document accepts
-/

namespace EventRouting

/-! ## values of fields -/

namespace FieldType

/-- The values of a type.  A truth value is no number, and an integer may be written with a fraction of zero. -/
def Takes : FieldType → Json → Prop
  | string, v | text, v | password, v | datetime, v => ∃ s, v = .str s
  | number, v => ∃ n, v = .num n
  | integer, v => ∃ n, v = .num n ∧ ∃ i : Int, n.same (.int i) = true
  | boolean, v => ∃ b, v = .bool b
  | object, v => ∃ members, v = .obj members

def kind : FieldType → ValueType
  | string | text | password | datetime => .string
  | number => .number
  | integer => .integer
  | boolean => .boolean
  | object => .object

theorem kind_has_iff (t : FieldType) (v : Json) : t.kind.has v = true ↔ t.Takes v := by
  cases t <;> cases v <;> simp [kind, ValueType.has, Takes, Number.isIntegral_iff]

end FieldType

namespace Field

/-- The values of a field: one of its type, or a list of such, or null where the field allows it. -/
def Holds (f : Field) (v : Json) : Prop :=
  (v = .null ∧ f.allowNull = true) ∨
    if f.multiple then ∃ vs, v = .arr vs ∧ ∀ w ∈ vs, f.type.Takes w else f.type.Takes v

/-- `Conforms fields isOpen members`: an object of these members is what the fields ask for -/
structure Conforms (fields : List Field) (isOpen : Bool) (members : Members Json) : Prop where
  required : ∀ f ∈ fields, f.required = true → members.contains f.key = true
  declared : isOpen = false → ∀ k ∈ members.names, ∃ f ∈ fields, f.key = k
  held : ∀ f ∈ fields, ∀ v, members.get? f.key = some v → f.Holds v

/-- Label and description are texts where they say anything. -/
def Titled (f : Field) : Prop :=
  (f.label.isTruthy = true → ∃ s, f.label = .str s) ∧
    (f.description.isTruthy = true → ∃ s, f.description = .str s)

/-- The types that the value of a field may have. -/
def valueTypes (f : Field) : List ValueType :=
  (if f.multiple then .array else f.type.kind) :: if f.allowNull then [.null] else []

/-- What the items of a list of values have to be. -/
def itemRules (f : Field) : List Schema :=
  if f.multiple then [.items (.every [.type [f.type.kind]])] else []

def rule (f : Field) : Schema := .every (.type f.valueTypes :: f.itemRules)

theorem valueTypes_have_iff (f : Field) (v : Json) :
    (∃ t ∈ f.valueTypes, t.has v = true) ↔ (v = .null ∧ f.allowNull = true) ∨
      (if f.multiple then ValueType.array else f.type.kind).has v = true := by
  have null_has : ValueType.null.has v = true ↔ v = .null := by
    cases v <;> simp [ValueType.has]
  unfold valueTypes
  cases f.allowNull <;> simp [null_has, or_comm]

theorem itemRules_accept_iff (f : Field) (v : Json) :
    (∀ s ∈ f.itemRules, s.accepts v = true) ↔
      (f.multiple = true → ∀ vs, v = .arr vs → ∀ w ∈ vs, f.type.Takes w) := by
  have item_iff (w : Json) :
      (Schema.every [.type [f.type.kind]]).accepts w = true ↔ f.type.Takes w := by
    rw [Schema.accepts_every_iff, List.forall_mem_singleton, Schema.accepts_type_iff]
    simp [FieldType.kind_has_iff]
  unfold itemRules
  cases f.multiple with
  | false => simp
  | true => simp [Schema.accepts_items_iff, item_iff]

theorem rule_accepts_iff (f : Field) (v : Json) : f.rule.accepts v = true ↔ f.Holds v := by
  have array_has : ValueType.array.has v = true ↔ ∃ vs, v = .arr vs := by
    cases v <;> simp [ValueType.has]
  unfold rule Holds
  rw [Schema.accepts_every_iff, List.forall_mem_cons, Schema.accepts_type_iff, valueTypes_have_iff,
    itemRules_accept_iff]
  cases f.multiple with
  | false => simp [FieldType.kind_has_iff]
  | true =>
    simp only [if_true, array_has, forall_const]
    constructor
    · rintro ⟨null | ⟨vs, rfl⟩, items⟩
      · exact .inl null
      · exact .inr ⟨vs, rfl, items vs rfl⟩
    · rintro (⟨rfl, null⟩ | ⟨vs, rfl, items⟩)
      · exact ⟨.inl ⟨rfl, null⟩, nofun⟩
      · exact ⟨.inr ⟨vs, rfl⟩, fun _ he => Json.arr.inj he ▸ items⟩

end Field

/-! ## reading words -/

namespace Schema

/-- the words whose values hold schemas -/
def schemaWords : List String :=
  ["properties", "additionalProperties", "items", "allOf", "anyOf", "oneOf", "not", "definitions"]

section
variable (around : Members Json)

theorem readWords?_leaf {word : String} (h : word ∉ schemaWords) (v : Json) :
    readWords? around [(word, v)] = leaf? word v := by
  have apart : ∀ k ∈ schemaWords, word = k → False := fun k hk he => h (he ▸ hk)
  rw [readWords?, readWords?]
  · cases leaf? word v <;> simp
  all_goals exact apart _ (by decide)

theorem readWords?_cons (word : String) (v : Json) (rest : Members Json) :
    readWords? around ((word, v) :: rest) =
      (readWords? around [(word, v)]).bind fun x => (readWords? around rest).map (x ++ ·) := by
  obtain ⟨r, hr⟩ : ∃ r, ∀ rest, readWords? around ((word, v) :: rest) =
      Option.bind r fun rules => (readWords? around rest).map fun more => rules ++ more := ⟨_, fun rest => rfl⟩
  rw [hr, hr]
  show _ = (r.bind fun rules => some (rules ++ [])).bind _
  cases r with
  | none => rfl
  | some rules => simp

theorem readWords?_append (a b : Members Json) :
    readWords? around (a ++ b) =
      (readWords? around a).bind fun x => (readWords? around b).map (x ++ ·) := by
  induction a with
  | nil =>
    show _ = Option.map (fun y => y) _
    rw [Option.map_id']
    rfl
  | cons m a ih =>
    obtain ⟨word, v⟩ := m
    rw [List.cons_append, readWords?_cons, ih, readWords?_cons around word v a]
    cases readWords? around [(word, v)] <;> cases readWords? around a <;> simp [Function.comp_def]

end

end Schema

namespace Field

/-! ## reading a property -/

section
variable (around : Members Json)

theorem readWords?_outerType (f : Field) :
    Schema.readWords? around [("type", f.outerType)] = some [.type f.valueTypes] := by
  rw [Schema.readWords?_leaf around (by decide)]
  show (Schema.types? f.outerType).map _ = _
  unfold outerType valueTypes
  cases f.multiple <;> cases f.allowNull <;> cases f.type <;> rfl

theorem readWords?_innerMembers (f : Field) :
    Schema.readWords? around f.innerMembers = some f.itemRules := by
  unfold innerMembers itemRules
  cases f.multiple <;> cases f.type <;> rfl

/-- Label and description are read where they are texts or say nothing, and nothing else is. -/
theorem readWords?_truthyMember {word : String} (hw : word = "title" ∨ word = "description") (v : Json) :
    ((v.isTruthy = true → ∃ s, v = .str s) → Schema.readWords? around (truthyMember word v) = some []) ∧
    (¬ (v.isTruthy = true → ∃ s, v = .str s) → Schema.readWords? around (truthyMember word v) = none) := by
  have read : Schema.readWords? around [(word, v)] = (Schema.key? v).map fun _ => [] := by
    obtain rfl | rfl := hw
    · exact Schema.readWords?_leaf around (by decide) v
    · exact Schema.readWords?_leaf around (by decide) v
  unfold truthyMember
  cases v.isTruthy with
  | false => exact ⟨fun _ => rfl, fun h => absurd nofun h⟩
  | true =>
    rw [if_pos rfl, read]
    cases v with
    | str s => exact ⟨fun _ => rfl, fun h => absurd (fun _ => ⟨s, rfl⟩) h⟩
    | null | bool | num | arr | obj => exact ⟨fun h => (nomatch h rfl), fun _ => rfl⟩

/-- What a property says beside title and description is passed over. -/
theorem readWords?_passed (f : Field) :
    Schema.readWords? around ((f.default.map fun d => ("default", d)).toList) = some [] ∧
    Schema.readWords? around (truthyMember "placeholder" f.placeholder) = some [] ∧
    Schema.readWords? around (if f.dynamic then [("dynamic", .bool true)] else []) = some [] := by
  refine ⟨?_, ?_, ?_⟩
  · cases f.default <;> rfl
  · unfold truthyMember
    cases f.placeholder.isTruthy <;> rfl
  · cases f.dynamic <;> rfl

end

/-- **A property** is read as the schema of its field where label and description are texts or say nothing, and
else not at all. -/
theorem read?_property (f : Field) :
    (f.Titled → Schema.read? f.property = some f.rule) ∧ (¬ f.Titled → Schema.read? f.property = none) := by
  obtain ⟨members, property, words⟩ : ∃ members, f.property = .obj members ∧ ∀ around,
      Schema.readWords? around members =
        (Schema.readWords? around (truthyMember "title" f.label)).bind fun x =>
          (Schema.readWords? around (truthyMember "description" f.description)).map fun y =>
            .type f.valueTypes :: f.itemRules ++ x ++ y := by
    refine ⟨_, rfl, fun around => ?_⟩
    obtain ⟨default, placeholder, dynamic⟩ := readWords?_passed around f
    simp only [Schema.readWords?_append, readWords?_outerType, readWords?_innerMembers, default, placeholder,
      dynamic]
    cases Schema.readWords? around (truthyMember "title" f.label) <;>
      cases Schema.readWords? around (truthyMember "description" f.description) <;> simp
  have read : Schema.read? f.property = (Schema.readWords? members members).map .every := by
    rw [property]
    rfl
  obtain ⟨title, noTitle⟩ := readWords?_truthyMember members (.inl rfl) f.label
  obtain ⟨description, noDescription⟩ := readWords?_truthyMember members (.inr rfl) f.description
  rw [read, words]
  constructor
  · intro titled
    rw [title titled.1, description titled.2]
    simp [rule]
  · intro untitled
    by_cases hl : f.label.isTruthy = true → ∃ s, f.label = .str s
    · rw [title hl, noDescription fun hd => untitled ⟨hl, hd⟩]
      rfl
    · rw [noTitle hl]
      rfl

theorem readMembers?_properties {fields : List Field} (h : ∀ f ∈ fields, f.Titled) :
    Schema.readMembers? (fields.map fun f => (f.key, f.property)) = some (fields.map fun f => (f.key, f.rule)) := by
  induction fields with
  | nil => rfl
  | cons f rest ih =>
    obtain ⟨hf, hrest⟩ := List.forall_mem_cons.mp h
    rw [List.map_cons, Schema.readMembers?, (read?_property f).1 hf, ih hrest]
    rfl

theorem readMembers?_untitled {fields : List Field} (h : ¬ ∀ f ∈ fields, f.Titled) :
    Schema.readMembers? (fields.map fun f => (f.key, f.property)) = none := by
  induction fields with
  | nil => exact absurd nofun h
  | cons f rest ih =>
    rw [List.map_cons, Schema.readMembers?]
    by_cases hf : f.Titled
    · rw [(read?_property f).1 hf, ih fun hrest => h (List.forall_mem_cons.mpr ⟨hf, hrest⟩)]
      rfl
    · rw [(read?_property f).2 hf]

/-! ## reading a document -/

def documentRule (fields : List Field) (isOpen : Bool) : Schema :=
  .every [.type [.object],
    Schema.othersRule (fields.map (·.key)) (if isOpen then .every [] else .never),
    .properties (fields.map fun f => (f.key, f.rule)),
    .required ((fields.filter (·.required)).map (·.key))]

theorem othersRule_accepts_iff (names : List String) (isOpen : Bool) (members : Members Json) :
    (Schema.othersRule names (if isOpen then .every [] else .never)).accepts (.obj members) = true ↔
      (isOpen = false → ∀ k ∈ members.names, k ∈ names) := by
  cases isOpen with
  | false =>
    show (Schema.noOthers names).accepts _ = true ↔ _
    rw [Schema.accepts_noOthers_iff]
    exact ⟨fun h _ => h, fun h => h rfl⟩
  | true =>
    show (Schema.others names (.every [])).accepts _ = true ↔ _
    rw [Schema.accepts_others_iff]
    exact iff_of_true (fun _ _ _ => (Schema.accepts_every_iff [] _).mpr nofun) nofun

theorem documentRule_accepts_iff (fields : List Field) (isOpen : Bool) (payload : Json) :
    (documentRule fields isOpen).accepts payload = true ↔
      ∃ members, payload = .obj members ∧ Conforms fields isOpen members := by
  have type_iff : (Schema.type [.object]).accepts payload = true ↔ ∃ members, payload = .obj members := by
    rw [Schema.accepts_type_iff]
    cases payload <;> simp [ValueType.has]
  have rules_iff (members : Members Json) :
      (∀ p ∈ fields.map (fun f => (f.key, f.rule)), ∀ v, members.get? p.1 = some v → p.2.accepts v = true) ↔
        ∀ f ∈ fields, ∀ v, members.get? f.key = some v → f.Holds v := by
    simp only [List.forall_mem_map, rule_accepts_iff]
  have required_iff (members : Members Json) :
      (∀ k ∈ (fields.filter (·.required)).map (·.key), members.contains k = true) ↔
        ∀ f ∈ fields, f.required = true → members.contains f.key = true := by
    simp only [List.forall_mem_map, List.mem_filter, and_imp]
  unfold documentRule
  simp only [Schema.accepts_every_iff, List.forall_mem_cons, type_iff]
  constructor
  · rintro ⟨⟨members, rfl⟩, others, properties, required, -⟩
    rw [othersRule_accepts_iff] at others
    rw [Schema.accepts_properties_iff, rules_iff] at properties
    rw [Schema.accepts_required_iff, required_iff] at required
    exact ⟨members, rfl, required, fun closed k hk => List.mem_map.mp (others closed k hk), properties⟩
  · rintro ⟨members, rfl, h⟩
    refine ⟨⟨members, rfl⟩, ?_, ?_, ?_, nofun⟩
    · rw [othersRule_accepts_iff]
      exact fun closed k hk => List.mem_map.mpr (h.declared closed k hk)
    · rw [Schema.accepts_properties_iff, rules_iff]
      exact h.held
    · rw [Schema.accepts_required_iff, required_iff]
      exact h.required

section
variable (around : Members Json)

theorem readWords?_additional (isOpen : Bool) :
    Schema.readWords? around [("additionalProperties", .bool isOpen)] =
      some [Schema.othersRule (Schema.propertyNames around) (if isOpen then .every [] else .never)] := by
  cases isOpen <;> rfl

theorem readWords?_properties (properties : Members Json) :
    Schema.readWords? around [("properties", .obj properties)] =
      (Schema.readMembers? properties).map fun schemas => [.properties schemas] := by
  show Option.bind (Option.map _ (Schema.readMembers? properties)) (fun rules => some (rules ++ [])) = _
  cases Schema.readMembers? properties <;> rfl

theorem keys?_strings {keys : List String} (distinct : keys.Nodup) :
    Schema.keys? (.arr (keys.map .str)) = some keys := by
  have texts : (keys.map Json.str).mapM Schema.key? = some keys := by
    clear distinct
    induction keys with
    | nil => rfl
    | cons k rest ih =>
      rw [List.map_cons, List.mapM_cons, ih]
      rfl
  unfold Schema.keys?
  dsimp only
  rw [texts, Option.bind_some, if_pos distinct]

theorem readWords?_required {keys : List String} (distinct : keys.Nodup) :
    Schema.readWords? around [("required", .arr (keys.map .str))] = some [.required keys] := by
  rw [Schema.readWords?_leaf around (by decide)]
  exact congrArg (Option.map _) (keys?_strings distinct)

end

/-- **A document** is read as the schema of its fields where all properties are read, and else not at all. -/
theorem read?_document {fields : List Field} (isOpen : Bool) (distinct : (fields.map (·.key)).Nodup) :
    ((∀ f ∈ fields, f.Titled) → Schema.read? (document fields isOpen) = some (documentRule fields isOpen)) ∧
    (¬ (∀ f ∈ fields, f.Titled) → Schema.read? (document fields isOpen) = none) := by
  have names : Members.names (fields.map fun f => (f.key, f.property)) = fields.map (·.key) := by
    unfold Members.names
    rw [List.map_map]
    rfl
  have keys : ((fields.filter (·.required)).map (·.key)).Nodup := (List.filter_sublist.map _).nodup distinct
  have words (around : Members Json) :
      Schema.readWords? around [("$schema", .str schemaMark), ("type", .str "object"),
        ("additionalProperties", .bool isOpen), ("properties", .obj (fields.map fun f => (f.key, f.property))),
        ("required", .arr (((fields.filter (·.required)).map (·.key)).map .str))] =
      (Schema.readMembers? (fields.map fun f => (f.key, f.property))).map fun schemas =>
        [.type [.object], Schema.othersRule (Schema.propertyNames around) (if isOpen then .every [] else .never),
          .properties schemas, .required ((fields.filter (·.required)).map (·.key))] := by
    have mark : Schema.readWords? around [("$schema", .str schemaMark)] = some [] := rfl
    have type : Schema.readWords? around [("type", .str "object")] = some [.type [.object]] := rfl
    rw [Schema.readWords?_cons around "$schema", Schema.readWords?_cons around "type",
      Schema.readWords?_cons around "additionalProperties", Schema.readWords?_cons around "properties",
      mark, type, readWords?_additional, readWords?_properties, readWords?_required around keys]
    cases Schema.readMembers? (fields.map fun f => (f.key, f.property)) <;> rfl
  unfold document documentRule
  rw [ofList_properties distinct, requiredKeys_eq, ← names]
  constructor
  · intro titled
    show Option.map _ (Schema.readWords? _ _) = _
    rw [words, readMembers?_properties titled]
    rfl
  · intro untitled
    show Option.map _ (Schema.readWords? _ _) = _
    rw [words, readMembers?_untitled untitled]
    rfl

end Field

/-! ## dialects -/

namespace Schema

theorem wordsGoFurther_append (a b : Members Json) :
    wordsGoFurther (a ++ b) = (wordsGoFurther a || wordsGoFurther b) := by
  induction a with
  | nil => rfl
  | cons m a ih =>
    obtain ⟨own, cons⟩ : ∃ own, ∀ rest, wordsGoFurther (m :: rest) = (own || wordsGoFurther rest) :=
      ⟨_, fun _ => rfl⟩
    rw [List.cons_append, cons, cons, ih, Bool.or_assoc]

theorem membersGoFurther_eq_false {members : Members Json} (h : ∀ m ∈ members, goesFurther m.2 = false) :
    membersGoFurther members = false := by
  induction members with
  | nil => rfl
  | cons m rest ih =>
    obtain ⟨hm, hrest⟩ := List.forall_mem_cons.mp h
    rw [membersGoFurther, hm, ih hrest]
    rfl

theorem goesFurther_property (f : Field) : goesFurther f.property = false := by
  have inner : wordsGoFurther f.innerMembers = false := by
    unfold Field.innerMembers
    cases f.multiple <;> cases f.type <;> rfl
  have truthy {word : String} (hw : word ∈ ["title", "description", "placeholder"]) (v : Json) :
      wordsGoFurther (Field.truthyMember word v) = false := by
    unfold Field.truthyMember
    split
    · simp only [List.mem_cons, List.not_mem_nil, or_false] at hw
      rcases hw with rfl | rfl | rfl <;> rfl
    · rfl
  have default : wordsGoFurther (f.default.map fun d => ("default", d)).toList = false := by
    cases f.default <;> rfl
  have dynamic : wordsGoFurther (if f.dynamic then [("dynamic", .bool true)] else []) = false := by
    cases f.dynamic <;> rfl
  show wordsGoFurther _ = false
  simp only [wordsGoFurther_append, inner, truthy, default, dynamic, List.mem_cons, true_or, or_true, Bool.or_false]
  rfl

theorem goesFurther_document (fields : List Field) (isOpen : Bool) :
    goesFurther (Field.document fields isOpen) = false := by
  have properties : membersGoFurther (Members.ofList (fields.map fun f => (f.key, f.property))) = false := by
    refine membersGoFurther_eq_false fun m hm => ?_
    obtain ⟨f, -, rfl⟩ := List.mem_map.mp (Members.mem_of_mem_ofList hm)
    exact goesFurther_property f
  show (false || (false || (false || (membersGoFurther _ || (false || false))))) = false
  rw [properties]
  rfl

end Schema

/-- Documents of fields have no further words, whatever defaults and keys the fields have. -/
theorem Dialect.read_document (dialect : Dialect) (fields : List Field) (isOpen : Bool) :
    dialect.read (Field.document fields isOpen) = Schema.read (Field.document fields isOpen) :=
  dialect.read_plain (Schema.goesFurther_document fields isOpen)

namespace Field

/-- **Enforcement**: where keys differ, the document of fields is a schema exactly if each label and description
that says anything is a text, and a check of a payload against it then reports nothing exactly for the objects
that the fields ask for.  These have every required key, no other keys than those of fields unless the document
is open, and under each key of a field that they have a value of that field: one of its type or a list of such,
or null where the field allows it. -/
theorem document_enforces (fields : List Field) (isOpen : Bool) (distinct : (fields.map (·.key)).Nodup) :
    ((∃ schema, Schema.read (document fields isOpen) = .ok schema) ↔ ∀ f ∈ fields, f.Titled) ∧
    ∀ schema, Schema.read (document fields isOpen) = .ok schema → ∀ payload,
      schema.check payload = [] ↔ ∃ members, payload = .obj members ∧ Conforms fields isOpen members := by
  obtain ⟨read, unread⟩ := read?_document isOpen distinct
  unfold Schema.read
  by_cases titled : ∀ f ∈ fields, f.Titled
  · rw [read titled]
    refine ⟨iff_of_true ⟨_, rfl⟩ titled, fun schema h payload => ?_⟩
    cases h
    rw [Schema.check_eq_nil_iff]
    exact documentRule_accepts_iff fields isOpen payload
  · rw [unread titled]
    exact ⟨iff_of_false (fun ⟨_, h⟩ => nomatch h) titled, nofun⟩

/-- A list of integers that may be null as a whole, but not in one of its items. -/
theorem document_enforces_nullList :
    let fields : List Field :=
      [⟨"name", .string, .str "Name", .str "", none, true, false, false, false, .str ""⟩,
        ⟨"sizes", .integer, .str "", .str "", none, false, true, false, true, .str ""⟩]
    (fields.map (·.key)).Nodup ∧ ∃ schema, Schema.read (document fields false) = .ok schema ∧
      schema.check (.obj [("name", .str "n"), ("sizes", .null)]) = [] ∧
      schema.check (.obj [("name", .str "n"), ("sizes", .arr [.null])]) ≠ [] := by
  intro fields
  have distinct : (fields.map (·.key)).Nodup := by decide
  obtain ⟨readable, enforced⟩ := document_enforces fields false distinct
  have titled : ∀ f ∈ fields, f.Titled := by simp [fields, Titled]
  obtain ⟨schema, read⟩ := readable.mpr titled
  refine ⟨distinct, schema, read, ?_, ?_⟩
  · rw [enforced schema read]
    refine ⟨_, rfl, ?_, ?_, ?_⟩
    · simp [fields, Members.contains, Members.get?]
    · simp [fields]
    · simp [fields, Members.get?, Holds, FieldType.Takes]
  · rw [Ne, enforced schema read]
    rintro ⟨_, ⟨⟩, conforms⟩
    have held := conforms.held _ (List.mem_cons_of_mem _ (List.mem_singleton.mpr rfl)) (.arr [.null]) rfl
    simp [Holds, FieldType.Takes] at held

end Field

end EventRouting
