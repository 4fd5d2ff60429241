import EventRouting.Field.Document
import Mathlib.Data.List.Nodup

/-!
# Fields and their documents

A document tells everything about its fields.

* `Field.Worded`      label, description and placeholder are texts
* `Field.Describes`   the members of a property, name by name
* `Field.tidied`      a field as its property tells it, with empty texts for what says nothing
* `Field.ofProperty_property`     the field that is read from a property
* `Field.ofDocument_tidied`       the fields that are read from a document
* `Field.ofDocument_document`     fields and documents, there and back
-/

namespace EventRouting.Field

/-- label, description and placeholder are texts -/
structure Worded (f : Field) : Prop where
  label : ∃ s, f.label = .str s
  description : ∃ s, f.description = .str s
  placeholder : ∃ s, f.placeholder = .str s

/-! ## the members of a property -/

def formatOf (f : Field) : Option Json := f.type.format?.map .str

def valueMembers (f : Field) : Members Json :=
  ("type", .str f.type.valueType) :: (f.formatOf.map fun v => ("format", v)).toList

/-- What stands under the names of a property. -/
structure Describes (members : Members Json) (f : Field) : Prop where
  type : members.get? "type" = some f.outerType
  items : members.get? "items" = if f.multiple then some (.obj f.valueMembers) else none
  format : members.get? "format" = if f.multiple then none else f.formatOf
  title : members.get? "title" = if f.label.isTruthy then some f.label else none
  description : members.get? "description" = if f.description.isTruthy then some f.description else none
  default : members.get? "default" = f.default
  placeholder : members.get? "placeholder" = if f.placeholder.isTruthy then some f.placeholder else none
  dynamic : members.get? "dynamic" = if f.dynamic then some (.bool true) else none

theorem get?_truthyMember (name : String) (v : Json) (key : String) :
    Members.get? (truthyMember name v) key = if name = key ∧ v.isTruthy then some v else none := by
  unfold truthyMember
  cases v.isTruthy <;> by_cases h : name = key <;> simp [h, Members.get?]

theorem get?_optional (name : String) (o : Option Json) (key : String) :
    Members.get? (o.map fun v => (name, v)).toList key = if name = key then o else none := by
  cases o <;> by_cases h : name = key <;> simp [h, Members.get?]

theorem get?_valueMembers_format (f : Field) : Members.get? f.valueMembers "format" = f.formatOf := by
  unfold valueMembers
  rw [Members.get?_cons_ne _ _ (by decide), get?_optional, if_pos rfl]

theorem get?_innerMembers (f : Field) (key : String) :
    Members.get? f.innerMembers key =
      if f.multiple then if "items" = key then some (.obj f.valueMembers) else none
      else if "format" = key then f.formatOf else none := by
  have hformat : (f.type.format?.map fun s => ("format", Json.str s)) = f.formatOf.map fun v => ("format", v) := by
    unfold formatOf
    rw [Option.map_map]
    rfl
  unfold innerMembers
  dsimp only
  rw [hformat]
  cases f.multiple with
  | true => rfl
  | false => exact get?_optional "format" f.formatOf key

theorem get?_dynamic (f : Field) (key : String) :
    Members.get? (if f.dynamic then [("dynamic", Json.bool true)] else []) key
      = if "dynamic" = key ∧ f.dynamic then some (.bool true) else none := by
  cases f.dynamic <;> by_cases h : "dynamic" = key <;> simp [h, Members.get?]

theorem property_describes (f : Field) : ∃ members, f.property = .obj members ∧ Describes members f := by
  refine ⟨_, rfl, ?_, ?_, ?_, ?_, ?_, ?_, ?_, ?_⟩
  all_goals
    simp only [Members.get?_append, Members.get?_cons, Members.get?_nil, get?_innerMembers,
      get?_truthyMember, get?_optional, get?_dynamic]
    simp

/-! ## reading a property -/

/-- A value that is left out where it says nothing, as it is read again. -/
def orEmptyText (v : Json) : Json := if v.isTruthy then v else .str ""

theorem orEmptyText_of_text {v : Json} (hv : ∃ s, v = .str s) : orEmptyText v = v := by
  obtain ⟨s, rfl⟩ := hv
  unfold orEmptyText
  cases he : s.isEmpty with
  | false => simp [Json.isTruthy, he]
  | true =>
    rw [String.isEmpty_iff] at he
    subst he
    rfl

theorem textMember_eq_orEmptyText {members : Members Json} {name : String} {v : Json}
    (h : members.get? name = if v.isTruthy then some v else none) : textMember members name = orEmptyText v := by
  unfold textMember orEmptyText
  rw [h]
  cases v.isTruthy <;> rfl

/-- A field as its property tells it. -/
def tidied (f : Field) : Field :=
  { f with
    label := orEmptyText f.label
    description := orEmptyText f.description
    placeholder := orEmptyText f.placeholder }

theorem tidied_of_worded {f : Field} (hw : f.Worded) : f.tidied = f := by
  unfold tidied
  rw [orEmptyText_of_text hw.label, orEmptyText_of_text hw.description, orEmptyText_of_text hw.placeholder]

theorem map_tidied {fields : List Field} (hw : ∀ f ∈ fields, f.Worded) : fields.map tidied = fields := by
  rw [List.map_congr_left fun f hf => tidied_of_worded (hw f hf), List.map_id']

theorem truthyMember_orEmptyText (name : String) (v : Json) :
    truthyMember name (orEmptyText v) = truthyMember name v := by
  unfold truthyMember orEmptyText
  cases hv : v.isTruthy with
  | true => rw [if_pos rfl, hv]
  | false => rfl

theorem property_tidied (f : Field) : f.tidied.property = f.property := by
  have same : ∀ name, truthyMember name f.tidied.label = truthyMember name f.label ∧
      truthyMember name f.tidied.description = truthyMember name f.description ∧
      truthyMember name f.tidied.placeholder = truthyMember name f.placeholder := fun name =>
    ⟨truthyMember_orEmptyText .., truthyMember_orEmptyText .., truthyMember_orEmptyText ..⟩
  unfold property
  rw [(same _).1, (same _).2.1, (same _).2.2]
  rfl

theorem document_tidied (fields : List Field) (isOpen : Bool) :
    document (fields.map tidied) isOpen = document fields isOpen := by
  unfold document
  rw [List.map_map, List.filter_map, List.map_map]
  have properties : (fun f : Field => (f.key, f.property)) ∘ tidied = fun f => (f.key, f.property) :=
    funext fun f => congrArg (f.key, ·) (property_tidied f)
  rw [properties]
  rfl

theorem valueType_ne_array (t : FieldType) : t.valueType ≠ "array" := by
  cases t <;> decide

theorem outerTypeOf_outerType (f : Field) (key : String) :
    outerTypeOf key f.outerType = .ok (.str (if f.multiple then "array" else f.type.valueType), f.allowNull) := by
  have hne : (if f.multiple then "array" else f.type.valueType) ≠ "null" := by
    cases f.multiple with
    | true =>
      rw [if_pos rfl]
      decide
    | false =>
      rw [if_neg Bool.false_ne_true]
      cases f.type <;> decide
  unfold outerType
  dsimp only
  generalize (if f.multiple then "array" else f.type.valueType) = type at hne
  cases f.allowNull with
  | false => rfl
  | true =>
    have hkeep : ([Json.str type, .str "null"].filter fun t => !t.isText "null") = [.str type] := by
      simp [Json.isText, hne]
    rw [if_pos rfl, outerTypeOf, hkeep]
    simp [Json.isText]

theorem typeOf_valueType (f : Field) (key : String) :
    typeOf key (.str f.type.valueType) (f.formatOf.getD .null) = .ok f.type := by
  have hformat : (f.formatOf.getD .null).isElement = true ∧ (f.formatOf.getD .null).text? = f.type.format? := by
    unfold formatOf
    cases f.type.format? <;> exact ⟨rfl, rfl⟩
  unfold typeOf
  dsimp only
  rw [hformat.1, hformat.2, FieldType.ofValueType?_valueType]
  rfl

theorem innerTypeOf_describes {members : Members Json} {f : Field} (h : Describes members f) (key : String) :
    innerTypeOf key members (.str (if f.multiple then "array" else f.type.valueType)) = .ok f.type := by
  have hitems := h.items
  have hformat := h.format
  unfold innerTypeOf
  cases hm : f.multiple with
  | false =>
    have hplain : (Json.str f.type.valueType).isText "array" = false := by
      simp [Json.isText, valueType_ne_array]
    rw [hm, if_neg Bool.false_ne_true] at hformat
    rw [if_neg Bool.false_ne_true, hplain, if_neg Bool.false_ne_true, hformat]
    exact typeOf_valueType f key
  | true =>
    rw [hm, if_pos rfl] at hitems
    rw [if_pos rfl, hitems]
    show typeOf key ((Members.get? f.valueMembers "type").getD (.str "string"))
      ((Members.get? f.valueMembers "format").getD .null) = _
    rw [get?_valueMembers_format, show Members.get? f.valueMembers "type" = _ from Members.get?_cons_self ..]
    exact typeOf_valueType f key

/-- **A property describes its field.** -/
theorem ofProperty_property (f : Field) : ofProperty f.key f.required f.property = .ok f.tidied := by
  obtain ⟨members, hp, hd⟩ := property_describes f
  have hmultiple : (Json.str (if f.multiple then "array" else f.type.valueType)).isText "array" = f.multiple := by
    cases f.multiple with
    | false => simp [Json.isText, valueType_ne_array]
    | true => rfl
  have hdynamic : flag members "dynamic" = f.dynamic := by
    unfold flag
    rw [hd.dynamic]
    cases f.dynamic <;> rfl
  rw [hp, ofProperty, hd.type]
  dsimp only [Option.getD_some]
  rw [outerTypeOf_outerType]
  dsimp only
  rw [innerTypeOf_describes hd, hmultiple, hdynamic, hd.default, textMember_eq_orEmptyText hd.title,
    textMember_eq_orEmptyText hd.description, textMember_eq_orEmptyText hd.placeholder]
  rfl

theorem ofProperties_property {fields : List Field} {required : List String}
    (hr : ∀ f ∈ fields, required.contains f.key = f.required) :
    ofProperties required (fields.map fun f => (f.key, f.property)) = .ok (fields.map tidied) := by
  induction fields with
  | nil => rfl
  | cons f rest ih =>
    have hrest := ih fun g hg => hr g (List.mem_cons_of_mem _ hg)
    rw [List.map_cons, ofProperties, hr f (List.mem_cons_self ..), ofProperty_property, hrest]
    rfl

/-! ## documents -/

theorem ofList_properties {fields : List Field} (distinct : (fields.map (·.key)).Nodup) :
    Members.ofList (fields.map fun f => (f.key, f.property)) = fields.map fun f => (f.key, f.property) := by
  refine Members.ofList_of_distinct ?_
  unfold Members.Distinct Members.names
  rw [List.map_map]
  exact distinct

theorem requiredKeys_eq (fields : List Field) :
    ((fields.filter (·.required)).map fun f => Json.str f.key)
      = ((fields.filter (·.required)).map (·.key)).map .str := by
  rw [List.map_map]
  rfl

theorem contains_requiredKeys {fields : List Field} (distinct : (fields.map (·.key)).Nodup) {f : Field}
    (hf : f ∈ fields) : ((fields.filter (·.required)).map (·.key)).contains f.key = f.required := by
  have hinj : ∀ g ∈ fields, g.key = f.key → g = f := fun g hg hk => List.inj_on_of_nodup_map distinct hg hf hk
  cases hr : f.required with
  | true => exact List.contains_iff_mem.mpr (List.mem_map.mpr ⟨f, List.mem_filter.mpr ⟨hf, hr⟩, rfl⟩)
  | false =>
    refine Bool.eq_false_iff.mpr fun hc => ?_
    obtain ⟨g, hg, hk⟩ := List.mem_map.mp (List.contains_iff_mem.mp hc)
    obtain ⟨hg, hgr⟩ := List.mem_filter.mp hg
    rw [hinj g hg hk, hr] at hgr
    cases hgr

theorem ofDocument_obj {members properties : Members Json} {keys : List String} {v : Json}
    {fields : List Field} (hne : members ≠ []) (hp : members.get? "properties" = some (.obj properties))
    (hv : members.get? "required" = some v) (hk : v.names = .ok keys)
    (hf : ofProperties keys properties = .ok fields) :
    FieldList.ofDocument (.obj members) = .ok ⟨fields, flag members "additionalProperties"⟩ := by
  have htruthy : (Json.obj members).isTruthy = true := by
    cases members with
    | nil => exact absurd rfl hne
    | cons m rest => rfl
  rw [FieldList.ofDocument, htruthy]
  simp only [Bool.not_true, Bool.false_eq_true, if_false, hv, Option.getD_some, hk, hp, hf]

theorem ofDocument_tidied (fields : List Field) (isOpen : Bool) (distinct : (fields.map (·.key)).Nodup) :
    FieldList.ofDocument (document fields isOpen) = .ok ⟨fields.map tidied, isOpen⟩ := by
  have hfields := ofProperties_property fun f hf => contains_requiredKeys distinct hf
  unfold document
  rw [ofList_properties distinct, requiredKeys_eq, ofDocument_obj (by simp) (by simp [Members.get?_cons])
    (by simp [Members.get?_cons]) (Json.names_strings _) hfields]
  simp [flag, Members.get?_cons, Json.isTruthy]

/-- **Nothing is lost.**  The document of fields of different keys, whose labels, descriptions and
placeholders are texts, describes these fields in their order and says whether it is open; and the
fields that are read from such a document have this document again, down to the order of its
properties and of the keys it requires. -/
theorem ofDocument_document (fields : List Field) (isOpen : Bool) (distinct : (fields.map (·.key)).Nodup)
    (worded : ∀ f ∈ fields, f.Worded) :
    FieldList.ofDocument (document fields isOpen) = .ok ⟨fields, isOpen⟩ ∧
      (FieldList.ofDocument (document fields isOpen)).map FieldList.document = .ok (document fields isOpen) := by
  have hread : FieldList.ofDocument (document fields isOpen) = .ok ⟨fields, isOpen⟩ := by
    rw [ofDocument_tidied fields isOpen distinct, map_tidied worded]
  refine ⟨hread, ?_⟩
  rw [hread]
  rfl

/-- A list of times that may be null, whose default is null, and a secret without a default. -/
theorem ofDocument_document_timesAndSecret :
    let fields : List Field :=
      [⟨"at", .datetime, .str "When", .str "", some .null, true, true, false, true, .str ""⟩,
        ⟨"token", .password, .str "", .str "Secret", none, false, false, true, false, .str "abc"⟩]
    (fields.map (·.key)).Nodup ∧ (∀ f ∈ fields, f.Worded) ∧
      FieldList.ofDocument (document fields true) = .ok ⟨fields, true⟩ ∧
      (FieldList.ofDocument (document fields true)).map FieldList.document = .ok (document fields true) := by
  intro fields
  have distinct : (fields.map (·.key)).Nodup := by decide
  have worded : ∀ f ∈ fields, f.Worded := by
    intro f hf
    rcases List.mem_cons.mp hf with rfl | hf
    · exact ⟨⟨_, rfl⟩, ⟨_, rfl⟩, ⟨_, rfl⟩⟩
    · rw [List.mem_singleton.mp hf]
      exact ⟨⟨_, rfl⟩, ⟨_, rfl⟩, ⟨_, rfl⟩⟩
  exact ⟨distinct, worded, ofDocument_document fields true distinct worded⟩

end EventRouting.Field
