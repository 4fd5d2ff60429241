import EventRouting.Proofs.Action.Pipeline
import EventRouting.Proofs.Field.Enforcement

/-!
# Declarations that compile

An action declared with fields that were read from a document checks payloads against their document, as a closed
one.

* `Field.Conforms.closed_iff`             closed is open without undeclared keys
* `ActionDeclaration.Compiles`            the parts of a declaration beside its fields are sound
* `ActionDeclaration.build_eq_ok_iff`     the action that a declaration is built to
* `ActionDeclaration.build_ofDocument`    what an action with fields of a document accepts
-/

namespace EventRouting

namespace Field

variable {fields : List Field} {isOpen : Bool}

/-- Closed fields ask for the same as open ones, and for no other keys. -/
theorem Conforms.closed_iff {members : Members Json} :
    Conforms fields false members ↔
      Conforms fields isOpen members ∧ ∀ k ∈ members.names, ∃ f ∈ fields, f.key = k := by
  constructor
  · intro h
    exact ⟨⟨h.required, fun _ => h.declared rfl, h.held⟩, h.declared rfl⟩
  · rintro ⟨h, declared⟩
    exact ⟨h.required, fun _ => declared, h.held⟩

theorem documentRule_closed_iff (fields : List Field) (isOpen : Bool) (payload : Json) :
    (documentRule fields false).check payload = [] ↔ (documentRule fields isOpen).check payload = [] ∧
      ∀ members : Members Json, payload = .obj members → ∀ k ∈ members.names, ∃ f ∈ fields, f.key = k := by
  rw [Schema.check_eq_nil_iff, Schema.check_eq_nil_iff, documentRule_accepts_iff, documentRule_accepts_iff]
  constructor
  · rintro ⟨members, rfl, conforms⟩
    obtain ⟨conforms, declared⟩ := Conforms.closed_iff.mp conforms
    refine ⟨⟨members, rfl, conforms⟩, fun members' he => ?_⟩
    cases he
    exact declared
  · rintro ⟨⟨members, rfl, conforms⟩, declared⟩
    exact ⟨members, rfl, Conforms.closed_iff.mpr ⟨conforms, declared members rfl⟩⟩

/-- The document of fields of different keys is read as their schema, where it is one. -/
theorem read_document_iff (distinct : (fields.map (·.key)).Nodup) {schema : Schema} :
    Schema.read (document fields isOpen) = .ok schema ↔
      (∀ f ∈ fields, f.Titled) ∧ schema = documentRule fields isOpen := by
  obtain ⟨read, unread⟩ := read?_document isOpen distinct
  unfold Schema.read
  by_cases titled : ∀ f ∈ fields, f.Titled
  · rw [read titled]
    exact ⟨fun h => ⟨titled, (Except.ok.inj h).symm⟩, fun h => congrArg Except.ok h.2.symm⟩
  · rw [unread titled]
    exact ⟨(fun h => nomatch h), fun h => absurd h.1 titled⟩

end Field

theorem bind_eq_ok_iff {α β : Type} {x : Except Fault α} {f : α → Except Fault β} {b : β} :
    x >>= f = .ok b ↔ ∃ a, x = .ok a ∧ f a = .ok b := by
  refine ⟨exists_of_bind_eq_ok, ?_⟩
  rintro ⟨a, rfl, h⟩
  exact h

theorem exists_forall₂_iff {α β : Type} {R : α → β → Prop} {l : List α} :
    (∃ l', List.Forall₂ R l l') ↔ ∀ a ∈ l, ∃ b, R a b := by
  induction l with
  | nil => exact iff_of_true ⟨[], .nil⟩ nofun
  | cons a l ih =>
    rw [List.forall_mem_cons, ← ih]
    constructor
    · rintro ⟨_, h⟩
      cases h with
      | cons ha hl => exact ⟨⟨_, ha⟩, _, hl⟩
    · rintro ⟨⟨b, ha⟩, l', hl⟩
      exact ⟨b :: l', .cons ha hl⟩

namespace ActionDeclaration

/-! ## building -/

variable {d : ActionDeclaration} {slug : String} {extensions : List Extension} {settingsSchema : Option Json}
  {dialect : Dialect} {a : Action} {fields : List Field}

/-- The check of the settings, where there is a schema of them. -/
def SettingsChecks (dialect : Dialect) (settingsSchema : Option Json) (checks : List Step) : Prop :=
  match settingsSchema with
  | none => checks = []
  | some document => ∃ schema, dialect.read document = .ok schema ∧ checks = [.validate .settings schema]

theorem validations_eq_ok_iff (ne : fields ≠ []) {b b' : Builder} :
    validations b dialect settingsSchema fields = .ok b' ↔
      ∃ checks rule, SettingsChecks dialect settingsSchema checks ∧ Schema.read (Field.document fields false) = .ok rule ∧
        b' = { b with steps := b.steps ++ (checks ++ [.validate .payload rule]) } := by
  have payload (c : Builder) :
      (if fields.isEmpty then Except.ok c else c.validate dialect .payload (Field.document fields false)) =
          .ok b' ↔
        ∃ rule, Schema.read (Field.document fields false) = .ok rule ∧ b' = c.addStep (.validate .payload rule) := by
    rw [if_neg fun h => ne (List.isEmpty_iff.mp h), validate_eq_ok_iff, Dialect.read_document]
  unfold validations SettingsChecks
  cases settingsSchema with
  | none =>
    refine (payload b).trans ⟨fun ⟨rule, hr, hb⟩ => ⟨[], rule, rfl, hr, hb⟩, ?_⟩
    rintro ⟨_, rule, rfl, hr, hb⟩
    exact ⟨rule, hr, hb⟩
  | some document =>
    refine bind_eq_ok_iff.trans ⟨?_, ?_⟩
    · rintro ⟨c, hc, h⟩
      obtain ⟨schema, hs, rfl⟩ := validate_eq_ok_iff.mp hc
      obtain ⟨rule, hr, rfl⟩ := (payload _).mp h
      refine ⟨_, rule, ⟨schema, hs, rfl⟩, hr, ?_⟩
      unfold Builder.addStep
      rw [List.append_assoc]
    · rintro ⟨_, rule, ⟨schema, hs, rfl⟩, hr, rfl⟩
      refine ⟨_, validate_eq_ok_iff.mpr ⟨schema, hs, rfl⟩, (payload _).mpr ⟨rule, hr, ?_⟩⟩
      unfold Builder.addStep
      rw [List.append_assoc]

theorem exists_settingsChecks_iff :
    (∃ checks, SettingsChecks dialect settingsSchema checks) ↔
      ∀ document, settingsSchema = some document → ∃ schema, dialect.read document = .ok schema := by
  unfold SettingsChecks
  cases settingsSchema with
  | none => exact iff_of_true ⟨[], rfl⟩ nofun
  | some document =>
    constructor
    · rintro ⟨_, schema, hr, -⟩ _ ⟨⟩
      exact ⟨schema, hr⟩
    · intro h
      obtain ⟨schema, hr⟩ := h document rfl
      exact ⟨_, schema, hr, rfl⟩

/-- The parts of a declaration beside its fields, and the schema of the settings, are sound. -/
structure Compiles (d : ActionDeclaration) (dialect : Dialect) (fields : List Field) (settingsSchema : Option Json) :
    Prop where
  settings : ∀ document, settingsSchema = some document → ∃ schema, dialect.read document = .ok schema
  requests : ∀ c ∈ d.cachedRequests, ∃ s, Step.cachedRequest c.ttl c.key c.value c.field = .ok s
  handlers : HandlersFit (Members.ofList d.handlers) fields

/-- A declaration with fields is built exactly if its handlers fit the fields, the schema of the settings and the
document of the fields can be read, and the cached requests are sound. -/
theorem build_eq_ok_iff (hf : d.fields.fields = .ok fields) (ne : fields ≠ []) :
    d.build slug extensions settingsSchema dialect = .ok a ↔
      HandlersFit (Members.ofList d.handlers) fields ∧ ∃ checks rule cached,
        SettingsChecks dialect settingsSchema checks ∧ Schema.read (Field.document fields false) = .ok rule ∧
        List.Forall₂ (fun c s => Step.cachedRequest c.ttl c.key c.value c.field = .ok s) d.cachedRequests cached ∧
        a = ⟨slug, .mapInput :: (checks ++ .validate .payload rule :: (cached ++ [.request "perform" d.perform])),
          extensions, d.title, d.description, d.defaultSubscription, fields, d.hidden,
          Members.ofList d.handlers⟩ := by
  have steps (checks cached : List Step) (rule : Schema) :
      [] ++ (checks ++ [.validate .payload rule]) ++ cached ++ [.request "perform" d.perform] =
        checks ++ .validate .payload rule :: (cached ++ [.request "perform" d.perform]) := by
    simp only [List.nil_append, List.append_assoc, List.cons_append]
  constructor
  · intro h
    obtain ⟨_, hf', h⟩ := exists_of_bind_eq_ok h
    cases hf.symm.trans hf'
    obtain ⟨_, hv, h⟩ := exists_of_bind_eq_ok h
    obtain ⟨_, hc, h⟩ := exists_of_bind_eq_ok h
    obtain ⟨checks, rule, hs, hr, rfl⟩ := (validations_eq_ok_iff ne).mp hv
    obtain ⟨cached, rfl, requests⟩ := addCached_eq_ok_iff.mp hc
    dsimp only at h
    rw [foldl_handle] at h
    obtain ⟨fit, rfl⟩ := Builder.build_eq_ok_iff.mp h
    refine ⟨fit, checks, rule, cached, hs, hr, requests, ?_⟩
    rw [← steps]
    rfl
  · rintro ⟨fit, checks, rule, cached, hs, hr, requests, rfl⟩
    refine bind_eq_ok_iff.mpr ⟨fields, hf, ?_⟩
    refine bind_eq_ok_iff.mpr ⟨_, (validations_eq_ok_iff ne).mpr ⟨checks, rule, hs, hr, rfl⟩, ?_⟩
    refine bind_eq_ok_iff.mpr ⟨_, addCached_eq_ok_iff.mpr ⟨cached, rfl, requests⟩, ?_⟩
    dsimp only
    rw [foldl_handle]
    refine Builder.build_eq_ok_iff.mpr ⟨fit, ?_⟩
    rw [← steps]
    rfl

/-! ## checks of the payload -/

theorem cached_of_requests {cs : List CachedRequest} {cached : List Step}
    (h : List.Forall₂ (fun c s => Step.cachedRequest c.ttl c.key c.value c.field = .ok s) cs cached) :
    ∀ s ∈ cached, ∃ ttl key value field, s = .cached ttl key value field := by
  induction h with
  | nil => exact fun _ hm => nomatch hm
  | cons declared _ ih =>
    refine List.forall_mem_cons.mpr ⟨?_, ih⟩
    unfold Step.cachedRequest at declared
    split at declared
    · cases declared
    · cases declared
      exact ⟨_, _, _, _, rfl⟩

/-- There is one check of the payload among the steps of a declaration. -/
theorem mem_payload_iff {checks cached : List Step} {rule : Schema}
    (settled : SettingsChecks dialect settingsSchema checks)
    (requests : List.Forall₂ (fun c s => Step.cachedRequest c.ttl c.key c.value c.field = .ok s) d.cachedRequests
      cached) (r : Schema) :
    .validate .payload r ∈ (.mapInput :: (checks ++ .validate .payload rule :: (cached ++ [.request "perform" d.perform]))
      : List Step) ↔ r = rule := by
  have settings : .validate .payload r ∉ checks := by
    unfold SettingsChecks at settled
    split at settled
    · rw [settled]
      exact List.not_mem_nil
    · obtain ⟨schema, -, rfl⟩ := settled
      intro hm
      cases List.mem_singleton.mp hm
  have others : .validate .payload r ∉ cached := fun hm => by
    obtain ⟨_, _, _, _, he⟩ := cached_of_requests requests _ hm
    cases he
  constructor
  · intro hm
    rcases List.mem_cons.mp hm with he | hm
    · cases he
    rcases List.mem_append.mp hm with hm | hm
    · exact absurd hm settings
    rcases List.mem_cons.mp hm with he | hm
    · cases he
      rfl
    rcases List.mem_append.mp hm with hm | hm
    · exact absurd hm others
    · cases List.mem_singleton.mp hm
  · rintro rfl
    exact List.mem_cons_of_mem _ (List.mem_append_right _ List.mem_cons_self)

/-- **Fields of a document.**  The fields that are read from the document of fields of different keys have that
document again, open or closed.  An action that is declared with them compiles exactly if its own parts are sound
and the document can be read as a schema.  It then has one check of the payload, which accepts what the document
accepts, as far as there are no undeclared keys: of an open document only the openness is lost. -/
theorem build_ofDocument (fields : List Field) (isOpen : Bool) (distinct : (fields.map (·.key)).Nodup)
    (ne : fields ≠ []) :
    ∃ l, FieldList.ofDocument (Field.document fields isOpen) = .ok l ∧ l.isOpen = isOpen ∧
      l.document = Field.document fields isOpen ∧
      ∀ d : ActionDeclaration, d.fields = .read l → ∀ slug extensions settingsSchema dialect,
        ((∃ a, d.build slug extensions settingsSchema dialect = .ok a) ↔
          (∃ schema, Schema.read (Field.document fields isOpen) = .ok schema) ∧
          d.Compiles dialect l.fields settingsSchema) ∧
        ∀ a, d.build slug extensions settingsSchema dialect = .ok a →
          ∃ schema rule, Schema.read (Field.document fields isOpen) = .ok schema ∧
            (∀ r, .validate .payload r ∈ a.steps ↔ r = rule) ∧ (isOpen = false → rule = schema) ∧
            ∀ payload, rule.check payload = [] ↔ schema.check payload = [] ∧
              ∀ members : Members Json, payload = .obj members → ∀ k ∈ members.names, ∃ f ∈ fields, f.key = k := by
  refine ⟨_, Field.ofDocument_tidied fields isOpen distinct, rfl, Field.document_tidied fields isOpen,
    fun d hd slug extensions settingsSchema dialect => ?_⟩
  have hf : d.fields.fields = .ok (fields.map Field.tidied) := by rw [hd]; rfl
  have ne' : fields.map Field.tidied ≠ [] := List.map_eq_nil_iff.not.mpr ne
  have read {isOpen : Bool} {schema : Schema} : Schema.read (Field.document fields isOpen) = .ok schema ↔
      (∀ f ∈ fields, f.Titled) ∧ schema = Field.documentRule fields isOpen := Field.read_document_iff distinct
  constructor
  · constructor
    · rintro ⟨a, h⟩
      obtain ⟨fit, checks, rule, cached, settled, hr, requests, -⟩ := (build_eq_ok_iff hf ne').mp h
      rw [Field.document_tidied, read] at hr
      exact ⟨⟨_, read.mpr ⟨hr.1, rfl⟩⟩, exists_settingsChecks_iff.mp ⟨_, settled⟩,
        exists_forall₂_iff.mp ⟨_, requests⟩, fit⟩
    · rintro ⟨⟨schema, hr⟩, settings, requests, fit⟩
      obtain ⟨checks, settled⟩ := exists_settingsChecks_iff.mpr settings
      obtain ⟨cached, requests⟩ := exists_forall₂_iff.mpr requests
      refine ⟨_, (build_eq_ok_iff hf ne').mpr
        ⟨fit, checks, Field.documentRule fields false, cached, settled, ?_, requests, rfl⟩⟩
      rw [Field.document_tidied, read]
      exact ⟨(read.mp hr).1, rfl⟩
  · intro a h
    obtain ⟨-, checks, rule, cached, settled, hr, requests, rfl⟩ := (build_eq_ok_iff hf ne').mp h
    rw [Field.document_tidied, read] at hr
    obtain ⟨titled, rfl⟩ := hr
    refine ⟨_, _, read.mpr ⟨titled, rfl⟩, mem_payload_iff settled requests, ?_, Field.documentRule_closed_iff fields isOpen⟩
    rintro rfl
    rfl

/-- An action that shows an address. -/
def viewer (l : FieldList) : ActionDeclaration where
  title := .str "View"
  description := .str ""
  fields := .read l
  defaultSubscription := .null
  hidden := .bool false
  perform := fun i => .give i.payload
  cachedRequests := []
  handlers := []

/-- An open document accepts a key that the action of its fields does not. -/
theorem build_ofDocument_undeclaredKey :
    let fields : List Field := [⟨"url", .string, .str "", .str "", none, false, false, false, false, .str ""⟩]
    let payload : Json := .obj [("url", .str "/a"), ("extra", .int 1)]
    ∃ l schema a rule, FieldList.ofDocument (Field.document fields true) = .ok l ∧
      Schema.read (Field.document fields true) = .ok schema ∧ (viewer l).build "view" [] none .usual = .ok a ∧
      a.steps = [.mapInput, .validate .payload rule, .request "perform" (viewer l).perform] ∧
      schema.check payload = [] ∧ rule.check payload ≠ [] := by
  intro fields payload
  have distinct : (fields.map (·.key)).Nodup := by decide
  have titled : ∀ f ∈ fields, f.Titled := by simp [fields, Field.Titled, Json.isTruthy]
  have read (isOpen : Bool) : Schema.read (Field.document fields isOpen) = .ok (Field.documentRule fields isOpen) :=
    (Field.read_document_iff distinct).mpr ⟨titled, rfl⟩
  have fieldsRead : FieldList.ofDocument (Field.document fields true) = .ok ⟨fields, true⟩ :=
    Field.ofDocument_tidied fields true distinct
  have fit : HandlersFit [] fields := fun _ _ h => absurd h List.not_mem_nil
  have settled : SettingsChecks .usual none [] := rfl
  have declared : (viewer ⟨fields, true⟩).fields.fields = .ok fields := rfl
  refine ⟨⟨fields, true⟩, _, _, Field.documentRule fields false, fieldsRead, read true,
    (build_eq_ok_iff declared (List.cons_ne_nil _ _)).mpr ⟨fit, [], _, [], settled, read false, .nil, rfl⟩, rfl,
    ?_, ?_⟩
  · rw [Schema.check_eq_nil_iff, Field.documentRule_accepts_iff]
    refine ⟨_, rfl, ?_, ?_, ?_⟩
    · simp [fields]
    · exact fun closed => absurd closed (by decide)
    · simp [fields, Members.get?, Field.Holds, FieldType.Takes]
  · rw [Ne, Schema.check_eq_nil_iff, Field.documentRule_accepts_iff]
    rintro ⟨members, he, conforms⟩
    obtain rfl := Json.obj.inj he
    obtain ⟨f, hf, key⟩ := conforms.declared rfl "extra" (by decide)
    rw [List.mem_singleton.mp hf] at key
    exact absurd key (by decide)

theorem build_ofDocument_requiredKey :
    let fields : List Field := [⟨"url", .string, .str "Address", .str "", none, true, false, false, false, .str ""⟩]
    (fields.map (·.key)).Nodup ∧ fields ≠ [] ∧ ∃ l a rule,
      FieldList.ofDocument (Field.document fields false) = .ok l ∧ (viewer l).build "view" [] none .usual = .ok a ∧
      .validate .payload rule ∈ a.steps ∧ rule.check (.obj [("url", .str "/a")]) = [] ∧ rule.check (.obj []) ≠ [] := by
  intro fields
  have distinct : (fields.map (·.key)).Nodup := by decide
  have ne : fields ≠ [] := List.cons_ne_nil _ _
  have titled : ∀ f ∈ fields, f.Titled := by simp [fields, Field.Titled, Json.isTruthy]
  obtain ⟨l, hl, -, -, compiles⟩ := build_ofDocument fields false distinct ne
  obtain ⟨built, checks⟩ := compiles (viewer l) rfl "view" [] none .usual
  have readable : Schema.read (Field.document fields false) = .ok (Field.documentRule fields false) :=
    (Field.read_document_iff distinct).mpr ⟨titled, rfl⟩
  have sound : (viewer l).Compiles .usual l.fields none := by
    refine ⟨fun _ h => ?_, fun _ h => absurd h List.not_mem_nil, fun _ _ h => absurd h List.not_mem_nil⟩
    cases h
  obtain ⟨a, ha⟩ := built.mpr ⟨⟨_, readable⟩, sound⟩
  obtain ⟨schema, rule, hr, only, same, -⟩ := checks a ha
  cases readable.symm.trans hr
  cases same rfl
  refine ⟨distinct, ne, l, a, _, hl, ha, (only _).mpr rfl, ?_, ?_⟩
  · rw [Schema.check_eq_nil_iff, Field.documentRule_accepts_iff]
    refine ⟨_, rfl, ?_, ?_, ?_⟩
    · simp [fields, Members.contains, Members.get?]
    · simp [fields]
    · simp [fields, Members.get?, Field.Holds, FieldType.Takes]
  · rw [Ne, Schema.check_eq_nil_iff, Field.documentRule_accepts_iff]
    rintro ⟨_, ⟨⟩, conforms⟩
    exact absurd (conforms.required _ (List.mem_singleton.mpr rfl) rfl) (by decide)

end ActionDeclaration

end EventRouting
