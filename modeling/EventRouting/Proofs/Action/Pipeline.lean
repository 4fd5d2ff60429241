import EventRouting.Proofs.Destination.Story
import EventRouting.Proofs.Field.Enforcement

/-!
# The pipeline of a declared action

* `Strand.Enters`     the callables that a strand may enter, in order
* `Action.sites`      the callables of an action, in the order of its steps
* `ActionDeclaration.Layout`   the mapping, the validations, the cached requests, and the last call
* `ActionDeclaration.Checked`  what has to hold of an invocation before anything is done for it
* `Action.stored`     what completed steps have looked up
* `ActionDeclaration.build_pipeline`   no callable is entered for an invocation that is not valid
-/

namespace EventRouting

def Deed.site? : Deed → Option Site
  | ⟨.enter s, _⟩ => some s
  | _ => none

def Site.cell? : Site → Option Cell
  | .key cell | .value cell | .request cell => some cell
  | _ => none

/-! ## callables that are entered -/

namespace Strand

variable {α β : Type}

/-- Whatever the world answers, a strand enters only these callables, in this order, each once. -/
inductive Enters : List Site → Strand α → Prop where
  | done (sites : List Site) (a : α) : Enters sites (.done a)
  | enter {site : Site} {sites : List Site} {next : Unit → Strand α} (rest : ∀ answer, Enters sites (next answer)) :
      Enters (site :: sites) (.perform (.enter site) next)
  /-- a callable is passed over -/
  | pass {site : Site} {sites : List Site} {s : Strand α} (h : Enters sites s) : Enters (site :: sites) s
  | other {op : Op} {sites : List Site} {next : op.Answer → Strand α} (h : ∀ site, op ≠ .enter site)
      (rest : ∀ answer, Enters sites (next answer)) : Enters sites (.perform op next)

namespace Enters

variable {us vs : List Site}

theorem passAll {s : Strand α} (h : Enters vs s) (us : List Site) : Enters (us ++ vs) s := by
  induction us with
  | nil => exact h
  | cons u us ih => exact .pass ih

theorem bind {s : Strand α} {f : α → Strand β} (hs : Enters us s) (hf : ∀ a, Enters vs (f a)) :
    Enters (us ++ vs) (s.bind f) := by
  induction hs with
  | done sites a => exact (hf a).passAll sites
  | enter _ ih => exact .enter ih
  | pass _ ih => exact .pass ih
  | other h _ ih => exact .other h ih

theorem of_asks {s : Strand α} (h : s.Asks) : Enters [] s := by
  induction h with
  | done a => exact .done [] a
  | ask _ ih => exact .other (fun _ he => nomatch he) ih

/-- **However far it has come**, a strand has entered some of its callables, in their order. -/
theorem follows {s t : Strand α} {ds : List Deed} (h : Enters us s) (hf : s.Follows ds t) :
    (ds.filterMap Deed.site?).Sublist us := by
  induction h generalizing ds with
  | done sites a =>
    cases hf
    exact List.nil_sublist _
  | enter _ ih =>
    cases hf with
    | refl => exact List.nil_sublist _
    | step rest => exact (ih _ rest).cons_cons _
  | pass _ ih => exact (ih hf).cons _
  | @other op sites next h _ ih =>
    cases hf with
    | refl => exact List.nil_sublist _
    | @step _ _ answer ds _ rest =>
      have none : Deed.site? ⟨op, answer⟩ = none := by
        cases op with
        | enter site => exact absurd rfl (h site)
        | ask | look | await | settle | record => rfl
      rw [List.filterMap_cons_none none]
      exact ih _ rest

end Enters

end Strand

namespace Attempt

open Strand

variable {α β : Type} {u v : List Site}

theorem enters_bind {x : Attempt α} {f : α → Attempt β} (hx : Enters u x.outcome)
    (hf : ∀ a, Enters v (f a).outcome) : Enters (u ++ v) (x >>= f : Attempt β).outcome := by
  rw [bind_eq]
  refine hx.bind fun r => ?_
  cases r with
  | ok a => exact hf a
  | error e => exact .done _ _

end Attempt

namespace Step

open Strand

/-- The callables of a step: the key before the value. -/
def sites (cell : Cell) : Step → List Site
  | cached .. => [.key cell, .value cell]
  | request .. => [.request cell]
  | _ => []

theorem cell_of_mem_sites {cell : Cell} {s : Step} {site : Site} (h : site ∈ s.sites cell) :
    site.cell? = some cell := by
  cases s with
  | mapInput | validate => cases h
  | cached => rcases List.mem_pair.mp h with rfl | rfl <;> rfl
  | request =>
    obtain rfl := List.mem_singleton.mp h
    rfl

theorem enters_enter (site : Site) : Enters [site] (enter site).outcome := .enter fun _ => .done _ _

theorem enters_computed (cell : Cell) (o : Options) (value : Callable) (i : Invocation) :
    Enters [.value cell] (computed cell o value i).outcome := by
  unfold computed
  refine Attempt.enters_bind (u := [.value cell]) (v := []) (enters_enter _) fun _ => ?_
  exact Attempt.enters_bind (u := []) (.of_asks (Client.converse_asks o _)) fun reply => .done _ _

theorem enters_lookUp {cell : Cell} {compute : Attempt Json} {us : List Site} (hc : Enters us compute.outcome)
    (key : String) (ttl : Json) : Enters us (lookUp cell key ttl compute).outcome := by
  have settles : ∀ f outcome, Enters [] (settle cell key f ttl outcome).outcome := fun f outcome =>
    .other (fun _ he => nomatch he) fun _ => .done _ _
  refine .other (fun _ he => nomatch he) fun found => ?_
  match found with
  | .hit v => exact .done _ _
  | .join f => exact .other (fun _ he => nomatch he) fun _ => .done _ _
  | .lead f =>
    have led := hc.bind (settles f)
    rw [List.append_nil] at led
    exact led

theorem enters_execute (f : Factory) (cell : Cell) (i : Invocation) (s : Step) :
    Enters (s.sites cell) (s.execute f cell i).outcome := by
  cases s with
  | mapInput => exact .done _ _
  | validate target schema => exact .done _ _
  | cached ttl key value field =>
    refine Attempt.enters_bind (u := [.key cell, .value cell]) (v := []) ?_ fun v => .done _ _
    unfold fetched
    refine Attempt.enters_bind (u := [.key cell]) (enters_enter _) fun _ => ?_
    refine Attempt.enters_bind (u := []) (.done _ _) fun k => ?_
    refine Attempt.enters_bind (u := []) (.done _ _) fun o => ?_
    split
    · exact enters_computed cell o value i
    · exact enters_lookUp (enters_computed cell o value i) k.display ttl
  | request name callable =>
    refine Attempt.enters_bind (u := [.request cell]) (v := []) ?_ fun reply => .done _ _
    refine Attempt.enters_bind (u := []) (.done _ _) fun o => ?_
    refine Attempt.enters_bind (u := [.request cell]) (v := []) (enters_enter _) fun _ => ?_
    exact .of_asks (Client.converse_asks o _)

end Step

namespace Action

variable {f : Factory} {a : Action} {home : String}

def sitesFrom (a : Action) (home : String) : Nat → List Step → List Site
  | _, [] => []
  | n, s :: rest => s.sites (a.cell home n) ++ sitesFrom a home (n + 1) rest

/-- The callables of an action in the order of its steps. -/
def sites (a : Action) (home : String) : List Site := a.sitesFrom home 0 a.steps

theorem enters_executeFrom (n : Nat) (steps : List Step) (i : Invocation) (before : List StepResult) :
    (executeFrom f a home n steps i before).Enters (a.sitesFrom home n steps) := by
  induction steps generalizing n i before with
  | nil => exact .done _ _
  | cons s rest ih =>
    refine (Step.enters_execute f (a.cell home n) i s).bind fun outcome => ?_
    cases outcome with
    | error fault => exact .done _ _
    | ok r => exact ih ..

theorem cell_of_mem_sitesFrom {n : Nat} {steps : List Step} :
    ∀ site ∈ a.sitesFrom home n steps, ∃ m, n ≤ m ∧ site.cell? = some (a.cell home m) := by
  induction steps generalizing n with
  | nil => exact fun _ h => nomatch h
  | cons s rest ih =>
    intro site hs
    rcases List.mem_append.mp hs with hs | hs
    · exact ⟨n, Nat.le_refl n, Step.cell_of_mem_sites hs⟩
    · obtain ⟨m, hm, hc⟩ := ih site hs
      exact ⟨m, by omega, hc⟩

theorem nodup_sitesFrom (n : Nat) (steps : List Step) : (a.sitesFrom home n steps).Nodup := by
  induction steps generalizing n with
  | nil => exact List.nodup_nil
  | cons s rest ih =>
    refine List.nodup_append.mpr ⟨?_, ih (n + 1), ?_⟩
    · cases s <;> simp [Step.sites]
    · rintro site hs _ hr rfl
      obtain ⟨m, hm, hc⟩ := cell_of_mem_sitesFrom site hr
      rw [Step.cell_of_mem_sites hs, Option.some_inj] at hc
      have same : n = m := congrArg Cell.step hc
      omega

/-! ## steps that are completed -/

def kept (s : Step) (r : StepResult) (state : Members Json) : Members Json :=
  match s.field? with
  | some field => state.set field r.output
  | none => state

/-- What is looked up after steps with their results: what each cached request came to, under its field. -/
def stored : List Step → List StepResult → Members Json → Members Json
  | s :: steps, r :: results, state => stored steps results (kept s r state)
  | _, _, state => state

/-- Only the mapping changes more of an invocation than what is looked up. -/
theorem kept_of_execute {s : Step} {cell : Cell} {i j : Invocation} {ds : List Deed} {r : StepResult}
    (h : (s.execute f cell i).outcome.Follows ds (.done (.ok (j, r)))) (hs : s ≠ .mapInput) :
    j = { i with state := kept s r i.state } := by
  cases Step.does_of_follows h with
  | mapped => exact absurd rfl hs
  | validated | looked | called => rfl

theorem Executes.stored {steps : List Step} (hs : Step.mapInput ∉ steps) {n : Nat} {i k : Invocation}
    {ds : List Deed} {result : Except Fault (List StepResult)} (h : Executes f a home n steps i ds k result) :
    ∀ results, result = .ok results → k = { i with state := Action.stored steps results i.state } := by
  induction h with
  | nil =>
    rintro _ ⟨⟩
    rfl
  | halt => exact fun _ h => nomatch h
  | @next n s rest i j k ds es r result first _ ih =>
    rw [List.mem_cons, not_or] at hs
    intro results he
    cases result with
    | error fault => cases he
    | ok more =>
      cases he
      rw [ih hs.2 more rfl, kept_of_execute first (Ne.symm hs.1)]
      rfl

/-- **Up to the first fault**: the steps before it have come to results, the step has come to the fault, and
no later step has done anything. -/
theorem Executes.split {steps : List Step} {n : Nat} {i k : Invocation} {ds : List Deed}
    {result : Except Fault (List StepResult)} (h : Executes f a home n steps i ds k result) :
    ∃ completed pending results us vs, steps = completed ++ pending ∧ ds = us ++ vs ∧
      Executes f a home n completed i us k (.ok results) ∧
      (pending = [] ∧ vs = [] ∧ result = .ok results ∨
        ∃ s rest fault, pending = s :: rest ∧ result = .error fault ∧
          (s.execute f (a.cell home (n + completed.length)) k).outcome.Follows vs (.done (.error fault))) := by
  induction h with
  | nil n i => exact ⟨[], [], [], [], [], rfl, rfl, .nil n i, .inl ⟨rfl, rfl, rfl⟩⟩
  | @halt n s rest i ds fault h =>
    exact ⟨[], s :: rest, [], [], ds, rfl, rfl, .nil n i, .inr ⟨s, rest, fault, rfl, rfl, h⟩⟩
  | @next n s rest i j k ds es r result first _ ih =>
    obtain ⟨completed, pending, results, us, vs, rfl, rfl, executed, ends⟩ := ih
    refine ⟨s :: completed, pending, r :: results, ds ++ us, vs, rfl, (List.append_assoc ..).symm,
      .next first executed, ?_⟩
    rcases ends with ⟨hp, hv, rfl⟩ | ⟨s', rest', fault, hp, rfl, failed⟩
    · exact .inl ⟨hp, hv, rfl⟩
    · refine .inr ⟨s', rest', fault, hp, rfl, ?_⟩
      rw [List.length_cons, ← Nat.add_assoc, Nat.add_right_comm]
      exact failed

end Action

/-! ## steps that do nothing -/

def Invocation.mappedPayload (i : Invocation) : Except Fault Json :=
  if i.mapping = .null then .ok i.payload else i.mapping.transform i.payload

theorem Step.mapped_cases (i : Invocation) :
    (∃ p r, i.mappedPayload = .ok p ∧ Step.mapped i = .ok ({ i with payload := p }, r)) ∨
      ∃ fault, i.mappedPayload = .error fault ∧ Step.mapped i = .error fault := by
  unfold Invocation.mappedPayload Step.mapped
  by_cases h : i.mapping = .null
  · rw [if_pos h, if_pos h]
    exact .inl ⟨i.payload, _, rfl, rfl⟩
  · rw [if_neg h, if_neg h]
    cases i.mapping.transform i.payload with
    | ok p => exact .inl ⟨p, _, rfl, rfl⟩
    | error fault => exact .inr ⟨fault, rfl, rfl⟩

theorem Action.executeFrom_mapInput (f : Factory) (a : Action) (home : String) (n : Nat) (rest : List Step)
    (i : Invocation) (before : List StepResult) :
    executeFrom f a home n (.mapInput :: rest) i before =
      match Step.mapped i with
      | .error fault => .done (i, .error fault)
      | .ok (j, r) => executeFrom f a home (n + 1) rest j (before ++ [r]) := rfl

theorem Action.executeFrom_validate (f : Factory) (a : Action) (home : String) (n : Nat) (target : Target)
    (schema : Schema) (rest : List Step) (i : Invocation) (before : List StepResult) :
    executeFrom f a home n (.validate target schema :: rest) i before =
      match Step.validated target schema i with
      | .error fault => .done (i, .error fault)
      | .ok (j, r) => executeFrom f a home (n + 1) rest j (before ++ [r]) := rfl

theorem Action.executeFrom_passed {f : Factory} {a : Action} {home : String} {n : Nat} {target : Target}
    {schema : Schema} {rest : List Step} {i : Invocation} {before : List StepResult}
    (h : schema.check (target.value i) = []) :
    executeFrom f a home n (.validate target schema :: rest) i before =
      executeFrom f a home (n + 1) rest i (before ++ [.said target.validText]) := by
  rw [executeFrom_validate, Step.validated, h]

theorem Action.checked_of_follows {f : Factory} {a : Action} {home : String} {checks : List Step}
    (hc : ∀ s ∈ checks, ∃ target schema, s = .validate target schema) {rest : List Step} {n : Nat}
    {i : Invocation} {before : List StepResult} {ds : List Deed}
    {t : Strand (Invocation × Except Fault (List StepResult))}
    (h : (executeFrom f a home n (checks ++ rest) i before).Follows ds t) (hd : ds ≠ []) :
    ∀ target schema, .validate target schema ∈ checks → schema.check (target.value i) = [] := by
  induction checks generalizing n before with
  | nil => exact fun _ _ h => nomatch h
  | cons s checks ih =>
    obtain ⟨target, schema, rfl⟩ := hc s List.mem_cons_self
    rw [List.cons_append] at h
    cases passed : schema.check (target.value i) with
    | cons v vs =>
      rw [executeFrom_validate, Step.validated, passed] at h
      cases h
      exact absurd rfl hd
    | nil =>
      rw [executeFrom_passed passed] at h
      have others := ih (fun s hs => hc s (List.mem_cons_of_mem _ hs)) h
      intro target' schema' hm
      rcases List.mem_cons.mp hm with he | hm
      · cases he
        exact passed
      · exact others target' schema' hm

/-! ## layout -/

namespace ActionDeclaration

/-- The mapping, validations, the cached requests in the order in which they are declared, and the call. -/
structure Layout (d : ActionDeclaration) (steps checks cached : List Step) : Prop where
  steps_eq : steps = .mapInput :: (checks ++ (cached ++ [.request "perform" d.perform]))
  validations : ∀ s ∈ checks, ∃ target schema, s = .validate target schema
  requests : List.Forall₂ (fun c s => Step.cachedRequest c.ttl c.key c.value c.field = .ok s)
    d.cachedRequests cached

/-- What is checked: the settings where there is a schema of them, the payload where fields are declared. -/
structure Checks (dialect : Dialect) (settingsSchema : Option Json) (fields : List Field) (checks : List Step) :
    Prop where
  validations : ∀ s ∈ checks, ∃ target schema, s = .validate target schema
  settings : ∀ document, settingsSchema = some document →
    ∃ schema, dialect.read document = .ok schema ∧ .validate .settings schema ∈ checks
  payload : fields ≠ [] →
    ∃ schema, Schema.read (Field.document fields false) = .ok schema ∧ .validate .payload schema ∈ checks

theorem validate_eq_ok_iff {b b' : Builder} {dialect : Dialect} {target : Target} {document : Json} :
    b.validate dialect target document = .ok b' ↔
      ∃ schema, dialect.read document = .ok schema ∧ b' = b.addStep (.validate target schema) := by
  unfold Builder.validate
  cases dialect.read document with
  | error f => exact ⟨(fun h => nomatch h), fun ⟨_, h, _⟩ => nomatch h⟩
  | ok schema =>
    constructor
    · intro h
      cases h
      exact ⟨schema, rfl, rfl⟩
    · rintro ⟨_, h, rfl⟩
      cases h
      rfl

theorem validations_steps {b b' : Builder} {dialect : Dialect} {settingsSchema : Option Json}
    {fields : List Field} (h : validations b dialect settingsSchema fields = .ok b') :
    ∃ checks, b'.steps = b.steps ++ checks ∧ Checks dialect settingsSchema fields checks := by
  unfold validations at h
  have first : ∃ (c : Builder) (checks : List Step), c.steps = b.steps ++ checks ∧
      Checks dialect settingsSchema [] checks ∧ (if fields.isEmpty then Except.ok c
        else c.validate dialect .payload (Field.document fields false)) = Except.ok b' := by
    cases settingsSchema with
    | none =>
      refine ⟨b, [], (List.append_nil _).symm, ⟨(fun _ h => nomatch h), (fun _ h => nomatch h), ?_⟩, h⟩
      exact fun h => absurd rfl h
    | some document =>
      obtain ⟨c, hc, h⟩ := exists_of_bind_eq_ok h
      obtain ⟨schema, hr, rfl⟩ := validate_eq_ok_iff.mp hc
      refine ⟨_, _, rfl, ⟨fun s hs => ⟨_, _, List.mem_singleton.mp hs⟩, fun _ h => ?_, ?_⟩, h⟩
      · cases h
        exact ⟨schema, hr, List.mem_cons_self⟩
      · exact fun h => absurd rfl h
  obtain ⟨c, checks, hs, settled, h⟩ := first
  cases fields with
  | nil =>
    cases h
    exact ⟨checks, hs, settled⟩
  | cons field fields =>
    obtain ⟨schema, hr, rfl⟩ := validate_eq_ok_iff.mp h
    rw [Dialect.read_document] at hr
    refine ⟨checks ++ [.validate .payload schema], ?_, ?_, ?_, ?_⟩
    · rw [← List.append_assoc, ← hs]
      rfl
    · intro s hs
      rcases List.mem_append.mp hs with hs | hs
      · exact settled.validations s hs
      · exact ⟨_, _, List.mem_singleton.mp hs⟩
    · intro document hd
      obtain ⟨schema, hr, hm⟩ := settled.settings document hd
      exact ⟨schema, hr, List.mem_append_left _ hm⟩
    · exact fun _ => ⟨schema, hr, List.mem_append_right _ List.mem_cons_self⟩

theorem addCached_eq_ok_iff {cs : List CachedRequest} {b b' : Builder} :
    addCached b cs = .ok b' ↔ ∃ cached, b' = { b with steps := b.steps ++ cached } ∧
      List.Forall₂ (fun c s => Step.cachedRequest c.ttl c.key c.value c.field = .ok s) cs cached := by
  induction cs generalizing b with
  | nil =>
    constructor
    · intro h
      cases h
      exact ⟨[], by rw [List.append_nil], .nil⟩
    · rintro ⟨_, rfl, ⟨⟩⟩
      rw [List.append_nil]
      rfl
  | cons c cs ih =>
    unfold addCached Builder.cachedRequest
    cases hs : Step.cachedRequest c.ttl c.key c.value c.field with
    | error f =>
      constructor
      · intro h
        cases h
      · rintro ⟨_, -, requests⟩
        cases requests with
        | cons declared => cases hs.symm.trans declared
    | ok s =>
      show addCached (b.addStep s) cs = _ ↔ _
      rw [ih]
      constructor
      · rintro ⟨cached, rfl, rest⟩
        refine ⟨s :: cached, ?_, .cons hs rest⟩
        unfold Builder.addStep
        rw [List.append_assoc]
        rfl
      · rintro ⟨_, rfl, requests⟩
        cases requests with
        | cons declared rest =>
          cases hs.symm.trans declared
          refine ⟨_, ?_, rest⟩
          unfold Builder.addStep
          rw [List.append_assoc]
          rfl

theorem foldl_handle (handlers : Members Callable) (b : Builder) :
    handlers.foldl (fun b h => b.handle h.1 h.2) b = { b with handlers := b.handlers.update handlers } := by
  induction handlers generalizing b with
  | nil => rfl
  | cons h handlers ih =>
    rw [List.foldl_cons, ih]
    rfl

theorem build_layout {d : ActionDeclaration} {slug : String} {extensions : List Extension}
    {settingsSchema : Option Json} {dialect : Dialect} {a : Action}
    (h : d.build slug extensions settingsSchema dialect = .ok a) :
    ∃ fields checks cached, d.fields.fields = .ok fields ∧ d.Layout a.steps checks cached ∧
      Checks dialect settingsSchema fields checks := by
  obtain ⟨fields, hf, h⟩ := exists_of_bind_eq_ok h
  obtain ⟨b, hv, h⟩ := exists_of_bind_eq_ok h
  obtain ⟨c, hc, h⟩ := exists_of_bind_eq_ok h
  obtain ⟨checks, hb, settled⟩ := validations_steps hv
  obtain ⟨cached, rfl, requests⟩ := addCached_eq_ok_iff.mp hc
  refine ⟨fields, checks, cached, hf, ⟨?_, settled.validations, requests⟩, settled⟩
  rw [Builder.build_steps h, foldl_handle]
  show Step.mapInput :: (b.steps ++ cached ++ [_]) = _
  rw [hb]
  show Step.mapInput :: ([] ++ checks ++ cached ++ [_]) = _
  rw [List.nil_append, List.append_assoc]

/-- What has to hold of an invocation before anything is done for it. -/
structure Checked (d : ActionDeclaration) (dialect : Dialect) (settingsSchema : Option Json) (i : Invocation)
    (payload : Json) : Prop where
  mapped : i.mappedPayload = .ok payload
  settings : ∀ document, settingsSchema = some document →
    ∃ schema, dialect.read document = .ok schema ∧ schema.check i.settings = []
  fields : ∀ fields, d.fields.fields = .ok fields → fields ≠ [] →
    ∃ schema, Schema.read (Field.document fields false) = .ok schema ∧ schema.check payload = []

section

variable {d : ActionDeclaration} {slug : String} {extensions : List Extension} {settingsSchema : Option Json}
  {dialect : Dialect} {a : Action} {f : Factory} {home : String} {i : Invocation} {ds : List Deed}
  {t : Strand (Invocation × Except Fault (List StepResult))}

theorem cachedRequest_ne_mapInput {ttl field : Json} {key : KeyRule} {value : Callable} :
    Step.cachedRequest ttl key value field ≠ .ok .mapInput := by
  unfold Step.cachedRequest
  split <;> exact fun h => nomatch h

theorem Layout.mapInput_not_mem {steps checks cached : List Step} (h : d.Layout steps checks cached) :
    Step.mapInput ∉ checks ++ (cached ++ [.request "perform" d.perform]) := by
  intro hm
  rcases List.mem_append.mp hm with hm | hm
  · obtain ⟨_, _, he⟩ := h.validations _ hm
    cases he
  rcases List.mem_append.mp hm with hm | hm
  · obtain ⟨n, hn, he⟩ := List.mem_iff_getElem.mp hm
    have declared := h.requests.get (h.requests.length_eq ▸ hn) hn
    rw [List.get_eq_getElem, List.get_eq_getElem, he] at declared
    exact cachedRequest_ne_mapInput declared
  · cases List.mem_singleton.mp hm

theorem checked_of_follows (built : d.build slug extensions settingsSchema dialect = .ok a)
    (h : (a.execute home f i).Follows ds t) (hd : ds ≠ []) :
    ∃ payload, d.Checked dialect settingsSchema i payload := by
  obtain ⟨fields, checks, cached, hf, layout, settled⟩ := build_layout built
  unfold Action.execute at h
  rw [layout.steps_eq, Action.executeFrom_mapInput] at h
  rcases Step.mapped_cases i with ⟨p, r, hp, hm⟩ | ⟨fault, -, hm⟩
  · rw [hm] at h
    have passed := Action.checked_of_follows layout.validations h hd
    refine ⟨p, hp, fun document hs => ?_, fun fields' hf' hne => ?_⟩
    · obtain ⟨schema, hr, hmem⟩ := settled.settings document hs
      exact ⟨schema, hr, passed _ _ hmem⟩
    · rw [hf] at hf'
      cases hf'
      obtain ⟨schema, hr, hmem⟩ := settled.payload hne
      exact ⟨schema, hr, passed _ _ hmem⟩
  · rw [hm] at h
    cases h
    exact absurd rfl hd

theorem Layout.completed {checks cached : List Step} (layout : d.Layout a.steps checks cached)
    {completed pending : List Step} (hs : a.steps = completed ++ pending) {k : Invocation} {us : List Deed}
    {results : List StepResult} (executed : Action.Executes f a home 0 completed i us k (.ok results))
    (mapped : completed = [] → ∃ fault, i.mappedPayload = .error fault) :
    k.payload = i.mappedPayload.toOption.getD i.payload ∧ k.settings = i.settings ∧ k.mapping = i.mapping ∧
      k.state = Action.stored completed results i.state := by
  cases completed with
  | nil =>
    obtain ⟨fault, hp⟩ := mapped rfl
    cases executed
    rw [hp]
    exact ⟨rfl, rfl, rfl, rfl⟩
  | cons s completed =>
    rw [layout.steps_eq, List.cons_append] at hs
    obtain ⟨rfl, others⟩ := List.cons.inj hs
    have plain : Step.mapInput ∉ completed := fun hm =>
      layout.mapInput_not_mem (others ▸ List.mem_append_left _ hm)
    generalize hr : Except.ok results = result at executed
    cases executed with
    | halt => cases hr
    | @next _ _ _ _ j _ _ _ r result first more =>
      cases result with
      | error fault => cases hr
      | ok rs =>
        cases hr
        have first : Step.mapped i = .ok (j, r) := (Strand.follows_done_iff.mp first).2
        rcases Step.mapped_cases i with ⟨p, r', hp, hm⟩ | ⟨fault, -, hm⟩
        · rw [hm] at first
          cases first
          rw [more.stored plain rs rfl, hp]
          exact ⟨rfl, rfl, rfl, rfl⟩
        · rw [hm] at first
          cases first

/-- **The pipeline of a declared action**, whatever the world answers and however far a run has come.  Nothing
is done for an invocation, and so no callable is entered, unless the mapping has gone through, the settings
satisfy their schema, and the mapped payload satisfies the document of the declared fields.  The callables
that are entered are some of those of the steps, in their order and each once: the keys and values of the
cached requests as they are declared, and the last call.  A run that has come to its end has completed the
steps up to the first fault, which it ends with, and no later step has done anything; without a fault it
has one result for each step.  Its invocation then has the payload of the mapping, or that from before
where the mapping failed, the settings and the mapping it had, and what the completed cached requests have
looked up. -/
theorem build_pipeline (built : d.build slug extensions settingsSchema dialect = .ok a)
    (h : (a.execute home f i).Follows ds t) :
    (ds ≠ [] → ∃ payload, d.Checked dialect settingsSchema i payload) ∧
    (∃ checks cached, d.Layout a.steps checks cached) ∧
    (ds.filterMap Deed.site?).Sublist (a.sites home) ∧ (a.sites home).Nodup ∧
    ∀ k outcome, t = .done (k, outcome) →
      k.payload = i.mappedPayload.toOption.getD i.payload ∧ k.settings = i.settings ∧ k.mapping = i.mapping ∧
      ∃ completed pending results us vs, a.steps = completed ++ pending ∧ ds = us ++ vs ∧
        Action.Executes { f with extensions := a.extensions } a home 0 completed i us k (.ok results) ∧
        k.state = Action.stored completed results i.state ∧
        (pending = [] ∧ vs = [] ∧ outcome = .ok results ∧ results.length = a.steps.length ∨
          ∃ s rest fault, pending = s :: rest ∧ outcome = .error fault ∧
            (s.execute { f with extensions := a.extensions } (a.cell home completed.length) k).outcome.Follows
              vs (.done (.error fault))) := by
  obtain ⟨fields, checks, cached, hf, layout, settled⟩ := build_layout built
  refine ⟨checked_of_follows built h, ⟨checks, cached, layout⟩, (Action.enters_executeFrom ..).follows h,
    Action.nodup_sitesFrom .., ?_⟩
  rintro k outcome rfl
  obtain ⟨own, executed, rfl⟩ := Action.executes_of_follows h
  have same : own.map ([] ++ ·) = own := by cases own <;> rfl
  rw [same]
  obtain ⟨completed, pending, results, us, vs, hs, rfl, done, ends⟩ := executed.split
  rw [Nat.zero_add] at ends
  have mapped : completed = [] → ∃ fault, i.mappedPayload = .error fault := by
    rintro rfl
    rw [List.nil_append, layout.steps_eq] at hs
    cases done
    rcases ends with ⟨hp, -⟩ | ⟨s, rest, fault, hp, -, failed⟩
    · rw [hp] at hs
      cases hs
    · rw [hp] at hs
      obtain ⟨rfl, -⟩ := List.cons.inj hs
      have fails : Step.mapped i = .error fault := (Strand.follows_done_iff.mp failed).2
      rcases Step.mapped_cases i with ⟨p, r, -, hm⟩ | ⟨fault', hp', -⟩
      · rw [hm] at fails
        cases fails
      · exact ⟨fault', hp'⟩
  obtain ⟨payload, settings, mapping, state⟩ := layout.completed hs done mapped
  refine ⟨payload, settings, mapping, completed, pending, results, us, vs, hs, rfl, done, state, ?_⟩
  rcases ends with ⟨hp, hv, ho⟩ | failed
  · refine .inl ⟨hp, hv, ho, ?_⟩
    rw [done.length results rfl, hs, hp, List.append_nil]
  · exact .inr failed

end

/-- An action that looks up a contact and sends it. -/
def contactSender : ActionDeclaration where
  title := .str "Send"
  description := .str ""
  fields := .declared (.obj [("email", .obj [("type", .str "string")])])
  defaultSubscription := .null
  hidden := .bool false
  perform := fun i => .give (i.getD "contact" .null)
  cachedRequests := [⟨.int 60, fun _ => .ok (.str "ada"), fun _ => .give (.int 7), .str "contact"⟩]
  handlers := []

theorem build_pipeline_contactSender :
    let i : Invocation := ⟨.obj [("email", .str "ada@example")], .obj [], .null, []⟩
    ∃ a ds k results, contactSender.build "send" [] none .usual = .ok a ∧
      (a.execute "home" default i).Follows ds (.done (k, .ok results)) ∧
      (∃ payload, contactSender.Checked .usual none i payload) ∧ results.length = a.steps.length ∧
      ds.filterMap Deed.site? = a.sites "home" := by
  intro i
  let fields : List Field := match contactSender.fields.fields with
    | .ok fields => fields
    | .error _ => []
  let schema : Schema := match Schema.read (Field.document fields false) with
    | .ok schema => schema
    | .error _ => default
  let a : Action := match contactSender.build "send" [] none .usual with
    | .ok a => a
    | .error _ => default
  have built : contactSender.build "send" [] none .usual = .ok a := rfl
  have steps : a.steps = [.mapInput, .validate .payload schema,
      .cached (.int 60) (fun _ => .ok (.str "ada")) (fun _ => .give (.int 7)) "contact",
      .request "perform" contactSender.perform] := rfl
  have valid : schema.check i.payload = [] := by decide +kernel
  have runs : ∃ before, a.execute "home" default i = Action.executeFrom
      { (default : Factory) with extensions := a.extensions } a "home" 2
      [.cached (.int 60) (fun _ => .ok (.str "ada")) (fun _ => .give (.int 7)) "contact",
        .request "perform" contactSender.perform] i before := by
    unfold Action.execute
    rw [steps, Action.executeFrom_mapInput]
    exact ⟨_, Action.executeFrom_passed valid⟩
  obtain ⟨before, runs⟩ := runs
  have follows : ∃ k results, (a.execute "home" default i).Follows
      [⟨.enter (.key (a.cell "home" 2)), ()⟩, ⟨.look (a.cell "home" 2) "ada", .lead 0⟩,
        ⟨.enter (.value (a.cell "home" 2)), ()⟩,
        ⟨.settle (a.cell "home" 2) "ada" 0 (.int 60) (.ok (.int 7)), .ok (.int 7)⟩,
        ⟨.enter (.request (a.cell "home" 3)), ()⟩] (.done (k, .ok results)) := by
    rw [runs]
    exact ⟨_, _, @Strand.Follows.step _ (.enter (.key (a.cell "home" 2))) _ () _ _ <|
      @Strand.Follows.step _ (.look (a.cell "home" 2) "ada") _ (.lead 0) _ _ <|
      @Strand.Follows.step _ (.enter (.value (a.cell "home" 2))) _ () _ _ <|
      @Strand.Follows.step _ (.settle (a.cell "home" 2) "ada" 0 (.int 60) (.ok (.int 7))) _ (.ok (.int 7))
        _ _ <|
      @Strand.Follows.step _ (.enter (.request (a.cell "home" 3))) _ () _ _ <| .refl _⟩
  obtain ⟨k, results, follows⟩ := follows
  obtain ⟨checked, -, -, -, complete⟩ := build_pipeline built follows
  obtain ⟨-, -, -, completed, pending, own, us, vs, -, -, -, -, ends⟩ := complete k _ rfl
  have length : results.length = a.steps.length := by
    rcases ends with ⟨-, -, he, length⟩ | ⟨_, _, fault, -, he, -⟩
    · cases he
      exact length
    · cases he
  exact ⟨a, _, k, results, built, follows, checked (List.cons_ne_nil _ _), length, rfl⟩

end ActionDeclaration

end EventRouting
