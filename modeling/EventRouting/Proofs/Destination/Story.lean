import EventRouting.Destination.Run
import EventRouting.Proofs.Action.Orderly

/-!
# The story of a subscription

What the run of one subscription does and comes to, told without the run.

* `Step.Does`          all that a step that has not failed can have done
* `Action.Executes`        steps in order, up to the first that fails
* `Destination.Story`  all that can become of a subscription: its results, and what is written down
* `Destination.story_of_follows`   every run of a subscription is one of these
* `Destination.Story.skipped_iff`, `Destination.Story.record_of_some`   what the results say
-/

namespace EventRouting

/-! ## steps -/

theorem Attempt.follows_bind {α β : Type} {x : Attempt α} {g : α → Attempt β} {ds : List Deed} {b : β}
    (h : Strand.Follows (x >>= g : Attempt β).outcome ds (.done (.ok b))) :
    ∃ us vs a, ds = us ++ vs ∧ x.outcome.Follows us (.done (.ok a)) ∧
      (g a).outcome.Follows vs (.done (.ok b)) := by
  rw [bind_eq] at h
  obtain ⟨us, vs, outcome, hd, hx, hg⟩ := h.of_bind
  cases outcome with
  | error e => cases (Strand.follows_done_iff.mp hg).2
  | ok a => exact ⟨us, vs, a, hd, hx, hg⟩

namespace Step

/-- What a step that has not failed makes of an invocation, and its result. -/
inductive Does (i : Invocation) : Step → Invocation → StepResult → Prop where
  | mapped {j : Invocation} {r : StepResult} (h : Step.mapped i = .ok (j, r)) : Does i .mapInput j r
  | validated {target : Target} {schema : Schema} (h : schema.check (target.value i) = []) :
      Does i (.validate target schema) i (.said target.validText)
  | looked {ttl : Json} {key : KeyRule} {value : Callable} {field : String} (v : Json) :
      Does i (.cached ttl key value field) (i.store field v) (.of v)
  | called {name : String} {callable : Callable} (reply : Reply) :
      Does i (.request name callable) i (.of reply.output)

theorem does_of_follows {f : Factory} {cell : Cell} {s : Step} {i j : Invocation} {ds : List Deed} {r : StepResult}
    (h : (s.execute f cell i).outcome.Follows ds (.done (.ok (j, r)))) : s.Does i j r := by
  cases s with
  | mapInput => exact .mapped (Strand.follows_done_iff.mp h).2
  | validate target schema =>
    have valid : Step.validated target schema i = .ok (j, r) := (Strand.follows_done_iff.mp h).2
    unfold Step.validated at valid
    split at valid
    · next passed =>
      cases valid
      exact .validated passed
    · cases valid
  | cached ttl key value field =>
    obtain ⟨_, _, v, _, _, hv⟩ := Attempt.follows_bind h
    cases (Strand.follows_done_iff.mp hv).2
    exact .looked v
  | request name callable =>
    obtain ⟨_, _, reply, _, _, hr⟩ := Attempt.follows_bind h
    cases (Strand.follows_done_iff.mp hr).2
    exact .called reply

end Step

namespace Action

/-- Steps from a position on, in order: what they do, the invocation at the end, and one result for each of
them or the fault of the first that fails. -/
inductive Executes (f : Factory) (a : Action) (home : String) :
    Nat → List Step → Invocation → List Deed → Invocation → Except Fault (List StepResult) → Prop where
  | nil (n : Nat) (i : Invocation) : Executes f a home n [] i [] i (.ok [])
  | halt {n : Nat} {s : Step} {rest : List Step} {i : Invocation} {ds : List Deed} {fault : Fault}
      (h : (s.execute f (a.cell home n) i).outcome.Follows ds (.done (.error fault))) :
      Executes f a home n (s :: rest) i ds i (.error fault)
  | next {n : Nat} {s : Step} {rest : List Step} {i j k : Invocation} {ds es : List Deed} {r : StepResult}
      {result : Except Fault (List StepResult)}
      (h : (s.execute f (a.cell home n) i).outcome.Follows ds (.done (.ok (j, r))))
      (more : Executes f a home (n + 1) rest j es k result) :
      Executes f a home n (s :: rest) i (ds ++ es) k (result.map (r :: ·))

variable {f : Factory} {a : Action} {home : String}

theorem Executes.length {n : Nat} {steps : List Step} {i k : Invocation} {ds : List Deed}
    {result : Except Fault (List StepResult)} (h : Executes f a home n steps i ds k result) :
    ∀ results, result = .ok results → results.length = steps.length := by
  induction h with
  | nil =>
    rintro _ ⟨⟩
    rfl
  | halt => exact fun _ h => nomatch h
  | @next _ _ _ _ _ _ _ _ _ result _ _ ih =>
    intro results h
    cases result with
    | error fault => cases h
    | ok more =>
      cases h
      rw [List.length_cons, List.length_cons, ih more rfl]

theorem said_of_mapped {i j : Invocation} {r : StepResult} (h : Step.mapped i = .ok (j, r)) :
    r = .said "No mappings" ∨ r = .said "Mappings resolved" := by
  unfold Step.mapped at h
  split at h
  · cases h
    exact .inl rfl
  · cases ht : i.mapping.transform i.payload with
    | error f =>
      rw [ht] at h
      cases h
    | ok v =>
      rw [ht] at h
      cases h
      exact .inr rfl

theorem isOk_of_execute {s : Step} {cell : Cell} {i j : Invocation} {ds : List Deed} {r : StepResult}
    (h : (s.execute f cell i).outcome.Follows ds (.done (.ok (j, r)))) : r.isOk = true := by
  cases Step.does_of_follows h with
  | mapped hm => rcases said_of_mapped hm with rfl | rfl <;> rfl
  | validated | looked | called => rfl

theorem Executes.isOk {n : Nat} {steps : List Step} {i k : Invocation} {ds : List Deed}
    {result : Except Fault (List StepResult)} (h : Executes f a home n steps i ds k result) :
    ∀ results, result = .ok results → ∀ r ∈ results, r.isOk = true := by
  induction h with
  | nil =>
    rintro _ ⟨⟩ r hr
    cases hr
  | halt => exact fun _ h => nomatch h
  | @next _ _ _ _ _ _ _ _ first result h _ ih =>
    intro results he r hr
    cases result with
    | error fault => cases he
    | ok more =>
      cases he
      rcases List.mem_cons.mp hr with rfl | hr
      · exact isOk_of_execute h
      · exact ih more rfl r hr

theorem executes_of_follows {steps : List Step} {n : Nat} {i k : Invocation} {before : List StepResult}
    {ds : List Deed} {result : Except Fault (List StepResult)}
    (h : (executeFrom f a home n steps i before).Follows ds (.done (k, result))) :
    ∃ own, Executes f a home n steps i ds k own ∧ result = own.map (before ++ ·) := by
  induction steps generalizing n i before ds with
  | nil =>
    rw [executeFrom] at h
    obtain ⟨rfl, he⟩ := Strand.follows_done_iff.mp h
    cases he
    exact ⟨.ok [], .nil n _, by rw [Except.map, List.append_nil]⟩
  | cons s rest ih =>
    rw [executeFrom] at h
    obtain ⟨us, vs, outcome, rfl, hs, hr⟩ := h.of_bind
    cases outcome with
    | error fault =>
      obtain ⟨rfl, he⟩ := Strand.follows_done_iff.mp hr
      cases he
      rw [List.append_nil]
      exact ⟨.error fault, .halt hs, rfl⟩
    | ok r =>
      obtain ⟨j, r⟩ := r
      obtain ⟨own, more, rfl⟩ := ih hr
      refine ⟨own.map (r :: ·), .next hs more, ?_⟩
      cases own with
      | error fault => rfl
      | ok results => simp only [Except.map, List.append_assoc, List.singleton_append]

/-- The first result is that of the mapping, which is another than that of a subscription passed over. -/
theorem Executes.head {rest : List Step} {i j : Invocation} {n : Nat}
    {ds : List Deed} {results : List StepResult}
    (h : Executes f a home n (.mapInput :: rest) i ds j (.ok results)) :
    results ≠ [.notSubscribed] := by
  generalize hr : Except.ok results = result at h
  cases h with
  | halt => cases hr
  | @next _ _ _ _ _ _ _ _ r result first =>
    cases result with
    | error fault => cases hr
    | ok more =>
      cases hr
      have mapped : Step.mapped i = .ok (_, r) := (Strand.follows_done_iff.mp first).2
      intro he
      obtain rfl := (List.cons.inj he).1
      rcases said_of_mapped mapped with said | said
      · exact absurd said (by decide)
      · exact absurd said (by decide)

end Action

/-! ## actions that are built -/

/-- Each handler is for a field whose choices are looked up, or for none that is declared. -/
def HandlersFit (handlers : Members Callable) (fields : List Field) : Prop :=
  ∀ key f, key ∈ handlers.names → Field.find? fields key = some f → f.dynamic = true

/-- Whatever the calls of a builder have been, and in which order: an action is built exactly if the handlers fit
the fields in the end. -/
theorem Builder.build_eq_ok_iff {b : Builder} {a : Action} :
    b.build = .ok a ↔ HandlersFit b.handlers b.fields ∧
      a = ⟨b.slug, .mapInput :: b.steps, b.extensions, b.title, b.description, b.defaultSubscription, b.fields,
        b.hidden, b.handlers⟩ := by
  have fits : b.misplacedHandler? = none ↔ HandlersFit b.handlers b.fields := by
    unfold Builder.misplacedHandler? HandlersFit
    rw [List.find?_eq_none]
    refine forall_congr' fun key => ?_
    cases Field.find? b.fields key with
    | none => simp
    | some f => simp
  unfold Builder.build
  rw [← fits]
  cases b.misplacedHandler? with
  | none => exact ⟨fun h => ⟨rfl, (Except.ok.inj h).symm⟩, fun h => congrArg Except.ok h.2.symm⟩
  | some key => exact ⟨(fun h => nomatch h), fun h => nomatch h.1⟩

theorem Builder.build_steps {b : Builder} {a : Action} (h : b.build = .ok a) :
    a.steps = .mapInput :: b.steps := by
  rw [(Builder.build_eq_ok_iff.mp h).2]

theorem ActionSpec.exists_builder {spec : ActionSpec} {slug : String} {extensions : List Extension}
    {schema : Option Json} {dialect : Dialect} {a : Action} (h : spec.build slug extensions schema dialect = .ok a) :
    ∃ b : Builder, b.build = .ok a := by
  cases spec with
  | declared d =>
    obtain ⟨fields, _, h⟩ := exists_of_bind_eq_ok h
    obtain ⟨b, _, h⟩ := exists_of_bind_eq_ok h
    obtain ⟨b, _, h⟩ := exists_of_bind_eq_ok h
    exact ⟨_, h⟩
  | built fill =>
    obtain ⟨b, _, h⟩ := exists_of_bind_eq_ok h
    exact ⟨b, h⟩
  | invalid => cases h

/-! ## subscriptions -/

namespace Destination

def written (d : Destination) (isPrivate : List String) (s : Subscription) (i : Invocation)
    (results : List StepResult) : Record :=
  ⟨d.name, s.action, d.redacted isPrivate i, results, none⟩

/-- What becomes of a subscription to an event: what it does, its results, and what is written down. -/
inductive Story (d : Destination) (event : Json) (isPrivate : List String) (i : Invocation)
    (s : Subscription) : List Deed → List StepResult → Option Record → Prop where
  /-- it does not want the event -/
  | unwanted (h : s.wants event = .ok false) : Story d event isPrivate i s [] [.notSubscribed] none
  /-- it cannot tell -/
  | undecided {f : Fault} (h : s.wants event = .error f) :
      Story d event isPrivate i s [⟨.record (d.written isPrivate s i [.failed f]), ()⟩] [.failed f]
        (some (d.written isPrivate s i [.failed f]))
  /-- its action is not there -/
  | unknown {f : Fault} (h : s.wants event = .ok true) (missing : d.action s.action = .error f) :
      Story d event isPrivate i s [⟨.record (d.written isPrivate s i [.failed f]), ()⟩] [.failed f]
        (some (d.written isPrivate s i [.failed f]))
  /-- a step fails -/
  | failed {a : Action} {j : Invocation} {ds : List Deed} {f : Fault} (h : s.wants event = .ok true)
      (found : d.action s.action = .ok a)
      (executed : Action.Executes { d.factory with extensions := a.extensions } a d.slug 0 a.steps i ds j
        (.error f)) :
      Story d event isPrivate i s (ds ++ [⟨.record (d.written isPrivate s j [.failed f]), ()⟩]) [.failed f]
        (some (d.written isPrivate s j [.failed f]))
  /-- every step comes to a result -/
  | ran {a : Action} {j : Invocation} {ds : List Deed} {results : List StepResult}
      (h : s.wants event = .ok true) (found : d.action s.action = .ok a)
      (executed : Action.Executes { d.factory with extensions := a.extensions } a d.slug 0 a.steps i ds j
        (.ok results)) :
      Story d event isPrivate i s (ds ++ [⟨.record (d.written isPrivate s j results), ()⟩]) results
        (some (d.written isPrivate s j results))

variable {d : Destination} {event : Json} {isPrivate : List String} {i : Invocation} {s : Subscription}

theorem recorded_follows {j : Invocation} {results g : List StepResult} {ds : List Deed}
    (h : (d.recorded s isPrivate j results).Follows ds (.done g)) :
    ds = [⟨.record (d.written isPrivate s j results), ()⟩] ∧ g = results := by
  cases h with
  | step rest =>
    obtain ⟨rfl, rfl⟩ := Strand.follows_done_iff.mp rest
    exact ⟨rfl, rfl⟩

/-- The steps of an action are orderly, whatever their lifetimes are, and write nothing down. -/
theorem execute_orderly (a : Action) (home : String) (f : Factory) (i : Invocation) (records : Record → Prop) :
    (a.execute home f i).Orderly (fun _ => True) records .free := by
  refine Action.executeFrom_orderly (fun s _ => ?_) ..
  cases s <;> trivial

theorem execute_unrecorded {a : Action} {home : String} {f : Factory} {ds : List Deed}
    {r : Invocation × Except Fault (List StepResult)}
    (h : (a.execute home f i).Follows ds (.done r)) : ds.filterMap Deed.record? = [] := by
  rw [List.filterMap_eq_nil_iff]
  intro deed hd
  cases hr : deed.record? with
  | none => rfl
  | some r => exact ((execute_orderly a home f i fun _ => False).follows h deed hd r hr).elim

/-- **One subscription**: whatever the world answers, its run is one of the stories, and what it writes down
is the record of the story. -/
theorem story_of_follows {ds : List Deed} {g : List StepResult}
    (h : (d.onSubscription event isPrivate i s).Follows ds (.done g)) :
    ∃ r, d.Story event isPrivate i s ds g r ∧ ds.filterMap Deed.record? = r.toList := by
  unfold onSubscription at h
  split at h
  · next hw =>
    obtain ⟨rfl, rfl⟩ := Strand.follows_done_iff.mp h
    exact ⟨none, .unwanted hw, rfl⟩
  · next f hw =>
    obtain ⟨rfl, rfl⟩ := recorded_follows h
    exact ⟨_, .undecided hw, rfl⟩
  · next hw =>
    obtain ⟨us, vs, ⟨j, results⟩, rfl, ha, hr⟩ := h.of_bind
    obtain ⟨rfl, rfl⟩ := recorded_follows hr
    unfold attempt at ha
    split at ha
    · next f missing =>
      obtain ⟨rfl, he⟩ := Strand.follows_done_iff.mp ha
      cases he
      exact ⟨_, .unknown hw missing, rfl⟩
    · next a found =>
      obtain ⟨us, vs, ⟨j', result⟩, rfl, hx, he⟩ := ha.of_bind
      have silent := execute_unrecorded hx
      obtain ⟨own, executed, rfl⟩ := Action.executes_of_follows hx
      cases own with
      | error f =>
        obtain ⟨rfl, he⟩ := Strand.follows_done_iff.mp he
        cases he
        rw [List.append_nil]
        exact ⟨_, .failed hw found executed, by rw [List.filterMap_append, silent]; rfl⟩
      | ok rs =>
        obtain ⟨rfl, he⟩ := Strand.follows_done_iff.mp he
        cases he
        rw [List.append_nil]
        exact ⟨_, .ran hw found executed, by rw [List.filterMap_append, silent]; rfl⟩

/-! ## what stories say -/

theorem Story.record_eq_none_iff {ds : List Deed} {g : List StepResult} {r : Option Record}
    (h : d.Story event isPrivate i s ds g r) : r = none ↔ s.wants event = .ok false := by
  cases h with
  | unwanted h | undecided h | unknown h | failed h | ran h => simp [h]

/-- What is written down is the destination, the action, and the results that the event has as well. -/
theorem Story.record_of_some {ds : List Deed} {g : List StepResult} {r : Record}
    (h : d.Story event isPrivate i s ds g (some r)) :
    ∃ j, r = d.written isPrivate s j g := by
  cases h with
  | undecided | unknown | failed | ran => exact ⟨_, rfl⟩

/-- The results say that the subscription was passed over, that it failed, or what each step came to. -/
theorem Story.results {ds : List Deed} {g : List StepResult} {r : Option Record}
    (h : d.Story event isPrivate i s ds g r) :
    g = [.notSubscribed] ∨ (∃ f, g = [.failed f]) ∨
      ∃ a, d.action s.action = .ok a ∧ g.length = a.steps.length ∧ ∀ result ∈ g, result.isOk = true := by
  cases h with
  | unwanted => exact .inl rfl
  | undecided | unknown | failed => exact .inr (.inl ⟨_, rfl⟩)
  | ran h found executed => exact .inr (.inr ⟨_, found, executed.length _ rfl, executed.isOk _ rfl⟩)

theorem wants_eq_false_iff :
    s.wants event = .ok false ↔ s.enabled = false ∨ s.predicate.accepts event = .ok false := by
  unfold Subscription.wants
  cases s.enabled <;> simp

theorem buildActions_get? {extensions : List Extension} {schema : Option Json}
    {specs : Members ActionSpec} {actions : Members Action}
    (h : buildActions extensions schema specs = .ok actions) (slug : String) :
    (actions.get? slug = none → specs.get? slug = none) ∧
      ∀ a, actions.get? slug = some a →
        ∃ spec, specs.get? slug = some spec ∧ spec.build slug extensions schema .usual = .ok a := by
  induction specs generalizing actions with
  | nil =>
    cases h
    exact ⟨fun _ => rfl, fun a ha => nomatch ha⟩
  | cons spec specs ih =>
    obtain ⟨s, spec⟩ := spec
    unfold buildActions at h
    split at h
    · cases h
    · next a ha =>
      cases hr : buildActions extensions schema specs with
      | error f =>
        rw [hr] at h
        cases h
      | ok more =>
        rw [hr] at h
        cases h
        by_cases hs : s = slug
        · subst hs
          rw [Members.get?_cons_self, Members.get?_cons_self]
          refine ⟨(fun he => nomatch he), fun b hb => ?_⟩
          cases hb
          exact ⟨spec, rfl, ha⟩
        · rw [Members.get?_cons_ne _ _ hs, Members.get?_cons_ne _ _ hs]
          exact ih hr

theorem ofDefinition_eq_ok {definition : Definition} {setup : Setup}
    (hd : Destination.ofDefinition definition setup = .ok d) :
    ∃ fields schema actions, settingsFields definition = .ok fields ∧
      schema = (if fields.isEmpty then none else some (Field.document fields true)) ∧
      buildActions definition.extensions schema definition.actions = .ok actions ∧
      d = ⟨definition, actions, schema, Field.privateKeys fields, setup⟩ := by
  obtain ⟨fields, hf, hd⟩ := exists_of_bind_eq_ok hd
  obtain ⟨actions, hb, hd⟩ := exists_of_bind_eq_ok hd
  exact ⟨fields, _, actions, hf, rfl, hb, (Except.ok.inj hd).symm⟩

theorem action_built {definition : Definition} {setup : Setup}
    (hd : Destination.ofDefinition definition setup = .ok d) {slug : String} {a : Action}
    (ha : d.action slug = .ok a) :
    ∃ spec, definition.actions.get? slug = some spec ∧
      spec.build slug definition.extensions d.settingsSchema .usual = .ok a := by
  obtain ⟨_, _, _, _, _, hb, rfl⟩ := ofDefinition_eq_ok hd
  unfold action at ha
  split at ha
  · next found =>
    cases ha
    exact (buildActions_get? hb slug).2 a found
  · cases ha

/-- **Every action** of a destination starts with the mapping. -/
theorem action_steps {definition : Definition} {setup : Setup}
    (hd : Destination.ofDefinition definition setup = .ok d) {slug : String} {a : Action}
    (ha : d.action slug = .ok a) : ∃ rest, a.steps = .mapInput :: rest := by
  obtain ⟨_, -, built⟩ := action_built hd ha
  obtain ⟨b, built⟩ := ActionSpec.exists_builder built
  exact ⟨b.steps, Builder.build_steps built⟩

/-- **Passed over**: the results say so exactly when the event is not wanted. -/
theorem Story.skipped_iff {definition : Definition} {setup : Setup}
    (hd : Destination.ofDefinition definition setup = .ok d) {ds : List Deed} {g : List StepResult}
    {r : Option Record} (h : d.Story event isPrivate i s ds g r) :
    g = [.notSubscribed] ↔ s.wants event = .ok false := by
  have other : ∀ f : Fault, [StepResult.failed f] ≠ [.notSubscribed] := by
    intro f he
    cases he
  cases h with
  | unwanted h => exact ⟨fun _ => h, fun _ => rfl⟩
  | undecided h | unknown h | failed h =>
    rw [h]
    exact ⟨fun he => absurd he (other _), fun he => nomatch he⟩
  | ran h found executed =>
    obtain ⟨rest, hs⟩ := action_steps hd found
    rw [hs] at executed
    rw [h]
    exact ⟨fun he => absurd he executed.head, fun he => nomatch he⟩

end Destination

end EventRouting
