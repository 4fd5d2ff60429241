import EventRouting.Proofs.Destination.Credentials

/-!
# The choices of fields

A handler is reached exactly where one is registered.

* `Strand.Asks.entered`              one callable is entered, and no other
* `Destination.action_handlersFit`   no handler is for a declared field whose choices are not looked up
* `Destination.lookUp_handled`       a look-up with a handler
* `Destination.autocomplete_handlers`   which look-ups fail, and which handler is entered by the others
-/

namespace EventRouting

/-! ## look-ups -/

/-- What a handler leaves to be done when it has been entered: its talk, and choices made of the reply. -/
def Action.answering (o : Options) (handler : Callable) (i : Invocation) : Strand (Except Fault Choices) :=
  (Client.converse o (handler i)).outcome.bind fun reply => .done (reply.bind Choices.ofReply)

theorem Action.answering_asks (o : Options) (handler : Callable) (i : Invocation) :
    (Action.answering o handler i).Asks :=
  (Client.converse_asks o (handler i)).bind fun _ => .done _

theorem Action.autocomplete_handled {a : Action} {key : String} {handler : Callable}
    (h : a.handlers.get? key = some handler) (home : String) (f : Factory) (i : Invocation) :
    (a.autocomplete home f key i).outcome =
      match f.base.compose i a.extensions with
      | .error fault => .done (.error fault)
      | .ok o => .perform (.enter (.autocomplete home a.slug key)) fun _ => Action.answering o handler i := by
  unfold Action.autocomplete Factory.call
  rw [h]
  dsimp only
  rw [Attempt.bind_eq, Attempt.bind_eq]
  show Strand.bind (Strand.bind (.done (f.base.compose i a.extensions)) _) _ = _
  cases f.base.compose i a.extensions with
  | error fault => rfl
  | ok o =>
    show Strand.perform _ (fun _ => Strand.bind (Client.converse o (handler i)).outcome _) = _
    refine congrArg _ (funext fun _ => congrArg _ (funext fun reply => ?_))
    cases reply <;> rfl

/-- Where nothing but requests is left behind the entering of a callable, that callable is entered and no other. -/
theorem Strand.Asks.entered {α : Type} {s : Strand α} (hs : s.Asks) (site : Site) :
    let first : Strand α := .perform (.enter site) fun _ => s
    (∀ ds a, first.Follows ds (.done a) → ds.filterMap Deed.site? = [site]) ∧
      ∀ partner w, ∃ w' a, first.run partner w = (w', .done a) ∧ w'.entered = w.entered ++ [site] := by
  intro first
  have once (ds : List Deed) (a : α) (follows : first.Follows ds (.done a)) : ds.filterMap Deed.site? = [site] := by
    change (Strand.perform (.enter site) fun _ => s).Follows ds (.done a) at follows
    cases follows with
    | step rest =>
      have none := List.sublist_nil.mp ((Enters.of_asks hs).follows rest)
      exact congrArg _ none
  refine ⟨once, fun partner w => ?_⟩
  have plain : first.Plain := .enter fun _ => hs.plain
  obtain ⟨w', a, ds, run, follows, entered, -⟩ := plain.exists_run partner w
  rw [once ds a follows] at entered
  exact ⟨w', a, run, entered⟩

namespace Destination

variable {definition : Definition} {setup : Setup} {d : Destination}

theorem action_handlersFit (hd : Destination.ofDefinition definition setup = .ok d) {slug : String} {a : Action}
    (ha : d.action slug = .ok a) : HandlersFit a.handlers a.fields := by
  obtain ⟨spec, -, built⟩ := action_built hd ha
  obtain ⟨b, built⟩ := ActionSpec.exists_builder built
  obtain ⟨fit, rfl⟩ := Builder.build_eq_ok_iff.mp built
  exact fit

theorem action_eq_ok_iff {slug : String} {a : Action} : d.action slug = .ok a ↔ d.actions.get? slug = some a := by
  unfold action
  cases d.actions.get? slug with
  | none => exact ⟨(fun h => nomatch h), fun h => nomatch h⟩
  | some b => exact ⟨fun h => congrArg some (Except.ok.inj h), fun h => congrArg Except.ok (Option.some.inj h)⟩

theorem action_cases (hd : Destination.ofDefinition definition setup = .ok d) (slug : String) :
    slug ∉ definition.actions.names ∧ d.action slug = .error (.unknownAction slug) ∨
      slug ∈ definition.actions.names ∧ ∃ a, d.action slug = .ok a := by
  cases found : d.actions.get? slug with
  | none =>
    obtain ⟨_, _, _, _, _, hb, rfl⟩ := ofDefinition_eq_ok hd
    refine .inl ⟨(Members.get?_eq_none_iff _ _).mp ((buildActions_get? hb slug).1 found), ?_⟩
    unfold action
    rw [found]
  | some a =>
    have found := action_eq_ok_iff.mpr found
    obtain ⟨spec, declared, -⟩ := action_built hd found
    exact .inr ⟨(Members.mem_names_iff _ _).mpr ⟨spec, declared⟩, a, found⟩

def choicesInvocation (settings payload : Members Json) : Invocation :=
  ⟨.obj payload, .obj (Settings.withoutSubscriptions settings), .null, []⟩

/-- The look-up of the choices of a field, for settings and at most a payload. -/
def lookUp (d : Destination) (slug key : String) (settings : Members Json) (payload : Option (Members Json)) :
    Strand (Except Fault Choices) :=
  (d.autocomplete slug key (.obj settings) ((payload.map .obj).getD .null)).outcome

section

variable {slug key : String} {a : Action} {handler : Callable} (settings : Members Json)
  (payload : Option (Members Json))

theorem lookUp_unknown (missing : d.action slug = .error (.unknownAction slug)) :
    d.lookUp slug key settings payload = .done (.error (.unknownAction slug)) := by
  unfold lookUp autocomplete
  rw [missing]
  rfl

/-- A registered action is asked, unless it declares the field as one that is not looked up. -/
theorem lookUp_registered (found : d.action slug = .ok a) :
    d.lookUp slug key settings payload =
      if (Field.find? a.fields key).any fun f => !f.dynamic then .done (.error (notDynamic slug key))
      else (a.autocomplete d.slug d.factory key (choicesInvocation settings (payload.getD []))).outcome := by
  have given : (if ((payload.map Json.obj).getD .null).isTruthy then
      ((payload.map Json.obj).getD .null).namedValues else .ok []) = .ok (payload.getD []) := by
    rcases payload with _ | _ | ⟨m, ms⟩ <;> rfl
  unfold lookUp autocomplete
  rw [given, Attempt.bind_eq, found]
  dsimp only [Attempt.ofExcept, Attempt.outcome, Strand.bind]
  cases Field.find? a.fields key with
  | none => rfl
  | some f =>
    show Attempt.outcome (if (!f.dynamic) = true then _ else _) = if (!f.dynamic) = true then _ else _
    split <;> rfl

theorem lookUp_unsupported (found : d.action slug = .ok a) (h : a.handlers.get? key = none) :
    ∃ text, d.lookUp slug key settings payload = .done (.error (.unsupportedAction text none)) := by
  rw [lookUp_registered settings payload found]
  split
  · exact ⟨_, rfl⟩
  · unfold Action.autocomplete
    rw [h]
    exact ⟨_, rfl⟩

/-- What is asked of the field at the time of the look-up has been settled when the action was built: a handler
that is registered is entered as soon as its client has options. -/
theorem lookUp_handled (hd : Destination.ofDefinition definition setup = .ok d) (found : d.action slug = .ok a)
    (h : a.handlers.get? key = some handler) :
    d.lookUp slug key settings payload =
      match setup.base.compose (choicesInvocation settings (payload.getD [])) a.extensions with
      | .error f => .done (.error f)
      | .ok o => .perform (.enter (.autocomplete d.slug a.slug key)) fun _ =>
          Action.answering o handler (choicesInvocation settings (payload.getD [])) := by
  have base : d.setup = setup := by
    obtain ⟨_, _, _, _, _, _, rfl⟩ := ofDefinition_eq_ok hd
    rfl
  rw [lookUp_registered settings payload found, if_neg, ← base]
  · exact Action.autocomplete_handled h d.slug d.factory _
  · rw [Option.any_eq_true]
    rintro ⟨f, declared, still⟩
    have dynamic := action_handlersFit hd found key f ((Members.mem_names_iff _ _).mpr ⟨handler, h⟩) declared
    rw [dynamic] at still
    cases still

theorem lookUp_ne_error (hd : Destination.ofDefinition definition setup = .ok d) (found : d.action slug = .ok a)
    (h : a.handlers.get? key = some handler)
    (extended : ∃ o, setup.base.compose (choicesInvocation settings (payload.getD [])) a.extensions = .ok o)
    (f : Fault) : d.lookUp slug key settings payload ≠ .done (.error f) := by
  obtain ⟨o, built⟩ := extended
  rw [lookUp_handled settings payload hd found h, built]
  exact fun refused => nomatch refused

end

/-- **A handler is reached exactly where one is registered.**  A look-up for an action that the definition does not
have is refused, and so is one for a field without a handler, before anything is done.  Any other look-up enters
the handler of the field, and that one alone and once, with a client of the extensions of the action, on the
settings beside the subscriptions; whatever the world is, it comes to its end, with what the talk of the handler
comes to.  Only an extension that fails keeps a look-up from the handler. -/
theorem autocomplete_handlers (hd : Destination.ofDefinition definition setup = .ok d) (slug key : String)
    (settings : Members Json) (payload : Option (Members Json)) :
    let i := choicesInvocation settings (payload.getD [])
    let look := (d.autocomplete slug key (.obj settings) ((payload.map .obj).getD .null)).outcome
    (slug ∉ definition.actions.names → look = .done (.error (.unknownAction slug))) ∧
    (slug ∈ definition.actions.names → ∃ a, d.action slug = .ok a ∧
      (a.handlers.get? key = none → ∃ text, look = .done (.error (.unsupportedAction text none))) ∧
      ∀ handler, a.handlers.get? key = some handler →
        (∀ f, setup.base.compose i a.extensions = .error f → look = .done (.error f)) ∧
        ∀ o, setup.base.compose i a.extensions = .ok o →
          let site := Site.autocomplete d.slug a.slug key
          look = .perform (.enter site) (fun _ => Action.answering o handler i) ∧
          (∀ ds v, look.Follows ds (.done v) → ds.filterMap Deed.site? = [site]) ∧
          ∀ partner w, ∃ w' v, look.run partner w = (w', .done v) ∧ w'.entered = w.entered ++ [site]) ∧
    ((∀ a, d.action slug = .ok a → ∃ o, setup.base.compose i a.extensions = .ok o) →
      ((∃ s, look = .done (.error (.unknownAction s))) ↔ slug ∉ definition.actions.names) ∧
      ∀ a, d.action slug = .ok a →
        ((∃ text status, look = .done (.error (.unsupportedAction text status))) ↔ a.handlers.get? key = none)) := by
  intro i look
  have unknown (h : slug ∉ definition.actions.names) : look = .done (.error (.unknownAction slug)) :=
    lookUp_unknown settings payload ((action_cases hd slug).resolve_right fun known => h known.1).2
  have registered (h : slug ∈ definition.actions.names) : ∃ a, d.action slug = .ok a :=
    ((action_cases hd slug).resolve_left fun unknown => unknown.1 h).2
  refine ⟨unknown, fun known => ?_, fun extended => ⟨⟨?_, fun h => ⟨slug, unknown h⟩⟩, fun a found => ⟨?_, fun h => ?_⟩⟩⟩
  · obtain ⟨a, found⟩ := registered known
    refine ⟨a, found, lookUp_unsupported settings payload found, fun handler h => ?_⟩
    have handled : look = _ := lookUp_handled settings payload hd found h
    constructor
    · intro f failed
      rw [handled, failed]
    · intro o built site
      have entered : look = .perform (.enter site) fun _ => Action.answering o handler i := by
        rw [handled, built]
      rw [entered]
      exact ⟨rfl, (Action.answering_asks o handler i).entered site⟩
  · rintro ⟨s, refused⟩ known
    obtain ⟨a, found⟩ := registered known
    cases h : a.handlers.get? key with
    | none =>
      obtain ⟨text, unsupported⟩ := lookUp_unsupported settings payload found h
      cases refused.symm.trans unsupported
    | some handler => exact lookUp_ne_error settings payload hd found h (extended a found) _ refused
  · rintro ⟨text, status, refused⟩
    cases h : a.handlers.get? key with
    | none => rfl
    | some handler => exact absurd refused (lookUp_ne_error settings payload hd found h (extended a found) _)
  · obtain ⟨text, refused⟩ := lookUp_unsupported settings payload found h
    exact ⟨text, none, refused⟩

/-- A builder that is given a handler first, and then a field twice, of which the last is looked up. -/
theorem autocomplete_handlers_declaredTwice :
    let lists : Callable := fun _ => .give (.obj [("items", .arr [])])
    let field (dynamic : Bool) : Field := ⟨"list", .string, .str "", .str "", none, false, false, dynamic, false, .str ""⟩
    let fill : Builder → Except Fault Builder := fun b => .ok ((b.handle "list" lists).setFields [field false, field true])
    let definition : Definition := ⟨"Example", "example", none, [], [("send", .built fill)], []⟩
    ∃ d, Destination.ofDefinition definition Setup.usual = .ok d ∧
      (∀ partner w, ∃ w' v, (d.autocomplete "send" "list" (.obj []) .null).outcome.run partner w = (w', .done v) ∧
        w'.entered = w.entered ++ [.autocomplete "example" "send" "list"]) ∧
      (d.autocomplete "call" "list" (.obj []) .null).outcome = .done (.error (.unknownAction "call")) ∧
      ∃ text, (d.autocomplete "send" "name" (.obj []) .null).outcome = .done (.error (.unsupportedAction text none)) := by
  intro lists field fill definition
  obtain ⟨d, hd⟩ : ∃ d, Destination.ofDefinition definition Setup.usual = .ok d := ⟨_, rfl⟩
  have known : "send" ∈ definition.actions.names := by decide
  obtain ⟨-, registered, -⟩ := autocomplete_handlers hd "send" "list" [] none
  obtain ⟨-, other, -⟩ := autocomplete_handlers hd "send" "name" [] none
  obtain ⟨unknown, -⟩ := autocomplete_handlers hd "call" "list" [] none
  refine ⟨d, hd, ?_, unknown (by decide), ?_⟩
  · obtain ⟨a, found, -, handled⟩ := registered known
    cases hd
    cases found
    exact ((handled lists rfl).2 _ rfl).2.2
  · obtain ⟨a, found, unhandled, -⟩ := other known
    cases hd
    cases found
    exact unhandled rfl

end Destination

end EventRouting
