import EventRouting.Proofs.Action.Pipeline
import EventRouting.Proofs.Request.Sent

/-!
# The test of credentials

Whatever goes wrong, the test says the same.

* `Strand.Plain.exists_run`   a strand that only makes requests and enters callables comes to its end
* `Definition.Admits`         the settings beside the subscriptions satisfy the fields of the authentication
* `Destination.CredentialTest`   all that the test of settings can be
* `Destination.Carries`        what the requests of a probe carry
* `Destination.testCredentials_verdict`   when the test says yes, and that it says no in one way only
-/

namespace EventRouting

def Deed.request? : Deed → Option Request
  | ⟨.ask r, _⟩ => some r
  | _ => none

theorem Deed.op_of_request? {d : Deed} {r : Request} (h : d.request? = some r) : d.op = .ask r := by
  obtain ⟨op, answer⟩ := d
  cases op with
  | ask r' =>
    cases h
    rfl
  | _ => cases h

namespace Strand

variable {α β : Type}

theorem Follows.done_unique {s : Strand α} {ds : List Deed} {a b : α} (h : s.Follows ds (.done a))
    (h' : s.Follows ds (.done b)) : a = b := by
  induction ds generalizing s with
  | nil =>
    cases h
    exact (follows_done_iff.mp h').2
  | cons d ds ih =>
    cases h with
    | step rest =>
      cases h' with
      | step rest' => exact ih rest rest'

/-- Nothing that requests and callables ask of the world is kept waiting.  The world after the run has entered
the callables and has been sent the requests of the deeds. -/
theorem Plain.exists_run {s : Strand α} (hs : s.Plain) (partner : Partner) (w : World) :
    ∃ w' a ds, s.run partner w = (w', .done a) ∧ s.Follows ds (.done a) ∧
      w'.entered = w.entered ++ ds.filterMap Deed.site? ∧
      w'.requests = w.requests ++ ds.filterMap Deed.request? := by
  induction hs generalizing w with
  | done a => exact ⟨w, a, [], rfl, .refl _, (List.append_nil _).symm, (List.append_nil _).symm⟩
  | @ask r next _ ih =>
    obtain ⟨w', a, ds, run, follows, entered, requests⟩ := ih (partner w.requests r) (w.exchange partner r).1
    refine ⟨w', a, ⟨.ask r, partner w.requests r⟩ :: ds, run, .step follows, entered, ?_⟩
    have asked : (w.exchange partner r).1.requests = w.requests ++ [r] := List.map_append
    rw [requests, asked, List.append_assoc]
    rfl
  | @enter site next _ ih =>
    obtain ⟨w', a, ds, run, follows, entered, requests⟩ := ih () { w with entered := w.entered ++ [site] }
    refine ⟨w', a, ⟨.enter site, ()⟩ :: ds, run, .step follows, ?_, requests⟩
    rw [entered, List.append_assoc]
    rfl

end Strand

/-- The settings beside the subscriptions satisfy the document of the fields of the authentication, if there are
any. -/
def Definition.Admits (definition : Definition) (settings : Members Json) : Prop :=
  ∀ fields, Destination.settingsFields definition = .ok fields → fields ≠ [] →
    ∃ schema, Schema.read (Field.document fields true) = .ok schema ∧
      schema.check (.obj (Settings.withoutSubscriptions settings)) = []

namespace Destination

section

variable {definition : Definition} {setup : Setup} {d : Destination}

theorem checkSettings_eq_ok_iff (hd : Destination.ofDefinition definition setup = .ok d) (settings : Members Json) :
    d.checkSettings (probeInvocation settings) = .ok () ↔ definition.Admits settings := by
  obtain ⟨fields, schema, actions, hf, hs, -, rfl⟩ := ofDefinition_eq_ok hd
  unfold checkSettings Definition.Admits
  rw [hs, hf]
  cases fields with
  | nil => exact ⟨fun _ _ h hne => absurd (Except.ok.inj h).symm hne, fun _ => rfl⟩
  | cons field fields =>
    show ((Schema.read (Field.document (field :: fields) true)).bind fun schema => _) = _ ↔ _
    constructor
    · intro h fields' hf' _
      cases hf'
      obtain ⟨schema, hr, h⟩ := exists_of_bind_eq_ok h
      obtain ⟨_, hv, _⟩ := exists_of_bind_eq_ok h
      refine ⟨schema, hr, ?_⟩
      unfold Step.validated at hv
      split at hv
      · assumption
      · cases hv
    · intro h
      obtain ⟨schema, hr, hc⟩ := h _ rfl (List.cons_ne_nil _ _)
      rw [hr]
      show (Step.validated .settings schema (probeInvocation settings) >>= fun _ => _) = _
      have valid : Step.validated .settings schema (probeInvocation settings) =
          .ok (probeInvocation settings, .said Target.settings.validText) := by
        unfold Step.validated
        rw [show schema.check (Target.settings.value (probeInvocation settings)) = [] from hc]
      rw [valid]
      rfl

/-! ## what a test can be -/

/-- The verdict of a test on how the talk of the probe has ended. -/
def verdict : Except Fault Reply → Except Fault Unit
  | .ok _ => .ok ()
  | .error _ => .error .credentials

/-- All that the test of settings can be. -/
inductive CredentialTest (definition : Definition) (d : Destination) (settings : Members Json) :
    Strand (Except Fault Unit) → Prop where
  | refused (h : ¬ definition.Admits settings) : CredentialTest definition d settings (.done (.error .credentials))
  | unprobed (h : definition.Admits settings) (absent : definition.authentication.bind Authentication.probe = none) :
      CredentialTest definition d settings (.done (.ok ()))
  | clientless {callable : Callable} {f : Fault} (h : definition.Admits settings)
      (declared : definition.authentication.bind Authentication.probe = some callable)
      (failed : d.probeFactory.optionsFor (probeInvocation settings) = .error f) :
      CredentialTest definition d settings (.done (.error .credentials))
  | probed {callable : Callable} {o : Options} (h : definition.Admits settings)
      (declared : definition.authentication.bind Authentication.probe = some callable)
      (built : d.probeFactory.optionsFor (probeInvocation settings) = .ok o) :
      CredentialTest definition d settings (.perform (.enter (.probe d.slug)) fun _ =>
        (Client.converse o (callable (probeInvocation settings))).outcome.bind fun r => .done (verdict r))

/-- Nothing of the fault or the reply that a probe ends with gets into the verdict. -/
theorem testCredentials_probed {callable : Callable}
    (hp : d.definition.authentication.bind Authentication.probe = some callable) (settings : Members Json)
    (hc : d.checkSettings (probeInvocation settings) = .ok ()) :
    (d.testCredentials settings).outcome =
      (d.probeFactory.call (.probe d.slug) callable (probeInvocation settings)).outcome.bind fun r =>
        .done (verdict r) := by
  have told : d.probe (probeInvocation settings) =
      (do let _ ← d.probeFactory.call (.probe d.slug) callable (probeInvocation settings)) := by
    unfold probe
    rw [hc, hp]
    rfl
  unfold testCredentials credentialFault
  rw [told, Attempt.bind_eq]
  show Strand.bind (Strand.bind (Strand.bind _ _) _) _ = _
  rw [Strand.bind_assoc, Strand.bind_assoc]
  refine congrArg _ (funext fun r => ?_)
  cases r <;> rfl

theorem credentialTest_is (hd : Destination.ofDefinition definition setup = .ok d) (settings : Members Json) :
    CredentialTest definition d settings (d.testCredentials settings).outcome := by
  have own : d.definition = definition := by
    obtain ⟨_, _, _, _, _, _, rfl⟩ := ofDefinition_eq_ok hd
    rfl
  cases hc : d.checkSettings (probeInvocation settings) with
  | error f =>
    have no : (d.testCredentials settings).outcome = .done (.error .credentials) := by
      unfold testCredentials credentialFault probe
      rw [hc]
      rfl
    rw [no]
    refine .refused fun h => ?_
    rw [(checkSettings_eq_ok_iff hd settings).mpr h] at hc
    cases hc
  | ok =>
    have admitted := (checkSettings_eq_ok_iff hd settings).mp hc
    cases hp : definition.authentication.bind Authentication.probe with
    | none =>
      have yes : (d.testCredentials settings).outcome = .done (.ok ()) := by
        unfold testCredentials credentialFault probe
        rw [hc, own, hp]
        rfl
      rw [yes]
      exact .unprobed admitted hp
    | some callable =>
      rw [testCredentials_probed (own ▸ hp) settings hc]
      unfold Factory.call
      cases ho : d.probeFactory.optionsFor (probeInvocation settings) with
      | error f => exact .clientless admitted hp ho
      | ok o => exact .probed admitted hp ho

namespace CredentialTest

variable {settings : Members Json} {s t : Strand (Except Fault Unit)} {ds : List Deed} {v : Except Fault Unit}

theorem plain (h : CredentialTest definition d settings s) : s.Plain := by
  cases h with
  | refused | unprobed | clientless => exact .done _
  | probed => exact .enter fun _ => (Client.converse_asks _ _).plain.bind fun _ => .done _

theorem admits (h : CredentialTest definition d settings s) (hf : s.Follows ds t) (hne : ds ≠ []) :
    definition.Admits settings := by
  cases h with
  | unprobed h | clientless h | probed h => exact h
  | refused =>
    cases hf
    exact absurd rfl hne

theorem verdict_cases (h : CredentialTest definition d settings s) (hf : s.Follows ds (.done v)) :
    v = .ok () ∨ v = .error .credentials := by
  cases h with
  | refused | clientless => exact .inr (Strand.follows_done_iff.mp hf).2.symm
  | unprobed => exact .inl (Strand.follows_done_iff.mp hf).2.symm
  | probed =>
    cases hf with
    | step rest =>
      obtain ⟨_, _, r, _, _, ends⟩ := rest.of_bind
      rw [← (Strand.follows_done_iff.mp ends).2]
      cases r with
      | ok reply => exact .inl rfl
      | error f => exact .inr rfl

theorem ok_iff (h : CredentialTest definition d settings s) (hf : s.Follows ds (.done v)) :
    v = .ok () ↔ definition.Admits settings ∧
      ∀ callable, definition.authentication.bind Authentication.probe = some callable →
        ∃ o us reply, d.probeFactory.optionsFor (probeInvocation settings) = .ok o ∧
          ds = ⟨.enter (.probe d.slug), ()⟩ :: us ∧
          (Client.converse o (callable (probeInvocation settings))).outcome.Follows us (.done (.ok reply)) := by
  cases h with
  | refused h =>
    obtain rfl := (Strand.follows_done_iff.mp hf).2
    exact ⟨(fun he => nomatch he), fun works => absurd works.1 h⟩
  | unprobed h absent =>
    obtain rfl := (Strand.follows_done_iff.mp hf).2
    refine ⟨fun _ => ⟨h, fun callable hp => ?_⟩, fun _ => rfl⟩
    rw [absent] at hp
    cases hp
  | clientless h declared failed =>
    obtain rfl := (Strand.follows_done_iff.mp hf).2
    refine ⟨(fun he => nomatch he), fun works => ?_⟩
    obtain ⟨o, _, _, built, _⟩ := works.2 _ declared
    rw [failed] at built
    cases built
  | probed h declared built =>
    cases hf with
    | step rest =>
      obtain ⟨us, vs, r, rfl, talk, ends⟩ := rest.of_bind
      obtain ⟨rfl, rfl⟩ := Strand.follows_done_iff.mp ends
      rw [List.append_nil]
      constructor
      · intro he
        cases r with
        | error f => cases he
        | ok reply =>
          refine ⟨h, fun callable hp => ?_⟩
          rw [declared] at hp
          cases hp
          exact ⟨_, us, reply, built, rfl, talk⟩
      · intro works
        obtain ⟨o, us', reply, built', he, talk'⟩ := works.2 _ declared
        cases (List.cons.inj he).2
        cases built.symm.trans built'
        rw [talk.done_unique talk']
        rfl

theorem only (h : CredentialTest definition d settings s) : s.Only fun op =>
    op = .enter (.probe d.slug) ∨ ∃ callable o c,
      definition.authentication.bind Authentication.probe = some callable ∧
      d.probeFactory.optionsFor (probeInvocation settings) = .ok o ∧
      (callable (probeInvocation settings)).Makes c ∧ Client.IsSent o c op := by
  cases h with
  | refused | unprobed | clientless => exact .done _
  | @probed callable o h declared built =>
    refine .perform (.inl rfl) fun _ => Strand.Only.bind ?_ fun _ => .done _
    refine (Client.converse_only o _).imp fun op ⟨c, makes, sent⟩ => ?_
    exact .inr ⟨callable, o, c, declared, built, makes, sent⟩

end CredentialTest

/-! ## the requests of a probe -/

theorem probeFactory_headers (d : Destination) :
    ∀ h ∈ d.probeFactory.base.headers, Headers.sameName h.1 "User-Agent" = false := by
  intro h hm
  obtain ⟨hm, present⟩ := List.mem_filter.mp hm
  rcases Headers.mem_put hm with ⟨_, other⟩ | rfl
  · exact other
  · cases present

theorem probeFactory_timeout (d : Destination) (h : d.setup.probeTimeout ≠ .null) :
    d.probeFactory.base.timeout = d.setup.probeTimeout := if_neg h

/-- What a request of a probe carries, as far as neither the layers of the extensions nor its call say
otherwise: the timeout of a probe, and no user agent. -/
structure Carries (setup : Setup) (layers : List Options) (c : Call) (r : Request) : Prop where
  timeout : setup.probeTimeout ≠ .null → (∀ l ∈ layers, l.timeout = .null) → c.timeout = .null →
    r.timeout = setup.probeTimeout
  userAgent : (∀ l ∈ layers, ∀ h ∈ l.headers, Headers.sameName h.1 "User-Agent" = false) →
    (∀ own, Headers.encode c.headers = .ok own → ∀ h ∈ own, h.1 ≠ "user-agent") →
    ∀ h ∈ r.headers, h.1 ≠ "user-agent"

theorem carries_of_sends {o : Options} {i : Invocation} {c : Call} {r : Request}
    (built : d.probeFactory.optionsFor i = .ok o) (sent : c.Sends o r) :
    ∃ layers : List Options, d.definition.extensions.map (fun e => e i) = layers.map .ok ∧
      Carries d.setup layers c r := by
  obtain ⟨layers, given, gathered⟩ := Options.exists_gathered built
  refine ⟨layers, given, fun timed untimed own => ?_, fun unnamed own h hm => ?_⟩
  · rw [sent.timeout_eq, Call.timeoutOf, if_neg (not_not.mpr own), gathered.timeout untimed,
      d.probeFactory_timeout timed, if_pos timed]
  · intro named
    obtain ⟨all, hall, cases⟩ := sent.header_cases
    rcases cases h hm with hm | kind | ⟨m, hm, encoded⟩
    · exact own all hall h hm named
    · rw [named] at kind
      exact absurd kind (by decide)
    · have same : Headers.sameName m.1 "User-Agent" = true := by
        have lower : Text.lower "User-Agent" = "user-agent" := by decide +kernel
        unfold Headers.sameName
        rw [← Headers.encodeOne_name encoded, named, lower]
        rfl
      have other : Headers.sameName m.1 "User-Agent" = false := by
        rcases gathered.headers m hm with hm | ⟨l, hl, hm⟩
        · exact d.probeFactory_headers m hm
        · exact unnamed l hl m hm
      rw [same] at other
      cases other

/-- **The test of credentials** has one failure only.  For every partner and every world it comes to its end, and
whatever the world answers and however the probe or an extension fails, it fails with the one fault of credentials
or not at all.  It does not fail exactly when the settings beside the subscriptions are admitted and, where a probe
is declared, its client has options and the probe is entered and ends with a reply.  For settings that are not
admitted nothing is done.  Every request is one of a call of the probe: the timeout is that of probes, and no user
agent is set, unless an extension or the call says otherwise. -/
theorem testCredentials_verdict (hd : Destination.ofDefinition definition setup = .ok d) (settings : Members Json) :
    let i := probeInvocation settings
    let test := (d.testCredentials settings).outcome
    (∀ partner w, ∃ w' v ds, test.run partner w = (w', .done v) ∧ test.Follows ds (.done v) ∧
      w'.entered = w.entered ++ ds.filterMap Deed.site? ∧
      w'.requests = w.requests ++ ds.filterMap Deed.request?) ∧
    Fault.credentials.document = .obj [("type", .str "CredentialTestError"), ("code", .str "INVALID_CREDENTIALS"),
      ("message", .str "Credentials are invalid"), ("status", .int 400)] ∧
    (∀ ds v, test.Follows ds (.done v) → (v = .ok () ∨ v = .error .credentials) ∧
      (v = .ok () ↔ definition.Admits settings ∧
        ∀ callable, definition.authentication.bind Authentication.probe = some callable →
          ∃ o us reply, d.probeFactory.optionsFor i = .ok o ∧ ds = ⟨.enter (.probe d.slug), ()⟩ :: us ∧
            (Client.converse o (callable i)).outcome.Follows us (.done (.ok reply)))) ∧
    ∀ ds t, test.Follows ds t → (¬ definition.Admits settings → ds = []) ∧
      ∀ r ∈ ds.filterMap Deed.request?, ∃ callable layers c,
        definition.authentication.bind Authentication.probe = some callable ∧
        definition.extensions.map (fun e => e i) = layers.map .ok ∧ (callable i).Makes c ∧
        Carries setup layers c r := by
  intro i test
  have known := credentialTest_is hd settings
  refine ⟨fun partner w => known.plain.exists_run partner w, rfl,
    fun ds v hf => ⟨known.verdict_cases hf, known.ok_iff hf⟩,
    fun ds t hf => ⟨fun refused => ?_, fun r hr => ?_⟩⟩
  · by_contra hne
    exact refused (known.admits hf hne)
  · obtain ⟨deed, hm, hr⟩ := List.mem_filterMap.mp hr
    have op := known.only.follows hf deed hm
    rw [Deed.op_of_request? hr] at op
    rcases op with he | ⟨callable, o, c, declared, built, makes, r', he, sent⟩
    · cases he
    · cases he
      obtain ⟨layers, given, carries⟩ := carries_of_sends built sent
      obtain ⟨_, _, _, _, _, _, rfl⟩ := ofDefinition_eq_ok hd
      exact ⟨callable, layers, c, declared, given, makes, carries⟩

end

/-- A key that an extension sends along with the probe.  The test passes for settings with a key, and for settings
without one nothing is sent. -/
theorem testCredentials_verdict_key :
    let bearer : Extension := fun i =>
      .ok { Options.empty with headers := [("Authorization", (i.settings.member? "apiKey").getD .null)] }
    let me : Callable := fun _ => Talk.askFor (Call.get "https://api.example/me") .pass
    let definition : Definition := ⟨"Example", "example",
      some ⟨.declared (.obj [("apiKey", .obj [("type", .str "string"), ("required", .bool true)])]), some me⟩,
      [bearer], [], []⟩
    let settings : Members Json := [("apiKey", .str "k"), ("subscriptions", .arr [])]
    let partner : Partner := fun _ _ => .ok ⟨200, [], ""⟩
    let w : World := World.start (Binary64.zero false)
    ∃ d, Destination.ofDefinition definition Setup.usual = .ok d ∧
      (∃ w', (d.testCredentials settings).outcome.run partner w = (w', .done (.ok ())) ∧
        w'.entered = [.probe "example"] ∧ w'.requests.length = 1 ∧ ∀ r ∈ w'.requests,
          r.timeout = Setup.usual.probeTimeout ∧ ∀ h ∈ r.headers, h.1 ≠ "user-agent") ∧
      ∃ w', (d.testCredentials []).outcome.run partner w = (w', .done (.error .credentials)) ∧
        w'.entered = [] ∧ w'.requests = [] := by
  intro bearer me definition settings partner w
  obtain ⟨d, hd⟩ : ∃ d, Destination.ofDefinition definition Setup.usual = .ok d := ⟨_, rfl⟩
  have passes : let ending := (d.testCredentials settings).outcome.run partner w
      ending.1.entered = [.probe "example"] ∧ ending.1.requests.length = 1 ∧
        ending.2.result?.map Except.isOk = some true := by
    cases hd
    decide +kernel
  have fails : let ending := (d.testCredentials []).outcome.run partner w
      ending.1.entered = [] ∧ ending.1.requests = [] ∧ ending.2.result?.map Except.isOk = some false := by
    cases hd
    decide +kernel
  refine ⟨d, hd, ?_, ?_⟩
  · obtain ⟨ends, -, verdicts, partly⟩ := testCredentials_verdict hd settings
    obtain ⟨w', v, ds, run, follows, -, sent⟩ := ends partner w
    rw [run] at passes
    obtain ⟨entered, length, passed⟩ := passes
    obtain rfl : v = .ok () := by
      cases v with
      | ok => rfl
      | error f => cases passed
    refine ⟨w', run, entered, length, fun r hr => ?_⟩
    rw [show w'.requests = ds.filterMap Deed.request? from sent] at hr
    obtain ⟨callable, layers, c, declared, given, makes, carries⟩ := (partly ds _ follows).2 r hr
    cases declared
    have call : c = Call.get "https://api.example/me" := by
      cases makes with
      | now => rfl
      | later answer h =>
        cases answer <;> cases h
    have layer : layers = [{ Options.empty with headers := [("Authorization", .str "k")] }] := by
      match layers, given with
      | [l], given => exact congrArg ([·]) (Except.ok.inj (List.cons.inj given).1).symm
    rw [call, layer] at carries
    refine ⟨carries.timeout (by decide) (by decide) rfl, carries.userAgent (by decide +kernel) fun own he => ?_⟩
    cases he
    exact fun _ h => nomatch h
  · obtain ⟨ends, -, verdicts, -⟩ := testCredentials_verdict hd []
    obtain ⟨w', v, ds, run, follows, -, -⟩ := ends partner w
    rw [run] at fails
    obtain ⟨entered, requests, failed⟩ := fails
    rcases (verdicts ds v follows).1 with rfl | rfl
    · cases failed
    · exact ⟨w', run, entered, requests⟩

end Destination

end EventRouting
