import EventRouting.Proofs.Destination.FanOut

/-!
# Private settings

What is written down of an event shows nothing of the private settings but that they are there.

* `Definition.Hides`   the keys that are private: those that are given, and those of passwords
* `Settings.Shown`     settings as they may be shown, of which `Settings.Shown.unique` is the only way
* `Settings.Alike`     settings that differ in nothing but subscriptions and private values
* `Action.Executes.settings`   the steps of an action leave the settings as they are
* `Destination.onSubscription_shows`   at every turn, the settings that are written down are redacted
* `Destination.onEvent_redacted`   all records of all events under such settings show the same
-/

namespace EventRouting

/-- A key that is private: the caller says so, or a field of the settings under it is a password. -/
def Definition.Hides (definition : Definition) (given : List String) (key : String) : Prop :=
  key ∈ given ∨ ∃ fields, Destination.settingsFields definition = .ok fields ∧
    ∃ f ∈ fields, f.key = key ∧ f.type = .password

/-! ## settings -/

namespace Settings

variable {hidden : String → Prop} {placeholder : Json}

/-- Settings as they may be shown: the keys in their order, a placeholder for what is hidden, and everything
else as it is. -/
def Shown (hidden : String → Prop) (placeholder : Json) (settings shown : Members Json) : Prop :=
  List.Forall₂ (fun m s => s.1 = m.1 ∧ (hidden m.1 → s.2 = placeholder) ∧ (¬ hidden m.1 → s.2 = m.2))
    settings shown

/-- The same keys in the same order, with the same values but for the subscriptions and what is hidden. -/
def Alike (hidden : String → Prop) (settings other : Members Json) : Prop :=
  List.Forall₂ (fun m n => n.1 = m.1 ∧ (m.1 ≠ subscriptionsKey → ¬ hidden m.1 → n.2 = m.2)) settings other

theorem withoutSubscriptions_eq (settings : Members Json) :
    withoutSubscriptions settings = settings.filter fun m => m.1 ≠ subscriptionsKey := by
  refine List.filter_congr fun m _ => ?_
  by_cases h : m.1 = subscriptionsKey <;> simp [h]

theorem shown_redact {keys : List String} (h : ∀ key, key ∈ keys ↔ hidden key) (settings : Members Json) :
    Shown hidden placeholder settings (redact settings keys placeholder) := by
  unfold Shown redact
  rw [List.forall₂_map_right_iff]
  refine List.forall₂_same.mpr fun m _ => ⟨rfl, fun hm => ?_, fun hm => ?_⟩
  · exact if_pos (List.contains_iff_mem.mpr ((h _).mpr hm))
  · exact if_neg fun hc => hm ((h _).mp (List.contains_iff_mem.mp hc))

theorem Shown.unique {settings shown shown' : Members Json} (h : Shown hidden placeholder settings shown)
    (h' : Shown hidden placeholder settings shown') : shown = shown' := by
  induction h generalizing shown' with
  | nil =>
    cases h'
    rfl
  | @cons m s settings shown hms _ ih =>
    cases h' with
    | @cons _ s' _ _ hms' rest =>
      obtain ⟨key, covered, kept⟩ := hms
      obtain ⟨key', covered', kept'⟩ := hms'
      have value : s.2 = s'.2 := by
        by_cases hm : hidden m.1
        · exact (covered hm).trans (covered' hm).symm
        · exact (kept hm).trans (kept' hm).symm
      rw [ih rest, Prod.ext (key.trans key'.symm) value]

theorem Alike.redact {keys : List String} (h : ∀ key, key ∈ keys ↔ hidden key) {settings other : Members Json}
    (alike : Alike hidden settings other) :
    redact (withoutSubscriptions other) keys placeholder = redact (withoutSubscriptions settings) keys placeholder := by
  induction alike with
  | nil => rfl
  | @cons m n settings other hmn _ ih =>
    obtain ⟨_, value⟩ := m
    obtain ⟨key, value'⟩ := n
    obtain ⟨rfl, same⟩ := hmn
    rw [withoutSubscriptions_eq, withoutSubscriptions_eq] at ih ⊢
    by_cases hk : key = subscriptionsKey
    · rw [List.filter_cons_of_neg (by simpa using hk), List.filter_cons_of_neg (by simpa using hk), ih]
    · rw [List.filter_cons_of_pos (by simpa using hk), List.filter_cons_of_pos (by simpa using hk)]
      have first : (if keys.contains key then placeholder else value') =
          if keys.contains key then placeholder else value := by
        split
        · rfl
        · next hc => exact same hk fun hh => hc (List.contains_iff_mem.mpr ((h key).mpr hh))
      exact congrArg₂ List.cons (congrArg (Prod.mk key) first) ih

end Settings

/-! ## invocations -/

theorem Step.Does.settings {i j : Invocation} {s : Step} {r : StepResult} (h : s.Does i j r) :
    j.settings = i.settings := by
  cases h with
  | validated | looked | called => rfl
  | mapped h =>
    unfold Step.mapped at h
    split at h
    · cases h
      rfl
    · cases ht : i.mapping.transform i.payload with
      | error f =>
        rw [ht] at h
        cases h
      | ok v =>
        rw [ht] at h
        cases h
        rfl

theorem Action.Executes.settings {f : Factory} {a : Action} {home : String} {n : Nat} {steps : List Step}
    {i k : Invocation} {ds : List Deed} {result : Except Fault (List StepResult)}
    (h : Executes f a home n steps i ds k result) : k.settings = i.settings := by
  induction h with
  | nil | halt => rfl
  | next h _ ih => exact ih.trans (Step.does_of_follows h).settings

namespace Destination

theorem redacted_settings (d : Destination) (keys : List String) {i j : Invocation}
    (h : j.settings = i.settings) : (d.redacted keys j).settings = (d.redacted keys i).settings := by
  unfold redacted
  rw [h]
  split <;> first | rfl | exact h

/-- What the run of an action comes to has the settings that it started with. -/
theorem attempt_settings {d : Destination} {s : Subscription} {i : Invocation} {ds : List Deed}
    {r : Invocation × List StepResult} (h : (d.attempt s i).Follows ds (.done r)) : r.1.settings = i.settings := by
  unfold attempt at h
  split at h
  · obtain ⟨_, rfl⟩ := Strand.follows_done_iff.mp h
    rfl
  · obtain ⟨us, vs, ⟨j, outcome⟩, _, hx, he⟩ := h.of_bind
    obtain ⟨own, executed, rfl⟩ := Action.executes_of_follows hx
    cases own <;>
    · obtain ⟨_, rfl⟩ := Strand.follows_done_iff.mp he
      exact executed.settings

theorem attempt_orderly (d : Destination) (s : Subscription) (i : Invocation) (records : Record → Prop) :
    (d.attempt s i).Orderly (fun _ => True) records .free := by
  unfold attempt
  split
  · exact .done _
  · refine (execute_orderly ..).bind fun r => ?_
    obtain ⟨j, outcome⟩ := r
    cases outcome <;> exact .done _

/-- **At every turn** of a subscription, what it writes down shows its settings redacted. -/
theorem onSubscription_shows (d : Destination) (event : Json) (keys : List String) (i : Invocation)
    (s : Subscription) :
    (d.onSubscription event keys i s).Orderly (fun _ => True)
      (fun r => r.input.settings = (d.redacted keys i).settings) .free := by
  have recorded : ∀ j results, j.settings = i.settings → (d.recorded s keys j results).Orderly (fun _ => True)
      (fun r => r.input.settings = (d.redacted keys i).settings) .free :=
    fun j results h => .record (d.redacted_settings keys h) fun _ => .done _
  unfold onSubscription
  split
  · exact .done _
  · exact recorded i _ rfl
  · exact (attempt_orderly ..).bind_of_follows fun ds r h => recorded r.1 r.2 (attempt_settings h)

end Destination

/-! ## records -/

theorem Together.Runs.records_of_orderly {α : Type} {partner : Partner} {t u : Together α} {ds : List (Nat × Deed)}
    {lifetimes : Json → Prop} {records : Record → Prop} (run : Runs partner t ds u)
    (h : ∀ s ∈ t.strands, ∃ m, s.Orderly lifetimes records m) :
    ∃ added, u.world.records = t.world.records ++ added ∧ ∀ r ∈ added, records r := by
  refine ⟨_, run.records, fun r hr => ?_⟩
  obtain ⟨⟨k, deed⟩, hd, hr⟩ := List.mem_filterMap.mp hr
  have hs := List.getElem?_eq_getElem (run.within _ hd)
  obtain ⟨_, _, follows⟩ := run.follows hs
  obtain ⟨m, orderly⟩ := h _ (List.mem_of_getElem? hs)
  exact orderly.follows follows deed (List.mem_filterMap.mpr ⟨(k, deed), hd, if_pos rfl⟩) r hr

namespace Destination

open Together

variable {d : Destination}

theorem mem_privateKeys_iff {definition : Definition} {setup : Setup}
    (hd : Destination.ofDefinition definition setup = .ok d) (given : List String) (key : String) :
    key ∈ d.privateKeys given ↔ definition.Hides given key := by
  obtain ⟨fields, _, _, hf, _, _, rfl⟩ := ofDefinition_eq_ok hd
  have secret : key ∈ Field.privateKeys fields ↔ ∃ f ∈ fields, f.key = key ∧ f.type = .password := by
    simp only [Field.privateKeys, List.mem_map, List.mem_filter, decide_eq_true_eq, and_assoc, and_comm]
  rw [privateKeys, List.mem_append, secret, Definition.Hides, hf]
  simp only [Except.ok.injEq, exists_eq_left']

/-- **Privacy.**  For settings and private names there is one way to show the settings: without the
subscriptions, the other keys in their order, the placeholder of the setup under every key that is private and
the value as it is under every other one.  Whatever the event, the partner and the world, however the
subscriptions take turns, and whether they succeed or fail, at every time each record that has been added
shows the settings in this way.  So it is under these settings, and under all that differ from them in nothing
but subscriptions and values under private keys. -/
theorem onEvent_redacted {definition : Definition} {setup : Setup}
    (hd : Destination.ofDefinition definition setup = .ok d) (settings : Members Json) (given : List String) :
    ∃ shown, Settings.Shown (definition.Hides given) setup.placeholder
        (settings.filter fun m => m.1 ≠ Settings.subscriptionsKey) shown ∧
      ∀ other, Settings.Alike (definition.Hides given) settings other →
        ∀ (event : Members Json) strands,
          d.onEvent (.obj event) (.obj other) (.arr (given.map .str)) = .ok strands →
          ∀ partner w ds t, Runs partner ⟨w, strands⟩ ds t →
            ∃ added, t.world.records = w.records ++ added ∧ ∀ r ∈ added, r.input.settings = .obj shown := by
  have hides := mem_privateKeys_iff hd given
  have placeholder : d.setup.placeholder = setup.placeholder := by
    obtain ⟨_, _, _, _, _, _, rfl⟩ := ofDefinition_eq_ok hd
    rfl
  refine ⟨Settings.redact (Settings.withoutSubscriptions settings) (d.privateKeys given) setup.placeholder,
    ?_, fun other alike event strands runs partner w ds t run => ?_⟩
  · rw [← Settings.withoutSubscriptions_eq]
    exact Settings.shown_redact hides _
  · rw [onEvent_eq] at runs
    cases read : Subscription.ofSettings (.obj other) with
    | error f =>
      rw [read] at runs
      cases runs
    | ok subscriptions =>
      rw [read] at runs
      cases runs
      have shows : ∀ strand ∈ d.runsOf event other given subscriptions, ∃ m, strand.Orderly (fun _ => True)
          (fun r => r.input.settings = .obj (Settings.redact (Settings.withoutSubscriptions settings)
            (d.privateKeys given) setup.placeholder)) m := by
        intro strand hs
        obtain ⟨s, _, rfl⟩ := List.mem_map.mp hs
        rw [← alike.redact hides, ← placeholder]
        exact ⟨.free, onSubscription_shows d (.obj event) (d.privateKeys given)
          (invocation event (Settings.withoutSubscriptions other) s) s⟩
      exact run.records_of_orderly shows

/-- Two secrets, of which one is a password and one is given, and a subscription to an action that is not
there. -/
theorem onEvent_redacted_unknownAction :
    let definition : Definition := ⟨"Example", "example",
      some ⟨.declared (.obj [("apiKey", .obj [("type", .str "password")])]), none⟩, [], [], []⟩
    let settings (password secret : String) : Members Json := [("apiKey", .str password),
      ("subscriptions", .arr [.obj [("partnerAction", .str "nope"), ("subscribe", .obj [("type", .str "all")])]]),
      ("region", .str "eu"), ("secret", .str secret)]
    let partner : Partner := fun _ _ => .error .credentials
    let w : World := World.start (Binary64.zero false)
    ∃ d, Destination.ofDefinition definition Setup.usual = .ok d ∧ ∀ password secret, ∃ strands ds t,
      d.onEvent (.obj []) (.obj (settings password secret)) (.arr [.str "secret"]) = .ok strands ∧
      Runs partner ⟨w, strands⟩ ds t ∧ t.world.records.length = 1 ∧ ∀ r ∈ t.world.records,
        r.input.settings = .obj [("apiKey", .str "***"), ("region", .str "eu"), ("secret", .str "***")] := by
  intro definition settings partner w
  obtain ⟨d, hd⟩ : ∃ d, Destination.ofDefinition definition Setup.usual = .ok d := ⟨_, rfl⟩
  have keys : d.privateKeys ["secret"] = ["secret", "apiKey"] := by
    cases hd
    rfl
  have hides : ∀ key, key ∈ ["secret", "apiKey"] ↔ definition.Hides ["secret"] key :=
    fun key => keys ▸ mem_privateKeys_iff hd ["secret"] key
  have password_hidden : definition.Hides ["secret"] "apiKey" := (hides _).mp (by decide)
  have secret_hidden : definition.Hides ["secret"] "secret" := (hides _).mp (by decide)
  have region_shown : ¬ definition.Hides ["secret"] "region" := fun h => absurd ((hides _).mpr h) (by decide)
  obtain ⟨shown, shows, all⟩ := onEvent_redacted hd (settings "k" "s") ["secret"]
  have same : shown = [("apiKey", .str "***"), ("region", .str "eu"), ("secret", .str "***")] :=
    shows.unique (.cons ⟨rfl, fun _ => rfl, fun h => absurd password_hidden h⟩
      (.cons ⟨rfl, fun h => absurd h region_shown, fun _ => rfl⟩
        (.cons ⟨rfl, fun _ => rfl, fun h => absurd secret_hidden h⟩ .nil)))
  refine ⟨d, hd, fun password secret => ?_⟩
  have alike : Settings.Alike (definition.Hides ["secret"]) (settings "k" "s") (settings password secret) :=
    .cons ⟨rfl, fun _ h => absurd password_hidden h⟩ (.cons ⟨rfl, fun h => absurd rfl h⟩
      (.cons ⟨rfl, fun _ _ => rfl⟩ (.cons ⟨rfl, fun _ h => absurd secret_hidden h⟩ .nil)))
  let s : Subscription := ⟨"nope", .all, .obj [("type", .str "all")], none, "", true⟩
  have read : Subscription.ofSettings (.obj (settings password secret)) = .ok [s] := by with_unfolding_all rfl
  have runs := onEvent_eq d [] (settings password secret) ["secret"]
  rw [read] at runs
  have failed : ∀ i, d.onSubscription (.obj []) ["secret", "apiKey"] i s =
      d.recorded s ["secret", "apiKey"] i [.failed (.unknownAction "nope")] := by
    cases hd
    exact fun _ => rfl
  obtain ⟨ds, run⟩ := runs_runAll partner (d.runsOf [] (settings password secret) ["secret"] [s]) w []
  obtain ⟨added, records, settings⟩ := all _ alike [] _ runs partner w ds _ run
  refine ⟨_, ds, _, runs, run, ?_, fun r hr => ?_⟩
  · rw [runsOf, keys, List.map_singleton, failed]
    rfl
  · rw [records] at hr
    exact (settings r hr).trans (congrArg _ same)

end Destination

end EventRouting
