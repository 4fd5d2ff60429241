import Mathlib.Tactic.Choose
import EventRouting.Proofs.Destination.FanOut
import EventRouting.Proofs.Subscription.FailClosed
import EventRouting.Proofs.World.Uncached

/-!
# Subscriptions do not influence each other

* `Step.Keyed`, `Destination.Keyed`     the outcome of a cached request depends on the text of its key alone
* `Destination.onSubscription_steady`   with caches a subscription comes to the same as without
* `Destination.History`                 the worlds that subscriptions of a destination leave behind
* `Destination.ownResults`              the results of a subscription when no cache has a part in them
* `Destination.ByItself`                the results of a subscription that is alone on a new destination
* `Destination.onEvent_independent`     whatever the other subscriptions, and whatever is kept from before
-/

namespace EventRouting

open Strand

/-! ## steps -/

namespace Step

variable {partner : Partner} {home : String} {outcome : Cell → String → Except Fault Json} {f : Factory}

/-- For invocations whose key is not null, the outcome of a cached request depends on the text of the key
alone. -/
def Keyed (partner : Partner) (f : Factory) (cell : Cell) (outcome : String → Except Fault Json) : Step → Prop
  | cached ttl key value _ => ∀ i k o, key i = .ok k → k ≠ .null → f.optionsFor i = .ok o →
      Cache.lasting ttl ((computed cell o value i).outcome.uncached partner) = outcome k.display
  | _ => True

theorem steady_lookUp {cell : Cell} {key : String} {ttl : Json} {compute : Attempt Json}
    (own : cell.destination = home) (plain : compute.outcome.Plain)
    (kept : Cache.lasting ttl (compute.outcome.uncached partner) = outcome cell key) :
    (lookUp cell key ttl compute).outcome.Steady partner home outcome := by
  have same : (lookUp cell key ttl compute).outcome.uncached partner = outcome cell key := by
    rw [← kept]
    exact uncached_bind partner compute.outcome (settle cell key 0 ttl)
  unfold Steady
  rw [same]
  refine .look own (fun v hv => ?_) (fun f => .await own (.done _)) fun f => ?_
  · rw [hv]
    exact .done _
  · exact plain.comes_bind (.settle own kept (.done _))

theorem steady_fetched {cell : Cell} {ttl : Json} {key : KeyRule} {value : Callable} {field : String}
    (own : cell.destination = home)
    (keyed : (cached ttl key value field).Keyed partner f cell (outcome cell)) (i : Invocation) :
    (fetched f cell ttl key value i).outcome.Steady partner home outcome := by
  unfold fetched
  refine Attempt.steady_bind (Plain.steady (.enter fun _ => .done _)) fun _ => ?_
  cases hk : key i with
  | error fault => exact .done _
  | ok k =>
    cases ho : f.optionsFor i with
    | error fault => exact .done _
    | ok o =>
      show Steady partner home outcome (if k = .null then computed cell o value i else _ : Attempt Json).outcome
      split
      · exact (computed_plain cell o value i).steady
      · next hn => exact steady_lookUp own (computed_plain cell o value i) (keyed i k o hk hn ho)

/-- **A step** comes to the same with caches as without. -/
theorem steady_execute {cell : Cell} {s : Step} (own : cell.destination = home)
    (keyed : s.Keyed partner f cell (outcome cell)) (i : Invocation) :
    (s.execute f cell i).outcome.Steady partner home outcome := by
  cases s with
  | mapInput => exact .done _
  | validate target schema => exact .done _
  | cached ttl key value field => exact Attempt.steady_bind (steady_fetched own keyed i) fun v => .done _
  | request name callable =>
    exact Attempt.steady_bind (f.call_plain _ callable i).steady fun reply => .done _

end Step

theorem Action.steady_executeFrom {partner : Partner} {home : String}
    {outcome : Cell → String → Except Fault Json} {f : Factory} {a : Action} {steps : List Step} {n : Nat}
    (keyed : ∀ m (s : Step), steps[m]? = some s →
      s.Keyed partner f (a.cell home (n + m)) (outcome (a.cell home (n + m))))
    (i : Invocation) (before : List StepResult) :
    (executeFrom f a home n steps i before).Steady partner home outcome := by
  induction steps generalizing n i before with
  | nil => exact .done _
  | cons s rest ih =>
    have here : s.Keyed partner f (a.cell home n) (outcome (a.cell home n)) := keyed 0 s rfl
    rw [executeFrom]
    refine (Step.steady_execute rfl here i).bind fun result => ?_
    cases result with
    | error fault => exact .done _
    | ok r =>
      refine ih (fun m s hs => ?_) r.1 (before ++ [r.2])
      have later := keyed (m + 1) s hs
      rwa [Nat.add_comm m 1, ← Nat.add_assoc] at later

/-! ## subscriptions -/

theorem Subscription.item_of_ofItems {n : Nat} {items : List Json} {subscriptions : List Subscription}
    (h : ofItems n items = .ok subscriptions) :
    ∀ s ∈ subscriptions, ∃ item, ofJson 0 item = .ok s := by
  induction items generalizing n subscriptions with
  | nil =>
    cases h
    exact fun _ hs => nomatch hs
  | cons item items ih =>
    unfold ofItems at h
    split at h
    · cases h
    · next first hf =>
      split at h
      · cases h
      · next others ho =>
        cases h
        intro s hs
        rcases List.mem_cons.mp hs with rfl | hs
        · exact ⟨item, (ofJson_closed n item).good_of_ok hf 0⟩
        · exact ih ho s hs

theorem Subscription.item_of_parseAll {v : Json} {subscriptions : List Subscription}
    (h : parseAll v = .ok subscriptions) : ∀ s ∈ subscriptions, ∃ item, ofJson 0 item = .ok s := by
  have list : ∀ v, ofList v = .ok subscriptions → ∀ s ∈ subscriptions, ∃ item, ofJson 0 item = .ok s := by
    intro v h
    unfold ofList at h
    split at h
    · exact item_of_ofItems h
    · cases h
  unfold parseAll at h
  split at h
  · cases h
    exact fun _ hs => nomatch hs
  · split at h
    · exact list _ h
    · cases h
  · exact list _ h

/-- Settings in which one subscription is left of all that were read. -/
theorem Subscription.exists_alone {settings : Members Json} {subscriptions : List Subscription}
    (h : ofSettings (.obj settings) = .ok subscriptions) {s : Subscription} (hs : s ∈ subscriptions) :
    ∃ alone, ofSettings (.obj alone) = .ok [s] ∧
      Settings.withoutSubscriptions alone = Settings.withoutSubscriptions settings := by
  obtain ⟨item, hi⟩ := item_of_parseAll h s hs
  refine ⟨(Settings.subscriptionsKey, .arr [item]) :: Settings.withoutSubscriptions settings, ?_, ?_⟩
  · show ofItems 0 [item] = .ok [s]
    rw [ofItems, hi]
    rfl
  · unfold Settings.withoutSubscriptions Members.without
    rw [List.filter_cons_of_neg (by simp), List.filter_filter]
    simp only [Bool.and_self]

namespace Destination

open Together

variable {d : Destination} {partner : Partner} {outcome : Cell → String → Except Fault Json}

/-- The outcome of every cached request of a destination, as far as its key is not null, depends on the text
of the key alone. -/
def Keyed (d : Destination) (partner : Partner) (outcome : Cell → String → Except Fault Json) : Prop :=
  ∀ slug a, d.action slug = .ok a → ∀ n (s : Step), a.steps[n]? = some s →
    s.Keyed partner { d.factory with extensions := a.extensions } (a.cell d.slug n) (outcome (a.cell d.slug n))

/-- Where every action goes by the slug that it is registered under, it is enough that the outcome of the value
of each cached request depends on the text of the key alone. -/
theorem exists_keyed (named : ∀ slug a, d.action slug = .ok a → a.slug = slug)
    (values : ∀ slug a, d.action slug = .ok a → ∀ n ttl key value field,
      a.steps[n]? = some (.cached ttl key value field) → ∃ told : String → Except Fault Json, ∀ i k o,
        key i = .ok k → k ≠ .null → Factory.optionsFor { d.factory with extensions := a.extensions } i = .ok o →
          (Step.computed (a.cell d.slug n) o value i).outcome.uncached partner = told k.display) :
    ∃ outcome, d.Keyed partner outcome := by
  -- a cell is one step of one action, so what is told of it is what is told of that step
  have each : ∀ cell : Cell, ∃ told : String → Except Fault Json, ∀ slug a, d.action slug = .ok a →
      ∀ n (s : Step), a.steps[n]? = some s → a.cell d.slug n = cell →
        s.Keyed partner { d.factory with extensions := a.extensions } (a.cell d.slug n) told := by
    intro cell
    by_cases h : ∃ slug a n ttl key value field, d.action slug = .ok a ∧
      a.steps[n]? = some (.cached ttl key value field) ∧ a.cell d.slug n = cell
    · obtain ⟨slug, a, n, ttl, key, value, field, found, at_n, rfl⟩ := h
      obtain ⟨told, ht⟩ := values slug a found n ttl key value field at_n
      refine ⟨fun text => Cache.lasting ttl (told text), fun slug' a' found' n' s hs hc => ?_⟩
      obtain ⟨hslug, rfl⟩ : a'.slug = a.slug ∧ n' = n := by
        injection hc with _ hslug hn
        exact ⟨hslug, hn⟩
      rw [named slug' a' found', named slug a found] at hslug
      subst hslug
      cases found.symm.trans found'
      cases at_n.symm.trans hs
      exact fun i k o hk hn ho => congrArg (Cache.lasting ttl) (ht i k o hk hn ho)
    · refine ⟨fun _ => .ok .null, fun slug a found n s hs hc => ?_⟩
      cases s with
      | cached ttl key value field => exact absurd ⟨slug, a, n, ttl, key, value, field, found, hs, hc⟩ h
      | mapInput | validate | request => trivial
  choose outcome h using each
  exact ⟨outcome, fun slug a found n s hs => h _ slug a found n s hs rfl⟩

/-- **One subscription** comes to the same with caches as without. -/
theorem onSubscription_steady (keyed : d.Keyed partner outcome) (event : Json) (isPrivate : List String)
    (i : Invocation) (s : Subscription) :
    (d.onSubscription event isPrivate i s).Steady partner d.slug outcome := by
  have recorded : ∀ j results, (d.recorded s isPrivate j results).Steady partner d.slug outcome :=
    fun j results => .record (.done _)
  unfold onSubscription
  split
  · exact .done _
  · exact recorded ..
  · refine Steady.bind ?_ fun r => recorded r.1 r.2
    unfold attempt
    split
    · exact .done _
    · next a found =>
      have steady : (a.execute d.slug d.factory i).Steady partner d.slug outcome := by
        refine Action.steady_executeFrom (fun m s hs => ?_) i []
        rw [Nat.zero_add]
        exact keyed _ a found m s hs
      refine steady.bind fun r => ?_
      obtain ⟨j, result⟩ := r
      cases result with
      | ok results => exact .done _
      | error fault => exact .done _

/-! ## worlds that a destination comes to be in -/

/-- Nothing has been kept for a destination, and nothing is under way. -/
def IsFresh (d : Destination) (w : World) : Prop :=
  ∀ cell, cell.destination = d.slug → w.cache cell = Cache.empty

/-- The worlds that subscriptions of a destination leave behind: they run, those of one event or of several
at the same time, as far as they come, and whatever else happens leaves the caches of the destination. -/
inductive History (d : Destination) (partner : Partner) : World → Prop where
  | fresh {w : World} (h : d.IsFresh w) : History d partner w
  | ran {w : World} {strands : List (Strand (List StepResult))} {ds : List (Nat × Deed)}
      {t : Together (List StepResult)} (before : History d partner w)
      (runs : ∀ strand ∈ strands, ∃ event isPrivate i s, strand = d.onSubscription event isPrivate i s)
      (run : Runs partner ⟨w, strands⟩ ds t) : History d partner t.world
  | elsewhere {w w' : World} (before : History d partner w)
      (same : ∀ cell, cell.destination = d.slug → w'.cache cell = w.cache cell) : History d partner w'

theorem IsFresh.truthful {w : World} (h : d.IsFresh w) (outcome : Cell → String → Except Fault Json) :
    w.Truthful d.slug outcome fun _ _ => none := by
  intro cell own
  rw [h cell own]
  exact Cache.truthful_empty _

/-- **What is kept** says nothing but the outcomes of the keys. -/
theorem History.truthful (stateless : partner.IsStateless) (keyed : d.Keyed partner outcome) {w : World}
    (h : d.History partner w) : ∃ keys, w.Truthful d.slug outcome keys := by
  induction h with
  | fresh h => exact ⟨_, h.truthful outcome⟩
  | @ran _ strands _ _ _ runs run ih =>
    obtain ⟨keys, truthful⟩ := ih
    have steady : ∀ strand ∈ strands, strand.Steady partner d.slug outcome := by
      intro strand hs
      obtain ⟨event, isPrivate, i, s, rfl⟩ := runs strand hs
      exact onSubscription_steady keyed event isPrivate i s
    obtain ⟨keys', truthful', _⟩ := (Comes.of_steady truthful steady).runs stateless run
    exact ⟨keys', truthful'⟩
  | elsewhere _ same ih =>
    obtain ⟨keys, truthful⟩ := ih
    refine ⟨keys, fun cell own => ?_⟩
    rw [same cell own]
    exact truthful cell own

/-! ## events -/

/-- The results of a subscription to an event by itself: no other subscription is there, and every value is
computed. -/
def ownResults (d : Destination) (partner : Partner) (event settings : Members Json) (isPrivate : List String)
    (s : Subscription) : List StepResult :=
  (d.onSubscription (.obj event) (d.privateKeys isPrivate) (invocation event settings s) s).uncached partner

section

variable {event settings : Members Json} {isPrivate : List String} {subscriptions : List Subscription} {w : World}

theorem runsOf_steady (keyed : d.Keyed partner outcome) :
    ∀ strand ∈ d.runsOf event settings isPrivate subscriptions, strand.Steady partner d.slug outcome := by
  intro strand hs
  obtain ⟨s, _, rfl⟩ := List.mem_map.mp hs
  exact onSubscription_steady keyed ..

theorem runsOf_uncached : (d.runsOf event settings isPrivate subscriptions).map (·.uncached partner) =
    subscriptions.map (d.ownResults partner event (Settings.withoutSubscriptions settings) isPrivate) :=
  List.map_map

/-- **Among others**, and whatever is kept from before, a subscription that has come to its end has come to
its own results. -/
theorem results_of_runs (stateless : partner.IsStateless) (keyed : d.Keyed partner outcome)
    (history : d.History partner w) {ds : List (Nat × Deed)} {t : Together (List StepResult)}
    (run : Runs partner ⟨w, d.runsOf event settings isPrivate subscriptions⟩ ds t) {k : Nat} {s : Subscription}
    {g : List StepResult} (hs : subscriptions[k]? = some s) (done : t.strands[k]? = some (.done g)) :
    g = d.ownResults partner event (Settings.withoutSubscriptions settings) isPrivate s := by
  obtain ⟨keys, truthful⟩ := history.truthful stateless keyed
  have result := ((Comes.of_steady truthful (runsOf_steady keyed)).runs stateless run).result done
  rw [runsOf_uncached, List.getElem?_map, hs] at result
  exact (Option.some.inj result).symm

theorem isDone_of_runs (stateless : partner.IsStateless) (keyed : d.Keyed partner outcome)
    (history : d.History partner w) {ds : List (Nat × Deed)} {t : Together (List StepResult)}
    (run : Runs partner ⟨w, d.runsOf event settings isPrivate subscriptions⟩ ds t)
    {groups : List (List StepResult)} (done : t.IsDone groups) :
    groups = subscriptions.map
      (d.ownResults partner event (Settings.withoutSubscriptions settings) isPrivate) := by
  have length := length_groups run done
  refine List.ext_getElem? fun k => ?_
  rw [List.getElem?_map]
  cases hs : subscriptions[k]? with
  | none =>
    rw [List.getElem?_eq_none_iff] at hs
    exact List.getElem?_eq_none (length ▸ hs)
  | some s =>
    have within : k < groups.length := length ▸ (List.getElem?_eq_some_iff.mp hs).1
    have ended : t.strands[k]? = some (.done groups[k]) := by
      rw [show t.strands = groups.map .done from done, List.getElem?_map, List.getElem?_eq_getElem within]
      rfl
    rw [List.getElem?_eq_getElem within]
    exact congrArg some (results_of_runs stateless keyed history run hs ended)

theorem handles_of_fresh (stateless : partner.IsStateless) (keyed : d.Keyed partner outcome) (fresh : d.IsFresh w)
    (read : Subscription.ofSettings (.obj settings) = .ok subscriptions) :
    ∃ ds w', d.Handles partner (.obj event) (.obj settings) (.arr (isPrivate.map .str)) w ds
      (.ok (subscriptions.flatMap
        (d.ownResults partner event (Settings.withoutSubscriptions settings) isPrivate))) w' := by
  have runs := onEvent_eq d event settings isPrivate
  rw [read] at runs
  have alone : Role.free.Alone d.slug w := fun cell own => by rw [fresh cell own]; rfl
  have steady : ∀ strand ∈ d.runsOf event settings isPrivate subscriptions,
      strand.Steady partner d.slug outcome := runsOf_steady keyed
  have done := runAll_of_steady stateless (fresh.truthful outcome) alone steady
  obtain ⟨ds, run⟩ := runs_runAll partner (d.runsOf event settings isPrivate subscriptions) w []
  rw [runsOf_uncached] at done
  rw [List.flatMap_def]
  exact ⟨ds, _, .handled runs run done⟩

theorem result_of_handles (stateless : partner.IsStateless) (keyed : d.Keyed partner outcome)
    (history : d.History partner w) (read : Subscription.ofSettings (.obj settings) = .ok subscriptions)
    {ds : List (Nat × Deed)} {result : Except Fault (List StepResult)} {w' : World}
    (h : d.Handles partner (.obj event) (.obj settings) (.arr (isPrivate.map .str)) w ds result w') :
    result = .ok (subscriptions.flatMap
        (d.ownResults partner event (Settings.withoutSubscriptions settings) isPrivate)) ∧
      d.History partner w' := by
  have runs := onEvent_eq d event settings isPrivate
  rw [read] at runs
  cases h with
  | refused h =>
    rw [runs] at h
    cases h
  | handled h run done =>
    rw [runs] at h
    cases h
    refine ⟨?_, history.ran (fun strand hs => ?_) run⟩
    · rw [isDone_of_runs stateless keyed history run done, List.flatMap_def]
    · obtain ⟨s, _, rfl⟩ := List.mem_map.mp hs
      exact ⟨_, _, _, s, rfl⟩

end

/-- What a subscription comes to by itself: there are settings that differ only in that it is left alone, and
under such settings a new destination handles the event, always with these results. -/
structure ByItself (d : Destination) (partner : Partner) (event rest : Members Json) (isPrivate : List String)
    (s : Subscription) (g : List StepResult) : Prop where
  settings : ∃ alone, Subscription.ofSettings (.obj alone) = .ok [s] ∧ Settings.withoutSubscriptions alone = rest
  results : ∀ alone, Subscription.ofSettings (.obj alone) = .ok [s] →
    Settings.withoutSubscriptions alone = rest → ∀ w, d.IsFresh w →
      (∃ ds w', d.Handles partner (.obj event) (.obj alone) (.arr (isPrivate.map .str)) w ds (.ok g) w') ∧
      ∀ ds result w', d.Handles partner (.obj event) (.obj alone) (.arr (isPrivate.map .str)) w ds result w' →
        result = .ok g

/-- **Subscriptions do not influence each other**, where the partner is stateless and the outcome of a cached
request depends on the text of its key alone.  For an event, the other settings and the private names, each
subscription has results of its own, in which no cache has a part: those that it comes to by itself on a new
destination.  Whatever subscriptions the settings hold, whatever events the destination has had before, and
however the subscriptions take turns, one that comes to its end comes to these, and when all do, the results
of the event are theirs one after the other.  If what is kept is kept for lifetimes, and nothing is under way
at the start, then after any turns all can still come to their end. -/
theorem onEvent_independent (stateless : partner.IsStateless) (keyed : d.Keyed partner outcome)
    (event rest : Members Json) (isPrivate : List String) (settings : Members Json)
    (subscriptions : List Subscription) (others : Settings.withoutSubscriptions settings = rest)
    (read : Subscription.ofSettings (.obj settings) = .ok subscriptions) :
    (∀ s ∈ subscriptions,
      d.ByItself partner event rest isPrivate s (d.ownResults partner event rest isPrivate s)) ∧
    ∃ strands, d.onEvent (.obj event) (.obj settings) (.arr (isPrivate.map .str)) = .ok strands ∧
      ∀ w, d.History partner w →
        (∀ ds t, Runs partner ⟨w, strands⟩ ds t → ∀ (k : Nat) s g, subscriptions[k]? = some s →
          t.strands[k]? = some (.done g) → g = d.ownResults partner event rest isPrivate s) ∧
        (∀ ds result w',
          d.Handles partner (.obj event) (.obj settings) (.arr (isPrivate.map .str)) w ds result w' →
          result = .ok (subscriptions.flatMap (d.ownResults partner event rest isPrivate)) ∧
            d.History partner w') ∧
        (d.HasLifetimes → w.IsQuiet → ∀ ds t, Runs partner ⟨w, strands⟩ ds t →
          ∃ es u, Runs partner t es u ∧
            u.IsDone (subscriptions.map (d.ownResults partner event rest isPrivate))) := by
  subst others
  refine ⟨fun s hs => ⟨Subscription.exists_alone read hs, fun alone single same w fresh => ?_⟩, ?_⟩
  · rw [← same, ← List.append_nil (d.ownResults ..)]
    exact ⟨handles_of_fresh stateless keyed fresh single, fun ds result w' h =>
      (result_of_handles stateless keyed (.fresh fresh) single h).1⟩
  · have runs := onEvent_eq d event settings isPrivate
    rw [read] at runs
    refine ⟨_, runs, fun w history => ⟨fun ds t run k s g hs done => ?_, fun ds result w' h => ?_,
      fun lifetimes quiet ds t run => ?_⟩⟩
    · exact results_of_runs stateless keyed history run hs done
    · exact result_of_handles stateless keyed history read h
    · have orderly : Orderly (fun _ => True) t :=
        (orderly_of_quiet quiet (runsOf_orderly lifetimes subscriptions)).runs run
      obtain ⟨es, u, groups, more, done⟩ := orderly.finishes partner
      rw [isDone_of_runs stateless keyed history (run.trans more) done] at done
      exact ⟨es, u, more, done⟩

/-- Two subscriptions that look up the same key. -/
theorem onEvent_independent_sharedLookup :
    let lookUp (b : Builder) : Except Fault Builder := b.cachedRequest (.int 60) (fun i => .ok i.payload)
      (fun i => .give (.str i.payload.display)) (.str "contact")
    let definition : Definition := ⟨"Example", "example", none, [],
      [("send", .built fun b => (lookUp b).map fun b => b.request (fun i => .give (i.getD "contact" .null)) "send")],
      []⟩
    let item : Json := .obj [("partnerAction", .str "send"), ("subscribe", .obj [("type", .str "all")])]
    let settings : Members Json := [("subscriptions", .arr [item, item])]
    let partner : Partner := fun _ _ => .error .credentials
    let w : World := World.start (Binary64.zero false)
    let own : List StepResult := [.said "No mappings", .of (.str "\x7b\x7d"), .of (.str "\x7b\x7d")]
    ∃ d, Destination.ofDefinition definition Setup.usual = .ok d ∧
      (∃ ds w', d.Handles partner (.obj []) (.obj settings) (.arr []) w ds (.ok (own ++ own)) w') ∧
      ∀ ds result w', d.Handles partner (.obj []) (.obj settings) (.arr []) w ds result w' →
        result = .ok (own ++ own) := by
  intro lookUp definition item settings partner w own
  let s : Subscription := ⟨"send", .all, .obj [("type", .str "all")], none, "", true⟩
  have read : Subscription.ofSettings (.obj settings) = .ok [s, s] := by with_unfolding_all rfl
  obtain ⟨d, hd⟩ : ∃ d, Destination.ofDefinition definition Setup.usual = .ok d := ⟨_, rfl⟩
  have actions : ∀ slug a, d.action slug = .ok a → slug = "send" ∧ a.slug = "send" ∧
      a.steps = [.mapInput, .cached (.int 60) (fun i => .ok i.payload) (fun i => .give (.str i.payload.display))
        "contact", .request "send" fun i => .give (i.getD "contact" .null)] := by
    cases hd
    intro slug a found
    unfold Destination.action at found
    split at found
    · next h =>
      cases found
      cases List.mem_singleton.mp (Members.mem_of_get?_eq_some h)
      exact ⟨rfl, rfl, rfl⟩
    · cases found
  have stateless : partner.IsStateless := fun _ _ => rfl
  have keyed : ∃ outcome, d.Keyed partner outcome := by
    refine exists_keyed (fun slug a found => ?_) fun slug a found n ttl key value field hs => ?_
    · obtain ⟨rfl, named, _⟩ := actions slug a found
      exact named
    · refine ⟨fun text => .ok (.str text), fun i k o hk _ _ => ?_⟩
      rw [(actions slug a found).2.2] at hs
      rcases n with _ | _ | _ | n
      · cases hs
      · cases hs
        cases hk
        rfl
      · cases hs
      · cases hs
  obtain ⟨outcome, keyed⟩ := keyed
  have fresh : d.IsFresh w := fun _ _ => rfl
  obtain ⟨_, strands, _, among⟩ :=
    onEvent_independent stateless keyed [] [] [] settings [s, s] (by rfl) read
  obtain ⟨_, handled, _⟩ := among w (.fresh fresh)
  have alone : d.ownResults partner [] [] [] s = own := by
    cases hd
    rfl
  have both : [s, s].flatMap (d.ownResults partner [] [] []) = own ++ own := by
    rw [List.flatMap_cons, List.flatMap_singleton, alone]
  have handles : ∃ ds w', d.Handles partner (.obj []) (.obj settings) (.arr (([] : List String).map .str)) w ds
      (.ok ([s, s].flatMap (d.ownResults partner [] [] []))) w' := handles_of_fresh stateless keyed fresh read
  rw [← both]
  exact ⟨d, hd, handles, fun ds result w' h => (handled ds result w' h).1⟩

end Destination

end EventRouting
