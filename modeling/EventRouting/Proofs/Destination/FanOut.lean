import EventRouting.Proofs.Destination.Story

/-!
# Fan-out

An event goes to all subscriptions at the same time.

* `Destination.Handles`               an event handled in a world, the subscriptions taking turns in any order
* `Destination.HasLifetimes`          the values that a destination keeps have lifetimes
* `Destination.onEvent_eq`            the runs of an event, one for each subscription
* `Destination.SubscriptionOutcome`   what is known of a subscription with its results and its record
* `Destination.onEvent_fanOut`        each subscription has its results and its record, whatever the others do
-/

namespace EventRouting.Destination

open Together

/-- An event handled in a world: what is done, by which subscription, what comes of it, and the world after
it.  The results are those of the subscriptions, in their order. -/
inductive Handles (d : Destination) (partner : Partner) (event settings isPrivate : Json) (w : World) :
    List (Nat × Deed) → Except Fault (List StepResult) → World → Prop where
  | refused {f : Fault} (h : d.onEvent event settings isPrivate = .error f) :
      Handles d partner event settings isPrivate w [] (.error f) w
  | handled {strands : List (Strand (List StepResult))} {ds : List (Nat × Deed)}
      {t : Together (List StepResult)} {groups : List (List StepResult)}
      (h : d.onEvent event settings isPrivate = .ok strands) (run : Runs partner ⟨w, strands⟩ ds t)
      (done : t.IsDone groups) :
      Handles d partner event settings isPrivate w ds (.ok groups.flatten) t.world

/-- the values that a destination keeps have lifetimes: floats, or integers in the range of floats -/
def HasLifetimes (d : Destination) : Prop :=
  ∀ slug a, d.action slug = .ok a → ∀ s ∈ a.steps, s.HasLifetime Cache.IsLifetime

variable {d : Destination} {event settings : Members Json} {isPrivate : List String}

def runsOf (d : Destination) (event settings : Members Json) (isPrivate : List String)
    (subscriptions : List Subscription) : List (Strand (List StepResult)) :=
  subscriptions.map fun s => d.onSubscription (.obj event) (d.privateKeys isPrivate)
    (invocation event (Settings.withoutSubscriptions settings) s) s

theorem onEvent_eq (d : Destination) (event settings : Members Json) (isPrivate : List String) :
    d.onEvent (.obj event) (.obj settings) (.arr (isPrivate.map .str)) =
      (Subscription.ofSettings (.obj settings)).map (d.runsOf event settings isPrivate) := by
  have same : (if (Json.obj settings).isTruthy then Json.obj settings else .obj []) = .obj settings := by
    cases settings with
    | nil => rfl
    | cons m rest => rfl
  unfold onEvent
  dsimp only
  rw [same, Json.names_strings]
  cases Subscription.ofSettings (.obj settings) with
  | error f => rfl
  | ok subscriptions =>
    cases subscriptions with
    | nil => rfl
    | cons s rest => rfl

/-- The run of a subscription is orderly where its destination keeps values for a lifetime. -/
theorem onSubscription_orderly (hl : d.HasLifetimes) (event : Json) (isPrivate : List String) (i : Invocation)
    (s : Subscription) :
    (d.onSubscription event isPrivate i s).Orderly Cache.IsLifetime (fun _ => True) .free := by
  have recorded : ∀ j results, (d.recorded s isPrivate j results).Orderly Cache.IsLifetime (fun _ => True) .free :=
    fun j results => .record trivial fun _ => .done _
  unfold onSubscription
  split
  · exact .done _
  · exact recorded ..
  · refine Strand.Orderly.bind ?_ fun r => recorded r.1 r.2
    unfold attempt
    split
    · exact .done _
    · next a found =>
      refine Strand.Orderly.bind (Action.executeFrom_orderly (hl _ a found) ..) fun r => ?_
      obtain ⟨j, outcome⟩ := r
      cases outcome with
      | ok results => exact .done _
      | error f => exact .done _

/-- what is known of a subscription with its results and its record -/
structure SubscriptionOutcome (d : Destination) (event settings : Members Json) (isPrivate : List String)
    (s : Subscription) (ds : List Deed) (g : List StepResult) (r : Option Record) : Prop where
  story : d.Story (.obj event) (d.privateKeys isPrivate)
    (invocation event (Settings.withoutSubscriptions settings) s) s ds g r
  skipped : g = [.notSubscribed] ↔ s.enabled = false ∨ s.predicate.accepts (.obj event) = .ok false
  unrecorded : r = none ↔ g = [.notSubscribed]
  record : ∀ rec, r = some rec → rec.destination = d.name ∧ rec.action = s.action ∧ rec.output = g
  results : g = [.notSubscribed] ∨ (∃ f, g = [.failed f]) ∨
    ∃ a, d.action s.action = .ok a ∧ g.length = a.steps.length ∧ ∀ result ∈ g, result.isOk = true

section run

variable {definition : Definition} {setup : Setup} {partner : Partner} {subscriptions : List Subscription}
  {w : World} {ds : List (Nat × Deed)} {t : Together (List StepResult)} {groups : List (List StepResult)}

/-- **One subscription among others**: its own deeds are those of its story. -/
theorem outcome_of_runs (hd : Destination.ofDefinition definition setup = .ok d)
    (run : Runs partner ⟨w, d.runsOf event settings isPrivate subscriptions⟩ ds t)
    (done : t.IsDone groups) {k : Nat} {s : Subscription} (hs : subscriptions[k]? = some s) :
    ∃ g r, groups[k]? = some g ∧ SubscriptionOutcome d event settings isPrivate s (deedsOf k ds) g r ∧
      (deedsOf k ds).filterMap Deed.record? = r.toList := by
  have start : (d.runsOf event settings isPrivate subscriptions)[k]? = some (d.onSubscription (.obj event)
      (d.privateKeys isPrivate) (invocation event (Settings.withoutSubscriptions settings) s) s) := by
    unfold runsOf
    rw [List.getElem?_map, hs]
    rfl
  obtain ⟨s', hend, hf⟩ := run.follows start
  rw [show t.strands = groups.map .done from done, List.getElem?_map] at hend
  obtain ⟨g, hg, rfl⟩ := Option.map_eq_some_iff.mp hend
  obtain ⟨r, story, written⟩ := story_of_follows hf
  have skipped := story.skipped_iff hd
  refine ⟨g, r, hg, ⟨story, skipped.trans wants_eq_false_iff, ?_, ?_, story.results⟩, written⟩
  · rw [story.record_eq_none_iff, skipped]
  · rintro rec rfl
    obtain ⟨j, rfl⟩ := story.record_of_some
    exact ⟨rfl, rfl, rfl⟩

theorem length_groups (run : Runs partner ⟨w, d.runsOf event settings isPrivate subscriptions⟩ ds t)
    (done : t.IsDone groups) : groups.length = subscriptions.length := by
  have h := run.length
  rw [show t.strands = groups.map .done from done, List.length_map] at h
  rw [h]
  exact List.length_map ..

/-- **All subscriptions**, each with its story, and what has been written down by all of them. -/
theorem outcomes_of_handled (hd : Destination.ofDefinition definition setup = .ok d)
    (run : Runs partner ⟨w, d.runsOf event settings isPrivate subscriptions⟩ ds t)
    (done : t.IsDone groups) :
    ∃ records : List (Option Record), records.length = subscriptions.length ∧
      (∀ (k : Nat) s, subscriptions[k]? = some s → ∃ g r, groups[k]? = some g ∧ records[k]? = some r ∧
        SubscriptionOutcome d event settings isPrivate s (deedsOf k ds) g r) ∧
      ∃ added, t.world.records = w.records ++ added ∧ added.Perm (records.filterMap id) := by
  let recordOf : Nat → Option Record := fun k => ((deedsOf k ds).filterMap Deed.record?).head?
  refine ⟨(List.range subscriptions.length).map recordOf, by simp, fun k s hs => ?_, _, run.records, ?_⟩
  · obtain ⟨g, r, hg, outcome, written⟩ := outcome_of_runs hd run done hs
    refine ⟨g, r, hg, ?_, outcome⟩
    have hk : k < subscriptions.length := (List.getElem?_eq_some_iff.mp hs).1
    rw [List.getElem?_map, List.getElem?_range hk]
    show some (((deedsOf k ds).filterMap Deed.record?).head?) = some r
    rw [written]
    cases r <;> rfl
  · have within : ∀ e ∈ ds, e.1 < subscriptions.length := by
      intro e he
      have h := run.within e he
      unfold runsOf at h
      rwa [List.length_map] at h
    have sorted : ((List.range subscriptions.length).flatMap fun k =>
        (deedsOf k ds).filterMap Deed.record?) =
          ((List.range subscriptions.length).map recordOf).filterMap id := by
      rw [List.filterMap_map, List.filterMap_eq_flatMap_toList, List.flatMap_def, List.flatMap_def]
      congr 1
      refine List.map_congr_left fun k hk => ?_
      have hs := List.getElem?_eq_getElem (List.mem_range.mp hk)
      obtain ⟨_, r, _, _, written⟩ := outcome_of_runs hd run done hs
      show _ = (((deedsOf k ds).filterMap Deed.record?).head?).toList
      rw [written]
      cases r <;> rfl
    rw [← sorted]
    exact perm_deedsOf Deed.record? within

end run

/-! ## all together -/

theorem runsOf_orderly (hl : d.HasLifetimes) (subscriptions : List Subscription) :
    ∀ s ∈ d.runsOf event settings isPrivate subscriptions,
      s.Orderly Cache.IsLifetime (fun _ => True) .free := by
  intro strand h
  obtain ⟨s, _, rfl⟩ := List.mem_map.mp h
  exact onSubscription_orderly hl ..

/-- **Fan-out**, for any event and settings that are objects, and any private names.  Settings whose
subscriptions cannot be read are refused: nothing is done and the world stays as it is.  Otherwise the event
never fails.  However the subscriptions take turns, the results are theirs, in their order: of each the one
result that it was passed over, exactly if it does not want the event, the one result that it failed, or one
result for each step; and each that was not passed over is written down once, with its results.  If what is
kept is kept for lifetimes, and nothing is under way at the start, then no order of turns goes on for ever,
and none gets stuck before all subscriptions have come to their end.  Any float is a lifetime, and any integer in
the range of floats.  With a larger integer, or what is no number, the call that leads a flight fails and the
flight is never landed, so that those who wait for it would be stuck. -/
theorem onEvent_fanOut {definition : Definition} {setup : Setup} {d : Destination}
    (hd : Destination.ofDefinition definition setup = .ok d) (event settings : Members Json)
    (isPrivate : List String) (partner : Partner) (w : World) :
    (∀ f, Subscription.ofSettings (.obj settings) = .error f → ∀ ds result w',
      d.Handles partner (.obj event) (.obj settings) (.arr (isPrivate.map .str)) w ds result w' ↔
        ds = [] ∧ result = .error f ∧ w' = w) ∧
    ∀ subscriptions, Subscription.ofSettings (.obj settings) = .ok subscriptions →
      (∀ ds result w',
        d.Handles partner (.obj event) (.obj settings) (.arr (isPrivate.map .str)) w ds result w' →
        ∃ (groups : List (List StepResult)) (records : List (Option Record)),
          result = .ok groups.flatten ∧ groups.length = subscriptions.length ∧
          records.length = subscriptions.length ∧
          (∀ (k : Nat) s, subscriptions[k]? = some s → ∃ g r, groups[k]? = some g ∧ records[k]? = some r ∧
            SubscriptionOutcome d event settings isPrivate s (deedsOf k ds) g r) ∧
          ∃ added, w'.records = w.records ++ added ∧ added.Perm (records.filterMap id)) ∧
      (d.HasLifetimes → w.IsQuiet → ∃ strands,
        d.onEvent (.obj event) (.obj settings) (.arr (isPrivate.map .str)) = .ok strands ∧
        (∀ states : Nat → Together (List StepResult), states 0 = ⟨w, strands⟩ →
          ¬ ∀ n, ∃ i deed, Turn partner i deed (states n) (states (n + 1))) ∧
        ∀ ds t, Runs partner ⟨w, strands⟩ ds t →
          (∃ groups, t.IsDone groups ∧ t.world.IsQuiet) ∨ ∃ i deed u, Turn partner i deed t u) := by
  have runs := onEvent_eq d event settings isPrivate
  refine ⟨fun f hf ds result w' => ?_, fun subscriptions hs => ⟨fun ds result w' h => ?_, fun hl hw => ?_⟩⟩
  · rw [hf] at runs
    constructor
    · intro h
      cases h with
      | refused h =>
        rw [runs] at h
        cases h
        exact ⟨rfl, rfl, rfl⟩
      | handled h =>
        rw [runs] at h
        cases h
    · rintro ⟨rfl, rfl, rfl⟩
      exact .refused runs
  · rw [hs] at runs
    cases h with
    | refused h =>
      rw [runs] at h
      cases h
    | @handled strands _ t groups h run done =>
      rw [runs] at h
      cases h
      obtain ⟨records, length, outcome, added⟩ := outcomes_of_handled hd run done
      exact ⟨groups, records, rfl, length_groups run done, length, outcome, added⟩
  · rw [hs] at runs
    refine ⟨_, runs, fun states _ => no_endless_run states, fun ds t run => ?_⟩
    have orderly : Orderly (fun _ => True) t :=
      (orderly_of_quiet hw (runsOf_orderly hl subscriptions)).runs run
    rcases orderly.progress partner with ⟨groups, done⟩ | turn
    · exact .inl ⟨groups, done, orderly.quiet done⟩
    · exact .inr turn

/-- One subscription that gives a value, and one that is not enabled; and settings that cannot be read. -/
theorem onEvent_fanOut_sentAndSkipped :
    let definition : Definition := ⟨"Example", "example", none, [],
      [("send", .built fun b => .ok (b.request (fun _ => .give (.int 1)) "send"))], []⟩
    let subscription (enabled : Bool) : Json := .obj [("partnerAction", .str "send"),
      ("subscribe", .obj [("type", .str "all")]), ("enabled", .bool enabled)]
    let settings : Members Json := [("subscriptions", .arr [subscription true, subscription false])]
    let partner : Partner := fun _ _ => .error .credentials
    let w : World := World.start (Binary64.zero false)
    ∃ d, Destination.ofDefinition definition Setup.usual = .ok d ∧
      (∀ ds result w', d.Handles partner (.obj []) (.obj [("subscriptions", .int 1)]) (.arr []) w ds result w' →
        w' = w) ∧
      (∃ ds result w', d.Handles partner (.obj []) (.obj settings) (.arr []) w ds result w' ∧
        ∃ groups : List (List StepResult), result = .ok groups.flatten ∧ groups.length = 2) ∧
      ∃ strands, d.onEvent (.obj []) (.obj settings) (.arr []) = .ok strands ∧
        ∀ ds t, Runs partner ⟨w, strands⟩ ds t →
          (∃ groups, t.IsDone groups ∧ t.world.IsQuiet) ∨ ∃ i deed u, Turn partner i deed t u := by
  intro definition subscription settings partner w
  obtain ⟨d, hd⟩ : ∃ d, Destination.ofDefinition definition Setup.usual = .ok d := ⟨_, rfl⟩
  have refused : Subscription.ofSettings (.obj [("subscriptions", .int 1)]) = .error _ := rfl
  obtain ⟨a, b, read⟩ : ∃ a b, Subscription.ofSettings (.obj settings) = .ok [a, b] := ⟨_, _, by with_unfolding_all rfl⟩
  have lifetimes : d.HasLifetimes := by
    cases hd
    intro slug action found s hs
    unfold Destination.action at found
    split at found
    · next h =>
      cases found
      have hm := List.mem_singleton.mp (Members.mem_of_get?_eq_some h)
      cases hm
      rcases List.mem_cons.mp hs with rfl | hs
      · trivial
      · rcases List.mem_cons.mp hs with rfl | hs
        · trivial
        · cases hs
    · cases found
  have quiet : w.IsQuiet := World.isQuiet_start _
  obtain ⟨refusing, _⟩ := onEvent_fanOut hd [] [("subscriptions", .int 1)] [] partner w
  obtain ⟨outcome, goesOn⟩ := (onEvent_fanOut hd [] settings [] partner w).2 [a, b] read
  obtain ⟨strands, runs, _, progress⟩ := goesOn lifetimes quiet
  have orderly : Orderly (fun _ => True) ⟨w, strands⟩ := by
    have same := onEvent_eq d [] settings []
    rw [read] at same
    cases runs.symm.trans same
    exact orderly_of_quiet quiet (runsOf_orderly lifetimes [a, b])
  obtain ⟨ds, t, groups, run, done⟩ := orderly.finishes partner
  have handled : d.Handles partner (.obj []) (.obj settings) (.arr []) w ds _ t.world := .handled runs run done
  obtain ⟨groups, records, result, length, _⟩ := outcome _ _ _ handled
  exact ⟨d, hd, fun ds result w' h => ((refusing _ refused ds result w').mp h).2.2,
    ⟨ds, _, _, handled, groups, result, length⟩, strands, runs, progress⟩

end EventRouting.Destination
