import Mathlib.Data.List.Forall2
import EventRouting.Proofs.Subscription.FailClosed

/-!
# Subscriptions written and read again

* `Subscription.Describes`              what an object has to say of a subscription, under either name of a member
* `Subscription.IsDescription`          a value that is such an object
* `Subscription.ofJson_eq_ok_iff`, `Subscription.parseAll_arr_iff`   what is read is what is described
* `Subscription.IsDescription.toJson`   what is written of a subscription describes it
* `Subscription.parseAll_toJson`        subscriptions are read again as they were, and want the same events
-/

namespace EventRouting.Subscription

/-- What an object says of a subscription: its members, each under the name that stands first if both are
there, and what is usual where one is left out. -/
structure Describes (members : Members Json) (s : Subscription) : Prop where
  frame : Framed members s.action s.subscribe s.mapping s.enabled
  predicate : Predicate.parse s.subscribe = .ok s.predicate
  name : ((members.get? "name").getD (.str "")).display = s.name

def IsDescription (v : Json) (s : Subscription) : Prop := ∃ members, v = .obj members ∧ Describes members s

/-! ## reading -/

/-- An object is read as a subscription exactly if it describes it, whatever the index is. -/
theorem ofJson_eq_ok_iff {index : Nat} {v : Json} {s : Subscription} : ofJson index v = .ok s ↔ IsDescription v s := by
  constructor
  · intro h
    match v with
    | .obj members =>
      obtain ⟨action, ha, h⟩ := exists_of_bind_eq_ok h
      obtain ⟨subscribe, hs, h⟩ := exists_of_bind_eq_ok h
      obtain ⟨mapping, hm, h⟩ := exists_of_bind_eq_ok h
      obtain ⟨enabled, he, h⟩ := exists_of_bind_eq_ok h
      obtain ⟨p, hp, h⟩ := exists_of_bind_eq_ok h
      cases h
      -- none of the four readers has a clash of its own
      have frame : Framed members action subscribe mapping enabled :=
        ⟨(actionOf_closed index : Closed _ _ False _).good_of_ok ha,
          (subscribeOf_closed index : Closed _ _ False _).good_of_ok hs,
          (mappingOf_closed index : Closed _ _ False _).good_of_ok hm,
          (enabledOf_closed index : Closed _ _ False _).good_of_ok he⟩
      exact ⟨members, rfl, frame, hp, rfl⟩
    | .null | .bool _ | .num _ | .str _ | .arr _ => cases h
  · rintro ⟨members, rfl, frame, hp, hn⟩
    rw [frame.ofJson, hp, hn]
    rfl

theorem ofItems_eq_ok_iff {index : Nat} {items : List Json} {ss : List Subscription} :
    ofItems index items = .ok ss ↔ List.Forall₂ IsDescription items ss := by
  induction items generalizing index ss with
  | nil =>
    rw [ofItems, List.forall₂_nil_left_iff]
    exact ⟨fun h => (Except.ok.inj h).symm, fun h => h ▸ rfl⟩
  | cons v rest ih =>
    rw [ofItems_itemwise.cons, List.forall₂_cons_left_iff]
    constructor
    · intro h
      obtain ⟨s, hs, h⟩ := exists_of_bind_eq_ok h
      obtain ⟨more, hm, h⟩ := exists_of_bind_eq_ok h
      exact ⟨s, more, ofJson_eq_ok_iff.mp hs, ih.mp hm, (Except.ok.inj h).symm⟩
    · rintro ⟨s, more, hs, hm, rfl⟩
      rw [ofJson_eq_ok_iff.mpr hs, ih.mpr hm]
      rfl

/-- **A list is read item by item**, each as the subscription that it tells of. -/
theorem parseAll_arr_iff {items : List Json} {ss : List Subscription} :
    parseAll (.arr items) = .ok ss ↔ List.Forall₂ IsDescription items ss := ofItems_eq_ok_iff

/-! ## writing -/

theorem exists_members (s : Subscription) : ∃ members : Members Json, s.toJson = .obj members ∧
    members.get? "partnerAction" = some (.str s.action) ∧ members.get? "subscribe" = some s.subscribe ∧
    members.get? "enabled" = some (.bool s.enabled) ∧
    members.get? "name" = (if s.name.isEmpty then none else some (.str s.name)) ∧
    members.get? "mapping" = s.mapping.map .obj := by
  refine ⟨_, rfl, rfl, rfl, rfl, ?_, ?_⟩
  · rw [Members.get?_append, Members.get?_append]
    cases s.name.isEmpty <;> cases s.mapping <;> rfl
  · rw [Members.get?_append, Members.get?_append]
    cases s.name.isEmpty <;> cases s.mapping <;> rfl

/-- **What is written** of a subscription describes it. -/
theorem IsDescription.toJson {v : Json} {s : Subscription} (h : IsDescription v s) : IsDescription s.toJson s := by
  obtain ⟨_, _, frame, predicate, _⟩ := h
  obtain ⟨members, written, action, subscribe, enabled, name, mapping⟩ := s.exists_members
  refine ⟨members, written, ⟨⟨?_, frame.hasAction.nonempty⟩, ⟨?_, frame.hasSubscribe.present⟩, ?_,
    .given enabled⟩, predicate, ?_⟩
  · rw [either, action]
  · rw [either, subscribe]
  · cases hm : s.mapping with
    | none =>
      rw [hm] at mapping
      exact .absent mapping
    | some ms =>
      rw [hm] at mapping
      exact .object mapping
  · rw [name]
    by_cases empty : s.name.isEmpty
    · rw [if_pos empty]
      exact (String.isEmpty_iff.mp empty).symm
    · rw [if_neg empty]
      rfl

theorem IsDescription.wants {v : Json} {s : Subscription} (h : IsDescription v s) (event : Json) :
    s.wants event =
      if s.enabled then (Predicate.parse s.subscribe).bind fun p => p.accepts event else .ok false := by
  obtain ⟨_, _, _, predicate, _⟩ := h
  rw [predicate]
  rfl

/-- **Subscriptions survive being written.**  A list that is read has one subscription for each item, in order, and
each is what its item describes, whichever names it uses and whatever it leaves out.  The list of what is written of
them is read as the same subscriptions again.  One that is not enabled wants no event; any other one wants what
the predicate written under `subscribe` accepts. -/
theorem parseAll_toJson {items : List Json} {ss : List Subscription} (h : parseAll (.arr items) = .ok ss) :
    List.Forall₂ IsDescription items ss ∧ parseAll (.arr (ss.map toJson)) = .ok ss ∧
      ∀ s ∈ ss, ∃ source, s.toJson.member? "subscribe" = some source ∧ ∀ event, s.wants event =
        if s.enabled then (Predicate.parse source).bind fun p => p.accepts event else .ok false := by
  have described := parseAll_arr_iff.mp h
  have each : ∀ s ∈ ss, ∃ v, IsDescription v s := fun s hs => by
    obtain ⟨n, hn, rfl⟩ := List.getElem_of_mem hs
    have here : n < items.length := described.length_eq ▸ hn
    exact ⟨items[n], described.get here hn⟩
  refine ⟨described, ?_, fun s hs => ?_⟩
  · rw [parseAll_arr_iff, List.forall₂_map_left_iff, List.forall₂_same]
    intro s hs
    obtain ⟨v, hv⟩ := each s hs
    exact hv.toJson
  · obtain ⟨v, hv⟩ := each s hs
    obtain ⟨members, written, _, subscribe, _⟩ := s.exists_members
    exact ⟨s.subscribe, by rw [written]; exact subscribe, hv.wants⟩

/-- One item with other names, an empty template and a name that is no text, and one that is not enabled. -/
theorem parseAll_toJson_otherNames :
    let items : List Json :=
      [.obj [("actionSlug", .str "send"), ("predicate", .str "a exists"), ("mapping", .obj []),
        ("name", .int 7), ("enabled", .bool true)],
      .obj [("subscribe", .obj [("type", .str "all")]), ("partnerAction", .str "keep"), ("name", .str ""),
        ("enabled", .bool false)]]
    ∃ first second, parseAll (.arr items) = .ok [first, second] ∧
      parseAll (.arr [first.toJson, second.toJson]) = .ok [first, second] ∧ first.mapping = some [] ∧
      first.name = "7" ∧ ∀ event, second.wants event = .ok false := by
  intro items
  obtain ⟨first, second, read, mapping, name, off⟩ : ∃ first second, parseAll (.arr items) = .ok [first, second] ∧
      first.mapping = some [] ∧ first.name = "7" ∧ second.enabled = false :=
    ⟨_, _, by with_unfolding_all rfl, rfl, by with_unfolding_all rfl, rfl⟩
  obtain ⟨_, again, each⟩ := parseAll_toJson read
  obtain ⟨_, _, wants⟩ := each second (List.mem_cons_of_mem _ List.mem_cons_self)
  refine ⟨first, second, read, again, mapping, name, fun event => ?_⟩
  rw [wants, off]
  rfl

end EventRouting.Subscription
