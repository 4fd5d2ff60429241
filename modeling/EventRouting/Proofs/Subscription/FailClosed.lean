import EventRouting.Proofs.Predicate.Clash
import EventRouting.Subscription

/-!
# Subscriptions that cannot be read

* `Subscription.Framed`        an object with everything of a subscription but a predicate that is read
* `Subscription.Clash`, `Subscription.Clashes`   a subscription, and a list of them, whose reading comes to a clash
* `Subscription.ofJson_closed`, `Subscription.ofItems_itemwise`, `Subscription.parseAll_refuses`
* `Subscription.failClosed`    reading fails with its own faults, but for the clashes
-/

namespace EventRouting.Subscription

def IsUnreadable (e : Fault) : Prop :=
  (∃ text status, e = .subscriptionParse text status) ∨ Predicate.IsUnreadable e

/-- the same faults as reading tells them, none of which has a status of its own -/
def IsRefusal (e : Fault) : Prop := (∃ text, e = .subscriptionParse text none) ∨ Predicate.IsUnreadable e

theorem IsRefusal.isUnreadable {e : Fault} (h : IsRefusal e) : IsUnreadable e :=
  h.imp_left fun ⟨text, told⟩ => ⟨text, none, told⟩

structure HasAction (members : Members Json) (action : String) : Prop where
  given : either members "partnerAction" "actionSlug" = .str action
  nonempty : action ≠ ""

structure HasSubscribe (members : Members Json) (subscribe : Json) : Prop where
  given : either members "subscribe" "predicate" = subscribe
  present : subscribe ≠ .null

inductive HasMapping (members : Members Json) : Option (Members Json) → Prop where
  | absent (h : members.get? "mapping" = none) : HasMapping members none
  | null (h : members.get? "mapping" = some .null) : HasMapping members none
  | object {ms : Members Json} (h : members.get? "mapping" = some (.obj ms)) : HasMapping members (some ms)

inductive HasEnabled (members : Members Json) : Bool → Prop where
  | absent (h : members.get? "enabled" = none) : HasEnabled members true
  | given {b : Bool} (h : members.get? "enabled" = some (.bool b)) : HasEnabled members b

/-- An object with everything of a subscription, whatever its predicate is. -/
structure Framed (members : Members Json) (action : String) (subscribe : Json)
    (mapping : Option (Members Json)) (enabled : Bool) : Prop where
  hasAction : HasAction members action
  hasSubscribe : HasSubscribe members subscribe
  hasMapping : HasMapping members mapping
  hasEnabled : HasEnabled members enabled

/-- A subscription but for its predicate, which clashes. -/
inductive Clash : Json → Prop where
  | mk {members : Members Json} {action : String} {subscribe : Json} {mapping : Option (Members Json)}
      {enabled : Bool} (frame : Framed members action subscribe mapping enabled)
      (h : Predicate.Clashes subscribe) : Clash (.obj members)

/-- the items of a list of subscriptions, or of a document of one -/
inductive Listed : Json → List Json → Prop where
  | list (items : List Json) : Listed (.arr items) items
  | document {text : String} {items : List Json} (h : Json.read text = .ok (.arr items)) :
      Listed (.str text) items

/-- The first item that is no subscription clashes. -/
def Clashes (raw : Json) : Prop :=
  ∃ items, Listed raw items ∧ FirstBad (fun v => ∃ s, ofJson 0 v = .ok s) Clash items

/-! ## one subscription -/

theorem isRefusal_faultAt (index : Nat) (text : String) : IsRefusal (faultAt index text) := .inl ⟨_, rfl⟩

section

variable {members : Members Json} {clash : Prop} (index : Nat)

theorem actionOf_closed : Closed (HasAction members) IsRefusal clash (actionOf index members) := by
  unfold actionOf
  split
  · next s hs =>
    split
    · exact .fault (isRefusal_faultAt _ _)
    · next hne => exact .ok ⟨hs, fun he => hne (he ▸ rfl)⟩
  · exact .fault (isRefusal_faultAt _ _)

theorem subscribeOf_closed : Closed (HasSubscribe members) IsRefusal clash (subscribeOf index members) := by
  unfold subscribeOf
  split
  · exact .fault (isRefusal_faultAt _ _)
  · next hne => exact .ok ⟨rfl, hne⟩

theorem mappingOf_closed : Closed (HasMapping members) IsRefusal clash (mappingOf index members) := by
  unfold mappingOf
  split
  · next h => exact .ok (.absent h)
  · next h => exact .ok (.null h)
  · next h => exact .ok (.object h)
  · exact .fault (isRefusal_faultAt _ _)

theorem enabledOf_closed : Closed (HasEnabled members) IsRefusal clash (enabledOf index members) := by
  unfold enabledOf
  split
  · next h => exact .ok (.absent h)
  · next h => exact .ok (.given h)
  · exact .fault (isRefusal_faultAt _ _)

/-- Nothing but the predicate is left to read, whatever the index is. -/
theorem Framed.ofJson {action : String} {subscribe : Json} {mapping : Option (Members Json)} {enabled : Bool}
    (h : Framed members action subscribe mapping enabled) :
    ofJson index (.obj members) = (do
      let predicate ← Predicate.parse subscribe
      return ⟨action, predicate, subscribe, mapping, ((members.get? "name").getD (.str "")).display, enabled⟩) := by
  have haction : actionOf index members = .ok action := by
    rw [actionOf, h.hasAction.given]
    exact if_neg (by simpa using h.hasAction.nonempty)
  have hsubscribe : subscribeOf index members = .ok subscribe := by
    rw [subscribeOf, h.hasSubscribe.given]
    split
    · exact absurd rfl h.hasSubscribe.present
    · rfl
  have hmapping : mappingOf index members = .ok mapping := by
    rw [mappingOf]
    cases h.hasMapping with
    | absent hm | null hm | object hm => rw [hm]
  have henabled : enabledOf index members = .ok enabled := by
    rw [enabledOf]
    cases h.hasEnabled with
    | absent he | given he => rw [he]
  rw [Subscription.ofJson, haction, hsubscribe, hmapping, henabled]
  rfl

theorem ofJson_closed (v : Json) :
    Closed (fun s => ∀ j, ofJson j v = .ok s) IsRefusal (Clash v) (ofJson index v) := by
  match v with
  | .obj members =>
    refine (actionOf_closed index).bind fun action ha => ?_
    refine (subscribeOf_closed index).bind fun subscribe hs => ?_
    refine (mappingOf_closed index).bind fun mapping hm => ?_
    refine (enabledOf_closed index).bind fun enabled he => ?_
    have frame : Framed members action subscribe mapping enabled := ⟨ha, hs, hm, he⟩
    have hparse : Closed _ IsRefusal (Clash (.obj members)) (Predicate.parse subscribe) :=
      ((Predicate.parse_closed subscribe).mono (Clash.mk frame)).mono_own fun _ => Or.inr
    refine hparse.bind fun p hp => .ok fun j => ?_
    rw [frame.ofJson, hp]
    rfl
  | .null | .bool _ | .num _ | .str _ | .arr _ => exact .fault (isRefusal_faultAt _ _)

theorem Clash.ofJson {v : Json} (h : Clash v) : ofJson index v = .error .wrongShape := by
  obtain ⟨frame, h⟩ := h
  rw [frame.ofJson, h.parse]
  rfl

end

/-! ## all subscriptions -/

theorem ofItems_itemwise : Itemwise Nat.succ ofJson ofItems where
  nil _ := rfl
  cons i v rest := by
    rw [ofItems]
    cases ofJson i v with
    | error e => rfl
    | ok s => cases ofItems (i + 1) rest <;> rfl

theorem ofList_closed (v : Json) : Closed (fun ss => ofList v = .ok ss) IsRefusal
    (∃ items, v = .arr items ∧ FirstBad (fun v => ∃ s, ofJson 0 v = .ok s) Clash items) (ofList v) := by
  cases v with
  | arr items =>
    have hitems := ofItems_itemwise.closed (fun _ _ hs => hs)
      (fun v (_ : v ∈ items) i => ofJson_closed i v) 0
    refine hitems.result.mono fun ⟨before, item, after, he, read, h⟩ => ?_
    exact ⟨items, rfl, before, item, after, he, fun v hv => (read v hv).imp fun s hs => hs 0, h⟩
  | null | bool | num | str | obj => exact .fault (.inl ⟨_, rfl⟩)

theorem parseAll_refuses (raw : Json) :
    Closed (fun ss => parseAll raw = .ok ss) IsRefusal (Clashes raw) (parseAll raw) := by
  cases raw with
  | null => exact .ok rfl
  | str text =>
    cases hr : Json.read text with
    | error e =>
      rw [parseAll, hr]
      exact .fault (.inl ⟨_, rfl⟩)
    | ok v =>
      have hlist : parseAll (.str text) = ofList v := by simp only [parseAll, hr]
      rw [hlist]
      refine (ofList_closed v).mono ?_
      rintro ⟨items, rfl, h⟩
      exact ⟨items, .document hr, h⟩
  | arr items =>
    refine (ofList_closed (.arr items)).mono ?_
    rintro ⟨_, he, h⟩
    cases he
    exact ⟨_, .list _, h⟩
  | bool | num | obj => exact .fault (.inl ⟨_, rfl⟩)

theorem parseAll_closed (raw : Json) :
    Closed (fun ss => parseAll raw = .ok ss) IsUnreadable (Clashes raw) (parseAll raw) :=
  (parseAll_refuses raw).mono_own fun _ => IsRefusal.isUnreadable

theorem Clashes.parseAll {raw : Json} (h : Clashes raw) : parseAll raw = .error .wrongShape := by
  obtain ⟨items, listed, before, item, after, rfl, read, hitem⟩ := h
  have hitems : ofItems 0 (before ++ item :: after) = .error .wrongShape := by
    refine ofItems_itemwise.wrongShape (fun v hv i => ?_) (fun i => hitem.ofJson i) 0
    obtain ⟨s, hs⟩ := read v hv
    exact ⟨s, (ofJson_closed 0 v).good_of_ok hs i⟩
  cases listed with
  | list => exact hitems
  | document hr =>
    rw [Subscription.parseAll, hr]
    exact hitems

/-! ## failing closed -/

/-- **Reading fails closed, but for what cannot be looked up.**  A value is read as a predicate, or it is
a fault of the predicate, or a list or an object stands where its reading looks a word up; the same holds
of subscriptions, where a fault of a subscription may come first. -/
theorem failClosed (v raw : Json) :
    ((∃ p, Predicate.parse v = .ok p) ∨
        (∃ text position, Predicate.parse v = .error (.predicateParse text position)) ∨
        Predicate.parse v = .error .wrongShape) ∧
      (Predicate.parse v = .error .wrongShape ↔ Predicate.Clashes v) ∧
      ((∃ ss, parseAll raw = .ok ss) ∨ (∃ text status, parseAll raw = .error (.subscriptionParse text status)) ∨
        (∃ text position, parseAll raw = .error (.predicateParse text position)) ∨
        parseAll raw = .error .wrongShape) ∧
      (parseAll raw = .error .wrongShape ↔ Clashes raw) := by
  refine ⟨?_, ?_, ?_, ?_⟩
  · rcases (Predicate.parse_closed v).cases with ⟨p, hp, _⟩ | ⟨e, hp, text, position, rfl⟩ | ⟨hp, _⟩
    · exact .inl ⟨p, hp⟩
    · exact .inr (.inl ⟨text, position, hp⟩)
    · exact .inr (.inr hp)
  · refine (Predicate.parse_closed v).wrongShape_iff ?_ Predicate.Clashes.parse
    rintro ⟨_, _, h⟩
    cases h
  · rcases (parseAll_closed raw).cases with
      ⟨ss, hs, _⟩ | ⟨e, hs, ⟨text, status, rfl⟩ | ⟨text, position, rfl⟩⟩ | ⟨hs, _⟩
    · exact .inl ⟨ss, hs⟩
    · exact .inr (.inl ⟨text, status, hs⟩)
    · exact .inr (.inr (.inl ⟨text, position, hs⟩))
    · exact .inr (.inr (.inr hs))
  · refine (parseAll_closed raw).wrongShape_iff ?_ Clashes.parseAll
    rintro (⟨_, _, h⟩ | ⟨_, _, h⟩)
    · cases h
    · cases h

/-- A list for the type is a fault of neither the predicate nor the subscription with it. -/
theorem failClosed_listForType :
    let v : Json := .obj [("type", .arr [.str "event"])]
    let raw : Json := .arr [.obj [("partnerAction", .str "track"), ("subscribe", v)]]
    ¬ ((∃ p, Predicate.parse v = .ok p) ∨
        ∃ text position, Predicate.parse v = .error (.predicateParse text position)) ∧
      ¬ ((∃ ss, parseAll raw = .ok ss) ∨ (∃ text status, parseAll raw = .error (.subscriptionParse text status)) ∨
        ∃ text position, parseAll raw = .error (.predicateParse text position)) := by
  intro v raw
  have hv : Predicate.Clashes v := .node (.type rfl rfl)
  have frame : Framed [("partnerAction", .str "track"), ("subscribe", v)] "track" v none true :=
    ⟨⟨rfl, by decide⟩, ⟨rfl, Json.noConfusion⟩, .absent rfl, .absent rfl⟩
  have hraw : Clashes raw := ⟨_, .list _, FirstBad.here [] (.mk frame hv)⟩
  rw [hv.parse, hraw.parseAll]
  constructor
  · rintro (⟨_, h⟩ | ⟨_, _, h⟩)
    · cases h
    · cases h
  · rintro (⟨_, h⟩ | ⟨_, _, h⟩ | ⟨_, _, h⟩)
    · cases h
    · cases h
    · cases h

end EventRouting.Subscription
