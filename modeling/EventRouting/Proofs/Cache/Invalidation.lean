import Mathlib.Data.List.Induction
import EventRouting.Proofs.Cache.Freshness

/-!
# What dropping an entry leaves

Dropping what is kept for a key does not stop a computation for the key that is under way: it lands later, and
its value is kept.

* `Cache.Event.Drops`          the events that drop what is kept for a key
* `Cache.Session.Computed`     a computation for a key that has ended with a value
* `Cache.Session.Begun`        a call for a key that has begun
* `Cache.Session.Returns`      what looking finds for a key, or a call that has begun has come to
* `Cache.Session.caller_step`  where a call stands after an event, told by where it stood
* `Cache.Session.Renewed`      every value for a key has been computed since
* `Cache.Session.returns_undone`   a value that was being computed comes back
* `Cache.Session.returns_computed` none comes back that had been computed before
-/

namespace EventRouting.Cache

/-- The events that drop what is kept for a key. -/
def Event.Drops (key : String) (e : Event) : Prop := e = .invalidate key ∨ e = .clear

namespace Session

/-- A call has computed a value for a key, and its computation has ended in the course of the events. -/
def Computed (s : Session) (events : List Event) (key : String) (v : Json) (i : Nat) : Prop :=
  ∃ before after f ttl, events = before ++ .complete i (.ok v) :: after ∧
    (s.run before).callers[i]? = some (.leading key f ttl)

/-- A call for a key has begun in the course of the events. -/
def Begun (s : Session) (events : List Event) (key : String) (j : Nat) : Prop :=
  ∃ before after ttl, events = before ++ .call key ttl :: after ∧ (s.run before).callers.length = j

/-- After the events a value is found for a key, or a call for the key that began in their course has come to
it. -/
def Returns (s : Session) (events : List Event) (key : String) (v : Json) : Prop :=
  (s.run events).cache.get? (s.run events).now key = some v ∨
    ∃ j, Begun s events key j ∧ (s.run events).callers[j]? = some (.finished (.value v))

variable {s : Session} {events : List Event} {key : String} {v : Json}

theorem Computed.snoc {i : Nat} (h : Computed s events key v i) (e : Event) : Computed s (events ++ [e]) key v i := by
  obtain ⟨before, after, f, ttl, rfl, leading⟩ := h
  exact ⟨before, after ++ [e], f, ttl, by rw [List.append_assoc]; rfl, leading⟩

theorem computed_complete {i f : Nat} {ttl : Json} (h : (s.run events).callers[i]? = some (.leading key f ttl))
    (v : Json) : Computed s (events ++ [.complete i (.ok v)]) key v i :=
  ⟨events, [], f, ttl, rfl, h⟩

theorem begun_snoc {e : Event} {j : Nat} (h : Begun s (events ++ [e]) key j) :
    Begun s events key j ∨ (∃ ttl, e = .call key ttl) ∧ (s.run events).callers.length = j := by
  obtain ⟨before, after, ttl, he, length⟩ := h
  rcases List.eq_nil_or_concat after with rfl | ⟨after, last, rfl⟩
  · obtain ⟨rfl, last⟩ := List.append_inj' he rfl
    cases last
    exact .inr ⟨⟨ttl, rfl⟩, length⟩
  · rw [List.concat_eq_append, ← List.cons_append, ← List.append_assoc] at he
    obtain ⟨rfl, -⟩ := List.append_inj' he rfl
    exact .inl ⟨before, after, ttl, rfl, length⟩

/-! ## one event -/

theorem caller_call (s : Session) (key : String) (ttl : Json) :
    ∃ c, (s.call key ttl).callers = s.callers ++ [c] ∧
      ((∃ v, s.cache.get? s.now key = some v ∧ c = .finished (.value v)) ∨
        (∃ f, s.cache.inFlight.get? key = some f ∧ c = .waiting f) ∨ ∃ f, c = .leading key f ttl) := by
  refine ⟨_, call_callers s key ttl, ?_⟩
  cases hv : s.cache.get? s.now key with
  | some v =>
    rw [look_of_get? hv]
    exact .inl ⟨v, rfl, rfl⟩
  | none =>
    obtain ⟨entries, hl⟩ := look_of_get?_none hv
    rw [hl, Cache.board]
    dsimp only
    cases hf : s.cache.inFlight.get? key with
    | some f => exact .inr (.inl ⟨f, rfl, rfl⟩)
    | none => exact .inr (.inr ⟨_, rfl⟩)

theorem caller_setCaller {came : Json → Prop} {i j : Nat} {l : Landing} {c : Caller}
    (h : (s.setCaller i (.finished l)).callers[j]? = some c) (ends : i = j → ∀ v, l = .value v → came v) :
    s.callers[j]? = some c ∨ ∃ l, c = .finished l ∧ ∀ v, l = .value v → came v := by
  by_cases hij : i = j
  · subst hij
    have within : i < s.callers.length := by
      have h := (List.getElem?_eq_some_iff.mp h).1
      rwa [setCaller, List.length_set] at h
    rw [setCaller, List.getElem?_set_self within] at h
    exact .inr ⟨l, (Option.some.inj h).symm, ends rfl⟩
  · rw [getElem?_setCaller_ne hij] at h
    exact .inl h

/-- **One event** and where a call stands after it: where it stood, at its begin, or at its end. -/
theorem caller_step {e : Event} {j : Nat} {c : Caller} (h : (s.step e).callers[j]? = some c) :
    s.callers[j]? = some c ∨
    (∃ key ttl, e = .call key ttl ∧ j = s.callers.length ∧
      ((∃ v, s.cache.get? s.now key = some v ∧ c = .finished (.value v)) ∨
        (∃ f, s.cache.inFlight.get? key = some f ∧ c = .waiting f) ∨ ∃ f, c = .leading key f ttl)) ∨
    ∃ l, c = .finished l ∧ ∀ v, l = .value v →
      (∃ key f ttl, e = .complete j (.ok v) ∧ s.callers[j]? = some (.leading key f ttl)) ∨
        ∃ f, s.callers[j]? = some (.waiting f) ∧ s.cache.landing? f = some (.value v) := by
  cases e with
  | call key ttl =>
    obtain ⟨d, hc, begins⟩ := caller_call s key ttl
    rw [show (s.step (.call key ttl)).callers = s.callers ++ [d] from hc] at h
    rcases getElem?_append_iff.mp h with h | ⟨hj, rfl⟩
    · exact .inl h
    · exact .inr (.inl ⟨key, ttl, rfl, hj, begins⟩)
  | complete i outcome =>
    unfold step at h
    dsimp only at h
    split at h
    · next key f ttl leading =>
      unfold complete at h
      split at h
      · exact (caller_setCaller h (by rintro _ _ ⟨⟩)).imp_right .inr
      · split at h
        · refine (caller_setCaller h ?_).imp_right .inr
          rintro rfl _ ⟨⟩
          exact .inl ⟨key, f, ttl, rfl, leading⟩
        · exact (caller_setCaller h (by rintro _ _ ⟨⟩)).imp_right .inr
    · exact .inl h
  | cancel i =>
    unfold step at h
    dsimp only at h
    split at h
    · exact (caller_setCaller h (by rintro _ _ ⟨⟩)).imp_right .inr
    · exact (caller_setCaller h (by rintro _ _ ⟨⟩)).imp_right .inr
    · exact .inl h
  | resume i =>
    unfold step at h
    dsimp only at h
    split at h
    · next f waiting =>
      split at h
      · next l landed =>
        refine (caller_setCaller h ?_).imp_right .inr
        rintro rfl v rfl
        exact .inr ⟨f, waiting, landed⟩
      · exact .inl h
    · exact .inl h
  | get | invalidate | clear | tick => exact .inl h

theorem landing?_land_cases {c : Cache} {k : String} {f g : Nat} {l m : Landing} {t : Option Binary64}
    (h : (c.land k g l t).landing? f = some m) : c.landing? f = some m ∨ g = f ∧ l = m := by
  rw [landing?_land] at h
  cases hc : c.landing? f with
  | some n =>
    rw [hc] at h
    exact .inl h
  | none =>
    rw [hc, Option.none_or] at h
    split at h
    · next hg => exact .inr ⟨hg, Option.some.inj h⟩
    · cases h

/-- **One event** and the ends of flights: a flight that has landed with a value had landed before, or the
event completes the call that leads it. -/
theorem landing_step {e : Event} {f : Nat} (h : (s.step e).cache.landing? f = some (.value v)) :
    s.cache.landing? f = some (.value v) ∨
      ∃ i key ttl, e = .complete i (.ok v) ∧ s.callers[i]? = some (.leading key f ttl) := by
  cases e with
  | call key ttl =>
    have same : (s.cache.look s.now key).2.landed = s.cache.landed := by
      rcases look_cases s.cache s.now key with ⟨_, _, hs⟩ | ⟨_, _, _, hs⟩ | ⟨_, _, _, landed, _⟩
      · exact hs.2.1
      · exact hs.2.1
      · exact landed
    change (s.cache.look s.now key).2.landing? f = _ at h
    unfold landing? at h ⊢
    rw [same] at h
    exact .inl h
  | complete i outcome =>
    unfold step at h
    dsimp only at h
    split at h
    · next key g ttl leading =>
      unfold complete at h
      split at h
      · exact (landing?_land_cases h).imp_right fun ⟨_, hl⟩ => nomatch hl
      · split at h
        · refine (landing?_land_cases h).imp_right fun ⟨hg, hl⟩ => ?_
          subst hg
          cases hl
          exact ⟨i, key, ttl, rfl, leading⟩
        · exact .inl h
    · exact .inl h
  | cancel i =>
    unfold step at h
    dsimp only at h
    split at h
    · exact (landing?_land_cases h).imp_right fun ⟨_, hl⟩ => nomatch hl
    · exact .inl h
    · exact .inl h
  | resume i =>
    unfold step at h
    dsimp only at h
    split at h
    · split at h <;> exact .inl h
    · exact .inl h
  | get | invalidate | clear | tick => exact .inl h

/-- **One event** and the flights: they are numbered on, and each that is under way was so before, or is the
next one. -/
theorem flights_step (hs : s.Sound) (e : Event) :
    s.cache.misses ≤ (s.step e).cache.misses ∧ ∀ key f, (s.step e).cache.inFlight.get? key = some f →
      s.cache.inFlight.get? key = some f ∨ f = s.cache.misses := by
  have moves := moves_step s e
  generalize s.step e = t at moves ⊢
  have erased : ∀ other key f, (s.cache.inFlight.erase other).get? key = some f →
      s.cache.inFlight.get? key = some f :=
    fun other key f h => ((hs.led.distinct.get?_erase_iff other key f).mp h).1
  cases moves with
  | rest flights callers entries => exact ⟨flights.2.2.ge, fun key f h => .inl (flights.1 ▸ h)⟩
  | call key ttl =>
    change s.cache.misses ≤ (s.cache.look s.now key).2.misses ∧ ∀ k f,
      (s.cache.look s.now key).2.inFlight.get? k = some f → _
    rcases look_cases s.cache s.now key with ⟨_, _, same⟩ | ⟨_, _, _, same⟩ | ⟨_, _, set, _, more⟩
    · exact ⟨same.2.2.ge, fun k f h => .inl (same.1 ▸ h)⟩
    · exact ⟨same.2.2.ge, fun k f h => .inl (same.1 ▸ h)⟩
    · refine ⟨more ▸ Nat.le_succ _, fun k f h => ?_⟩
      rw [set, Members.get?_set] at h
      split at h
      · exact .inr (Option.some.inj h).symm
      · exact .inl h
  | land | lose => exact ⟨Nat.le_refl _, fun k f h => .inl (erased _ k f h)⟩
  | leave => exact ⟨Nat.le_refl _, fun k f h => .inl h⟩

/-! ## calls since -/

/-- A flight that is for a key and for no other, with an end that is good if it is a value. -/
structure Aboard (s : Session) (key : String) (good : Json → Prop) (f : Nat) : Prop where
  older : f < s.cache.misses
  only : ∀ k, s.cache.inFlight.get? k = some f → k = key
  landed : ∀ v, s.cache.landing? f = some (.value v) → good v

/-- A call for a key, with an end that is good if it is a value. -/
structure Serves (s : Session) (key : String) (good : Json → Prop) (j : Nat) : Prop where
  leading : ∀ k f ttl, s.callers[j]? = some (.leading k f ttl) → k = key
  waiting : ∀ f, s.callers[j]? = some (.waiting f) → Aboard s key good f
  finished : ∀ v, s.callers[j]? = some (.finished (.value v)) → good v

section

variable {good good' : Json → Prop} {e : Event}

/-- What is good stays so, and what a computation for the key ends with is good. -/
structure Gains (s : Session) (key : String) (e : Event) (good good' : Json → Prop) : Prop where
  keep : ∀ v, good v → good' v
  gain : ∀ (i : Nat) v f ttl, e = .complete i (.ok v) → s.callers[i]? = some (.leading key f ttl) → good' v

theorem aboard_of_inFlight (hs : s.Sound) {f : Nat} (hf : s.cache.inFlight.get? key = some f) :
    Aboard s key good f where
  older := hs.led.older key f hf
  only k hk := hs.led.apart k key f hk hf
  landed _ hv := absurd hf ((hs.led.ended f _ hv).2 key)

theorem Aboard.step (hs : s.Sound) (gains : Gains s key e good good') {f : Nat} (h : Aboard s key good f) :
    Aboard (s.step e) key good' f := by
  obtain ⟨more, flights⟩ := flights_step hs e
  refine ⟨h.older.trans_le more, fun k hk => ?_, fun v hv => ?_⟩
  · rcases flights k f hk with hk | rfl
    · exact h.only k hk
    · exact absurd h.older (Nat.lt_irrefl _)
  · rcases landing_step hv with hv | ⟨i, k, ttl, he, leading⟩
    · exact gains.keep v (h.landed v hv)
    · have hk : k = key := h.only k (hs.led.inFlight ⟨ttl, leading⟩)
      subst hk
      exact gains.gain i v f ttl he leading

/-- **One event** and a call for a key. -/
theorem Serves.step (hs : s.Sound) (gains : Gains s key e good good') {j : Nat} (within : j < s.callers.length)
    (h : Serves s key good j) : Serves (s.step e) key good' j := by
  refine ⟨fun k f ttl hc => ?_, fun f hc => ?_, fun v hc => ?_⟩
  · rcases caller_step hc with hc | ⟨_, _, _, rfl, _⟩ | ⟨l, hl, _⟩
    · exact h.leading k f ttl hc
    · exact absurd within (Nat.lt_irrefl _)
    · cases hl
  · rcases caller_step hc with hc | ⟨_, _, _, rfl, _⟩ | ⟨l, hl, _⟩
    · exact (h.waiting f hc).step hs gains
    · exact absurd within (Nat.lt_irrefl _)
    · cases hl
  · rcases caller_step hc with hc | ⟨_, _, _, rfl, _⟩ | ⟨l, hl, ends⟩
    · exact gains.keep v (h.finished v hc)
    · exact absurd within (Nat.lt_irrefl _)
    · cases hl
      rcases ends v rfl with ⟨k, f, ttl, he, leading⟩ | ⟨f, waiting, landed⟩
      · have hk := h.leading k f ttl leading
        subst hk
        exact gains.gain j v f ttl he leading
      · exact gains.keep v ((h.waiting f waiting).landed v landed)

theorem serves_call (hs : s.Sound) (kept : ∀ v, s.cache.get? s.now key = some v → good v) (ttl : Json) :
    Serves (s.step (.call key ttl)) key good s.callers.length := by
  obtain ⟨c, hc, begins⟩ := caller_call s key ttl
  have here : (s.step (.call key ttl)).callers[s.callers.length]? = some c := by
    rw [show (s.step (.call key ttl)).callers = s.callers ++ [c] from hc]
    exact getElem?_append_iff.mpr (.inr ⟨rfl, rfl⟩)
  have gains : Gains s key (.call key ttl) good good := ⟨fun _ h => h, fun _ _ _ _ he => nomatch he⟩
  refine ⟨fun k f u h => ?_, fun f h => ?_, fun v h => ?_⟩
  · rw [here] at h
    rcases begins with ⟨v, _, rfl⟩ | ⟨g, _, rfl⟩ | ⟨g, rfl⟩
    · cases h
    · cases h
    · cases h
      rfl
  · rw [here] at h
    rcases begins with ⟨v, _, rfl⟩ | ⟨g, flying, rfl⟩ | ⟨g, rfl⟩
    · cases h
    · cases h
      exact (aboard_of_inFlight hs flying).step hs gains
    · cases h
  · rw [here] at h
    rcases begins with ⟨w, found, rfl⟩ | ⟨g, _, rfl⟩ | ⟨g, rfl⟩
    · cases h
      exact kept v found
    · cases h
    · cases h

end

/-! ## what is reached -/

theorem length_step (s : Session) (e : Event) : s.callers.length ≤ (s.step e).callers.length := by
  rcases callers_step s e with ⟨key, ttl, rfl⟩ | ⟨_, hc | ⟨i, l, hc⟩⟩
  · rw [show (s.step (.call key ttl)).callers = _ from call_callers s key ttl, List.length_append]
    exact Nat.le_add_right _ _
  · rw [hc]
  · rw [hc, List.length_set]

/-- Every value that is kept for the key, and every one that a call for it has come to, has been computed in
the course of the events. -/
structure Renewed (s : Session) (key : String) (events : List Event) : Prop where
  sound : (s.run events).Sound
  entries : ∀ x, (s.run events).cache.entries.get? key = some x → ∃ i, Computed s events key x.value i
  calls : ∀ j, Begun s events key j → j < (s.run events).callers.length ∧
    Serves (s.run events) key (fun v => ∃ i, Computed s events key v i) j

namespace Renewed

theorem found (h : Renewed s key events) (hv : (s.run events).cache.get? (s.run events).now key = some v) :
    ∃ i, Computed s events key v i := by
  obtain ⟨x, hx, _, rfl⟩ := get?_eq_some_iff.mp hv
  exact h.entries x hx

theorem start (hs : s.Sound) (dropped : s.cache.entries.get? key = none) : Renewed s key [] where
  sound := hs
  entries x hx := by
    rw [show s.run [] = s from rfl, dropped] at hx
    cases hx
  calls j hj := by
    obtain ⟨before, after, ttl, he, _⟩ := hj
    cases before <;> cases he

theorem step (h : Renewed s key events) (e : Event) : Renewed s key (events ++ [e]) := by
  have gains : Gains (s.run events) key e (fun v => ∃ i, Computed s events key v i)
      (fun v => ∃ i, Computed s (events ++ [e]) key v i) := by
    refine ⟨fun v ⟨i, hi⟩ => ⟨i, hi.snoc e⟩, ?_⟩
    rintro i v f ttl rfl leading
    exact ⟨i, computed_complete leading v⟩
  have snoc := run_snoc s events e
  refine ⟨?_, fun x hx => ?_, fun j hj => ?_⟩
  · rw [snoc]
    exact h.sound.moves (moves_step _ e)
  · rw [snoc] at hx
    rcases entries_step h.sound.kept hx with ⟨hx, _⟩ | ⟨i, f, ttl, he, leading, _⟩
    · exact gains.keep _ (h.entries x hx)
    · exact gains.gain i _ f ttl he leading
  · rw [snoc]
    rcases begun_snoc hj with hj | ⟨⟨ttl, rfl⟩, rfl⟩
    · obtain ⟨within, serves⟩ := h.calls j hj
      exact ⟨within.trans_le (length_step _ e), serves.step h.sound gains within⟩
    · refine ⟨?_, serves_call h.sound (fun v hv => gains.keep v (h.found hv)) ttl⟩
      rw [show ((s.run events).step (.call key ttl)).callers = _ from call_callers _ key ttl, List.length_append]
      exact Nat.lt_succ_self _

theorem run (hs : s.Sound) (dropped : s.cache.entries.get? key = none) (events : List Event) :
    Renewed s key events := by
  induction events using List.reverseRecOn with
  | nil => exact start hs dropped
  | append_singleton events e ih => exact ih.step e

theorem returns (h : Renewed s key events) (hv : Returns s events key v) : ∃ i, Computed s events key v i := by
  rcases hv with hv | ⟨j, begun, ended⟩
  · exact h.found hv
  · exact (h.calls j begun).2.finished v ended

end Renewed

theorem length_run (s : Session) (events : List Event) : s.callers.length ≤ (s.run events).callers.length := by
  induction events using List.reverseRecOn with
  | nil => exact Nat.le_refl _
  | append_singleton events e ih =>
    rw [run_snoc]
    exact ih.trans (length_step _ e)

theorem leading_run {i f : Nat} {ttl : Json} (h : (s.run events).callers[i]? = some (.leading key f ttl)) :
    s.callers.length ≤ i ∨ s.callers[i]? = some (.leading key f ttl) := by
  induction events using List.reverseRecOn with
  | nil => exact .inr h
  | append_singleton events e ih =>
    rw [run_snoc] at h
    rcases caller_step h with h | ⟨_, _, _, rfl, _⟩ | ⟨_, hl, _⟩
    · exact ih h
    · exact .inl (length_run s events)
    · cases hl

theorem entries_of_drops (hs : s.Sound) {e : Event} (drops : e.Drops key) :
    (s.step e).cache.entries.get? key = none ∧ (s.step e).callers = s.callers := by
  rcases drops with rfl | rfl
  · exact ⟨hs.kept.get?_erase_self key, rfl⟩
  · exact ⟨rfl, rfl⟩

/-- **Dropping** what is kept for a key, after any events and before any others.  A value that looking finds
for the key later, or that a call for the key that begins later comes to, has been computed for the key by a
computation that ended later; its call began later, or it was the one that was under way for the key.  Where
none was under way, it began later. -/
theorem returns_computed (now : Binary64) (before : List Event) {key : String} {e : Event} (drops : e.Drops key)
    (after : List Event) (v : Json) :
    let s : Session := (start now).run before
    Returns (s.step e) after key v → ∃ i, Computed (s.step e) after key v i ∧
      (s.callers.length ≤ i ∨
        s.cache.isInFlight key = true ∧ ∃ f ttl, s.callers[i]? = some (.leading key f ttl)) := by
  intro s returns
  have hs : s.Sound := (sound_start now).run before
  obtain ⟨dropped, same⟩ := entries_of_drops hs drops
  obtain ⟨i, computed⟩ := (Renewed.run (hs.moves (moves_step s e)) dropped after).returns returns
  refine ⟨i, computed, ?_⟩
  obtain ⟨_, _, f, ttl, _, leading⟩ := computed
  refine (leading_run leading).imp (fun h => same ▸ h) fun h => ?_
  rw [same] at h
  refine ⟨?_, f, ttl, h⟩
  rw [isInFlight, Members.contains, hs.led.inFlight ⟨ttl, h⟩]
  rfl

/-- Dropping while a value is computed, which is found after its computation has ended. -/
theorem returns_computed_underway :
    let s : Session := (start (Binary64.zero false)).run [.call "k" (.int 60)]
    let after : List Event := [.complete 0 (.ok (.int 7))]
    Event.Drops "k" (.invalidate "k") ∧ Returns (s.step (.invalidate "k")) after "k" (.int 7) ∧
    ∃ i, Computed (s.step (.invalidate "k")) after "k" (.int 7) i ∧
      (s.callers.length ≤ i ∨
        s.cache.isInFlight "k" = true ∧ ∃ f ttl, s.callers[i]? = some (.leading "k" f ttl)) := by
  intro s after
  have drops : Event.Drops "k" (.invalidate "k") := .inl rfl
  have returns : Returns (s.step (.invalidate "k")) after "k" (.int 7) := .inl (by decide +kernel)
  exact ⟨drops, returns, returns_computed (Binary64.zero false) [.call "k" (.int 60)] drops after (.int 7) returns⟩

/-- A value that was being computed when its key was dropped comes back: looking finds it, and so does any call
that begins later.  No call that began later has computed it. -/
theorem returns_undone :
    let s : Session := (start (Binary64.zero false)).run [.call "k" (.int 60)]
    let t : Session := s.step (.invalidate "k")
    let u : Session := t.run [.complete 0 (.ok (.int 7))]
    s.callers[0]? = some (.leading "k" 0 (.int 60)) ∧ Returns t [.complete 0 (.ok (.int 7))] "k" (.int 7) ∧
    (∀ ttl, (u.step (.call "k" ttl)).callers = u.callers ++ [.finished (.value (.int 7))]) ∧
    ¬ ∃ i, Computed t [.complete 0 (.ok (.int 7))] "k" (.int 7) i ∧ s.callers.length ≤ i := by
  intro s t u
  have found : u.cache.get? u.now "k" = some (.int 7) := by decide +kernel
  refine ⟨rfl, .inl found, fun ttl => ?_, ?_⟩
  · show (u.call "k" ttl).callers = _
    rw [call_callers, look_of_get? found]
  · rintro ⟨i, ⟨past, rest, f, ttl, split, _⟩, begun⟩
    cases past with
    | nil =>
      cases split
      exact absurd begun (by decide)
    | cons e past =>
      obtain ⟨-, none⟩ := List.cons.inj split
      cases past <;> cases none

end Session

end EventRouting.Cache
