import EventRouting.Proofs.Cache.SingleFlight
import EventRouting.Proofs.Number.Order

/-!
# Where kept values come from

* `Cache.Session.Forward`     the clock never goes back
* `Cache.Session.Storing`     the event that stored a value, among all events
* `Cache.Session.entries_step`   an entry was there before, or the event has stored it
* `Cache.Session.Traced`      every entry of a session that is reached has been stored by one of its events
* `Cache.Session.freshness`   what is found was computed for its key and is still fresh
-/

namespace EventRouting.Cache

/-! ## lifetimes -/

theorem float_add (x : Binary64) (n : Number) : (Number.float x).add n = .float (x.add n.toBinary64) := by
  cases n <;> rfl

/-- Only a positive lifetime keeps a value, and then until the sum of the clock and the lifetime. -/
theorem expiry_some {now t : Binary64} {ttl : Json} (h : expiry now ttl = .ok (some t)) :
    ∃ n, ttl.numeric? = some n ∧ (Number.int 0).lt n = true ∧ t = now.add n.toBinary64 ∧
      n.toBinary64.isNaN = false ∧ ⊥ < n.toBinary64.position := by
  unfold expiry at h
  split at h
  · cases h
  · next n hn =>
    split at h
    · next positive =>
      split at h
      · next i =>
        split at h
        · next finite =>
          cases h
          have reading := Number.position_of_pos positive fun j hj => by
            cases hj
            exact finite
          exact ⟨_, hn, positive, rfl, reading⟩
        · cases h
      · next x =>
        cases h
        exact ⟨_, hn, positive, rfl, Number.position_of_pos positive fun j hj => nomatch hj⟩
    · cases h

theorem expiry_of_not_positive {ttl : Json} (h : ∀ n, ttl.numeric? = some n → (Number.int 0).lt n = false)
    (now t : Binary64) : expiry now ttl ≠ .ok (some t) := by
  intro he
  obtain ⟨n, hn, positive, -⟩ := expiry_some he
  rw [h n hn] at positive
  cases positive

theorem contains_eq (c : Cache) (now : Binary64) (key : String) :
    c.contains now key = (c.get? now key).isSome := by
  unfold contains get?
  split
  · next e _ => cases e.isStale now <;> rfl
  · rfl

theorem get?_eq_some_iff {c : Cache} {now : Binary64} {key : String} {v : Json} :
    c.get? now key = some v ↔ ∃ e, c.entries.get? key = some e ∧ e.isStale now = false ∧ e.value = v := by
  unfold get?
  cases c.entries.get? key with
  | none => simp
  | some e => cases hs : e.isStale now <;> simp [hs]

theorem look_of_get? {c : Cache} {now : Binary64} {key : String} {v : Json} (h : c.get? now key = some v) :
    c.look now key = (.hit v, { c with hits := c.hits + 1 }) := by
  obtain ⟨e, he, fresh, rfl⟩ := get?_eq_some_iff.mp h
  rw [look, he]
  dsimp only
  rw [fresh, if_neg Bool.false_ne_true]

theorem look_of_get?_none {c : Cache} {now : Binary64} {key : String} (h : c.get? now key = none) :
    ∃ entries, c.look now key = { c with entries := entries }.board key := by
  unfold get? at h
  unfold look
  cases he : c.entries.get? key with
  | none => exact ⟨c.entries, rfl⟩
  | some e =>
    rw [he] at h
    dsimp only at h ⊢
    split at h
    · next stale => exact ⟨_, if_pos stale⟩
    · cases h

theorem hits_of_get?_none {c : Cache} {now : Binary64} {key : String} (h : c.get? now key = none) :
    (c.look now key).2.hits = c.hits := by
  obtain ⟨entries, hl⟩ := look_of_get?_none h
  rw [hl]
  unfold Cache.board
  split <;> rfl

namespace Session

/-! ## history -/

/-- The key and the lifetime that a call asks for. -/
def called? : Event → Option (String × Json)
  | .call key ttl => some (key, ttl)
  | _ => none

def calls (events : List Event) : List (String × Json) := events.filterMap called?

/-- From one event to the next the clock does not go back. -/
def Forward (s : Session) : List Event → Prop
  | [] => True
  | e :: rest => (Number.float s.now).le (.float (s.step e).now) = true ∧ Forward (s.step e) rest

/-- The completion that stored a value: the events before and after it, and the call that it completes. -/
structure Storing where
  before : List Event
  after : List Event
  caller : Nat
  flight : Nat
  ttl : Json
  seconds : Number

namespace Storing

def session (w : Storing) (now : Binary64) : Session := (start now).run w.before

def staleAt (w : Storing) (now : Binary64) : Number := (Number.float (w.session now).now).add w.seconds

/-- The value was computed by a call for the key with a positive lifetime, was stored no later than now, and
nothing that drops it has happened since. -/
structure Explains (w : Storing) (now : Binary64) (events : List Event) (key : String) (v : Json) : Prop where
  happened : events = w.before ++ .complete w.caller (.ok v) :: w.after
  called : (calls w.before)[w.caller]? = some (key, w.ttl)
  leading : (w.session now).callers[w.caller]? = some (.leading key w.flight w.ttl)
  lifetime : w.ttl.numeric? = some w.seconds
  positive : (Number.int 0).lt w.seconds = true
  earlier : (Number.float (w.session now).now).le (.float ((start now).run events).now) = true
  undisturbed : Event.invalidate key ∉ w.after ∧ Event.clear ∉ w.after

end Storing

theorem run_snoc (s : Session) (events : List Event) (e : Event) :
    s.run (events ++ [e]) = (s.run events).step e := List.foldl_append ..

theorem le_trans_float {a b c : Binary64} (h : (Number.float a).le (.float b) = true)
    (h' : (Number.float b).le (.float c) = true) : (Number.float a).le (.float c) = true := by
  obtain ⟨ha, hb⟩ := Number.isNaN_of_le_float h
  obtain ⟨-, hc⟩ := Number.isNaN_of_le_float h'
  rw [Number.le_float_iff ha hb] at h
  rw [Number.le_float_iff hb hc] at h'
  exact (Number.le_float_iff ha hc).mpr (h.trans h')

theorem Storing.Explains.later {w : Storing} {now : Binary64} {events : List Event} {key : String} {v : Json}
    (h : w.Explains now events key v) {e : Event} (hi : e ≠ .invalidate key) (hc : e ≠ .clear)
    (forward : (Number.float ((start now).run events).now).le (.float (((start now).run events).step e).now) =
      true) : Storing.Explains { w with after := w.after ++ [e] } now (events ++ [e]) key v where
  happened := by
    rw [h.happened, List.append_assoc]
    rfl
  called := h.called
  leading := h.leading
  lifetime := h.lifetime
  positive := h.positive
  earlier := by
    rw [run_snoc]
    exact le_trans_float h.earlier forward
  undisturbed := by
    obtain ⟨hni, hnc⟩ := h.undisturbed
    refine ⟨fun hm => ?_, fun hm => ?_⟩
    · rcases List.mem_append.mp hm with hm | hm
      · exact hni hm
      · exact hi (List.mem_singleton.mp hm).symm
    · rcases List.mem_append.mp hm with hm | hm
      · exact hnc hm
      · exact hc (List.mem_singleton.mp hm).symm

/-! ## steps -/

theorem entries_look {c : Cache} (h : c.entries.Distinct) (now : Binary64) {key k : String} {x : Entry}
    (hx : (c.look now key).2.entries.get? k = some x) : c.entries.get? k = some x := by
  rcases look_eq c now key with ⟨e, _, hl⟩ | ⟨entries, he, hl⟩
  · rw [hl] at hx
    exact hx
  · have same : (c.look now key).2.entries = entries := by rw [hl, board_entries]
    rw [same] at hx
    rcases he with ⟨rfl, _⟩ | rfl
    · exact hx
    · exact ((h.get?_erase_iff key k x).mp hx).1

theorem get?_kept {c : Cache} {key k : String} {l : Landing} {t : Option Binary64} {x : Entry}
    (h : (c.kept key l t).get? k = some x) :
    c.entries.get? k = some x ∨ (k = key ∧ l = .value x.value ∧ t = some x.staleAt) := by
  unfold kept at h
  split at h
  · rw [Members.get?_set] at h
    split at h
    · next hk =>
      cases h
      exact .inr ⟨hk.symm, rfl, rfl⟩
    · exact .inl h
  · exact .inl h

/-- **One event** and the entries: each was there before, and the event drops nothing for its key, or the
event completes a call for the key with the value of the entry. -/
theorem entries_step {s : Session} (h : s.cache.entries.Distinct) {e : Event} {key : String} {x : Entry}
    (hx : (s.step e).cache.entries.get? key = some x) :
    (s.cache.entries.get? key = some x ∧ e ≠ .invalidate key ∧ e ≠ .clear) ∨
    ∃ i f ttl, e = .complete i (.ok x.value) ∧ s.callers[i]? = some (.leading key f ttl) ∧
      expiry s.now ttl = .ok (some x.staleAt) := by
  cases e with
  | call k ttl => exact .inl ⟨entries_look h s.now hx, by simp, by simp⟩
  | complete i outcome =>
    unfold step at hx
    dsimp only at hx
    split at hx
    · next k f ttl leading =>
      unfold complete at hx
      split at hx
      · exact .inl ⟨hx, by simp, by simp⟩
      · next v =>
        split at hx
        · next t ht =>
          rcases get?_kept hx with hx | ⟨rfl, hl, rfl⟩
          · exact .inl ⟨hx, by simp, by simp⟩
          · cases hl
            exact .inr ⟨i, f, ttl, rfl, leading, ht⟩
        · exact .inl ⟨hx, by simp, by simp⟩
    · exact .inl ⟨hx, by simp, by simp⟩
  | cancel i =>
    unfold step at hx
    dsimp only at hx
    split at hx <;> exact .inl ⟨hx, by simp, by simp⟩
  | resume i =>
    unfold step at hx
    dsimp only at hx
    split at hx
    · split at hx <;> exact .inl ⟨hx, by simp, by simp⟩
    · exact .inl ⟨hx, by simp, by simp⟩
  | get k => exact .inl ⟨hx, by simp, by simp⟩
  | invalidate k =>
    obtain ⟨hx, hk⟩ := (h.get?_erase_iff k key x).mp hx
    refine .inl ⟨hx, ?_, by simp⟩
    intro he
    cases he
    exact hk rfl
  | clear => cases hx
  | tick seconds => exact .inl ⟨hx, by simp, by simp⟩

/-- **One event** and the calls: one more begins, or one may end. -/
theorem callers_step (s : Session) (e : Event) :
    (∃ key ttl, e = .call key ttl) ∨
    (called? e = none ∧ ((s.step e).callers = s.callers ∨
      ∃ i l, (s.step e).callers = s.callers.set i (.finished l))) := by
  have begins : (∃ key ttl, e = .call key ttl) ∨ called? e = none := by
    cases e with
    | call key ttl => exact .inl ⟨key, ttl, rfl⟩
    | complete | cancel | resume | get | invalidate | clear | tick => exact .inr rfl
  refine begins.imp_right fun none => ⟨none, ?_⟩
  have moves := moves_step s e
  generalize s.step e = t at moves ⊢
  cases moves with
  | rest _ callers _ => exact .inl callers
  | call => cases none
  | land | lose | leave => exact .inr ⟨_, _, rfl⟩

/-! ## what the calls are -/

/-- Each call that leads asked for its key with its lifetime. -/
structure Recorded (s : Session) (asked : List (String × Json)) : Prop where
  length : s.callers.length = asked.length
  leading : ∀ (i : Nat) key f ttl, s.callers[i]? = some (.leading key f ttl) → asked[i]? = some (key, ttl)

theorem call_callers (s : Session) (key : String) (ttl : Json) : (s.call key ttl).callers = s.callers ++
    [match (s.cache.look s.now key).1 with
    | .hit v => .finished (.value v)
    | .join flight => .waiting flight
    | .lead flight => .leading key flight ttl] := rfl

theorem Recorded.call {s : Session} {asked : List (String × Json)} (h : s.Recorded asked) (key : String)
    (ttl : Json) : (s.call key ttl).Recorded (asked ++ [(key, ttl)]) := by
  refine ⟨?_, fun i k f u hl => ?_⟩
  · rw [call_callers, List.length_append, List.length_append, h.length]
    rfl
  · rw [call_callers] at hl
    rcases getElem?_append_iff.mp hl with hl | ⟨rfl, hc⟩
    · have before := h.leading i k f u hl
      obtain ⟨hi, _⟩ := List.getElem?_eq_some_iff.mp before
      rw [List.getElem?_append_left hi]
      exact before
    · rw [h.length, List.getElem?_append_right (Nat.le_refl _), Nat.sub_self]
      split at hc <;> cases hc
      rfl

theorem Recorded.step {s : Session} {events : List Event} (h : s.Recorded (calls events)) (e : Event) :
    (s.step e).Recorded (calls (events ++ [e])) := by
  rcases callers_step s e with ⟨key, ttl, rfl⟩ | ⟨none, hc⟩
  · rw [calls, List.filterMap_append]
    exact h.call key ttl
  · have asked : calls (events ++ [e]) = calls events := by
      rw [calls, List.filterMap_append, List.filterMap_cons_none none, List.filterMap_nil, List.append_nil,
        calls]
    rw [asked]
    rcases hc with hc | ⟨i, l, hc⟩
    · exact ⟨hc ▸ h.length, hc ▸ h.leading⟩
    · refine ⟨?_, fun j key f ttl hl => ?_⟩
      · rw [hc, List.length_set, h.length]
      · rw [hc, List.getElem?_set] at hl
        split at hl
        · split at hl <;> cases hl
        · exact h.leading j key f ttl hl

/-! ## what is reached -/

/-- Every entry has been stored by one of the events, and stays until the sum it was stored with. -/
structure Traced (now : Binary64) (events : List Event) : Prop where
  sound : ((start now).run events).Sound
  reading : ((start now).run events).now.isNaN = false ∧ ⊥ < ((start now).run events).now.position
  recorded : ((start now).run events).Recorded (calls events)
  entries : ∀ key x, ((start now).run events).cache.entries.get? key = some x →
    ∃ w : Storing, w.Explains now events key x.value ∧ w.staleAt now = .float x.staleAt ∧
      x.staleAt.isNaN = false

theorem traced_start {now : Binary64} (finite : now.isFinite = true) : Traced now [] where
  sound := sound_start now
  reading := ⟨Binary64.isNaN_of_isFinite finite, Binary64.position_of_isFinite finite⟩
  recorded := ⟨rfl, fun _ _ _ _ h => nomatch h⟩
  entries _ _ h := nomatch h

theorem Traced.step {now : Binary64} {events : List Event} (h : Traced now events) {e : Event}
    (forward : (Number.float ((start now).run events).now).le (.float (((start now).run events).step e).now) =
      true) : Traced now (events ++ [e]) := by
  have snoc := run_snoc (start now) events e
  refine ⟨?_, ?_, ?_, fun key x hx => ?_⟩
  · rw [snoc]
    exact h.sound.moves (moves_step _ e)
  · rw [snoc]
    obtain ⟨hs, ht⟩ := Number.isNaN_of_le_float forward
    exact ⟨ht, h.reading.2.trans_le ((Number.le_float_iff hs ht).mp forward)⟩
  · rw [snoc]
    exact h.recorded.step e
  · rw [snoc] at hx
    rcases entries_step h.sound.kept hx with ⟨hx, hi, hc⟩ | ⟨i, f, ttl, rfl, leading, expires⟩
    · obtain ⟨w, explains, stale⟩ := h.entries key x hx
      exact ⟨_, explains.later hi hc forward, stale⟩
    · -- the event has completed the call that asked for the key
      obtain ⟨n, lifetime, positive, sum, hn⟩ := expiry_some expires
      refine ⟨⟨events, [], i, f, ttl, n⟩, ⟨rfl, h.recorded.leading i key f ttl leading, leading, lifetime,
        positive, snoc ▸ forward, ?_⟩, ?_, ?_⟩
      · exact ⟨List.not_mem_nil, List.not_mem_nil⟩
      · show (Number.float ((start now).run events).now).add n = _
        rw [float_add, sum]
      · rw [sum]
        exact Binary64.isNaN_add h.reading.1 hn.1 h.reading.2 hn.2

theorem Traced.run {now : Binary64} {past : List Event} (h : Traced now past) :
    ∀ {events : List Event}, ((start now).run past).Forward events → Traced now (past ++ events) := by
  intro events
  induction events generalizing past with
  | nil =>
    intro _
    rw [List.append_nil]
    exact h
  | cons e rest ih =>
    intro ⟨he, hr⟩
    rw [← run_snoc] at hr
    have traced := ih (h.step he) hr
    rw [List.append_assoc] at traced
    exact traced

theorem Traced.found {now : Binary64} {events : List Event} (h : Traced now events) {key : String} {v : Json}
    (hv : ((start now).run events).cache.get? ((start now).run events).now key = some v) :
    ∃ w : Storing, w.Explains now events key v ∧
      (Number.float ((start now).run events).now).lt (w.staleAt now) = true := by
  obtain ⟨x, hx, fresh, rfl⟩ := get?_eq_some_iff.mp hv
  obtain ⟨w, explains, stale, nan⟩ := h.entries key x hx
  refine ⟨w, explains, ?_⟩
  rw [stale, Number.lt, Number.compare?]
  rw [Entry.isStale, Binary64.compare?_eq h.reading.1 nan] at fresh
  rw [Binary64.compare?_eq h.reading.1 nan]
  revert fresh
  cases Ord.compare ((start now).run events).now.position x.staleAt.position <;> simp

/-! ## hits -/

theorem call_hits (s : Session) (key : String) (ttl : Json) :
    (∃ v, s.cache.get? s.now key = some v ∧ (s.step (.call key ttl)).cache.hits = s.cache.hits + 1 ∧
      (s.step (.call key ttl)).callers = s.callers ++ [.finished (.value v)]) ∨
    (s.cache.get? s.now key = none ∧ (s.step (.call key ttl)).cache.hits = s.cache.hits) := by
  cases hv : s.cache.get? s.now key with
  | some v =>
    have found := look_of_get? hv
    refine .inl ⟨v, rfl, ?_, ?_⟩
    · show (s.cache.look s.now key).2.hits = _
      rw [found]
    · show (s.call key ttl).callers = _
      rw [call_callers, found]
  | none => exact .inr ⟨rfl, hits_of_get?_none hv⟩

/-! ## all together -/

theorem entries_fault (s : Session) (i : Nat) (f : Fault) :
    (s.step (.complete i (.error f))).cache.entries = s.cache.entries := by
  unfold step
  dsimp only
  split <;> rfl

theorem entries_cancel (s : Session) (i : Nat) : (s.step (.cancel i)).cache.entries = s.cache.entries := by
  unfold step
  dsimp only
  split <;> rfl

theorem entries_not_positive {s : Session} {i f : Nat} {key : String} {ttl : Json}
    (leading : s.callers[i]? = some (.leading key f ttl))
    (h : ∀ n, ttl.numeric? = some n → (Number.int 0).lt n = false) (v : Json) :
    (s.step (.complete i (.ok v))).cache.entries = s.cache.entries := by
  have never := expiry_of_not_positive h s.now
  unfold step
  dsimp only
  rw [leading]
  dsimp only
  unfold complete
  dsimp only
  split
  · next t ht =>
    cases t with
    | none => rfl
    | some t => exact absurd ht (never t)
  · rfl

/-- **Freshness and provenance**, after any events with a clock that starts at a finite reading and never
goes back.  Whatever looking finds was computed by a call for the same key with a positive lifetime, was
stored by its completion no later than now, is younger than its lifetime, and nothing has dropped it since;
so is whatever a call counts as a hit.  The end of a computation that fails or is cancelled is not kept, nor
is a value without a positive lifetime.  A key is contained exactly if looking finds it, and exactly then
the next call for it is a hit. -/
theorem freshness {now : Binary64} (finite : now.isFinite = true) {events : List Event}
    (forward : (start now).Forward events) :
    let s : Session := (start now).run events
    (∀ key v, s.cache.get? s.now key = some v → ∃ w : Storing, w.Explains now events key v ∧
      (Number.float s.now).lt (w.staleAt now) = true) ∧
    (∀ key ttl, (s.step (.call key ttl)).cache.hits = s.cache.hits + 1 →
      ∃ v, (s.step (.call key ttl)).callers = s.callers ++ [.finished (.value v)] ∧
        ∃ w : Storing, w.Explains now events key v ∧ (Number.float s.now).lt (w.staleAt now) = true) ∧
    (∀ i f, (s.step (.complete i (.error f))).cache.entries = s.cache.entries) ∧
    (∀ i, (s.step (.cancel i)).cache.entries = s.cache.entries) ∧
    (∀ (i : Nat) key f ttl v, s.callers[i]? = some (.leading key f ttl) →
      (∀ n, ttl.numeric? = some n → (Number.int 0).lt n = false) →
      (s.step (.complete i (.ok v))).cache.entries = s.cache.entries) ∧
    ∀ key ttl, (s.cache.contains s.now key = true ↔ ∃ v, s.cache.get? s.now key = some v) ∧
      ((∃ v, s.cache.get? s.now key = some v) ↔
        (s.step (.call key ttl)).cache.hits = s.cache.hits + 1) := by
  intro s
  have traced : Traced now events := (traced_start finite).run forward
  refine ⟨fun key v hv => traced.found hv, fun key ttl hit => ?_, entries_fault s, entries_cancel s,
    fun i key f ttl v leading h => entries_not_positive leading h v, fun key ttl => ⟨?_, ?_⟩⟩
  · rcases call_hits s key ttl with ⟨v, hv, -, finished⟩ | ⟨-, miss⟩
    · exact ⟨v, finished, traced.found hv⟩
    · omega
  · rw [contains_eq, Option.isSome_iff_exists]
  · rcases call_hits s key ttl with ⟨v, hv, hit, -⟩ | ⟨hv, miss⟩
    · exact ⟨fun _ => hit, fun _ => ⟨v, hv⟩⟩
    · rw [hv, miss]
      constructor
      · rintro ⟨_, h⟩
        cases h
      · intro h
        omega

/-- A value that is stored at second one for five seconds, and looked at in the last of them. -/
theorem freshness_lastSecond :
    let events : List Event := [.tick (.int 1), .call "a" (.int 5), .call "b" (.int 5), .complete 0 (.ok (.int 7)),
      .invalidate "b", .tick (.int 4)]
    let s : Session := (start (Binary64.zero false)).run events
    (start (Binary64.zero false)).Forward events ∧ s.cache.get? s.now "a" = some (.int 7) ∧
    (∃ w : Storing, w.Explains (Binary64.zero false) events "a" (.int 7) ∧
      (Number.float s.now).lt (w.staleAt (Binary64.zero false)) = true) ∧
    (s.step (.tick (.int 1))).cache.contains (s.step (.tick (.int 1))).now "a" = false := by
  intro events s
  have forward : (start (Binary64.zero false)).Forward events :=
    ⟨by decide +kernel, by decide +kernel, by decide +kernel, by decide +kernel, by decide +kernel,
      by decide +kernel, trivial⟩
  have found : s.cache.get? s.now "a" = some (.int 7) := by decide +kernel
  exact ⟨forward, found, (freshness (by decide) forward).1 "a" (.int 7) found, by decide +kernel⟩

end Session

end EventRouting.Cache
