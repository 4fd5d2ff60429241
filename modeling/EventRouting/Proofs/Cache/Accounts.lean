import EventRouting.Proofs.Cache.Invalidation

/-!
# What a cache keeps account of

Counts, flights and entries of a cache, told by the calls that have begun and where they stand.

* `Cache.Session.begun`       the calls that events begin, each as it stands at its begin
* `Cache.Session.Tracked`     what has become of the calls that have begun
* `Cache.Session.Counted`     every call that has begun is counted once, by what it found
* `Cache.Event.Of`            the steps of a call
* `Cache.Session.Fails`, `Cache.Session.Valueless`   a computation that fails, and a call that computes no value
* `Cache.Session.ends_once`   a computation ends once
* `Cache.Session.bookkeeping` counts add up, no flight outlasts its call, and a failure leaves the entries alone
-/

namespace EventRouting.Cache

/-! ## stages -/

namespace Caller

def isFinished : Caller → Bool
  | finished _ => true
  | _ => false

def isLeading : Caller → Bool
  | leading .. => true
  | _ => false

def isWaiting : Caller → Bool
  | waiting _ => true
  | _ => false

theorem exists_finished {c : Caller} (h : c.isFinished = true) : ∃ l, c = .finished l := by
  cases c with
  | finished l => exact ⟨l, rfl⟩
  | leading | waiting => cases h

theorem exists_leading {c : Caller} (h : c.isLeading = true) : ∃ key f ttl, c = .leading key f ttl := by
  cases c with
  | leading key f ttl => exact ⟨key, f, ttl, rfl⟩
  | finished | waiting => cases h

theorem countP_stages (cs : List Caller) :
    cs.countP isFinished + cs.countP isLeading + cs.countP isWaiting = cs.length := by
  induction cs with
  | nil => rfl
  | cons c cs ih =>
    rw [List.countP_cons, List.countP_cons, List.countP_cons, List.length_cons, ← ih]
    cases c <;> simp [isFinished, isLeading, isWaiting] <;> omega

end Caller

namespace Session

/-! ## calls that have begun -/

/-- The calls that events begin, in order, each as it stands at its begin. -/
def begun (s : Session) : List Event → List Caller
  | [] => []
  | e :: rest => (s.step e).callers.drop s.callers.length ++ begun (s.step e) rest

theorem begun_snoc_eq (s : Session) (events : List Event) (e : Event) :
    s.begun (events ++ [e]) =
      s.begun events ++ ((s.run events).step e).callers.drop (s.run events).callers.length := by
  induction events generalizing s with
  | nil => exact List.append_nil _
  | cons d rest ih =>
    rw [List.cons_append, begun, ih, begun, List.append_assoc]
    rfl

/-- What becomes of the calls that have begun: those that lead have led from their begin on, and those that
led at their begin lead still or have ended. -/
structure Tracked (s : Session) (begun : List Caller) : Prop where
  length : s.callers.length = begun.length
  leading : ∀ (i : Nat) key f ttl, s.callers[i]? = some (.leading key f ttl) →
    begun[i]? = some (.leading key f ttl)
  led : ∀ (i : Nat) key f ttl, begun[i]? = some (.leading key f ttl) →
    s.callers[i]? = some (.leading key f ttl) ∨ ∃ l, s.callers[i]? = some (.finished l)

theorem tracked_start (now : Binary64) : (start now).Tracked [] where
  length := rfl
  leading _ _ _ _ h := nomatch h
  led _ _ _ _ h := nomatch h

namespace Tracked

variable {s t : Session} {cs : List Caller}

theorem append (h : s.Tracked cs) {c : Caller} (hc : t.callers = s.callers ++ [c]) : t.Tracked (cs ++ [c]) := by
  refine ⟨?_, fun i key f ttl hi => ?_, fun i key f ttl hi => ?_⟩
  · rw [hc, List.length_append, List.length_append, h.length]
  · rw [hc, getElem?_append_iff, h.length] at hi
    exact getElem?_append_iff.mpr (hi.imp_left (h.leading i key f ttl))
  · rw [hc]
    rcases getElem?_append_iff.mp hi with hi | ⟨rfl, rfl⟩
    · exact (h.led i key f ttl hi).imp getElem?_append_of_some fun ⟨l, hl⟩ => ⟨l, getElem?_append_of_some hl⟩
    · exact .inl (getElem?_append_iff.mpr (.inr ⟨h.length.symm, rfl⟩))

theorem set (h : s.Tracked cs) {j : Nat} {l : Landing} (hc : t.callers = s.callers.set j (.finished l)) :
    t.Tracked cs := by
  refine ⟨?_, fun i key f ttl hi => ?_, fun i key f ttl hi => ?_⟩
  · rw [hc, List.length_set, h.length]
  · rw [hc, List.getElem?_set] at hi
    split at hi
    · split at hi <;> cases hi
    · exact h.leading i key f ttl hi
  · rw [hc, List.getElem?_set]
    split
    · next hij =>
      obtain ⟨within, _⟩ := List.getElem?_eq_some_iff.mp hi
      rw [← h.length, ← hij] at within
      exact .inr ⟨l, if_pos within⟩
    · exact h.led i key f ttl hi

/-- **One event** and the calls that have begun. -/
theorem step (h : s.Tracked cs) (e : Event) :
    (s.step e).Tracked (cs ++ (s.step e).callers.drop s.callers.length) := by
  rcases callers_step s e with ⟨key, ttl, rfl⟩ | ⟨_, hc | ⟨j, l, hc⟩⟩
  · obtain ⟨c, hc, _⟩ := caller_call s key ttl
    rw [show (s.step (.call key ttl)).callers = s.callers ++ [c] from hc, List.drop_left]
    exact h.append hc
  · rw [hc, List.drop_length, List.append_nil]
    exact ⟨hc ▸ h.length, hc ▸ h.leading, hc ▸ h.led⟩
  · rw [hc, ← List.length_set (i := j) (a := Caller.finished l), List.drop_length, List.append_nil]
    exact h.set hc

end Tracked

/-! ## counts -/

/-- Every call that has begun is counted once, by what it found. -/
structure Counted (c : Cache) (begun : List Caller) : Prop where
  hits : c.hits = begun.countP Caller.isFinished
  misses : c.misses = begun.countP Caller.isLeading
  shared : c.shared = begun.countP Caller.isWaiting

theorem Counted.call {s : Session} {cs : List Caller} (h : Counted s.cache cs) (key : String) (ttl : Json) :
    Counted (s.call key ttl).cache (cs ++ (s.call key ttl).callers.drop s.callers.length) := by
  obtain ⟨hits, misses, shared⟩ := h
  rw [call_callers, List.drop_left]
  change Counted (s.cache.look s.now key).2 _
  rcases look_eq s.cache s.now key with ⟨e, _, hl⟩ | ⟨entries, _, hl⟩
  · rw [hl]
    constructor <;> simp [hits, misses, shared, Caller.isFinished, Caller.isLeading, Caller.isWaiting]
  · rw [hl]
    unfold board
    dsimp only
    split <;> constructor <;>
      simp [hits, misses, shared, Caller.isFinished, Caller.isLeading, Caller.isWaiting]

theorem counts_step {s : Session} {e : Event} (none : called? e = none) :
    (s.step e).cache.hits = s.cache.hits ∧ (s.step e).cache.misses = s.cache.misses ∧
      (s.step e).cache.shared = s.cache.shared := by
  cases e with
  | call => cases none
  | complete i outcome =>
    unfold step
    dsimp only
    split
    · unfold complete
      split
      · exact ⟨rfl, rfl, rfl⟩
      · split <;> exact ⟨rfl, rfl, rfl⟩
    · exact ⟨rfl, rfl, rfl⟩
  | cancel i =>
    unfold step
    dsimp only
    split <;> exact ⟨rfl, rfl, rfl⟩
  | resume i =>
    unfold step
    dsimp only
    split
    · split <;> exact ⟨rfl, rfl, rfl⟩
    · exact ⟨rfl, rfl, rfl⟩
  | get | invalidate | clear | tick => exact ⟨rfl, rfl, rfl⟩

/-- **One event** and the counts. -/
theorem Counted.step {s : Session} {cs : List Caller} (h : Counted s.cache cs) (e : Event) :
    Counted (s.step e).cache (cs ++ (s.step e).callers.drop s.callers.length) := by
  rcases callers_step s e with ⟨key, ttl, rfl⟩ | ⟨none, hc⟩
  · exact h.call key ttl
  · obtain ⟨hits, misses, shared⟩ := counts_step (s := s) none
    have length : (s.step e).callers.length = s.callers.length := by
      rcases hc with hc | ⟨j, l, hc⟩
      · rw [hc]
      · rw [hc, List.length_set]
    rw [← length, List.drop_length, List.append_nil]
    exact ⟨hits ▸ h.hits, misses ▸ h.misses, shared ▸ h.shared⟩

/-- **A run** and the calls that have begun in its course. -/
theorem accounts_run (now : Binary64) (events : List Event) :
    ((start now).run events).Sound ∧ ((start now).run events).Recorded (calls events) ∧
      ((start now).run events).Tracked ((start now).begun events) ∧
      Counted ((start now).run events).cache ((start now).begun events) := by
  induction events using List.reverseRecOn with
  | nil => exact ⟨sound_start now, ⟨rfl, fun _ _ _ _ h => nomatch h⟩, tracked_start now, ⟨rfl, rfl, rfl⟩⟩
  | append_singleton events e ih =>
    obtain ⟨sound, recorded, tracked, counted⟩ := ih
    rw [run_snoc, begun_snoc_eq]
    exact ⟨sound.moves (moves_step _ e), recorded.step e, tracked.step e, counted.step e⟩

/-! ## flights -/

/-- A key is under way exactly if a call has begun to compute its value and has not ended. -/
theorem isInFlight_iff {s : Session} {cs : List Caller} (sound : s.Sound) (tracked : s.Tracked cs) (key : String) :
    s.cache.isInFlight key = true ↔
      ∃ (i f : Nat) (ttl : Json), cs[i]? = some (.leading key f ttl) ∧ ∀ l, s.callers[i]? ≠ some (.finished l) := by
  rw [isInFlight, Members.contains, Option.isSome_iff_exists]
  constructor
  · rintro ⟨f, hf⟩
    obtain ⟨i, ttl, hi⟩ := (sound.led.known key f).mp hf
    refine ⟨i, f, ttl, tracked.leading i key f ttl hi, fun l hl => ?_⟩
    rw [hi] at hl
    cases hl
  · rintro ⟨i, f, ttl, hi, going⟩
    rcases tracked.led i key f ttl hi with hi | ⟨l, hl⟩
    · exact ⟨f, sound.led.inFlight ⟨ttl, hi⟩⟩
    · exact absurd hl (going l)

theorem inFlight_eq_nil {s : Session} (sound : s.Sound) (ended : ∀ c ∈ s.callers, ∃ l, c = .finished l) :
    s.cache.inFlight = [] := by
  cases h : s.cache.inFlight with
  | nil => rfl
  | cons m rest =>
    have hm : s.cache.inFlight.get? m.1 = some m.2 := by
      rw [h]
      exact Members.get?_cons_self ..
    obtain ⟨i, ttl, hi⟩ := (sound.led.known m.1 m.2).mp hm
    obtain ⟨l, hl⟩ := ended _ (List.mem_of_getElem? hi)
    cases hl

end Session

/-! ## entries -/

/-- The steps of a call: it begins, its computation ends, it is cancelled, or it goes on. -/
inductive Event.Of (s : Session) (j : Nat) : Event → Prop where
  | call (key : String) (ttl : Json) (next : s.callers.length = j) : Event.Of s j (.call key ttl)
  | complete (outcome : Except Fault Json) : Event.Of s j (.complete j outcome)
  | cancel : Event.Of s j (.cancel j)
  | resume : Event.Of s j (.resume j)

namespace Session

/-- In the course of the events the computation of a call fails or is cancelled. -/
def Fails (s : Session) (events : List Event) (j : Nat) : Prop :=
  ∃ before e after key f ttl, events = before ++ e :: after ∧
    (s.run before).callers[j]? = some (.leading key f ttl) ∧
    (e = .cancel j ∨ ∃ fault, e = .complete j (.error fault))

/-- In the course of the events no computation of a call ends with a value. -/
def Valueless (s : Session) (events : List Event) (j : Nat) : Prop := ∀ key v, ¬ Computed s events key v j

/-- An event leaves the entries as they are, but for a stale one of the key that a call asks for. -/
def KeepsEntries (s : Session) (e : Event) : Prop :=
  (s.step e).cache.entries = s.cache.entries ∨
    ∃ key ttl x, e = .call key ttl ∧ s.cache.entries.get? key = some x ∧ x.isStale s.now = true ∧
      (s.step e).cache.entries = s.cache.entries.erase key

theorem keepsEntries_call (s : Session) (key : String) (ttl : Json) : KeepsEntries s (.call key ttl) := by
  have entries : (s.step (.call key ttl)).cache.entries = (s.cache.look s.now key).2.entries := rfl
  unfold KeepsEntries
  rw [entries, look]
  split
  · next x hx =>
    split
    · next stale =>
      exact .inr ⟨key, ttl, x, rfl, hx, stale, board_entries _ key⟩
    · exact .inl rfl
  · exact .inl (board_entries _ key)

/-- **One step of a call** keeps the entries, unless its computation ends with a value. -/
theorem keepsEntries_of {s : Session} {j : Nat} {e : Event} (own : e.Of s j)
    (valueless : ∀ v key f ttl, e = .complete j (.ok v) → s.callers[j]? ≠ some (.leading key f ttl)) :
    KeepsEntries s e := by
  cases own with
  | call key ttl => exact keepsEntries_call s key ttl
  | complete outcome =>
    cases outcome with
    | error f => exact .inl (entries_fault s j f)
    | ok v =>
      refine .inl ?_
      unfold step
      dsimp only
      split
      · next leading => exact absurd leading (valueless v _ _ _ rfl)
      · rfl
  | cancel => exact .inl (entries_cancel s j)
  | resume =>
    refine .inl ?_
    unfold step
    dsimp only
    split
    · split <;> rfl
    · rfl

theorem finished_of_end {s : Session} {j f : Nat} {key : String} {ttl : Json} {e : Event}
    (leading : s.callers[j]? = some (.leading key f ttl)) (own : e = .cancel j ∨ ∃ o, e = .complete j o) :
    ∃ l, (s.step e).callers[j]? = some (.finished l) := by
  rcases own with rfl | ⟨outcome, rfl⟩
  · exact ⟨_, step_cancel leading⟩
  · unfold step
    dsimp only
    rw [leading]
    dsimp only
    unfold complete
    split
    · exact ⟨_, getElem?_setCaller_self leading⟩
    · split <;> exact ⟨_, getElem?_setCaller_self leading⟩

theorem finished_run {s : Session} {j : Nat} {l : Landing} (h : s.callers[j]? = some (.finished l))
    (events : List Event) : (s.run events).callers[j]? = some (.finished l) := by
  induction events generalizing s with
  | nil => exact h
  | cons e rest ih => exact ih ((moves_step s e).finished h)

theorem not_leading_after {s : Session} {j f : Nat} {key : String} {ttl : Json} {e : Event}
    (leading : s.callers[j]? = some (.leading key f ttl)) (own : e = .cancel j ∨ ∃ o, e = .complete j o)
    (rest : List Event) (k : String) (g : Nat) (u : Json) :
    (s.run (e :: rest)).callers[j]? ≠ some (.leading k g u) := by
  obtain ⟨l, hl⟩ := finished_of_end leading own
  intro h
  rw [show s.run (e :: rest) = (s.step e).run rest from rfl, finished_run hl rest] at h
  cases h

/-- **A computation ends once**: two events of a run that end it are one event. -/
theorem ends_once {s : Session} {j f g : Nat} {k k' : String} {u u' : Json} {d e : Event}
    {before after past rest : List Event} (same : before ++ d :: after = past ++ e :: rest)
    (leading : (s.run before).callers[j]? = some (.leading k f u)) (ownd : d = .cancel j ∨ ∃ o, d = .complete j o)
    (led : (s.run past).callers[j]? = some (.leading k' g u')) (owne : e = .cancel j ∨ ∃ o, e = .complete j o) :
    d = e := by
  rcases List.append_eq_append_iff.mp same with ⟨mid, rfl, h⟩ | ⟨mid, rfl, h⟩
  · cases mid with
    | nil => exact (List.cons.inj h).1
    | cons c mid =>
      obtain ⟨rfl, -⟩ := List.cons.inj h
      rw [run, List.foldl_append] at led
      exact absurd led (not_leading_after leading ownd mid _ _ _)
  · cases mid with
    | nil => exact (List.cons.inj h).1.symm
    | cons c mid =>
      obtain ⟨rfl, -⟩ := List.cons.inj h
      rw [run, List.foldl_append] at leading
      exact absurd leading (not_leading_after led owne mid _ _ _)

theorem Fails.valueless {s : Session} {events : List Event} {j : Nat} (h : Fails s events j) :
    Valueless s events j := by
  obtain ⟨before, e, after, key, f, ttl, rfl, leading, fails⟩ := h
  rintro k v ⟨past, rest, g, u, same, led⟩
  have ends : e = .cancel j ∨ ∃ o, e = .complete j o := fails.imp_right fun ⟨fault, he⟩ => ⟨_, he⟩
  obtain rfl := ends_once same leading ends led (.inr ⟨_, rfl⟩)
  rcases fails with he | ⟨fault, he⟩ <;> cases he

theorem Valueless.keepsEntries {s : Session} {before after : List Event} {e : Event} {j : Nat}
    (h : Valueless s (before ++ e :: after) j) (own : e.Of (s.run before) j) : KeepsEntries (s.run before) e := by
  refine keepsEntries_of own ?_
  rintro v key f ttl rfl leading
  exact h key v ⟨before, after, f, ttl, rfl, leading⟩

/-! ## all together -/

/-- **Bookkeeping**, after any events whatsoever.  Hits, misses and shared calls are together the calls that
have begun, and each call is counted by what it found: a value, nothing, and then it computes one, or a flight.
A key is under way exactly if a call has begun to compute its value and has not ended, nothing is kept for a
key that is under way, and no key is under way where every call has ended.  A call whose computation fails or is
cancelled computes no value, and no step of a call that computes none changes the entries, but for dropping a
stale one of its own key. -/
theorem bookkeeping (now : Binary64) (events : List Event) :
    let s : Session := (start now).run events
    let begun : List Caller := (start now).begun events
    (s.cache.hits + s.cache.misses + s.cache.shared = (calls events).length ∧
      begun.length = (calls events).length ∧
      s.cache.hits = begun.countP Caller.isFinished ∧ s.cache.misses = begun.countP Caller.isLeading ∧
      s.cache.shared = begun.countP Caller.isWaiting) ∧
    (∀ key, s.cache.isInFlight key = true ↔ ∃ (i f : Nat) (ttl : Json),
      begun[i]? = some (.leading key f ttl) ∧ ∀ l, s.callers[i]? ≠ some (.finished l)) ∧
    (∀ key, s.cache.isInFlight key = true → s.cache.entries.contains key = false) ∧
    ((∀ c ∈ s.callers, ∃ l, c = .finished l) → s.cache.inFlight = []) ∧
    (∀ j, Fails (start now) events j → Valueless (start now) events j) ∧
    ∀ j, Valueless (start now) events j → ∀ before e after, events = before ++ e :: after →
      e.Of ((start now).run before) j → KeepsEntries ((start now).run before) e := by
  intro s begun
  obtain ⟨sound, recorded, tracked, counted⟩ := accounts_run now events
  have length : begun.length = (calls events).length := tracked.length.symm.trans recorded.length
  refine ⟨⟨?_, length, counted.hits, counted.misses, counted.shared⟩, isInFlight_iff sound tracked,
    fun key under => ?_, inFlight_eq_nil sound, fun j fails => fails.valueless, ?_⟩
  · rw [counted.hits, counted.misses, counted.shared, Caller.countP_stages]
    exact length
  · obtain ⟨f, hf⟩ := Option.isSome_iff_exists.mp under
    rw [Members.contains, sound.vacant key f hf]
    rfl
  · rintro j valueless before e after rfl own
    exact valueless.keepsEntries own

/-- A value that has gone stale is asked for again: the entry is dropped, the computation fails, and the call that
waits for it goes on.  No flight is left. -/
theorem bookkeeping_failureAfterExpiry :
    let zero : Binary64 := .zero false
    let before : List Event := [.call "a" (.int 5), .complete 0 (.ok (.int 7)), .tick (.int 5)]
    let after : List Event := [.call "a" (.int 5), .complete 1 (.error .wrongShape), .resume 2]
    let events : List Event := before ++ .call "a" (.int 5) :: after
    ((start zero).run events).cache.hits + ((start zero).run events).cache.misses
      + ((start zero).run events).cache.shared = 3 ∧
    ((start zero).run events).cache.misses = 2 ∧ Fails (start zero) events 1 ∧ Valueless (start zero) events 1 ∧
    ((start zero).run before).cache.entries.contains "a" = true ∧
    KeepsEntries ((start zero).run before) (.call "a" (.int 5)) ∧
    (∀ c ∈ ((start zero).run events).callers, ∃ l, c = .finished l) ∧
    ((start zero).run events).cache.inFlight = [] := by
  intro zero before after events
  obtain ⟨⟨total, _, _, misses, _⟩, _, _, none, valueless, keeps⟩ := bookkeeping zero events
  have leading : ((start zero).run (before ++ [.call "a" (.int 5), .call "a" (.int 5)])).callers[1]?.map
      Caller.isLeading = some true := by decide +kernel
  obtain ⟨c, hc, hl⟩ := Option.map_eq_some_iff.mp leading
  obtain ⟨key, f, ttl, rfl⟩ := Caller.exists_leading hl
  have fails : Fails (start zero) events 1 :=
    ⟨_, .complete 1 (.error .wrongShape), [.resume 2], key, f, ttl, rfl, hc, .inr ⟨_, rfl⟩⟩
  have finished : ((start zero).run events).callers.all Caller.isFinished = true := by decide +kernel
  have ended : ∀ c ∈ ((start zero).run events).callers, ∃ l, c = .finished l := fun c hc =>
    Caller.exists_finished (List.all_eq_true.mp finished c hc)
  have one : ((start zero).run before).callers.length = 1 := by decide +kernel
  have two : ((start zero).begun events).countP Caller.isLeading = 2 := by decide +kernel
  exact ⟨total, misses.trans two, fails, valueless 1 fails, by decide +kernel,
    keeps 1 (valueless 1 fails) before _ after rfl (.call _ _ one), ended, none ended⟩

end Session

end EventRouting.Cache
