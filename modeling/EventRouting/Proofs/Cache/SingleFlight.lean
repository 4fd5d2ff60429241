import EventRouting.Cache.Session
import EventRouting.Proofs.Cache.Flights

/-!
# One flight at a time

Calls of one cache in any order of what happens to them.

* `Cache.Session.Moves`   everything that an event can do to a session
* `Cache.Session.Sound`   what holds of every session that is reached
* `Cache.Session.Bound`   a call and the one whose flight it waits for, from then on
* `Cache.Session.Beside`  two sessions that differ in one call only
* `Cache.Session.singleFlight`   one computation for a key, whose outcome all who wait for it share
-/

namespace EventRouting.Cache.Session

/-! ## moves -/

/-- entries of which some may be gone -/
def Fewer (es es' : Members Entry) : Prop :=
  (es.Distinct → es'.Distinct) ∧ ∀ key, es.get? key = none → es'.get? key = none

theorem fewer_refl (es : Members Entry) : Fewer es es := ⟨fun h => h, fun _ h => h⟩

theorem fewer_erase (es : Members Entry) (key : String) : Fewer es (es.erase key) := by
  refine ⟨fun h => h.erase key, fun other h => ?_⟩
  rw [Members.get?_eq_none_iff] at h ⊢
  exact fun hn => h ((Members.names_erase_sublist es key).subset hn)

/-- Everything that an event can do to a session. -/
inductive Moves (s : Session) : Event → Session → Prop where
  /-- no call and no flight notices -/
  | rest {e : Event} {t : Session} (flights : SameFlights s.cache t.cache) (callers : t.callers = s.callers)
      (entries : Fewer s.cache.entries t.cache.entries) : Moves s e t
  | call (key : String) (ttl : Json) : Moves s (.call key ttl) (s.call key ttl)
  /-- a flight lands with the end of the call that leads it -/
  | land {e : Event} {i f : Nat} {key : String} {ttl : Json} {l : Landing} (staleAt : Option Binary64)
      (leading : s.callers[i]? = some (.leading key f ttl))
      (own : e = .cancel i ∨ ∃ outcome, e = .complete i outcome) :
      Moves s e ({ s with cache := s.cache.land key f l staleAt }.setCaller i (.finished l))
  /-- a flight is lost, since its value has no lifetime -/
  | lose {i f : Nat} {key : String} {ttl : Json} {outcome : Except Fault Json} (l : Landing)
      (leading : s.callers[i]? = some (.leading key f ttl)) (lifeless : ¬ IsLifetime ttl) :
      Moves s (.complete i outcome) ({ s with cache := s.cache.lose key }.setCaller i (.finished l))
  /-- a call waits no longer -/
  | leave {e : Event} {i f : Nat} {l : Landing} (waiting : s.callers[i]? = some (.waiting f))
      (own : e = .cancel i ∨ e = .resume i ∧ s.cache.landing? f = some l) :
      Moves s e (s.setCaller i (.finished l))

theorem Moves.refl (s : Session) (e : Event) : Moves s e s := .rest ⟨rfl, rfl, rfl⟩ rfl (fewer_refl _)

theorem moves_complete (s : Session) (i : Nat) (outcome : Except Fault Json) :
    Moves s (.complete i outcome) (s.step (.complete i outcome)) := by
  unfold step
  dsimp only
  split
  · next key f ttl leading =>
    have own : Event.complete i outcome = .cancel i ∨ ∃ o, Event.complete i outcome = .complete i o :=
      .inr ⟨outcome, rfl⟩
    unfold complete
    split
    · exact .land none leading own
    · split
      · exact .land _ leading own
      · next he =>
        refine .lose _ leading fun h => ?_
        obtain ⟨t, ht⟩ := expiry_ok h s.now
        rw [ht] at he
        cases he
  · exact Moves.refl s _

/-- **One event**: it does to a session what is said of it, and nothing else. -/
theorem moves_step (s : Session) (e : Event) : Moves s e (s.step e) := by
  cases e with
  | call key ttl => exact .call key ttl
  | complete i outcome => exact moves_complete s i outcome
  | cancel i =>
    unfold step
    dsimp only
    split
    · next leading => exact .land none leading (.inl rfl)
    · next waiting => exact .leave waiting (.inl rfl)
    · exact Moves.refl s _
  | resume i =>
    unfold step
    dsimp only
    split
    · next waiting =>
      split
      · next landed => exact .leave waiting (.inr ⟨rfl, landed⟩)
      · exact Moves.refl s _
    · exact Moves.refl s _
  | get key => exact Moves.refl s _
  | invalidate key => exact .rest ⟨rfl, rfl, rfl⟩ rfl (fewer_erase _ key)
  | clear => exact .rest ⟨rfl, rfl, rfl⟩ rfl ⟨fun _ => List.nodup_nil, fun _ _ => rfl⟩
  | tick seconds => exact .rest ⟨rfl, rfl, rfl⟩ rfl (fewer_refl _)

/-! ## callers -/

section callers

variable {s : Session} {i j : Nat} {c d : Caller}

theorem getElem?_setCaller_ne (h : i ≠ j) : (s.setCaller i c).callers[j]? = s.callers[j]? :=
  List.getElem?_set_ne h

theorem getElem?_setCaller_self (h : s.callers[i]? = some d) : (s.setCaller i c).callers[i]? = some c := by
  obtain ⟨hi, _⟩ := List.getElem?_eq_some_iff.mp h
  exact List.getElem?_set_self hi

theorem getElem?_setCaller_other {d' : Caller} (hi : s.callers[i]? = some d) (hj : s.callers[j]? = some d')
    (hne : d ≠ d') : (s.setCaller i c).callers[j]? = some d' := by
  rw [getElem?_setCaller_ne]
  · exact hj
  · rintro rfl
    rw [hi] at hj
    exact hne (Option.some.inj hj)

theorem getElem?_append_of_some {cs : List Caller} (h : cs[i]? = some d) : (cs ++ [c])[i]? = some d := by
  obtain ⟨hi, _⟩ := List.getElem?_eq_some_iff.mp h
  rw [List.getElem?_append_left hi]
  exact h

theorem getElem?_append_iff {cs : List Caller} :
    (cs ++ [c])[i]? = some d ↔ cs[i]? = some d ∨ i = cs.length ∧ d = c := by
  constructor
  · intro h
    by_cases hi : i < cs.length
    · rw [List.getElem?_append_left hi] at h
      exact .inl h
    · rw [List.getElem?_append_right (Nat.le_of_not_lt hi), List.getElem?_singleton] at h
      split at h
      · next h0 =>
        cases h
        exact .inr ⟨by omega, rfl⟩
      · cases h
  · rintro (h | ⟨rfl, rfl⟩)
    · exact getElem?_append_of_some h
    · rw [List.getElem?_append_right (Nat.le_refl _), Nat.sub_self]
      rfl

end callers

def leads (s : Session) : Leads := fun i key f => ∃ ttl, s.callers[i]? = some (.leading key f ttl)

theorem leads_setCaller {s : Session} {i : Nat} {d : Caller} {l : Landing} (h : s.callers[i]? = some d)
    (j : Nat) (key : String) (f : Nat) :
    (s.setCaller i (.finished l)).leads j key f ↔ s.leads j key f ∧ j ≠ i := by
  unfold leads
  by_cases hij : i = j
  · subst hij
    rw [getElem?_setCaller_self h]
    simp
  · rw [getElem?_setCaller_ne hij]
    simp [Ne.symm hij]

theorem leads_only {s : Session} {i f : Nat} {key : String} {ttl : Json}
    (h : s.callers[i]? = some (.leading key f ttl)) (k : String) (g : Nat) (hg : s.leads i k g) : k = key := by
  obtain ⟨_, hg⟩ := hg
  rw [h] at hg
  cases hg
  rfl

/-! ## what is reached -/

/-- Every computation under way is led by one call and is the only one for its key, and nothing is kept
for that key. -/
structure Sound (s : Session) : Prop where
  led : s.cache.Led s.leads
  kept : s.cache.entries.Distinct
  vacant : ∀ key f, s.cache.inFlight.get? key = some f → s.cache.entries.get? key = none

theorem sound_start (now : Binary64) : (start now).Sound where
  led := led_empty fun i key f ⟨ttl, h⟩ => by cases h
  kept := List.nodup_nil
  vacant key f h := by cases h

theorem look_entries {c : Cache} (h : c.entries.Distinct) (now : Binary64) (key : String) :
    Fewer c.entries (c.look now key).2.entries ∧
      ∀ f, (c.look now key).1 = .lead f → (c.look now key).2.entries.get? key = none := by
  rcases look_eq c now key with ⟨e, _, hl⟩ | ⟨entries, he, hl⟩
  · rw [hl]
    exact ⟨fewer_refl _, fun f hf => by cases hf⟩
  · have same : (c.look now key).2.entries = entries := by rw [hl, board_entries]
    rw [same]
    rcases he with ⟨rfl, hn⟩ | rfl
    · exact ⟨fewer_refl _, fun _ _ => hn⟩
    · exact ⟨fewer_erase _ key, fun _ _ => h.get?_erase_self key⟩

theorem look_join {c : Cache} {key : String} {f : Nat} (hf : c.inFlight.get? key = some f)
    (he : c.entries.get? key = none) (now : Binary64) :
    c.look now key = (.join f, { c with shared := c.shared + 1 }) := by
  unfold look board
  rw [he]
  dsimp only
  rw [hf]

namespace Sound

variable {s t : Session}

theorem call (h : s.Sound) (key : String) (ttl : Json) : (s.call key ttl).Sound := by
  obtain ⟨fewer, vacated⟩ := look_entries h.kept s.now key
  have leads_iff : ∀ i k f, (s.call key ttl).leads i k f ↔ s.leads i k f ∨
      (i = s.callers.length ∧ k = key ∧ (s.cache.look s.now key).1 = .lead f) := by
    intro i k f
    unfold leads Session.call
    dsimp only
    simp only [getElem?_append_iff, exists_or]
    refine or_congr_right ?_
    cases (s.cache.look s.now key).1 <;> simp [eq_comm]
  rcases look_cases s.cache s.now key with ⟨v, hv, hs⟩ | ⟨f, _, hj, hs⟩ | ⟨hn, hl, hf, hland, hm⟩
  · refine ⟨h.led.same hs fun i k f => ?_, fewer.1 h.kept, fun k f hk => ?_⟩
    · rw [leads_iff, hv]
      simp
    · exact fewer.2 k (h.vacant k f (hs.1 ▸ hk))
  · refine ⟨h.led.same hs fun i k f => ?_, fewer.1 h.kept, fun k f hk => ?_⟩
    · rw [leads_iff, hj]
      simp
    · exact fewer.2 k (h.vacant k f (hs.1 ▸ hk))
  · refine ⟨h.led.lead s.callers.length hn hf hland hm fun i k f => ?_, fewer.1 h.kept, fun k f hk => ?_⟩
    · rw [leads_iff, hl]
      simp [eq_comm]
    · change (s.cache.look s.now key).2.inFlight.get? k = some f at hk
      rw [hf, Members.get?_set] at hk
      by_cases hkk : key = k
      · subst hkk
        exact vacated _ hl
      · rw [if_neg hkk] at hk
        exact fewer.2 k (h.vacant k f hk)

/-- **One move** keeps everything sound. -/
theorem moves (h : s.Sound) {e : Event} (hm : Moves s e t) : t.Sound := by
  cases hm with
  | rest flights callers entries =>
    refine ⟨h.led.same flights fun i k f => ?_, entries.1 h.kept, fun k f hk => ?_⟩
    · unfold leads
      rw [callers]
    · exact entries.2 k (h.vacant k f (flights.1 ▸ hk))
  | call key ttl => exact h.call key ttl
  | @land _ i f key ttl l staleAt leading own =>
    have hi : s.leads i key f := ⟨ttl, leading⟩
    refine ⟨h.led.leave hi (leads_only leading) rfl rfl (fun g l' hg => landing?_of_land hg)
      (leads_setCaller leading), ?_, fun k g hk => ?_⟩
    · change (s.cache.kept key l staleAt).Distinct
      unfold Cache.kept
      split
      · exact h.kept.set ..
      · exact h.kept
    · obtain ⟨hg, hkk⟩ := (h.led.distinct.get?_erase_iff key k g).mp hk
      change (s.cache.kept key l staleAt).get? k = none
      unfold Cache.kept
      split
      · rw [Members.get?_set, if_neg (Ne.symm hkk)]
        exact h.vacant k g hg
      · exact h.vacant k g hg
  | @lose i f key ttl outcome l leading lifeless =>
    have hi : s.leads i key f := ⟨ttl, leading⟩
    refine ⟨h.led.leave hi (leads_only leading) rfl rfl (fun g l' hg => .inl hg) (leads_setCaller leading),
      h.kept, fun k g hk => ?_⟩
    exact h.vacant k g ((h.led.distinct.get?_erase_iff key k g).mp hk).1
  | @leave _ i f l waiting own =>
    refine ⟨h.led.same ⟨rfl, rfl, rfl⟩ fun j k g => ?_, h.kept, h.vacant⟩
    rw [leads_setCaller waiting]
    refine and_iff_left_of_imp ?_
    rintro ⟨ttl, hj⟩ rfl
    rw [waiting] at hj
    cases hj

/-- **A run** keeps everything sound. -/
theorem run (h : s.Sound) (events : List Event) : (s.run events).Sound := by
  induction events generalizing s with
  | nil => exact h
  | cons e rest ih => exact ih (h.moves (moves_step s e))

end Sound

/-! ## one call -/

/-- the flight is over and has no end -/
def Lost (c : Cache) (f : Nat) : Prop :=
  c.landing? f = none ∧ f < c.misses ∧ ∀ key, c.inFlight.get? key ≠ some f

namespace Moves

variable {s t : Session} {e : Event} {i f : Nat}

theorem finished (hm : Moves s e t) {l : Landing} (h : s.callers[i]? = some (.finished l)) :
    t.callers[i]? = some (.finished l) := by
  cases hm with
  | rest flights callers entries =>
    rw [callers]
    exact h
  | call key ttl => exact getElem?_append_of_some h
  | land _ other => exact getElem?_setCaller_other other h (by simp)
  | lose _ other => exact getElem?_setCaller_other other h (by simp)
  | leave other => exact getElem?_setCaller_other other h (by simp)

/-- A call that waits goes on waiting, is cancelled, or goes on with the end of its flight. -/
theorem waiting (hm : Moves s e t) (h : s.callers[i]? = some (.waiting f)) (hc : e ≠ .cancel i) :
    t.callers[i]? = some (.waiting f) ∨
      ∃ l, s.cache.landing? f = some l ∧ t.callers[i]? = some (.finished l) := by
  cases hm with
  | rest flights callers entries =>
    rw [callers]
    exact .inl h
  | call key ttl => exact .inl (getElem?_append_of_some h)
  | land _ other => exact .inl (getElem?_setCaller_other other h (by simp))
  | lose _ other => exact .inl (getElem?_setCaller_other other h (by simp))
  | @leave _ j g l other own =>
    by_cases hij : j = i
    · subst hij
      rw [h] at other
      cases other
      rcases own with rfl | ⟨rfl, landed⟩
      · exact absurd rfl hc
      · exact .inr ⟨l, landed, getElem?_setCaller_self h⟩
    · rw [getElem?_setCaller_ne hij]
      exact .inl h

theorem landing (hm : Moves s e t) {l : Landing} (h : s.cache.landing? f = some l) :
    t.cache.landing? f = some l := by
  cases hm with
  | rest flights callers entries =>
    rw [flights.landing?]
    exact h
  | call key ttl =>
    change (s.cache.look s.now key).2.landing? f = some l
    unfold landing? at h ⊢
    rcases look_cases s.cache s.now key with ⟨_, _, hs⟩ | ⟨_, _, _, hs⟩ | ⟨_, _, _, hland, _⟩
    · rw [hs.2.1]
      exact h
    · rw [hs.2.1]
      exact h
    · rw [hland]
      exact h
  | @land _ j g key ttl m staleAt =>
    change (s.cache.land key g m staleAt).landing? f = some l
    rw [landing?_land, h]
    rfl
  | lose => exact h
  | leave => exact h

theorem lost (hs : s.Sound) (hm : Moves s e t) (h : Lost s.cache f) : Lost t.cache f := by
  obtain ⟨hn, hlt, hno⟩ := h
  cases hm with
  | rest flights callers entries =>
    refine ⟨by rw [flights.landing?, hn], ?_, ?_⟩
    · rw [flights.2.2]
      exact hlt
    · rw [flights.1]
      exact hno
  | call key ttl =>
    change Lost (s.cache.look s.now key).2 f
    rcases look_cases s.cache s.now key with ⟨_, _, hs⟩ | ⟨_, _, _, hs⟩ | ⟨_, _, hf, hland, hm⟩
    · exact ⟨by rw [hs.landing?, hn], hs.2.2 ▸ hlt, hs.1 ▸ hno⟩
    · exact ⟨by rw [hs.landing?, hn], hs.2.2 ▸ hlt, hs.1 ▸ hno⟩
    · refine ⟨?_, ?_, fun k hk => ?_⟩
      · unfold landing? at hn ⊢
        rw [hland]
        exact hn
      · rw [hm]
        exact Nat.lt_succ_of_lt hlt
      · rw [hf, Members.get?_set] at hk
        split at hk
        · cases hk
          exact Nat.lt_irrefl _ hlt
        · exact hno k hk
  | @land _ j g key ttl m staleAt leading =>
    have hj : s.leads j key g := ⟨ttl, leading⟩
    refine ⟨?_, hlt, fun k hk => hno k ((hs.led.distinct.get?_erase_iff key k f).mp hk).1⟩
    change (s.cache.land key g m staleAt).landing? f = none
    rw [landing?_land, hn, Option.none_or, if_neg]
    rintro rfl
    exact hno key (hs.led.inFlight hj)
  | lose l leading =>
    exact ⟨hn, hlt, fun k hk => hno k ((hs.led.distinct.get?_erase_iff _ k f).mp hk).1⟩
  | leave => exact ⟨hn, hlt, hno⟩

/-- A call that leads goes on leading, or ends, and so does its flight. -/
theorem leading (hs : s.Sound) (hm : Moves s e t) {key : String} {ttl : Json}
    (h : s.callers[i]? = some (.leading key f ttl)) :
    t.callers[i]? = some (.leading key f ttl) ∨
      ∃ l, t.callers[i]? = some (.finished l) ∧
        (t.cache.landing? f = some l ∨ Lost t.cache f ∧ ¬ IsLifetime ttl) := by
  have hi : s.leads i key f := ⟨ttl, h⟩
  cases hm with
  | rest flights callers entries =>
    rw [callers]
    exact .inl h
  | call key ttl => exact .inl (getElem?_append_of_some h)
  | @land _ j g key' ttl' l staleAt other =>
    by_cases hij : j = i
    · subst hij
      rw [h] at other
      cases other
      refine .inr ⟨l, getElem?_setCaller_self h, .inl ?_⟩
      change (s.cache.land key f l staleAt).landing? f = some l
      rw [landing?_land, hs.led.not_landed hi, if_pos rfl]
      rfl
    · rw [getElem?_setCaller_ne hij]
      exact .inl h
  | @lose j g key' ttl' outcome l other lifeless =>
    by_cases hij : j = i
    · subst hij
      rw [h] at other
      cases other
      refine .inr ⟨l, getElem?_setCaller_self h, .inr ⟨⟨hs.led.not_landed hi, ?_, fun k hk => ?_⟩, lifeless⟩⟩
      · exact hs.led.older key f (hs.led.inFlight hi)
      · obtain ⟨hk, hkk⟩ := (hs.led.distinct.get?_erase_iff key k f).mp hk
        exact hkk (hs.led.apart k key f hk (hs.led.inFlight hi))
    · rw [getElem?_setCaller_ne hij]
      exact .inl h
  | leave other => exact .inl (getElem?_setCaller_other other h (by simp))

end Moves

/-- Call `j` waits for the flight that call `k` leads, or `k` has ended, and then `j` has the same end or
will have it as soon as it goes on.  A flight can only be lost for want of a lifetime. -/
inductive Bound (s : Session) (j k : Nat) (key : String) (f : Nat) (ttl : Json) : Prop where
  | waits (waiting : s.callers[j]? = some (.waiting f)) (leading : s.callers[k]? = some (.leading key f ttl))
  | lands (l : Landing) (waiting : s.callers[j]? = some (.waiting f))
      (ended : s.callers[k]? = some (.finished l)) (landed : s.cache.landing? f = some l)
  | shares (l : Landing) (shared : s.callers[j]? = some (.finished l))
      (ended : s.callers[k]? = some (.finished l))
  | waitsOn (l : Landing) (waiting : s.callers[j]? = some (.waiting f))
      (ended : s.callers[k]? = some (.finished l)) (lost : Lost s.cache f) (lifeless : ¬ IsLifetime ttl)

namespace Bound

variable {s t : Session} {j k f : Nat} {key : String} {ttl : Json}

theorem moves {e : Event} (hb : s.Bound j k key f ttl) (hs : s.Sound) (hm : Moves s e t)
    (hc : e ≠ .cancel j) : t.Bound j k key f ttl := by
  cases hb with
  | waits waiting leading =>
    have waiting' : t.callers[j]? = some (.waiting f) := by
      rcases hm.waiting waiting hc with hw | ⟨l, landed, _⟩
      · exact hw
      · rw [hs.led.not_landed ⟨ttl, leading⟩] at landed
        cases landed
    rcases hm.leading hs leading with hl | ⟨l, ended, landed | ⟨lost, lifeless⟩⟩
    · exact .waits waiting' hl
    · exact .lands l waiting' ended landed
    · exact .waitsOn l waiting' ended lost lifeless
  | lands l waiting ended landed =>
    rcases hm.waiting waiting hc with hw | ⟨m, hm', hf⟩
    · exact .lands l hw (hm.finished ended) (hm.landing landed)
    · rw [landed] at hm'
      cases hm'
      exact .shares l hf (hm.finished ended)
  | shares l shared ended => exact .shares l (hm.finished shared) (hm.finished ended)
  | waitsOn l waiting ended lost lifeless =>
    rcases hm.waiting waiting hc with hw | ⟨m, hm', _⟩
    · exact .waitsOn l hw (hm.finished ended) (hm.lost hs lost) lifeless
    · rw [lost.1] at hm'
      cases hm'

/-- **Whatever happens**, unless it is cancelled itself, a call stays bound to the flight it waits for. -/
theorem run (hb : s.Bound j k key f ttl) (hs : s.Sound) (events : List Event) (hc : Event.cancel j ∉ events) :
    (s.run events).Bound j k key f ttl := by
  induction events generalizing s with
  | nil => exact hb
  | cons e rest ih =>
    rw [List.mem_cons, not_or] at hc
    obtain ⟨he, hr⟩ := hc
    have hm := moves_step s e
    exact ih (hb.moves hs hm (Ne.symm he)) (hs.moves hm) hr

end Bound

/-! ## a call cancelled while it waits -/

/-- Sessions that differ in one call at most, which leads nothing in either. -/
structure Beside (j : Nat) (s t : Session) : Prop where
  cache : t.cache = s.cache
  now : t.now = s.now
  length : t.callers.length = s.callers.length
  others : ∀ i, i ≠ j → t.callers[i]? = s.callers[i]?
  within : j < s.callers.length
  idle : ∀ key f ttl, s.callers[j]? ≠ some (.leading key f ttl) ∧ t.callers[j]? ≠ some (.leading key f ttl)

namespace Beside

variable {j : Nat} {s t : Session}

theorem setCallers (h : Beside j s t) (i : Nat) (c : Caller) (hi : i ≠ j) :
    Beside j (s.setCaller i c) (t.setCaller i c) where
  cache := h.cache
  now := h.now
  length := by simp only [setCaller, List.length_set, h.length]
  others k hk := by
    simp only [setCaller, List.getElem?_set, h.length, h.others k hk]
  within := by
    simp only [setCaller, List.length_set]
    exact h.within
  idle key f ttl := by
    rw [getElem?_setCaller_ne hi, getElem?_setCaller_ne hi]
    exact h.idle key f ttl

theorem end_left (h : Beside j s t) (l : Landing) : Beside j (s.setCaller j (.finished l)) t where
  cache := h.cache
  now := h.now
  length := by simp only [setCaller, List.length_set, h.length]
  others k hk := by
    rw [getElem?_setCaller_ne (Ne.symm hk)]
    exact h.others k hk
  within := by
    simp only [setCaller, List.length_set]
    exact h.within
  idle key f ttl := by
    refine ⟨?_, (h.idle key f ttl).2⟩
    simp only [setCaller, List.getElem?_set_self h.within]
    simp

theorem end_right (h : Beside j s t) (l : Landing) : Beside j s (t.setCaller j (.finished l)) where
  cache := h.cache
  now := h.now
  length := by simp only [setCaller, List.length_set, h.length]
  others k hk := by
    rw [getElem?_setCaller_ne (Ne.symm hk)]
    exact h.others k hk
  within := h.within
  idle key f ttl := by
    refine ⟨(h.idle key f ttl).1, ?_⟩
    simp only [setCaller, List.getElem?_set_self (h.length ▸ h.within)]
    simp

theorem withCache (h : Beside j s t) (c : Cache) : Beside j { s with cache := c } { t with cache := c } :=
  ⟨rfl, h.now, h.length, h.others, h.within, h.idle⟩

theorem call (h : Beside j s t) (key : String) (ttl : Json) :
    Beside j (s.call key ttl) (t.call key ttl) := by
  unfold Session.call
  rw [h.cache, h.now]
  refine ⟨rfl, rfl, ?_, fun i hi => ?_, ?_, fun k f u => ?_⟩
  · simp only [List.length_append, h.length]
  · simp only [List.getElem?_append, h.length, h.others i hi]
  · have := h.within
    simp only [List.length_append]
    omega
  · rw [List.getElem?_append_left h.within, List.getElem?_append_left (h.length ▸ h.within)]
    exact h.idle k f u

/-- What happens to a call that leads nothing: nothing, or it ends. -/
theorem step_own {e : Event} (he : e = .cancel j ∨ e = .resume j ∨ ∃ outcome, e = .complete j outcome)
    (idle : ∀ key f ttl, s.callers[j]? ≠ some (.leading key f ttl)) :
    s.step e = s ∨ ∃ l, s.step e = s.setCaller j (.finished l) := by
  rcases he with rfl | rfl | ⟨outcome, rfl⟩
  · unfold step
    dsimp only
    split
    · next leading => exact absurd leading (idle _ _ _)
    · exact .inr ⟨_, rfl⟩
    · exact .inl rfl
  · unfold step
    dsimp only
    split
    · split
      · exact .inr ⟨_, rfl⟩
      · exact .inl rfl
    · exact .inl rfl
  · unfold step
    dsimp only
    split
    · next leading => exact absurd leading (idle _ _ _)
    · exact .inl rfl

theorem own (h : Beside j s t) {e : Event}
    (he : e = .cancel j ∨ e = .resume j ∨ ∃ outcome, e = .complete j outcome) :
    Beside j (s.step e) (t.step e) := by
  have left : Beside j (s.step e) t := by
    rcases step_own he (fun key f ttl => (h.idle key f ttl).1) with hs | ⟨l, hs⟩
    · rw [hs]
      exact h
    · rw [hs]
      exact h.end_left l
  rcases step_own he (fun key f ttl => (h.idle key f ttl).2) with ht | ⟨l, ht⟩
  · rw [ht]
    exact left
  · rw [ht]
    exact left.end_right l

theorem complete (h : Beside j s t) {i : Nat} (hi : i ≠ j) (key : String) (f : Nat) (ttl : Json)
    (outcome : Except Fault Json) :
    Beside j (s.complete i key f ttl outcome) (t.complete i key f ttl outcome) := by
  obtain ⟨cache, clock, cs⟩ := s
  obtain ⟨cache', clock', cs'⟩ := t
  obtain rfl : cache' = cache := h.cache
  obtain rfl : clock' = clock := h.now
  unfold Session.complete
  dsimp only
  split
  · exact (h.withCache _).setCallers i _ hi
  · split
    · exact (h.withCache _).setCallers i _ hi
    · exact (h.withCache _).setCallers i _ hi

/-- **One event**: it does the same to both. -/
theorem step (h : Beside j s t) (e : Event) : Beside j (s.step e) (t.step e) := by
  cases e with
  | call key ttl => exact h.call key ttl
  | complete i outcome =>
    by_cases hi : i = j
    · subst hi
      exact h.own (.inr (.inr ⟨outcome, rfl⟩))
    · unfold Session.step
      dsimp only
      rw [h.others i hi]
      split
      · exact h.complete hi _ _ _ outcome
      · exact h
  | cancel i =>
    by_cases hi : i = j
    · subst hi
      exact h.own (.inl rfl)
    · unfold Session.step
      dsimp only
      rw [h.others i hi, h.cache]
      split
      · exact (h.withCache _).setCallers i _ hi
      · exact h.setCallers i _ hi
      · exact h
  | resume i =>
    by_cases hi : i = j
    · subst hi
      exact h.own (.inr (.inl rfl))
    · unfold Session.step
      dsimp only
      rw [h.others i hi, h.cache]
      split
      · split
        · exact h.setCallers i _ hi
        · exact h
      · exact h
  | get key => exact h
  | invalidate key =>
    unfold Session.step
    rw [h.cache]
    exact h.withCache _
  | clear =>
    unfold Session.step
    rw [h.cache]
    exact h.withCache _
  | tick seconds =>
    unfold Session.step
    rw [h.now]
    exact ⟨h.cache, rfl, h.length, h.others, h.within, h.idle⟩

/-- **A run** does the same to both. -/
theorem run (h : Beside j s t) (events : List Event) : Beside j (s.run events) (t.run events) := by
  induction events generalizing s t with
  | nil => exact h
  | cons e rest ih => exact ih (h.step e)

end Beside

theorem beside_cancel {s : Session} {j f : Nat} (waiting : s.callers[j]? = some (.waiting f)) :
    Beside j s (s.step (.cancel j)) := by
  have same : Beside j s s := by
    refine ⟨rfl, rfl, rfl, fun _ _ => rfl, (List.getElem?_eq_some_iff.mp waiting).1, fun key g ttl => ?_⟩
    rw [waiting]
    simp
  have hs : s.step (.cancel j) = s.setCaller j (.finished .cancelled) := by
    unfold step
    dsimp only
    rw [waiting]
  rw [hs]
  exact same.end_right .cancelled

/-! ## all together -/

theorem step_complete {s : Session} {k f : Nat} {key : String} {ttl : Json}
    (leading : s.callers[k]? = some (.leading key f ttl)) (h : IsLifetime ttl) (outcome : Except Fault Json) :
    (s.step (.complete k outcome)).callers[k]? = some (.finished (.of outcome)) := by
  unfold step
  dsimp only
  rw [leading]
  dsimp only
  unfold complete
  cases outcome with
  | error e => exact getElem?_setCaller_self leading
  | ok v =>
    obtain ⟨t, ht⟩ := expiry_ok h s.now
    rw [ht]
    exact getElem?_setCaller_self leading

theorem step_cancel {s : Session} {k f : Nat} {key : String} {ttl : Json}
    (leading : s.callers[k]? = some (.leading key f ttl)) :
    (s.step (.cancel k)).callers[k]? = some (.finished .cancelled) := by
  unfold step
  dsimp only
  rw [leading]
  exact getElem?_setCaller_self leading

theorem step_resume {s : Session} {j f : Nat} {l : Landing} (waiting : s.callers[j]? = some (.waiting f))
    (landed : s.cache.landing? f = some l) : (s.step (.resume j)).callers[j]? = some (.finished l) := by
  unfold step
  dsimp only
  rw [waiting]
  dsimp only
  rw [landed]
  exact getElem?_setCaller_self waiting

/-- A call for a key under way waits for the flight under way, and nothing else changes for anyone. -/
theorem Sound.step_call {s : Session} (h : s.Sound) {key : String} {f : Nat}
    (hf : s.cache.inFlight.get? key = some f) (ttl : Json) :
    (s.step (.call key ttl)).callers = s.callers ++ [.waiting f] := by
  change (s.call key ttl).callers = _
  unfold Session.call
  rw [look_join hf (h.vacant key f hf)]

/-- **Single flight**, after any events whatsoever.  At most one call computes the value of a key.  A call
for a key under way waits for the flight under way.  Whatever happens after that, unless the call is
cancelled itself, it never computes anything, and it ends as the call that leads the flight ends: with the
outcome of that one computation, or cancelled with it.  A call that is cancelled while it waits changes
nothing for the cache and for the other calls, whatever happens later.  A computation that completes is the
outcome of the call that leads it where the lifetime is one: a float, or an integer in the range of floats. -/
theorem singleFlight (now : Binary64) (before : List Event) :
    let s : Session := (start now).run before
    (∀ (i j : Nat) key f f' ttl ttl', s.callers[i]? = some (.leading key f ttl) →
      s.callers[j]? = some (.leading key f' ttl') → i = j) ∧
    (∀ key f, s.cache.inFlight.get? key = some f →
      (∃ (k : Nat) (ttl : Json), s.callers[k]? = some (.leading key f ttl)) ∧
      ∀ ttl, (s.step (.call key ttl)).callers = s.callers ++ [.waiting f]) ∧
    (∀ (j k : Nat) key f ttl, s.callers[j]? = some (.waiting f) → s.callers[k]? = some (.leading key f ttl) →
      ∀ after, Event.cancel j ∉ after → (s.run after).Bound j k key f ttl) ∧
    (∀ (k : Nat) key f ttl, s.callers[k]? = some (.leading key f ttl) →
      (∀ outcome, IsLifetime ttl →
        (s.step (.complete k outcome)).callers[k]? = some (.finished (.of outcome))) ∧
      (s.step (.cancel k)).callers[k]? = some (.finished .cancelled)) ∧
    (∀ (j : Nat) f l, s.callers[j]? = some (.waiting f) → s.cache.landing? f = some l →
      (s.step (.resume j)).callers[j]? = some (.finished l)) ∧
    ∀ (j : Nat) f, s.callers[j]? = some (.waiting f) → ∀ after,
      ((s.step (.cancel j)).run after).cache = (s.run after).cache ∧
      ((s.step (.cancel j)).run after).now = (s.run after).now ∧
      ∀ k, k ≠ j → ((s.step (.cancel j)).run after).callers[k]? = (s.run after).callers[k]? := by
  intro s
  have hs : s.Sound := (sound_start now).run before
  refine ⟨fun i j key f f' ttl ttl' hi hj => ?_, fun key f hf => ?_, fun j k key f ttl hj hk after hc => ?_,
    fun k key f ttl hk => ?_, fun j f l hj hl => ?_, fun j f hj after => ?_⟩
  · exact hs.led.alone i j key f f' ⟨ttl, hi⟩ ⟨ttl', hj⟩
  · exact ⟨(hs.led.known key f).mp hf, fun ttl => hs.step_call hf ttl⟩
  · exact (Bound.waits hj hk).run hs after hc
  · exact ⟨fun outcome h => step_complete hk h outcome, step_cancel hk⟩
  · exact step_resume hj hl
  · have h := (beside_cancel hj).run after
    exact ⟨h.cache, h.now, h.others⟩

/-- A call that goes on after its flight has landed, and two calls for a second key. -/
theorem singleFlight_twoKeys :
    let calls : List Event := [.call "a" (.int 0), .call "a" (.int 0), .complete 0 (.ok (.int 7)),
      .call "b" (.int 0), .call "b" (.int 0)]
    let s : Session := (start (Binary64.zero false)).run calls
    (s.step (.call "b" (.int 0))).callers = s.callers ++ [.waiting 1] ∧
    (s.run [.complete 2 (.ok (.int 8)), .clear, .resume 3]).Bound 3 2 "b" 1 (.int 0) ∧
    (s.step (.complete 2 (.ok (.int 8)))).callers[2]? = some (.finished (.value (.int 8))) ∧
    (s.step (.resume 1)).callers[1]? = some (.finished (.value (.int 7))) ∧
    ((s.step (.cancel 3)).run [.complete 2 (.ok (.int 8))]).callers[2]? =
      (s.run [.complete 2 (.ok (.int 8))]).callers[2]? := by
  intro calls s
  obtain ⟨_, joins, binds, ends, goesOn, beside⟩ := singleFlight (Binary64.zero false) calls
  have leading : s.callers[2]? = some (.leading "b" 1 (.int 0)) := rfl
  have waiting : s.callers[3]? = some (.waiting 1) := rfl
  have lifetime : IsLifetime (.int 0) := ⟨.int 0, rfl, fun i h => by cases h; rfl⟩
  refine ⟨(joins "b" 1 rfl).2 (.int 0), binds 3 2 "b" 1 (.int 0) waiting leading _ ?_,
    (ends 2 "b" 1 (.int 0) leading).1 (.ok (.int 8)) lifetime, goesOn 1 0 (.value (.int 7)) rfl rfl,
    (beside 3 1 waiting _).2.2 2 (by decide)⟩
  intro h
  simp at h

end EventRouting.Cache.Session
