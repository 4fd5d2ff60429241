import EventRouting.Cache.Basic

/-!
# Flights

Which flights of a cache are under way, and who leads them.

* `Cache.IsLifetime`     a number that a reading of the clock can be moved by
* `Cache.SameFlights`    a cache after something that no flight notices
* `Cache.look_cases`     everything that a call can find
* `Cache.Led`            the flights under way are those that somebody leads, one for a key
* `Cache.Led.same`, `Cache.Led.lead`, `Cache.Led.leave`   what each step makes of this
-/

namespace EventRouting.Cache

/-! ## lifetimes -/

/-- A lifetime is any float, not a number and the infinities included, or an integer in the range of floats, a truth
value counting as one.  No time of expiry comes of a larger integer or of what is no number, so what is said of
calls that complete is said of lifetimes. -/
def IsLifetime (ttl : Json) : Prop :=
  ∃ n, ttl.numeric? = some n ∧ ∀ i, n = .int i → (Binary64.ofInt i).isFinite = true

theorem expiry_ok {ttl : Json} (h : IsLifetime ttl) (now : Binary64) : ∃ t, expiry now ttl = .ok t := by
  obtain ⟨n, hn, hi⟩ := h
  unfold expiry
  rw [hn]
  dsimp only
  split
  · cases n with
    | int i => exact ⟨_, if_pos (hi i rfl)⟩
    | float x => exact ⟨_, rfl⟩
  · exact ⟨none, rfl⟩

/-! ## looking -/

/-- nothing has changed for any flight -/
def SameFlights (c c' : Cache) : Prop :=
  c'.inFlight = c.inFlight ∧ c'.landed = c.landed ∧ c'.misses = c.misses

theorem SameFlights.landing? {c c' : Cache} (h : SameFlights c c') (f : Nat) :
    c'.landing? f = c.landing? f := by
  unfold Cache.landing?
  rw [h.2.1]

theorem board_entries (c : Cache) (key : String) : (c.board key).2.entries = c.entries := by
  unfold board
  split <;> rfl

/-- What the calls that miss a key have in common: the entries are those from before, perhaps without
that of the key. -/
theorem look_eq (c : Cache) (now : Binary64) (key : String) :
    (∃ e, c.entries.get? key = some e ∧ c.look now key = (.hit e.value, { c with hits := c.hits + 1 })) ∨
    ∃ entries, (entries = c.entries ∧ c.entries.get? key = none ∨ entries = c.entries.erase key) ∧
      c.look now key = { c with entries := entries }.board key := by
  unfold look
  split
  · next e he =>
    split
    · exact .inr ⟨_, .inr rfl, rfl⟩
    · exact .inl ⟨e, he, rfl⟩
  · next he => exact .inr ⟨_, .inl ⟨rfl, he⟩, rfl⟩

/-- **What a call finds**: a value, a flight to wait for, or nothing, and then it leads the next flight. -/
theorem look_cases (c : Cache) (now : Binary64) (key : String) :
    (∃ v, (c.look now key).1 = .hit v ∧ SameFlights c (c.look now key).2) ∨
    (∃ f, c.inFlight.get? key = some f ∧ (c.look now key).1 = .join f ∧ SameFlights c (c.look now key).2) ∨
    (c.inFlight.get? key = none ∧ (c.look now key).1 = .lead c.misses ∧
      (c.look now key).2.inFlight = c.inFlight.set key c.misses ∧
      (c.look now key).2.landed = c.landed ∧ (c.look now key).2.misses = c.misses + 1) := by
  rcases look_eq c now key with ⟨e, _, h⟩ | ⟨entries, _, h⟩
  · rw [h]
    exact .inl ⟨e.value, rfl, rfl, rfl, rfl⟩
  · rw [h]
    unfold board
    dsimp only
    split
    · next f hf => exact .inr (.inl ⟨f, hf, rfl, rfl, rfl, rfl⟩)
    · next hf => exact .inr (.inr ⟨hf, rfl, rfl, rfl, rfl⟩)

/-! ## landing -/

theorem landing?_land (c : Cache) (key : String) (f : Nat) (l : Landing) (t : Option Binary64) (g : Nat) :
    (c.land key f l t).landing? g = (c.landing? g).or (if f = g then some l else none) := by
  unfold landing? land
  dsimp only
  rw [List.find?_append]
  by_cases h : f = g
  · subst h
    cases c.landed.find? fun l => l.1 == f <;> simp
  · cases c.landed.find? fun l => l.1 == g <;> simp [h]

theorem landing?_of_land {c : Cache} {key : String} {f g : Nat} {l l' : Landing} {t : Option Binary64}
    (h : (c.land key f l t).landing? g = some l') : c.landing? g = some l' ∨ g = f := by
  rw [landing?_land] at h
  cases hc : c.landing? g with
  | some m =>
    rw [hc] at h
    exact .inl h
  | none =>
    rw [hc, Option.none_or] at h
    split at h
    · next hfg => exact .inr hfg.symm
    · cases h

/-! ## leading -/

abbrev Leads : Type := Nat → String → Nat → Prop

/-- Every flight under way is led by one, every flight that is led is under way, and no flight that is
over is under way again. -/
structure Led (c : Cache) (leads : Leads) : Prop where
  distinct : c.inFlight.Distinct
  known : ∀ key f, c.inFlight.get? key = some f ↔ ∃ i, leads i key f
  alone : ∀ i j key f f', leads i key f → leads j key f' → i = j
  apart : ∀ key key' f, c.inFlight.get? key = some f → c.inFlight.get? key' = some f → key = key'
  older : ∀ key f, c.inFlight.get? key = some f → f < c.misses
  ended : ∀ f l, c.landing? f = some l → f < c.misses ∧ ∀ key, c.inFlight.get? key ≠ some f

variable {c c' : Cache} {leads leads' : Leads}

theorem led_empty (h : ∀ i key f, ¬ leads i key f) : empty.Led leads where
  distinct := List.nodup_nil
  known key f := by
    constructor
    · intro hf
      cases hf
    · rintro ⟨i, hi⟩
      exact absurd hi (h i key f)
  alone i j key f f' hi := absurd hi (h i key f)
  apart key key' f hf := by cases hf
  older key f hf := by cases hf
  ended f l hl := by cases hl

namespace Led

theorem inFlight (h : c.Led leads) {i : Nat} {key : String} {f : Nat} (hi : leads i key f) :
    c.inFlight.get? key = some f :=
  (h.known key f).mpr ⟨i, hi⟩

theorem not_landed (h : c.Led leads) {i : Nat} {key : String} {f : Nat} (hi : leads i key f) :
    c.landing? f = none := by
  cases hl : c.landing? f with
  | none => rfl
  | some l => exact absurd (h.inFlight hi) ((h.ended f l hl).2 key)

theorem same (h : c.Led leads) (hs : SameFlights c c') (hl : ∀ i key f, leads' i key f ↔ leads i key f) :
    c'.Led leads' := by
  have hland := hs.landing?
  obtain ⟨hf, _, hm⟩ := hs
  refine ⟨?_, ?_, ?_, ?_, ?_, ?_⟩
  · rw [hf]
    exact h.distinct
  · intro key f
    rw [hf, h.known key f]
    exact exists_congr fun i => (hl i key f).symm
  · intro i j key f f' hi hj
    exact h.alone i j key f f' ((hl i key f).mp hi) ((hl j key f').mp hj)
  · rw [hf]
    exact h.apart
  · rw [hf, hm]
    exact h.older
  · intro f l hfl
    rw [hland] at hfl
    rw [hf, hm]
    exact h.ended f l hfl

theorem lead (h : c.Led leads) (i : Nat) {key : String} (hk : c.inFlight.get? key = none)
    (hf : c'.inFlight = c.inFlight.set key c.misses) (hland : c'.landed = c.landed)
    (hm : c'.misses = c.misses + 1)
    (hl : ∀ j k f, leads' j k f ↔ leads j k f ∨ (j = i ∧ k = key ∧ f = c.misses)) : c'.Led leads' := by
  have free : ∀ j f, ¬ leads j key f := fun j f hj => by
    rw [h.inFlight hj] at hk
    cases hk
  have get : ∀ k f, c'.inFlight.get? k = some f ↔
      (c.inFlight.get? k = some f ∧ k ≠ key) ∨ (k = key ∧ f = c.misses) := by
    intro k f
    rw [hf, Members.get?_set]
    by_cases hkk : key = k
    · subst hkk
      simp [eq_comm]
    · simp [hkk, Ne.symm hkk]
  refine ⟨?_, ?_, ?_, ?_, ?_, ?_⟩
  · rw [hf]
    exact h.distinct.set key c.misses
  · intro k f
    rw [get]
    constructor
    · rintro (⟨hg, _⟩ | ⟨rfl, rfl⟩)
      · obtain ⟨j, hj⟩ := (h.known k f).mp hg
        exact ⟨j, (hl j k f).mpr (.inl hj)⟩
      · exact ⟨i, (hl i k _).mpr (.inr ⟨rfl, rfl, rfl⟩)⟩
    · rintro ⟨j, hj⟩
      rcases (hl j k f).mp hj with hj | ⟨_, rfl, rfl⟩
      · refine .inl ⟨h.inFlight hj, ?_⟩
        rintro rfl
        exact free j f hj
      · exact .inr ⟨rfl, rfl⟩
  · intro a b k f f' ha hb
    rcases (hl a k f).mp ha with ha | ⟨rfl, rfl, rfl⟩
    · rcases (hl b k f').mp hb with hb | ⟨rfl, rfl, rfl⟩
      · exact h.alone a b k f f' ha hb
      · exact absurd ha (free a f)
    · rcases (hl b k f').mp hb with hb | ⟨rfl, _, _⟩
      · exact absurd hb (free b f')
      · rfl
  · intro k k' f hk1 hk2
    rcases (get k f).mp hk1 with ⟨h1, _⟩ | ⟨rfl, rfl⟩
    · rcases (get k' f).mp hk2 with ⟨h2, _⟩ | ⟨rfl, rfl⟩
      · exact h.apart k k' f h1 h2
      · exact absurd (h.older k _ h1) (Nat.lt_irrefl _)
    · rcases (get k' _).mp hk2 with ⟨h2, _⟩ | ⟨rfl, _⟩
      · exact absurd (h.older k' _ h2) (Nat.lt_irrefl _)
      · rfl
  · intro k f hg
    rw [hm]
    rcases (get k f).mp hg with ⟨hg, _⟩ | ⟨_, rfl⟩
    · exact Nat.lt_succ_of_lt (h.older k f hg)
    · exact Nat.lt_succ_self _
  · intro f l hfl
    unfold landing? at hfl
    rw [hland] at hfl
    obtain ⟨hlt, hno⟩ := h.ended f l hfl
    rw [hm]
    refine ⟨Nat.lt_succ_of_lt hlt, fun k hg => ?_⟩
    rcases (get k f).mp hg with ⟨hg, _⟩ | ⟨_, rfl⟩
    · exact hno k hg
    · exact Nat.lt_irrefl _ hlt

/-- What the others lead is what is led for other keys. -/
theorem others_iff (h : c.Led leads) {i : Nat} {key : String} {f : Nat} (hi : leads i key f)
    (only : ∀ k g, leads i k g → k = key) (j : Nat) (k : String) (g : Nat) :
    leads j k g ∧ j ≠ i ↔ leads j k g ∧ k ≠ key := by
  refine and_congr_right fun hj => not_congr ⟨?_, ?_⟩
  · rintro rfl
    exact only k g hj
  · rintro rfl
    exact h.alone j i k g f hj hi

theorem leave (h : c.Led leads) {i : Nat} {key : String} {f : Nat} (hi : leads i key f)
    (only : ∀ k g, leads i k g → k = key)
    (hf : c'.inFlight = c.inFlight.erase key) (hm : c'.misses = c.misses)
    (hland : ∀ g l, c'.landing? g = some l → c.landing? g = some l ∨ g = f)
    (left : ∀ j k g, leads' j k g ↔ leads j k g ∧ j ≠ i) : c'.Led leads' := by
  have hl : ∀ j k g, leads' j k g ↔ leads j k g ∧ k ≠ key := fun j k g =>
    (left j k g).trans (h.others_iff hi only j k g)
  have get : ∀ k g, c'.inFlight.get? k = some g ↔ c.inFlight.get? k = some g ∧ k ≠ key := by
    intro k g
    rw [hf]
    exact h.distinct.get?_erase_iff key k g
  refine ⟨?_, ?_, ?_, ?_, ?_, ?_⟩
  · rw [hf]
    exact h.distinct.erase key
  · intro k g
    rw [get, h.known k g]
    constructor
    · rintro ⟨⟨j, hj⟩, hk⟩
      exact ⟨j, (hl j k g).mpr ⟨hj, hk⟩⟩
    · rintro ⟨j, hj⟩
      obtain ⟨hj, hk⟩ := (hl j k g).mp hj
      exact ⟨⟨j, hj⟩, hk⟩
  · intro a b k g g' ha hb
    exact h.alone a b k g g' ((hl a k g).mp ha).1 ((hl b k g').mp hb).1
  · intro k k' g h1 h2
    exact h.apart k k' g ((get k g).mp h1).1 ((get k' g).mp h2).1
  · intro k g hg
    rw [hm]
    exact h.older k g ((get k g).mp hg).1
  · intro g l hgl
    rw [hm]
    rcases hland g l hgl with hgl | rfl
    · obtain ⟨hlt, hno⟩ := h.ended g l hgl
      exact ⟨hlt, fun k hg => hno k ((get k g).mp hg).1⟩
    · refine ⟨h.older key g (h.inFlight hi), fun k hg => ?_⟩
      obtain ⟨hg, hk⟩ := (get k g).mp hg
      exact hk (h.apart k key g hg (h.inFlight hi))

end Led

end EventRouting.Cache
