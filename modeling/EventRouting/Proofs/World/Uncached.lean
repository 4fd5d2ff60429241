import EventRouting.Proofs.Action.Orderly

/-!
# Results without caches

A strand that runs among others finds what they have kept.  Where a partner answers each request for itself,
and the outcome that a cache is to keep depends on the key alone, the strand comes to what it would come to
without caches.

* `Partner.IsStateless`   the answer to a request depends on the request alone
* `Strand.uncached`       what a strand comes to when every value is computed
* `Cache.Truthful`        a cache that says nothing else of a key than its outcome
* `Strand.Comes`          a strand and its result, whenever the caches are truthful
* `Together.Comes`        strands, their results, and truthful caches
* `Together.Comes.runs`   turns keep this
* `Strand.Comes.run`      a strand for which no flight is in the way runs to its end
-/

namespace EventRouting

/-- the answer to a request depends on the request alone -/
def Partner.IsStateless (partner : Partner) : Prop := ∀ before r, partner before r = partner [] r

/-- What comes of an outcome that is to be kept: a value needs a lifetime that is a number. -/
def Cache.lasting (ttl : Json) (outcome : Except Fault Json) : Except Fault Json :=
  outcome.bind fun v => (Cache.expiry (Binary64.zero false) ttl).map fun _ => v

/-- The answer to a strand for which nothing has been kept and nothing is under way. -/
def Op.uncached (partner : Partner) : (op : Op) → op.Answer
  | .ask r => partner [] r
  | .look .. => Cache.Look.lead 0
  | .await .. => Cache.Landing.cancelled.result
  | .settle _ _ _ ttl outcome => Cache.lasting ttl outcome
  | .record _ => ()
  | .enter _ => ()

/-- What a strand comes to when every value is computed. -/
def Strand.uncached {α : Type} (partner : Partner) : Strand α → α
  | done a => a
  | perform op next => (next (op.uncached partner)).uncached partner

theorem Strand.uncached_bind {α β : Type} (partner : Partner) (s : Strand α) (f : α → Strand β) :
    (s.bind f).uncached partner = (f (s.uncached partner)).uncached partner := by
  induction s with
  | done a => rfl
  | perform op next ih => exact ih _

/-! ## caches -/

namespace Cache

/-- Whether a lifetime is a number does not depend on the clock. -/
theorem expiry_map (now now' : Binary64) (ttl v : Json) :
    (expiry now ttl).map (fun _ => v) = (expiry now' ttl).map fun _ => v := by
  unfold expiry
  split
  · rfl
  · split
    · split
      · split <;> rfl
      · rfl
    · rfl

/-- Every entry is the outcome of its key, every flight is for its key, and has landed with the outcome of
its key.  `keys` tells the keys of the flights that there have been. -/
structure Truthful (outcome : String → Except Fault Json) (keys : Nat → Option String) (c : Cache) : Prop where
  entries : ∀ m ∈ c.entries, outcome m.1 = .ok m.2.value
  flying : ∀ m ∈ c.inFlight, keys m.2 = some m.1
  landed : ∀ l ∈ c.landed, ∃ key, keys l.1 = some key ∧ l.2.result = outcome key
  ahead : ∀ f, c.misses ≤ f → keys f = none

theorem truthful_empty (outcome : String → Except Fault Json) : empty.Truthful outcome fun _ => none where
  entries _ h := nomatch h
  flying _ h := nomatch h
  landed _ h := nomatch h
  ahead _ _ := rfl

theorem look_entries_subset (c : Cache) (now : Binary64) (key : String) :
    ∀ m ∈ (c.look now key).2.entries, m ∈ c.entries := by
  rcases c.look_eq now key with ⟨e, _, h⟩ | ⟨entries, he, h⟩
  · rw [h]
    exact fun _ hm => hm
  · rw [h, board_entries]
    rcases he with ⟨rfl, _⟩ | rfl
    · exact fun _ hm => hm
    · exact fun _ hm => (Members.erase_sublist _ key).subset hm

theorem mem_of_look_hit {c : Cache} {now : Binary64} {key : String} {v : Json}
    (h : (c.look now key).1 = .hit v) : ∃ e, (key, e) ∈ c.entries ∧ e.value = v := by
  rcases c.look_eq now key with ⟨e, he, hl⟩ | ⟨entries, _, hl⟩
  · rw [hl] at h
    cases h
    exact ⟨e, Members.mem_of_get?_eq_some he, rfl⟩
  · rw [hl] at h
    unfold Cache.board at h
    split at h <;> cases h

namespace Truthful

variable {outcome : String → Except Fault Json} {keys keys' : Nat → Option String} {c c' : Cache} {key : String}
  {f : Nat}

theorem same (h : c.Truthful outcome keys) (he : ∀ m ∈ c'.entries, m ∈ c.entries) (hs : SameFlights c c') :
    c'.Truthful outcome keys := by
  obtain ⟨hf, hl, hm⟩ := hs
  refine ⟨fun m hm => h.entries m (he m hm), ?_, ?_, ?_⟩
  · rw [hf]
    exact h.flying
  · rw [hl]
    exact h.landed
  · rw [hm]
    exact h.ahead

theorem lead (h : c.Truthful outcome keys) (he : ∀ m ∈ c'.entries, m ∈ c.entries)
    (hf : c'.inFlight = c.inFlight.set key c.misses) (hl : c'.landed = c.landed)
    (hm : c'.misses = c.misses + 1) (here : keys' c.misses = some key)
    (before : ∀ g, g ≠ c.misses → keys' g = keys g) : c'.Truthful outcome keys' := by
  have old : ∀ g k, keys g = some k → keys' g = some k := by
    intro g k hg
    rw [before g, hg]
    rintro rfl
    rw [h.ahead _ (Nat.le_refl _)] at hg
    cases hg
  refine ⟨fun m hm => h.entries m (he m hm), fun m hm => ?_, fun l hl' => ?_, fun g hg => ?_⟩
  · rw [hf] at hm
    rcases Members.mem_of_mem_set hm with rfl | hm
    · exact here
    · exact old _ _ (h.flying m hm)
  · rw [hl] at hl'
    obtain ⟨k, hk, said⟩ := h.landed l hl'
    exact ⟨k, old _ _ hk, said⟩
  · rw [hm] at hg
    rw [before g (by omega)]
    exact h.ahead g (by omega)

theorem land (h : c.Truthful outcome keys) (known : keys f = some key) {l : Landing}
    (said : l.result = outcome key) (staleAt : Option Binary64) :
    (c.land key f l staleAt).Truthful outcome keys := by
  refine ⟨fun m hm => ?_, fun m hm => h.flying m ((Members.erase_sublist _ key).subset hm), fun m hm => ?_,
    h.ahead⟩
  · change m ∈ c.kept key l staleAt at hm
    unfold kept at hm
    split at hm
    · rcases Members.mem_of_mem_set hm with rfl | hm
      · exact said.symm
      · exact h.entries m hm
    · exact h.entries m hm
  · rcases List.mem_append.mp hm with hm | hm
    · exact h.landed m hm
    · obtain rfl := List.mem_singleton.mp hm
      exact ⟨key, known, said⟩

theorem lose (h : c.Truthful outcome keys) (key : String) : (c.lose key).Truthful outcome keys :=
  ⟨h.entries, fun m hm => h.flying m ((Members.erase_sublist _ key).subset hm), h.landed, h.ahead⟩

theorem landing (h : c.Truthful outcome keys) (known : keys f = some key) {l : Landing}
    (landed : c.landing? f = some l) : l.result = outcome key := by
  unfold landing? at landed
  obtain ⟨m, found, rfl⟩ := Option.map_eq_some_iff.mp landed
  obtain ⟨k, hk, said⟩ := h.landed m (List.mem_of_find?_eq_some found)
  have same : m.1 = f := by simpa using List.find?_some found
  rw [same, known] at hk
  cases hk
  exact said

end Truthful

end Cache

/-! ## worlds -/

/-- The keys of the flights that there have been in the cells of a destination. -/
abbrev FlightKeys : Type := Cell → Nat → Option String

namespace FlightKeys

variable {keys keys' keys'' : FlightKeys}

def Within (keys keys' : FlightKeys) : Prop := ∀ cell f key, keys cell f = some key → keys' cell f = some key

theorem Within.refl (keys : FlightKeys) : keys.Within keys := fun _ _ _ h => h

def lead (keys : FlightKeys) (cell : Cell) (f : Nat) (key : String) : FlightKeys :=
  fun c g => if c = cell ∧ g = f then some key else keys c g

theorem lead_self (keys : FlightKeys) (cell : Cell) (f : Nat) (key : String) :
    keys.lead cell f key cell f = some key := if_pos ⟨rfl, rfl⟩

theorem lead_flight (keys : FlightKeys) (cell : Cell) {f g : Nat} (h : g ≠ f) (key : String) :
    keys.lead cell f key cell g = keys cell g := if_neg fun he => h he.2

theorem lead_cell (keys : FlightKeys) {cell other : Cell} (h : cell ≠ other) (f : Nat) (key : String) :
    keys.lead cell f key other = keys other := by
  funext g
  exact if_neg fun he => h he.1.symm

theorem within_lead {cell : Cell} {f : Nat} (h : keys cell f = none) (key : String) :
    keys.Within (keys.lead cell f key) := by
  intro c g k hk
  unfold lead
  rw [if_neg, hk]
  rintro ⟨rfl, rfl⟩
  rw [h] at hk
  cases hk

end FlightKeys

def World.Truthful (home : String) (outcome : Cell → String → Except Fault Json) (keys : FlightKeys)
    (w : World) : Prop :=
  ∀ cell, cell.destination = home → (w.cache cell).Truthful (outcome cell) (keys cell)

/-- What a strand has to do with flights: it leads one for a key, waits for one, or neither. -/
inductive Role where
  | free
  | leads (cell : Cell) (key : String) (flight : Nat)
  | waits (cell : Cell) (key : String) (flight : Nat)

namespace Role

def Known (keys : FlightKeys) : Role → Prop
  | free => True
  | leads cell key f | waits cell key f => keys cell f = some key

theorem Known.within {keys keys' : FlightKeys} {role : Role} (h : role.Known keys) (hk : keys.Within keys') :
    role.Known keys' := by
  cases role with
  | free => trivial
  | leads cell key f | waits cell key f => exact hk _ _ _ h

/-- No other flight is under way in the caches of a destination. -/
def Alone (home : String) (w : World) : Role → Prop
  | free => ∀ cell, cell.destination = home → (w.cache cell).inFlight = []
  | leads cell key f => (w.cache cell).inFlight = [(key, f)] ∧
      ∀ other, other.destination = home → cell ≠ other → (w.cache other).inFlight = []
  | waits .. => False

end Role

section world

variable {home : String} {outcome : Cell → String → Except Fault Json} {keys keys' : FlightKeys} {w : World}
  {cell : Cell} {c : Cache} {key : String} {f : Nat}

theorem World.Truthful.setCache (h : w.Truthful home outcome keys) (hc : c.Truthful (outcome cell) (keys' cell))
    (others : ∀ other, cell ≠ other → keys' other = keys other) :
    (w.setCache cell c).Truthful home outcome keys' := by
  intro other own
  rw [World.cache_setCache]
  by_cases he : cell = other
  · subst he
    rw [if_pos rfl]
    exact hc
  · rw [if_neg he, others other he]
    exact h other own

theorem World.Truthful.settle (h : w.Truthful home outcome keys) (own : cell.destination = home)
    (known : keys cell f = some key) {ttl : Json} {o : Except Fault Json}
    (kept : Cache.lasting ttl o = outcome cell key) :
    (w.settle cell key f ttl o).1.Truthful home outcome keys ∧
      (w.settle cell key f ttl o).2 = outcome cell key := by
  rw [← kept]
  unfold World.settle
  split
  · next fault => exact ⟨h.setCache ((h cell own).land (l := .fault fault) known kept none) fun _ _ => rfl, rfl⟩
  · next v =>
    have lasts := Cache.expiry_map w.now (Binary64.zero false) ttl v
    change _ = Cache.lasting ttl (.ok v) at lasts
    rw [← lasts] at kept ⊢
    split
    · next staleAt he =>
      rw [he] at kept ⊢
      exact ⟨h.setCache ((h cell own).land (l := .value v) known kept staleAt) fun _ _ => rfl, rfl⟩
    · next fault he =>
      rw [he]
      exact ⟨h.setCache ((h cell own).lose key) fun _ _ => rfl, rfl⟩

theorem inFlight_settle (w : World) (cell other : Cell) (key : String) (f : Nat) (ttl : Json)
    (o : Except Fault Json) :
    ((w.settle cell key f ttl o).1.cache other).inFlight =
      if cell = other then (w.cache cell).inFlight.erase key else (w.cache other).inFlight := by
  unfold World.settle
  split
  · rw [World.cache_setCache]
    split <;> rfl
  · split
    · rw [World.cache_setCache]
      split <;> rfl
    · rw [World.cache_setCache]
      split <;> rfl

theorem Role.Alone.of_cache {w' : World} {role : Role} (h : role.Alone home w)
    (same : ∀ cell, w'.cache cell = w.cache cell) : role.Alone home w' := by
  cases role with
  | free =>
    intro cell own
    rw [same]
    exact h cell own
  | leads cell key f =>
    refine ⟨?_, fun other own he => ?_⟩
    · rw [same]
      exact h.1
    · rw [same]
      exact h.2 other own he
  | waits => exact h

theorem Role.Alone.settle (h : (Role.leads cell key f).Alone home w) (ttl : Json) (o : Except Fault Json) :
    Role.free.Alone home (w.settle cell key f ttl o).1 := by
  intro other own
  rw [inFlight_settle]
  by_cases he : cell = other
  · rw [if_pos he, h.1, Members.erase, if_pos rfl]
  · rw [if_neg he]
    exact h.2 other own he

theorem Role.Alone.lead (h : Role.free.Alone home w) (own : cell.destination = home)
    (hf : c.inFlight = (w.cache cell).inFlight.set key f) :
    (Role.leads cell key f).Alone home (w.setCache cell c) := by
  refine ⟨?_, fun other own' he => ?_⟩
  · rw [World.cache_setCache, if_pos rfl, hf, h cell own]
    rfl
  · rw [World.cache_setCache, if_neg he]
    exact h other own'

theorem Role.Alone.same (h : Role.free.Alone home w) (hf : c.inFlight = (w.cache cell).inFlight) :
    Role.free.Alone home (w.setCache cell c) := by
  intro other own
  rw [World.cache_setCache]
  split
  · next he =>
    subst he
    rw [hf]
    exact h cell own
  · exact h other own

end world

/-! ## strands -/

namespace Strand

variable {α β : Type} {partner : Partner} {home : String} {outcome : Cell → String → Except Fault Json}

/-- A strand comes to a result, provided that the partner is stateless and the caches of the destination are
truthful: whatever it finds in them, and at the end of whatever flight, it goes on to the same. -/
inductive Comes (partner : Partner) (home : String) (outcome : Cell → String → Except Fault Json) :
    Role → Strand α → α → Prop where
  | done (a : α) : Comes partner home outcome .free (.done a) a
  | ask {role : Role} {r : Request} {next : Except Fault Response → Strand α} {a : α}
      (rest : Comes partner home outcome role (next (partner [] r)) a) :
      Comes partner home outcome role (.perform (.ask r) next) a
  | enter {role : Role} {s : Site} {next : Unit → Strand α} {a : α}
      (rest : Comes partner home outcome role (next ()) a) :
      Comes partner home outcome role (.perform (.enter s) next) a
  | record {role : Role} {r : Record} {next : Unit → Strand α} {a : α}
      (rest : Comes partner home outcome role (next ()) a) :
      Comes partner home outcome role (.perform (.record r) next) a
  | look {cell : Cell} {key : String} {next : Cache.Look → Strand α} {a : α} (own : cell.destination = home)
      (hit : ∀ v, outcome cell key = .ok v → Comes partner home outcome .free (next (.hit v)) a)
      (join : ∀ f, Comes partner home outcome (.waits cell key f) (next (.join f)) a)
      (lead : ∀ f, Comes partner home outcome (.leads cell key f) (next (.lead f)) a) :
      Comes partner home outcome .free (.perform (.look cell key) next) a
  | await {cell : Cell} {key : String} {f : Nat} {next : Except Fault Json → Strand α} {a : α}
      (own : cell.destination = home) (rest : Comes partner home outcome .free (next (outcome cell key)) a) :
      Comes partner home outcome (.waits cell key f) (.perform (.await cell f) next) a
  | settle {cell : Cell} {key : String} {f : Nat} {ttl : Json} {o : Except Fault Json}
      {next : Except Fault Json → Strand α} {a : α} (own : cell.destination = home)
      (kept : Cache.lasting ttl o = outcome cell key)
      (rest : Comes partner home outcome .free (next (outcome cell key)) a) :
      Comes partner home outcome (.leads cell key f) (.perform (.settle cell key f ttl o) next) a

namespace Comes

theorem bind {role : Role} {s : Strand α} {f : α → Strand β} {a : α} {b : β}
    (hs : s.Comes partner home outcome role a) (hf : (f a).Comes partner home outcome .free b) :
    (s.bind f).Comes partner home outcome role b := by
  induction hs with
  | done a => exact hf
  | ask _ ih => exact .ask (ih hf)
  | enter _ ih => exact .enter (ih hf)
  | record _ ih => exact .record (ih hf)
  | look own _ _ _ hit join lead =>
    exact .look own (fun v hv => hit v hv hf) (fun f => join f hf) fun f => lead f hf
  | await own _ ih => exact .await own (ih hf)
  | settle own kept _ ih => exact .settle own kept (ih hf)

/-- **One thing asked of the world**: the caches stay truthful, and the strand comes to the same result. -/
theorem perform (stateless : partner.IsStateless) {role : Role} {op : Op} {next : op.Answer → Strand α} {a : α}
    {w w' : World} {answer : op.Answer} {keys : FlightKeys}
    (h : (Strand.perform op next).Comes partner home outcome role a) (known : role.Known keys)
    (truthful : w.Truthful home outcome keys) (answered : w.perform partner op = some (w', answer)) :
    ∃ keys' role', keys.Within keys' ∧ w'.Truthful home outcome keys' ∧ role'.Known keys' ∧
      (next answer).Comes partner home outcome role' a ∧ (role.Alone home w → role'.Alone home w') := by
  cases h with
  | ask rest =>
    cases answered
    refine ⟨keys, role, .refl keys, truthful, known, ?_, fun alone => alone.of_cache fun _ => rfl⟩
    rw [stateless]
    exact rest
  | enter rest =>
    cases answered
    exact ⟨keys, role, .refl keys, truthful, known, rest, fun alone => alone.of_cache fun _ => rfl⟩
  | record rest =>
    cases answered
    exact ⟨keys, role, .refl keys, truthful, known, rest, fun alone => alone.of_cache fun _ => rfl⟩
  | @look cell key next a own hit join lead =>
    cases answered
    have here := truthful cell own
    have fewer := (w.cache cell).look_entries_subset w.now key
    rcases (w.cache cell).look_cases w.now key with ⟨v, hv, hs⟩ | ⟨f, hf, hj, hs⟩ | ⟨_, hl, hf, hland, hm⟩
    · obtain ⟨e, he, rfl⟩ := Cache.mem_of_look_hit hv
      rw [hv]
      exact ⟨keys, .free, .refl keys, truthful.setCache (here.same fewer hs) fun _ _ => rfl, trivial,
        hit _ (here.entries _ he), fun alone => alone.same hs.1⟩
    · have inFlight := Members.mem_of_get?_eq_some hf
      rw [hj]
      refine ⟨keys, .waits cell key f, .refl keys, truthful.setCache (here.same fewer hs) fun _ _ => rfl,
        here.flying _ inFlight, join f, fun alone => ?_⟩
      -- a strand that is alone finds no flight to wait for
      rw [alone cell own] at inFlight
      cases inFlight
    · -- the flight has the number of the misses so far, and no key was told for that one
      rw [hl]
      refine ⟨keys.lead cell (w.cache cell).misses key, .leads cell key _,
        FlightKeys.within_lead (here.ahead _ (Nat.le_refl _)) key, ?_, keys.lead_self .., lead _, fun alone => ?_⟩
      · exact truthful.setCache (here.lead fewer hf hland hm (keys.lead_self ..) fun g hg =>
          keys.lead_flight cell hg key) fun other ho => keys.lead_cell ho _ key
      · exact alone.lead own hf
  | @await cell key f next a own rest =>
    unfold World.perform at answered
    dsimp only at answered
    split at answered
    · next l landed =>
      cases answered
      refine ⟨keys, .free, .refl keys, truthful, trivial, ?_, fun alone => alone.elim⟩
      rw [(truthful cell own).landing known landed]
      exact rest
    · cases answered
  | @settle cell key f ttl o next a own kept rest =>
    have he : w.settle cell key f ttl o = (w', answer) := Option.some.inj answered
    obtain ⟨truthful', said⟩ := truthful.settle own known kept
    have alone' := fun alone : (Role.leads cell key f).Alone home w => alone.settle ttl o
    rw [he] at truthful' said alone'
    refine ⟨keys, .free, .refl keys, truthful', trivial, ?_, alone'⟩
    rw [show answer = outcome cell key from said]
    exact rest

/-- **A strand that nobody is in the way of** runs to its end. -/
theorem run (stateless : partner.IsStateless) {s : Strand α} {role : Role} {a : α} {w : World} {keys : FlightKeys}
    (h : s.Comes partner home outcome role a) (known : role.Known keys) (truthful : w.Truthful home outcome keys)
    (alone : role.Alone home w) :
    ∃ w' keys', s.run partner w = (w', .done a) ∧ w'.Truthful home outcome keys' ∧ Role.free.Alone home w' := by
  -- by the strand, since the world tells which way it goes
  induction s generalizing role w keys with
  | done b =>
    cases h
    exact ⟨w, keys, rfl, truthful, alone⟩
  | perform op next ih =>
    have answers : ∃ w' answer, w.perform partner op = some (w', answer) := by
      cases h with
      | ask | enter | record | look | settle => exact ⟨_, _, rfl⟩
      | await => exact alone.elim
    obtain ⟨w', answer, answered⟩ := answers
    obtain ⟨keys', role', _, truthful', known', comes, alone'⟩ := h.perform stateless known truthful answered
    obtain ⟨w'', keys'', ran, result⟩ := ih answer comes known' truthful' (alone' alone)
    refine ⟨w'', keys'', ?_, result⟩
    rw [Strand.run, answered]
    exact ran

end Comes

/-- A strand that comes to the same with caches as without. -/
def Steady (partner : Partner) (home : String) (outcome : Cell → String → Except Fault Json) (s : Strand α) : Prop :=
  s.Comes partner home outcome .free (s.uncached partner)

theorem Steady.bind {s : Strand α} {f : α → Strand β} (hs : s.Steady partner home outcome)
    (hf : ∀ a, (f a).Steady partner home outcome) : (s.bind f).Steady partner home outcome := by
  unfold Steady
  rw [uncached_bind]
  exact Comes.bind hs (hf _)

theorem Plain.comes_bind {role : Role} {s : Strand α} {f : α → Strand β} {b : β} (hs : s.Plain)
    (hf : (f (s.uncached partner)).Comes partner home outcome role b) :
    (s.bind f).Comes partner home outcome role b := by
  induction hs with
  | done a => exact hf
  | ask _ ih => exact .ask (ih _ hf)
  | enter _ ih => exact .enter (ih _ hf)

theorem Plain.steady {s : Strand α} (hs : s.Plain) : s.Steady partner home outcome := by
  have h : (s.bind .done).Comes partner home outcome .free (s.uncached partner) := hs.comes_bind (.done _)
  rwa [bind_done] at h

end Strand

theorem Attempt.steady_bind {α β : Type} {partner : Partner} {home : String}
    {outcome : Cell → String → Except Fault Json} {x : Attempt α} {f : α → Attempt β}
    (hx : x.outcome.Steady partner home outcome) (hf : ∀ a, (f a).outcome.Steady partner home outcome) :
    Strand.Steady partner home outcome (x >>= f : Attempt β).outcome := by
  rw [bind_eq]
  refine hx.bind fun r => ?_
  cases r with
  | ok a => exact hf a
  | error e => exact .done _

/-! ## strands together -/

namespace Together

variable {α : Type} {partner : Partner} {home : String} {outcome : Cell → String → Except Fault Json}
  {results : List α}

def Comes (partner : Partner) (home : String) (outcome : Cell → String → Except Fault Json) (results : List α)
    (t : Together α) : Prop :=
  ∃ keys, t.world.Truthful home outcome keys ∧ ∀ (i : Nat) s, t.strands[i]? = some s →
    ∃ role a, results[i]? = some a ∧ role.Known keys ∧ s.Comes partner home outcome role a

theorem Comes.turn (stateless : partner.IsStateless) {t u : Together α} {i : Nat} {d : Deed}
    (h : t.Comes partner home outcome results) (turn : Turn partner i d t u) :
    u.Comes partner home outcome results := by
  obtain ⟨keys, truthful, comes⟩ := h
  cases turn with
  | @mk w w' strands op next answer now next_op answered =>
    obtain ⟨role, a, ha, known, hs⟩ := comes i _ next_op
    have truthful : World.Truthful home outcome keys { w with now := now } := truthful
    obtain ⟨keys', role', within, truthful', known', left, _⟩ := hs.perform stateless known truthful answered
    refine ⟨keys', truthful', fun j s hj => ?_⟩
    by_cases hij : i = j
    · subst hij
      have set := List.getElem?_set_self (a := next answer) (List.getElem?_eq_some_iff.mp next_op).1
      cases set.symm.trans hj
      exact ⟨role', a, ha, known', left⟩
    · obtain ⟨role, b, hb, known, hs⟩ := comes j s ((List.getElem?_set_ne hij).symm.trans hj)
      exact ⟨role, b, hb, known.within within, hs⟩

/-- **However strands take turns**, each comes to its own result. -/
theorem Comes.runs (stateless : partner.IsStateless) {t u : Together α} {ds : List (Nat × Deed)}
    (h : t.Comes partner home outcome results) (run : Runs partner t ds u) :
    u.Comes partner home outcome results := by
  induction run with
  | refl => exact h
  | step _ turn ih => exact ih.turn stateless turn

theorem Comes.result {t : Together α} (h : t.Comes partner home outcome results) {i : Nat} {a : α}
    (done : t.strands[i]? = some (.done a)) : results[i]? = some a := by
  obtain ⟨keys, _, comes⟩ := h
  obtain ⟨role, b, hb, _, hs⟩ := comes i _ done
  cases hs
  exact hb

theorem Comes.of_steady {w : World} {keys : FlightKeys} (truthful : w.Truthful home outcome keys)
    {strands : List (Strand α)} (steady : ∀ s ∈ strands, s.Steady partner home outcome) :
    (⟨w, strands⟩ : Together α).Comes partner home outcome (strands.map (·.uncached partner)) := by
  refine ⟨keys, truthful, fun i s hs => ⟨.free, s.uncached partner, ?_, trivial, ?_⟩⟩
  · rw [List.getElem?_map, hs]
    rfl
  · exact steady s (List.mem_of_getElem? hs)

/-- Strands that are run one after the other, nobody in the way of the first, all run to their end. -/
theorem runAll_of_steady (stateless : partner.IsStateless) {w : World} {keys : FlightKeys}
    (truthful : w.Truthful home outcome keys) (alone : Role.free.Alone home w) {strands : List (Strand α)}
    (steady : ∀ s ∈ strands, s.Steady partner home outcome) :
    (Strand.runAll partner strands w).2 = (strands.map (·.uncached partner)).map .done := by
  induction strands generalizing w keys with
  | nil => rfl
  | cons s rest ih =>
    have known : Role.free.Known keys := trivial
    obtain ⟨w', keys', ran, truthful', alone'⟩ :=
      (steady s List.mem_cons_self).run stateless known truthful alone
    have others := ih truthful' alone' fun s hs => steady s (List.mem_cons_of_mem _ hs)
    show (s.run partner w).2 :: (Strand.runAll partner rest (s.run partner w).1).2 = _
    rw [ran, others]
    rfl

end Together

end EventRouting
