import EventRouting.Proofs.Cache.Flights
import EventRouting.Proofs.World.Interleaving

/-!
# Nobody waits for ever

Strands that land every flight that they lead always go on, all together.

* `Mode`              what a strand owes: nothing, the end of a flight, or it waits for one
* `Strand.Orderly`    a strand that pays what it owes before anything else that could keep it waiting
* `Tended`            the flights of all caches, and who leads them and waits for them
* `Together.Orderly`  strands that are orderly in a world that is tended
* `Together.Orderly.turn`, `Together.Orderly.runs`   turns keep this
* `Together.Orderly.progress`   all have come to their end, or one of them goes on
-/

namespace EventRouting

/-- What a strand owes to others, or waits for. -/
inductive Mode where
  | free
  | leads (cell : Cell) (key : String) (flight : Nat)
  | waits (cell : Cell) (flight : Nat)
deriving DecidableEq

def Mode.Moves (m : Mode) : Prop := ∀ cell flight, m ≠ .waits cell flight

theorem Mode.moves_free : Mode.free.Moves := fun _ _ h => nomatch h

theorem Mode.moves_leads (cell : Cell) (key : String) (flight : Nat) : (Mode.leads cell key flight).Moves :=
  fun _ _ h => nomatch h

/-! ## strands -/

namespace Strand

variable {α β : Type}

/-- A strand that, once it leads a flight, looks into no cache and waits for nothing before it has ended the
flight, and that, once it has found a flight to wait for, waits for it.  Lifetimes and records are as they
are said to be. -/
inductive Orderly (lifetimes : Json → Prop) (records : Record → Prop) : Mode → Strand α → Prop where
  | done (a : α) : Orderly lifetimes records .free (.done a)
  | ask {m : Mode} {r : Request} {next : Except Fault Response → Strand α} (moves : m.Moves)
      (rest : ∀ answer, Orderly lifetimes records m (next answer)) :
      Orderly lifetimes records m (.perform (.ask r) next)
  | enter {m : Mode} {s : Site} {next : Unit → Strand α} (moves : m.Moves)
      (rest : ∀ answer, Orderly lifetimes records m (next answer)) :
      Orderly lifetimes records m (.perform (.enter s) next)
  | record {r : Record} {next : Unit → Strand α} (h : records r)
      (rest : ∀ answer, Orderly lifetimes records .free (next answer)) :
      Orderly lifetimes records .free (.perform (.record r) next)
  | look {cell : Cell} {key : String} {next : Cache.Look → Strand α}
      (hit : ∀ v, Orderly lifetimes records .free (next (.hit v)))
      (join : ∀ f, Orderly lifetimes records (.waits cell f) (next (.join f)))
      (lead : ∀ f, Orderly lifetimes records (.leads cell key f) (next (.lead f))) :
      Orderly lifetimes records .free (.perform (.look cell key) next)
  | await {cell : Cell} {f : Nat} {next : Except Fault Json → Strand α}
      (rest : ∀ answer, Orderly lifetimes records .free (next answer)) :
      Orderly lifetimes records (.waits cell f) (.perform (.await cell f) next)
  | settle {cell : Cell} {key : String} {f : Nat} {ttl : Json} {outcome : Except Fault Json}
      {next : Except Fault Json → Strand α} (lifetime : lifetimes ttl)
      (rest : ∀ answer, Orderly lifetimes records .free (next answer)) :
      Orderly lifetimes records (.leads cell key f) (.perform (.settle cell key f ttl outcome) next)

variable {lifetimes : Json → Prop} {records : Record → Prop}

/-- One orderly run after another.  The second has to be orderly only after what the first can come to. -/
theorem Orderly.bind_of_follows {m : Mode} {s : Strand α} {f : α → Strand β} (hs : s.Orderly lifetimes records m)
    (hf : ∀ ds a, s.Follows ds (.done a) → (f a).Orderly lifetimes records .free) :
    (s.bind f).Orderly lifetimes records m := by
  induction hs with
  | done a => exact hf [] a (.refl _)
  | ask moves _ ih => exact .ask moves fun answer => ih answer fun _ a h => hf _ a (.step h)
  | enter moves _ ih => exact .enter moves fun answer => ih answer fun _ a h => hf _ a (.step h)
  | record h _ ih => exact .record h fun answer => ih answer fun _ a h => hf _ a (.step h)
  | look _ _ _ hit join lead =>
    exact .look (fun v => hit v fun _ a h => hf _ a (.step h)) (fun n => join n fun _ a h => hf _ a (.step h))
      fun n => lead n fun _ a h => hf _ a (.step h)
  | await _ ih => exact .await fun answer => ih answer fun _ a h => hf _ a (.step h)
  | settle lifetime _ ih => exact .settle lifetime fun answer => ih answer fun _ a h => hf _ a (.step h)

theorem Orderly.bind {m : Mode} {s : Strand α} {f : α → Strand β} (hs : s.Orderly lifetimes records m)
    (hf : ∀ a, (f a).Orderly lifetimes records .free) : (s.bind f).Orderly lifetimes records m :=
  hs.bind_of_follows fun _ a _ => hf a

theorem Orderly.next {m : Mode} {op : Op} {next : op.Answer → Strand α}
    (hs : (Strand.perform op next).Orderly lifetimes records m) (answer : op.Answer) :
    (∀ r, Deed.record? ⟨op, answer⟩ = some r → records r) ∧
      ∃ m', (next answer).Orderly lifetimes records m' := by
  cases hs with
  | ask _ left => exact ⟨fun r hr => (nomatch hr), _, left answer⟩
  | enter _ left => exact ⟨fun r hr => (nomatch hr), _, left answer⟩
  | record h left =>
    refine ⟨fun r hr => ?_, _, left answer⟩
    cases hr
    exact h
  | look hit join lead =>
    refine ⟨fun r hr => (nomatch hr), ?_⟩
    match answer with
    | .hit v => exact ⟨_, hit v⟩
    | .join f => exact ⟨_, join f⟩
    | .lead f => exact ⟨_, lead f⟩
  | await left => exact ⟨fun r hr => (nomatch hr), _, left answer⟩
  | settle _ left => exact ⟨fun r hr => (nomatch hr), _, left answer⟩

theorem Orderly.follows {m : Mode} {s t : Strand α} {ds : List Deed} (hs : s.Orderly lifetimes records m)
    (hf : s.Follows ds t) : ∀ d ∈ ds, ∀ r, d.record? = some r → records r := by
  induction hf generalizing m with
  | refl => exact fun d hd => nomatch hd
  | @step op next answer ds t rest ih =>
    obtain ⟨here, m', left⟩ := hs.next answer
    intro d hd r hr
    rcases List.mem_cons.mp hd with rfl | hd
    · exact here r hr
    · exact ih left d hd r hr

end Strand

/-! ## worlds -/

def leadsOf (modes : List Mode) (cell : Cell) : Cache.Leads :=
  fun i key f => modes[i]? = some (.leads cell key f)

/-- Every flight under way is led by a strand, and whoever waits waits for a flight that is under way or has
landed. -/
structure Tended (w : World) (modes : List Mode) : Prop where
  led : ∀ cell, (w.cache cell).Led (leadsOf modes cell)
  awaited : ∀ (i : Nat) cell f, modes[i]? = some (.waits cell f) →
    (∃ l, (w.cache cell).landing? f = some l) ∨ ∃ key, (w.cache cell).inFlight.get? key = some f

/-- Nothing is under way in any cache. -/
def World.IsQuiet (w : World) : Prop := ∀ cell, (w.cache cell).Led fun _ _ _ => False

theorem World.isQuiet_start (now : Binary64) : (World.start now).IsQuiet :=
  fun _ => Cache.led_empty fun _ _ _ h => h

section modes

variable {modes : List Mode} {i : Nat} {m : Mode}

theorem getElem?_set_modes (h : modes[i]? = some m) (m' : Mode) (j : Nat) (x : Mode) :
    (modes.set i m')[j]? = some x ↔ j = i ∧ x = m' ∨ j ≠ i ∧ modes[j]? = some x := by
  obtain ⟨hi, _⟩ := List.getElem?_eq_some_iff.mp h
  by_cases hij : i = j
  · subst hij
    rw [List.getElem?_set_self hi]
    simp [eq_comm]
  · rw [List.getElem?_set_ne hij]
    simp [Ne.symm hij]

/-- A strand that led nothing comes to owe something, or not. -/
theorem leadsOf_set (h : modes[i]? = some m) (hm : ∀ cell key f, m ≠ .leads cell key f) (m' : Mode)
    (cell : Cell) (j : Nat) (key : String) (f : Nat) :
    leadsOf (modes.set i m') cell j key f ↔
      leadsOf modes cell j key f ∨ (j = i ∧ m' = .leads cell key f) := by
  unfold leadsOf
  rw [getElem?_set_modes h]
  constructor
  · rintro (⟨rfl, he⟩ | ⟨_, hj⟩)
    · exact .inr ⟨rfl, he.symm⟩
    · exact .inl hj
  · rintro (hj | ⟨rfl, he⟩)
    · refine .inr ⟨?_, hj⟩
      rintro rfl
      rw [h] at hj
      exact hm cell key f (Option.some.inj hj)
    · exact .inl ⟨rfl, he.symm⟩

end modes

namespace Tended

variable {w w' : World} {modes : List Mode} {i : Nat}

theorem same (h : Tended w modes) (hc : w'.caches = w.caches) : Tended w' modes := by
  have cache : ∀ cell, w'.cache cell = w.cache cell := fun cell => by
    unfold World.cache
    rw [hc]
  refine ⟨fun cell => ?_, fun j cell f hj => ?_⟩
  · rw [cache]
    exact h.led cell
  · rw [cache]
    exact h.awaited j cell f hj

theorem stopWaiting (h : Tended w modes) {cell : Cell} {f : Nat} (hi : modes[i]? = some (.waits cell f)) :
    Tended w (modes.set i .free) := by
  refine ⟨fun c => ?_, fun j c g hj => ?_⟩
  · refine (h.led c).same ⟨rfl, rfl, rfl⟩ fun j key g => ?_
    rw [leadsOf_set hi (fun _ _ _ h => nomatch h)]
    simp
  · rcases (getElem?_set_modes hi .free j _).mp hj with ⟨_, he⟩ | ⟨_, hj⟩
    · cases he
    · exact h.awaited j c g hj

/-- One cache has changed, and with it only what strands owe that cache. -/
theorem change (h : Tended w modes) {modes' : List Mode} {cell : Cell} {c : Cache}
    (led : c.Led (leadsOf modes' cell))
    (leads : ∀ other, cell ≠ other → ∀ j key f, leadsOf modes' other j key f ↔ leadsOf modes other j key f)
    (awaited : ∀ (j : Nat) other f, modes'[j]? = some (.waits other f) →
      modes[j]? = some (.waits other f) ∨ cell = other ∧ ∃ key, c.inFlight.get? key = some f)
    (known : ∀ f, (∃ l, (w.cache cell).landing? f = some l) ∨
        (∃ key, (w.cache cell).inFlight.get? key = some f) →
      (∃ l, c.landing? f = some l) ∨ ∃ key, c.inFlight.get? key = some f) :
    Tended (w.setCache cell c) modes' := by
  refine ⟨fun other => ?_, fun j other f hj => ?_⟩
  · rw [World.cache_setCache]
    by_cases hc : cell = other
    · subst hc
      rw [if_pos rfl]
      exact led
    · rw [if_neg hc]
      exact (h.led other).same ⟨rfl, rfl, rfl⟩ (leads other hc)
  · rw [World.cache_setCache]
    rcases awaited j other f hj with hj | ⟨rfl, flying⟩
    · by_cases hc : cell = other
      · subst hc
        rw [if_pos rfl]
        exact known f (h.awaited j cell f hj)
      · rw [if_neg hc]
        exact h.awaited j other f hj
    · rw [if_pos rfl]
      exact .inr flying

/-- A strand looks into a cache and finds a value, or a flight that it then waits for. -/
theorem lookSame (h : Tended w modes) {cell : Cell} {c : Cache} (hi : modes[i]? = some .free)
    (hs : Cache.SameFlights (w.cache cell) c) {m : Mode}
    (hm : m = .free ∨ ∃ f key, m = .waits cell f ∧ (w.cache cell).inFlight.get? key = some f) :
    Tended (w.setCache cell c) (modes.set i m) := by
  have leads : ∀ other j key f, leadsOf (modes.set i m) other j key f ↔ leadsOf modes other j key f := by
    intro other j key f
    rw [leadsOf_set hi (fun _ _ _ h => nomatch h)]
    rcases hm with rfl | ⟨g, k, rfl, _⟩
    · simp
    · simp
  refine h.change ((h.led cell).same hs (leads cell)) (fun other _ => leads other) (fun j other g hj => ?_)
    fun f hf => ?_
  · rcases (getElem?_set_modes hi m j _).mp hj with ⟨_, he⟩ | ⟨_, hj⟩
    · rcases hm with rfl | ⟨f, key, rfl, hf⟩
      · cases he
      · cases he
        rw [hs.1]
        exact .inr ⟨rfl, key, hf⟩
    · exact .inl hj
  · rw [hs.landing?, hs.1]
    exact hf

/-- A strand looks into a cache, finds nothing, and leads a flight. -/
theorem lookLead (h : Tended w modes) {cell : Cell} {key : String} {c : Cache} (hi : modes[i]? = some .free)
    (hn : (w.cache cell).inFlight.get? key = none)
    (hf : c.inFlight = (w.cache cell).inFlight.set key (w.cache cell).misses)
    (hl : c.landed = (w.cache cell).landed) (hm : c.misses = (w.cache cell).misses + 1) :
    Tended (w.setCache cell c) (modes.set i (.leads cell key (w.cache cell).misses)) := by
  refine h.change ?_ (fun other hc j k g => ?_) (fun j other g hj => ?_) fun g hg => ?_
  · refine (h.led cell).lead i hn hf hl hm fun j k g => ?_
    rw [leadsOf_set hi (fun _ _ _ h => nomatch h)]
    simp [eq_comm]
  · rw [leadsOf_set hi (fun _ _ _ h => nomatch h)]
    simp [hc]
  · rcases (getElem?_set_modes hi _ j _).mp hj with ⟨_, he⟩ | ⟨_, hj⟩
    · cases he
    · exact .inl hj
  · rcases hg with ⟨l, landed⟩ | ⟨k, flying⟩
    · refine .inl ⟨l, ?_⟩
      unfold Cache.landing? at landed ⊢
      rw [hl]
      exact landed
    · refine .inr ⟨k, ?_⟩
      rw [hf, Members.get?_set, if_neg]
      · exact flying
      · rintro rfl
        rw [hn] at flying
        cases flying

theorem land (h : Tended w modes) {cell : Cell} {key : String} {f : Nat} {l : Cache.Landing}
    {staleAt : Option Binary64} (hi : modes[i]? = some (.leads cell key f)) :
    Tended (w.setCache cell ((w.cache cell).land key f l staleAt)) (modes.set i .free) := by
  have led : leadsOf modes cell i key f := hi
  have only : ∀ other k g, leadsOf modes other i k g → cell = other ∧ k = key := by
    intro other k g hg
    unfold leadsOf at hg
    rw [hi] at hg
    cases hg
    exact ⟨rfl, rfl⟩
  have left : ∀ other j k g, leadsOf (modes.set i .free) other j k g ↔ leadsOf modes other j k g ∧ j ≠ i := by
    intro other j k g
    unfold leadsOf
    rw [getElem?_set_modes hi]
    simp [and_comm]
  refine h.change ?_ (fun other hc j k g => ?_) (fun j other g hj => ?_) fun g hg => ?_
  · exact (h.led cell).leave led (fun k g hg => (only cell k g hg).2) rfl rfl
      (fun g l' hg => Cache.landing?_of_land hg) (left cell)
  · rw [left]
    refine and_iff_left_of_imp ?_
    rintro hj rfl
    exact hc (only other k g hj).1
  · rcases (getElem?_set_modes hi .free j _).mp hj with ⟨_, he⟩ | ⟨_, hj⟩
    · cases he
    · exact .inl hj
  · rw [Cache.landing?_land]
    rcases hg with ⟨m, landed⟩ | ⟨k, flying⟩
    · rw [landed]
      exact .inl ⟨m, rfl⟩
    · by_cases hk : key = k
      · subst hk
        rw [(h.led cell).inFlight led] at flying
        cases flying
        rw [(h.led cell).not_landed led, if_pos rfl]
        exact .inl ⟨l, rfl⟩
      · refine .inr ⟨k, ?_⟩
        exact (Members.get?_erase_ne _ hk).trans flying

theorem set_self {m : Mode} (hi : modes[i]? = some m) : modes.set i m = modes := by
  apply List.ext_getElem?
  intro j
  by_cases hij : i = j
  · subst hij
    rw [List.getElem?_set_self (List.getElem?_eq_some_iff.mp hi).1, hi]
  · rw [List.getElem?_set_ne hij]

/-- **One thing asked of the world** by an orderly strand, and what the strand owes then. -/
theorem perform {α : Type} {records : Record → Prop} {partner : Partner} {m : Mode} {op : Op}
    {next : op.Answer → Strand α} {answer : op.Answer} (h : Tended w modes) (hi : modes[i]? = some m)
    (ho : (Strand.perform op next).Orderly Cache.IsLifetime records m)
    (answered : w.perform partner op = some (w', answer)) :
    ∃ m', Tended w' (modes.set i m') ∧ (next answer).Orderly Cache.IsLifetime records m' := by
  cases ho with
  | ask _ left =>
    cases answered
    exact ⟨m, (set_self hi).symm ▸ h.same rfl, left _⟩
  | enter _ left =>
    cases answered
    exact ⟨m, (set_self hi).symm ▸ h.same rfl, left _⟩
  | record _ left =>
    cases answered
    exact ⟨.free, (set_self hi).symm ▸ h.same rfl, left _⟩
  | @look cell key next hit join lead =>
    cases answered
    rcases (w.cache cell).look_cases w.now key with ⟨v, hv, hs⟩ | ⟨f, hf, hj, hs⟩ | ⟨hn, hl, hf, hland, hm⟩
    · rw [hv]
      exact ⟨.free, h.lookSame hi hs (.inl rfl), hit v⟩
    · rw [hj]
      exact ⟨.waits cell f, h.lookSame hi hs (.inr ⟨f, key, rfl, hf⟩), join f⟩
    · rw [hl]
      exact ⟨.leads cell key _, h.lookLead hi hn hf hland hm, lead _⟩
  | @await cell f next left =>
    unfold World.perform at answered
    dsimp only at answered
    split at answered
    · cases answered
      exact ⟨.free, h.stopWaiting hi, left _⟩
    · cases answered
  | @settle cell key f ttl outcome next lifetime left =>
    have he : w.settle cell key f ttl outcome = (w', answer) := Option.some.inj answered
    unfold World.settle at he
    obtain ⟨staleAt, ht⟩ := Cache.expiry_ok lifetime w.now
    rw [ht] at he
    split at he
    · cases he
      exact ⟨.free, h.land hi, left _⟩
    · cases he
      exact ⟨.free, h.land hi, left _⟩

end Tended

/-! ## turns -/

namespace Together

variable {α : Type} {records : Record → Prop} {partner : Partner}

/-- orderly strands in a world whose flights they tend -/
def Orderly (records : Record → Prop) (t : Together α) : Prop :=
  ∃ modes : List Mode, modes.length = t.strands.length ∧ Tended t.world modes ∧
    ∀ (i : Nat) m s, modes[i]? = some m → t.strands[i]? = some s → s.Orderly Cache.IsLifetime records m

theorem orderly_of_quiet {w : World} {strands : List (Strand α)} (hw : w.IsQuiet)
    (hs : ∀ s ∈ strands, s.Orderly Cache.IsLifetime records .free) : Orderly records ⟨w, strands⟩ := by
  have free : ∀ (i : Nat) m, (List.replicate strands.length Mode.free)[i]? = some m → m = .free := by
    intro i m h
    exact List.eq_of_mem_replicate (List.mem_of_getElem? h)
  refine ⟨List.replicate strands.length .free, List.length_replicate, ⟨fun cell => ?_, fun i cell f h => ?_⟩,
    fun i m s hm hi => ?_⟩
  · refine (hw cell).same ⟨rfl, rfl, rfl⟩ fun i key f => ⟨fun h => ?_, fun h => h.elim⟩
    exact nomatch free i _ h
  · exact nomatch free i _ h
  · rw [free i m hm]
    exact hs s (List.mem_of_getElem? hi)

/-- **One turn** keeps everything orderly. -/
theorem Orderly.turn {t u : Together α} {i : Nat} {d : Deed} (h : Orderly records t)
    (turn : Turn partner i d t u) : Orderly records u := by
  obtain ⟨modes, length, tended, orderly⟩ := h
  cases turn with
  | @mk w w' strands op next answer now next_op answered =>
    change modes.length = strands.length at length
    have hi : i < modes.length := length ▸ (List.getElem?_eq_some_iff.mp next_op).1
    have hm : modes[i]? = some modes[i] := List.getElem?_eq_getElem hi
    have ho := orderly i _ _ hm next_op
    have tended : Tended { w with now := now } modes := tended.same rfl
    obtain ⟨m', tended', ho'⟩ := tended.perform hm ho answered
    refine ⟨modes.set i m', ?_, tended', fun j k s hj hs => ?_⟩
    · simp only [List.length_set, length]
    · rcases (getElem?_set_modes hm m' j k).mp hj with ⟨rfl, rfl⟩ | ⟨hji, hj⟩
      · change (strands.set j (next answer))[j]? = some s at hs
        rw [List.getElem?_set_self (length ▸ hi)] at hs
        cases hs
        exact ho'
      · change (strands.set i (next answer))[j]? = some s at hs
        rw [List.getElem?_set_ne (Ne.symm hji)] at hs
        exact orderly j k s hj hs

theorem Orderly.runs {t u : Together α} {ds : List (Nat × Deed)} (h : Orderly records t)
    (run : Runs partner t ds u) : Orderly records u := by
  induction run with
  | refl => exact h
  | step _ turn ih => exact ih.turn turn

theorem performs {m : Mode} {op : Op} {next : op.Answer → Strand α}
    (ho : (Strand.perform op next).Orderly Cache.IsLifetime records m) (moves : m.Moves) (w : World)
    (partner : Partner) : ∃ w' answer, w.perform partner op = some (w', answer) := by
  cases ho with
  | ask | enter | record | look | settle => exact ⟨_, _, rfl⟩
  | await => exact absurd rfl (moves _ _)

theorem turn_of_performs {w w' : World} {strands : List (Strand α)} {i : Nat} {op : Op}
    {next : op.Answer → Strand α} {answer : op.Answer} (hi : strands[i]? = some (.perform op next))
    (answered : w.perform partner op = some (w', answer)) :
    ∃ i d u, Turn partner i d ⟨w, strands⟩ u := ⟨i, _, _, .mk w.now hi answered⟩

theorem isDone_or_performs (strands : List (Strand α)) :
    (∃ results : List α, strands = results.map .done) ∨
      ∃ (i : Nat) (op : Op) (next : op.Answer → Strand α), strands[i]? = some (.perform op next) := by
  induction strands with
  | nil => exact .inl ⟨[], rfl⟩
  | cons s rest ih =>
    cases s with
    | perform op next => exact .inr ⟨0, op, next, rfl⟩
    | done a =>
      rcases ih with ⟨results, rfl⟩ | ⟨i, op, next, hi⟩
      · exact .inl ⟨a :: results, rfl⟩
      · exact .inr ⟨i + 1, op, next, hi⟩

/-- **Nobody waits for ever**: all strands have come to their end, or the world answers one of them. -/
theorem Orderly.progress {t : Together α} (h : Orderly records t) (partner : Partner) :
    (∃ results, t.IsDone results) ∨ ∃ i d u, Turn partner i d t u := by
  obtain ⟨w, strands⟩ := t
  obtain ⟨modes, length, tended, orderly⟩ := h
  change modes.length = strands.length at length
  have mode : ∀ {i : Nat} {s : Strand α}, strands[i]? = some s →
      ∃ m, modes[i]? = some m ∧ s.Orderly Cache.IsLifetime records m := by
    intro i s hs
    have hi : i < modes.length := length ▸ (List.getElem?_eq_some_iff.mp hs).1
    exact ⟨modes[i], List.getElem?_eq_getElem hi, orderly i _ s (List.getElem?_eq_getElem hi) hs⟩
  rcases isDone_or_performs strands with done | ⟨i, op, next, hi⟩
  · exact .inl done
  · right
    obtain ⟨m, hm, ho⟩ := mode hi
    cases m with
    | free =>
      obtain ⟨w', answer, answered⟩ := performs ho Mode.moves_free w partner
      exact turn_of_performs hi answered
    | leads cell key f =>
      obtain ⟨w', answer, answered⟩ := performs ho (Mode.moves_leads cell key f) w partner
      exact turn_of_performs hi answered
    | waits cell f =>
      rcases tended.awaited i cell f hm with ⟨l, landed⟩ | ⟨key, flying⟩
      · cases ho with
        | ask moves => exact absurd rfl (moves cell f)
        | enter moves => exact absurd rfl (moves cell f)
        | await =>
          have answered : w.perform partner (.await cell f) = some (w, l.result) := by
            unfold World.perform
            dsimp only
            rw [landed]
            rfl
          exact turn_of_performs hi answered
      · -- the flight has not landed, so it is the turn of the strand that leads it
        obtain ⟨j, hj⟩ := ((tended.led cell).known key f).mp flying
        have within : j < strands.length := length ▸ (List.getElem?_eq_some_iff.mp hj).1
        have hs := List.getElem?_eq_getElem within
        generalize strands[j] = s at hs
        have leading := orderly j _ s hj hs
        cases s with
        | done a => cases leading
        | perform op next =>
          obtain ⟨w', answer, answered⟩ := performs leading (Mode.moves_leads cell key f) w partner
          exact turn_of_performs hs answered

/-- There is an order of turns in which all come to their end. -/
theorem Orderly.finishes {t : Together α} (h : Orderly records t) (partner : Partner) :
    ∃ ds u results, Runs partner t ds u ∧ u.IsDone results := by
  obtain ⟨strands, hs⟩ : ∃ strands, strands = t.strands := ⟨_, rfl⟩
  induction acc_shorter strands generalizing t with
  | intro strands _ ih =>
    rcases h.progress partner with ⟨results, done⟩ | ⟨i, d, u, turn⟩
    · exact ⟨[], t, results, .refl t, done⟩
    · obtain ⟨ds, v, results, run, done⟩ := ih u.strands (hs ▸ turn.shorter) (h.turn turn) rfl
      exact ⟨_, v, results, (Runs.of_turn turn).trans run, done⟩

/-- Where all have come to their end, nothing is under way any more. -/
theorem Orderly.quiet {t : Together α} {results : List α} (h : Orderly records t) (done : t.IsDone results) :
    t.world.IsQuiet := by
  obtain ⟨modes, length, tended, orderly⟩ := h
  intro cell
  refine (tended.led cell).same ⟨rfl, rfl, rfl⟩ fun i key f => ⟨fun h => h.elim, fun hi => ?_⟩
  have within : i < t.strands.length := length ▸ (List.getElem?_eq_some_iff.mp hi).1
  have hs := List.getElem?_eq_getElem within
  have ho := orderly i _ _ hi hs
  have hmem : t.strands[i] ∈ results.map Strand.done := by
    rw [← show t.strands = results.map Strand.done from done]
    exact List.getElem_mem within
  obtain ⟨a, _, ha⟩ := List.mem_map.mp hmem
  rw [← ha] at ho
  cases ho

end Together

end EventRouting
