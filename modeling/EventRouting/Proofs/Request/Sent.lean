import EventRouting.Proofs.Action.Orderly
import EventRouting.Proofs.Request.Layers

/-!
# What a client sends

Every request that is sent is one of a call that the callable makes, under the options of its client.

* `Strand.Only`           a strand that asks the world for things of one sort only
* `Talk.Makes`            the calls of a talk
* `Call.Sends`            the requests of a call: the one that is prepared, and those it is sent on as
* `Client.converse_only`  a talk has only the requests of its calls sent
* `Call.Sends.timeout_eq`, `Call.Sends.header_cases`   how long they wait, and where their headers come from
* `Options.Gathered`      where the headers of layers come from, and when they keep the timeout below
-/

namespace EventRouting

/-! ## strands that do things of one sort -/

namespace Strand

variable {α β : Type} {P : Op → Prop}

/-- Whatever the world answers, a strand asks it only for things that `P` holds of. -/
inductive Only (P : Op → Prop) : Strand α → Prop where
  | done (a : α) : Only P (.done a)
  | perform {op : Op} {next : op.Answer → Strand α} (h : P op) (rest : ∀ answer, Only P (next answer)) :
      Only P (.perform op next)

theorem Only.bind {s : Strand α} {f : α → Strand β} (hs : s.Only P) (hf : ∀ a, (f a).Only P) :
    (s.bind f).Only P := by
  induction hs with
  | done a => exact hf a
  | perform h _ ih => exact .perform h ih

theorem Only.imp {Q : Op → Prop} (h : ∀ op, P op → Q op) {s : Strand α} (hs : s.Only P) : s.Only Q := by
  induction hs with
  | done a => exact .done a
  | perform hop _ ih => exact .perform (h _ hop) ih

theorem Only.follows {s t : Strand α} {ds : List Deed} (hs : s.Only P) (h : s.Follows ds t) :
    ∀ d ∈ ds, P d.op := by
  induction h with
  | refl => exact fun d hd => nomatch hd
  | step _ ih =>
    cases hs with
    | perform hop rest => exact List.forall_mem_cons.mpr ⟨hop, ih (rest _)⟩

end Strand

theorem Attempt.only_bind {α β : Type} {P : Op → Prop} {x : Attempt α} {f : α → Attempt β}
    (hx : x.outcome.Only P) (hf : ∀ a, (f a).outcome.Only P) :
    Strand.Only P (x >>= f : Attempt β).outcome := by
  rw [bind_eq]
  refine hx.bind fun r => ?_
  cases r with
  | ok a => exact hf a
  | error e => exact .done _

theorem Attempt.only_ofExcept {α β : Type} {P : Op → Prop} {e : Except Fault α} {f : α → Attempt β}
    (hf : ∀ a, e = .ok a → (f a).outcome.Only P) : Strand.Only P (ofExcept e >>= f : Attempt β).outcome := by
  cases e with
  | ok a => exact hf a rfl
  | error e => exact .done _

/-! ## calls and requests -/

/-- the calls that a talk may make, whatever it is answered -/
inductive Talk.Makes : Talk → Call → Prop where
  | now (c : Call) (next : Except Fault Response → Talk) : Makes (.ask c next) c
  | later {c c' : Call} {next : Except Fault Response → Talk} (answer : Except Fault Response)
      (h : Makes (next answer) c') : Makes (.ask c next) c'

/-- the requests of a call under options: the one that is prepared, and each that an answer sends it on as -/
inductive Call.Sends (o : Options) (c : Call) : Request → Prop where
  | prepared {r : Request} (h : c.prepare o = .ok r) : Sends o c r
  | redirected {r next : Request} {status : Int} {location : String} (sent : Sends o c r)
      (h : r.redirected status location = .ok next) : Sends o c next

namespace Client

open Attempt

variable {o : Options} {c : Call}

def IsSent (o : Options) (c : Call) (op : Op) : Prop := ∃ r, op = .ask r ∧ c.Sends o r

theorem sendOnce_only {r : Request} (sent : c.Sends o r) : (sendOnce r).outcome.Only (IsSent o c) := by
  unfold sendOnce
  refine only_bind (.perform ⟨r, rfl, sent⟩ fun answer => .done _) fun answer => ?_
  split <;> exact .done _

theorem send_only (follow : Bool) (hops : Nat) {r : Request} (sent : c.Sends o r) :
    (send follow hops r).outcome.Only (IsSent o c) := by
  induction hops generalizing r with
  | zero =>
    unfold send
    refine only_bind (sendOnce_only sent) fun answer => ?_
    split
    · exact .done _
    · refine only_ofExcept fun next _ => ?_
      split <;> exact .done _
  | succ hops ih =>
    unfold send
    refine only_bind (sendOnce_only sent) fun answer => ?_
    split
    · exact .done _
    · refine only_ofExcept fun next hr => ?_
      split
      · exact .done _
      · exact ih (.redirected sent hr)

theorem exchange_only (o : Options) (c : Call) : (exchange o c).outcome.Only (IsSent o c) := by
  unfold exchange
  refine only_ofExcept fun r hr => only_bind (send_only _ _ (.prepared hr)) fun sent => ?_
  split
  split <;> exact .done _

/-- **A talk** has only requests of its own calls sent. -/
theorem converse_only (o : Options) (t : Talk) :
    (converse o t).outcome.Only fun op => ∃ c, t.Makes c ∧ IsSent o c op := by
  induction t with
  | fail f => exact .done _
  | give v => exact .done _
  | pass r => exact .done _
  | ask c next ih =>
    refine ((exchange_only o c).imp fun op h => ⟨c, .now c next, h⟩).bind fun answer => ?_
    exact (ih answer).imp fun op ⟨c', made, h⟩ => ⟨c', .later answer made, h⟩

end Client

namespace Call

variable {o : Options} {c : Call} {r : Request}

theorem exists_of_prepare (h : c.prepare o = .ok r) : ∃ below own kind,
    Headers.encodeAll o.resolvedHeaders = .ok below ∧ Headers.encode c.headers = .ok own ∧
      (∀ k ∈ kind, k.1 = "content-type") ∧ r.headers = Headers.override below own ++ kind ∧
      r.timeout = c.timeoutOf o := by
  obtain ⟨_, _, h⟩ := exists_of_bind_eq_ok h
  obtain ⟨below, hb, h⟩ := exists_of_bind_eq_ok h
  obtain ⟨_, _, h⟩ := exists_of_bind_eq_ok h
  obtain ⟨_, _, h⟩ := exists_of_bind_eq_ok h
  obtain ⟨own, ho, h⟩ := exists_of_bind_eq_ok h
  obtain ⟨_, _, h⟩ := exists_of_bind_eq_ok h
  obtain ⟨body, _, h⟩ := exists_of_bind_eq_ok h
  have made := Except.ok.inj h
  refine ⟨below, own, _, hb, ho, ?_, congrArg Request.headers made.symm, congrArg Request.timeout made.symm⟩
  split
  · split
    · exact fun _ hk => nomatch hk
    · intro k hk
      rw [List.mem_singleton.mp hk]
  · exact fun _ hk => nomatch hk

theorem Sends.timeout_eq (h : c.Sends o r) : r.timeout = c.timeoutOf o := by
  induction h with
  | prepared h =>
    obtain ⟨_, _, _, _, _, _, _, ht⟩ := exists_of_prepare h
    exact ht
  | redirected _ h ih =>
    obtain ⟨_, _, h⟩ := exists_of_bind_eq_ok h
    rw [← Except.ok.inj h]
    exact ih

theorem mem_encodeAll {hs : Members Json} {all : List (String × String)} (h : Headers.encodeAll hs = .ok all) :
    ∀ e ∈ all, ∃ m ∈ hs, Headers.encodeOne m.1 m.2 = .ok e := by
  induction hs generalizing all with
  | nil =>
    cases h
    exact fun _ he => nomatch he
  | cons m hs ih =>
    obtain ⟨first, hf, h⟩ := exists_of_bind_eq_ok h
    obtain ⟨rest, hr, h⟩ := exists_of_bind_eq_ok h
    cases h
    refine List.forall_mem_cons.mpr ⟨⟨m, List.mem_cons_self .., hf⟩, fun e he => ?_⟩
    obtain ⟨m', hm, hm'⟩ := ih hr e he
    exact ⟨m', List.mem_cons_of_mem _ hm, hm'⟩

/-- A header is one of the call, or tells the kind of the body, or is one of the options. -/
theorem Sends.header_cases (h : c.Sends o r) : ∃ own, Headers.encode c.headers = .ok own ∧
    ∀ e ∈ r.headers, e ∈ own ∨ e.1 = "content-type" ∨
      ∃ m ∈ o.headers, Headers.encodeOne m.1 m.2 = .ok e := by
  induction h with
  | prepared h =>
    obtain ⟨below, own, kind, hb, ho, hk, hr, _⟩ := exists_of_prepare h
    refine ⟨own, ho, fun e he => ?_⟩
    rw [hr] at he
    rcases List.mem_append.mp he with he | he
    · rcases List.mem_append.mp he with he | he
      · obtain ⟨m, hm, hm'⟩ := mem_encodeAll hb e (List.mem_filter.mp he).1
        exact .inr (.inr ⟨m, (List.mem_filter.mp hm).1, hm'⟩)
      · exact .inl he
    · exact .inr (.inl (hk e he))
  | redirected _ h ih =>
    obtain ⟨own, ho, all⟩ := ih
    obtain ⟨_, _, h⟩ := exists_of_bind_eq_ok h
    refine ⟨own, ho, fun e he => all e ?_⟩
    rw [← Except.ok.inj h] at he
    exact (List.mem_filter.mp he).1

end Call

/-! ## names of headers -/

namespace Text

theorem lower_ascii {s : String} (h : ∀ c ∈ s.toList, c.toNat < 128) :
    lower s = String.ofList (s.toList.map Char.toLower) := by
  have small : ∀ (cs passed : List Char), (∀ c ∈ cs, c.toNat < 128) →
      lowerFrom passed cs = cs.map Char.toLower := by
    intro cs
    induction cs with
    | nil => exact fun _ _ => rfl
    | cons c cs ih =>
      intro passed h
      obtain ⟨hc, hcs⟩ := List.forall_mem_cons.mp h
      have sigma : c.toNat ≠ 931 := by omega
      rw [lowerFrom, if_neg sigma, lowerChar, if_pos hc, ih _ hcs]
      rfl
  rw [lower, small _ _ h]

end Text

namespace Headers

theorem encodeOne_name {name : String} {value : Json} {e : String × String}
    (h : encodeOne name value = .ok e) : e.1 = Text.lower name := by
  obtain ⟨name', hn, h⟩ := exists_of_bind_eq_ok h
  unfold asciiText at hn
  split at hn
  · next ascii =>
    cases hn
    have small := Text.lower_ascii fun c hc => of_decide_eq_true (List.all_eq_true.mp ascii c hc)
    cases value with
    | str s =>
      obtain ⟨s', _, h⟩ := exists_of_bind_eq_ok h
      rw [← Except.ok.inj h, small]
    | _ => cases h
  · cases hn

/-! ## where headers come from -/

theorem mem_put {hs : Members Json} {name : String} {value : Json} {h : String × Json}
    (hm : h ∈ put hs name value) : h ∈ hs ∧ sameName h.1 name = false ∨ h = (name, value) := by
  rcases List.mem_append.mp hm with hm | hm
  · obtain ⟨hm, hn⟩ := List.mem_filter.mp hm
    exact .inl ⟨hm, Bool.not_eq_true' _ ▸ hn⟩
  · exact .inr (List.mem_singleton.mp hm)

theorem mem_layer {below above : Members Json} {h : String × Json} (hm : h ∈ layer below above) :
    h ∈ below ∨ h ∈ above := by
  replace hm := (List.mem_filter.mp hm).1
  induction above generalizing below with
  | nil => exact .inl hm
  | cons a above ih =>
    rcases ih hm with hm | hm
    · rcases mem_put hm with ⟨hm, _⟩ | rfl
      · exact .inl hm
      · exact .inr (List.mem_cons_self ..)
    · exact .inr (List.mem_cons_of_mem _ hm)

end Headers

namespace Options

/-- Every header of layers over a base is one of the base or of a layer, and where no layer gives a timeout that
of the base is left. -/
structure Gathered (base : Options) (layers : List Options) (o : Options) : Prop where
  headers : ∀ h ∈ o.headers, h ∈ base.headers ∨ ∃ l ∈ layers, h ∈ l.headers
  timeout : (∀ l ∈ layers, l.timeout = .null) → o.timeout = base.timeout

theorem Gathered.layer {base : Options} {layers : List Options} {below : Options}
    (g : Gathered base layers below) (above : Options) :
    Gathered base (layers ++ [above]) (above.layeredOver below) where
  headers h hm := by
    rcases Headers.mem_layer hm with hm | hm
    · rcases g.headers h hm with hm | ⟨l, hl, hm⟩
      · exact .inl hm
      · exact .inr ⟨l, List.mem_append_left _ hl, hm⟩
    · exact .inr ⟨above, List.mem_append_right _ (List.mem_singleton.mpr rfl), hm⟩
  timeout untimed := by
    obtain ⟨untimed, habove⟩ := List.forall_mem_append.mp untimed
    show prefer below.timeout above.timeout = base.timeout
    rw [habove above (List.mem_singleton.mpr rfl), prefer, if_pos rfl]
    exact g.timeout untimed

theorem exists_gathered {base : Options} {i : Invocation} {extensions : List Extension} {o : Options}
    (h : compose base i extensions = .ok o) :
    ∃ layers : List Options, extensions.map (fun e => e i) = layers.map .ok ∧ Gathered base layers o := by
  have given : ∃ layers : List Options, extensions.map (fun e => e i) = layers.map .ok := by
    induction extensions generalizing base with
    | nil => exact ⟨[], rfl⟩
    | cons e extensions ih =>
      rw [compose] at h
      cases he : e i with
      | error f =>
        rw [he] at h
        cases h
      | ok l =>
        rw [he] at h
        obtain ⟨layers, hl⟩ := ih h
        exact ⟨l :: layers, by rw [List.map_cons, List.map_cons, he, hl]⟩
  obtain ⟨layers, given⟩ := given
  have start : Gathered base [] base := ⟨fun h hm => .inl hm, fun _ => rfl⟩
  obtain ⟨o', ho, gathered⟩ := compose_induct Gathered.layer start i given
  obtain rfl : o = o' := Except.ok.inj (h.symm.trans ho)
  exact ⟨layers, given, gathered⟩

end Options

end EventRouting
