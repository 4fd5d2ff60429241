import EventRouting.Action.Basic
import EventRouting.Proofs.World.Progress

/-!
# Actions are orderly

Steps lead flights only through their own look into a cache, and land them.

* `Strand.Plain`           a strand that only makes requests and enters callables
* `Strand.Asks`            a strand that only makes requests
* `Client.converse_asks`   the talk of a callable is such a strand, whatever it is
* `Step.HasLifetime`       a step whose values have a lifetime of a kind
* `Step.execute_orderly`, `Action.executeFrom_orderly`   what steps and actions owe
-/

namespace EventRouting

namespace Strand

variable {α β : Type} {lifetimes : Json → Prop} {records : Record → Prop}

/-- A strand that only makes requests and enters callables. -/
inductive Plain : Strand α → Prop where
  | done (a : α) : Plain (.done a)
  | ask {r : Request} {next : Except Fault Response → Strand α} (rest : ∀ answer, Plain (next answer)) :
      Plain (.perform (.ask r) next)
  | enter {s : Site} {next : Unit → Strand α} (rest : ∀ answer, Plain (next answer)) :
      Plain (.perform (.enter s) next)

theorem Plain.bind {s : Strand α} {f : α → Strand β} (hs : s.Plain) (hf : ∀ a, (f a).Plain) :
    (s.bind f).Plain := by
  induction hs with
  | done a => exact hf a
  | ask _ ih => exact .ask ih
  | enter _ ih => exact .enter ih

theorem Plain.orderly_bind {m : Mode} {s : Strand α} {f : α → Strand β} (hs : s.Plain) (moves : m.Moves)
    (hf : ∀ a, (f a).Orderly lifetimes records m) : (s.bind f).Orderly lifetimes records m := by
  induction hs with
  | done a => exact hf a
  | ask _ ih => exact .ask moves ih
  | enter _ ih => exact .enter moves ih

theorem Plain.orderly {s : Strand α} (hs : s.Plain) : s.Orderly lifetimes records .free := by
  have h : (s.bind .done).Orderly lifetimes records .free := hs.orderly_bind Mode.moves_free .done
  rwa [bind_done] at h

/-- A strand that only makes requests. -/
inductive Asks : Strand α → Prop where
  | done (a : α) : Asks (.done a)
  | ask {r : Request} {next : Except Fault Response → Strand α} (rest : ∀ answer, Asks (next answer)) :
      Asks (.perform (.ask r) next)

theorem Asks.bind {s : Strand α} {f : α → Strand β} (hs : s.Asks) (hf : ∀ a, (f a).Asks) :
    (s.bind f).Asks := by
  induction hs with
  | done a => exact hf a
  | ask _ ih => exact .ask ih

theorem Asks.plain {s : Strand α} (hs : s.Asks) : s.Plain := by
  induction hs with
  | done a => exact .done a
  | ask _ ih => exact .ask ih

end Strand

/-! ## attempts -/

namespace Attempt

open Strand

variable {α β : Type} {lifetimes : Json → Prop} {records : Record → Prop}

/-- One attempt after another: the second is made only after the success of the first. -/
theorem bind_eq (x : Attempt α) (f : α → Attempt β) :
    (x >>= f : Attempt β) = Strand.bind x.outcome fun
      | .ok a => f a
      | .error e => Strand.done (.error e) := by
  show Strand.bind x _ = Strand.bind x _
  congr 1
  funext r
  cases r <;> rfl

theorem plain_bind {x : Attempt α} {f : α → Attempt β} (hx : x.outcome.Plain)
    (hf : ∀ a, (f a).outcome.Plain) : Strand.Plain (x >>= f : Attempt β).outcome := by
  rw [bind_eq]
  refine hx.bind fun r => ?_
  cases r with
  | ok a => exact hf a
  | error e => exact .done _

theorem asks_bind {x : Attempt α} {f : α → Attempt β} (hx : x.outcome.Asks)
    (hf : ∀ a, (f a).outcome.Asks) : Strand.Asks (x >>= f : Attempt β).outcome := by
  rw [bind_eq]
  refine hx.bind fun r => ?_
  cases r with
  | ok a => exact hf a
  | error e => exact .done _

theorem plain_bind_orderly {x : Attempt α} {f : α → Attempt β} (hx : x.outcome.Plain)
    (hf : ∀ a, (f a).outcome.Orderly lifetimes records .free) :
    Strand.Orderly lifetimes records .free (x >>= f : Attempt β).outcome := by
  rw [bind_eq]
  refine hx.orderly_bind Mode.moves_free fun r => ?_
  cases r with
  | ok a => exact hf a
  | error e => exact .done _

theorem orderly_bind {x : Attempt α} {f : α → Attempt β}
    (hx : x.outcome.Orderly lifetimes records .free) (hf : ∀ a, (f a).outcome.Orderly lifetimes records .free) :
    Strand.Orderly lifetimes records .free (x >>= f : Attempt β).outcome := by
  rw [bind_eq]
  refine hx.bind fun r => ?_
  cases r with
  | ok a => exact hf a
  | error e => exact .done _

theorem plain_ofExcept (e : Except Fault α) : (ofExcept e).outcome.Plain := .done e

theorem plain_pure (a : α) : (pure a : Attempt α).outcome.Plain := .done _

theorem asks_ofExcept (e : Except Fault α) : (ofExcept e).outcome.Asks := .done e

theorem asks_pure (a : α) : (pure a : Attempt α).outcome.Asks := .done _

theorem asks_throw (f : Fault) : (throw f : Attempt α).outcome.Asks := .done _

end Attempt

/-! ## clients -/

namespace Client

open Attempt

theorem sendOnce_asks (r : Request) : (sendOnce r).outcome.Asks := by
  unfold sendOnce
  refine asks_bind (.ask fun answer => .done _) fun answer => ?_
  split
  · exact asks_throw _
  · exact asks_pure _

theorem send_asks (follow : Bool) (hops : Nat) (r : Request) : (send follow hops r).outcome.Asks := by
  induction hops generalizing r with
  | zero =>
    unfold send
    refine asks_bind (sendOnce_asks r) fun answer => ?_
    split
    · exact asks_pure _
    · refine asks_bind (asks_ofExcept _) fun next => ?_
      split
      · exact asks_pure _
      · exact asks_throw _
  | succ hops ih =>
    unfold send
    refine asks_bind (sendOnce_asks r) fun answer => ?_
    split
    · exact asks_pure _
    · refine asks_bind (asks_ofExcept _) fun next => ?_
      split
      · exact asks_pure _
      · exact ih next

theorem exchange_asks (o : Options) (c : Call) : (exchange o c).outcome.Asks := by
  unfold exchange
  refine asks_bind (asks_ofExcept _) fun r => asks_bind (send_asks _ _ r) fun sent => ?_
  split
  split
  · exact asks_throw _
  · exact asks_pure _

/-- **Whatever a callable says**, its talk only makes requests. -/
theorem converse_asks (o : Options) (t : Talk) : (converse o t).outcome.Asks := by
  induction t with
  | fail f => exact asks_throw f
  | give v => exact asks_pure _
  | pass r => exact asks_pure _
  | ask c next ih => exact (exchange_asks o c).bind ih

end Client

theorem Factory.call_plain (f : Factory) (site : Site) (callable : Callable) (i : Invocation) :
    (f.call site callable i).outcome.Plain := by
  unfold Factory.call
  refine Attempt.plain_bind (Attempt.plain_ofExcept _) fun o => ?_
  exact Attempt.plain_bind (.enter fun _ => .done _) fun _ => (Client.converse_asks o _).plain

/-! ## steps -/

namespace Step

open Attempt

variable {lifetimes : Json → Prop} {records : Record → Prop}

/-- the values that a step keeps have a lifetime of a kind -/
def HasLifetime (lifetimes : Json → Prop) : Step → Prop
  | cached ttl _ _ _ => lifetimes ttl
  | _ => True

theorem computed_plain (cell : Cell) (o : Options) (value : Callable) (i : Invocation) :
    (computed cell o value i).outcome.Plain := by
  unfold computed
  refine plain_bind (.enter fun _ => .done _) fun _ => ?_
  exact plain_bind ((Client.converse_asks o _).plain) fun reply => plain_pure _

theorem lookUp_orderly {cell : Cell} {key : String} {ttl : Json} {compute : Attempt Json}
    (ht : lifetimes ttl) (hc : compute.outcome.Plain) :
    (lookUp cell key ttl compute).outcome.Orderly lifetimes records .free := by
  refine .look (fun v => .done _) (fun f => .await fun _ => .done _) fun f => ?_
  exact hc.orderly_bind (Mode.moves_leads cell key f) fun outcome => .settle ht fun _ => .done _

theorem fetched_orderly {f : Factory} {cell : Cell} {ttl : Json} {key : KeyRule} {value : Callable}
    {i : Invocation} (ht : lifetimes ttl) :
    (fetched f cell ttl key value i).outcome.Orderly lifetimes records .free := by
  unfold fetched
  refine plain_bind_orderly (.enter fun _ => .done _) fun _ => ?_
  refine plain_bind_orderly (plain_ofExcept _) fun k => plain_bind_orderly (plain_ofExcept _) fun o => ?_
  split
  · exact (computed_plain cell o value i).orderly
  · exact lookUp_orderly ht (computed_plain cell o value i)

/-- **A step** owes nothing when it has come to its end. -/
theorem execute_orderly {f : Factory} {cell : Cell} {i : Invocation} {s : Step} (hs : s.HasLifetime lifetimes) :
    (s.execute f cell i).outcome.Orderly lifetimes records .free := by
  cases s with
  | mapInput => exact .done _
  | validate target schema => exact .done _
  | cached ttl key value field => exact orderly_bind (fetched_orderly hs) fun v => .done _
  | request name callable =>
    exact orderly_bind (f.call_plain _ callable i).orderly fun reply => .done _

end Step

/-! ## actions -/

theorem Action.executeFrom_orderly {lifetimes : Json → Prop} {records : Record → Prop} {f : Factory}
    {a : Action} {home : String} {steps : List Step} (hs : ∀ s ∈ steps, s.HasLifetime lifetimes) (n : Nat)
    (i : Invocation) (before : List StepResult) :
    (executeFrom f a home n steps i before).Orderly lifetimes records .free := by
  induction steps generalizing n i before with
  | nil => exact .done _
  | cons s rest ih =>
    rw [executeFrom]
    refine (Step.execute_orderly (hs s (List.mem_cons_self ..))).bind fun outcome => ?_
    cases outcome with
    | error fault => exact .done _
    | ok r => exact ih (fun s hr => hs s (List.mem_cons_of_mem _ hr)) ..

end EventRouting
