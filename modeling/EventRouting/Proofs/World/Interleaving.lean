import EventRouting.World.Strand
import Mathlib.Data.List.Perm.Basic

/-!
# Runs at the same time

Strands that share a world take turns, in any order.

* `Deed`                  one thing asked of the world, with its answer
* `Strand.Follows`        a strand, what it has done, and what is left of it
* `Together`              strands and the world that they share
* `Together.Turn`         one strand goes on by one thing, at any reading of the clock
* `Together.Runs`         turns one after the other
* `Together.Runs.follows`, `Together.Runs.records`   what a strand has done, and what is written down
* `Together.runs_runAll`  strands run one after the other are a case of this
* `Together.no_endless_run`   turns come to an end
-/

namespace EventRouting

/-- One thing asked of the world, with its answer. -/
structure Deed where
  op : Op
  answer : op.Answer

def Deed.record? : Deed → Option Record
  | ⟨.record r, _⟩ => some r
  | _ => none

namespace Strand

variable {α β : Type}

/-- `s.Follows ds t`: after the deeds `ds`, what is left of `s` is `t`. -/
inductive Follows : Strand α → List Deed → Strand α → Prop where
  | refl (s : Strand α) : Follows s [] s
  | step {op : Op} {next : op.Answer → Strand α} {answer : op.Answer} {ds : List Deed} {t : Strand α}
      (rest : Follows (next answer) ds t) : Follows (perform op next) (⟨op, answer⟩ :: ds) t

theorem Follows.snoc {s : Strand α} {ds : List Deed} {op : Op} {next : op.Answer → Strand α}
    (h : s.Follows ds (perform op next)) (answer : op.Answer) :
    s.Follows (ds ++ [⟨op, answer⟩]) (next answer) := by
  generalize ht : perform op next = t at h
  induction h with
  | refl s =>
    subst ht
    exact .step (.refl _)
  | step _ ih => exact .step (ih ht)

theorem follows_done_iff {a b : α} {ds : List Deed} :
    (done a).Follows ds (done b) ↔ ds = [] ∧ a = b := by
  constructor
  · intro h
    cases h
    exact ⟨rfl, rfl⟩
  · rintro ⟨rfl, rfl⟩
    exact .refl _

/-- One run after another: first the deeds of the one, then those of the other. -/
theorem Follows.of_bind {s : Strand α} {f : α → Strand β} {ds : List Deed} {b : β}
    (h : (s.bind f).Follows ds (done b)) :
    ∃ us vs a, ds = us ++ vs ∧ s.Follows us (done a) ∧ (f a).Follows vs (done b) := by
  induction s generalizing ds with
  | done a => exact ⟨[], ds, a, rfl, .refl _, h⟩
  | perform op next ih =>
    cases h with
    | @step _ _ answer ds _ rest =>
      obtain ⟨us, vs, a, rfl, hs, hf⟩ := ih answer rest
      exact ⟨⟨op, answer⟩ :: us, vs, a, rfl, .step hs, hf⟩

end Strand

/-! ## turns -/

/-- Strands under way at the same time, and the world that they share. -/
structure Together (α : Type) where
  world : World
  strands : List (Strand α)

namespace Together

variable {α : Type} {partner : Partner}

/-- One strand goes on by one thing that the world answers.  The clock may have moved before. -/
inductive Turn (partner : Partner) (i : Nat) : Deed → Together α → Together α → Prop where
  | mk {w w' : World} {strands : List (Strand α)} {op : Op} {next : op.Answer → Strand α}
      {answer : op.Answer} (now : Binary64) (next_op : strands[i]? = some (.perform op next))
      (answered : { w with now := now }.perform partner op = some (w', answer)) :
      Turn partner i ⟨op, answer⟩ ⟨w, strands⟩ ⟨w', strands.set i (next answer)⟩

/-- Turns one after the other, each with the strand whose turn it is. -/
inductive Runs (partner : Partner) : Together α → List (Nat × Deed) → Together α → Prop where
  | refl (t : Together α) : Runs partner t [] t
  | step {t u v : Together α} {ds : List (Nat × Deed)} {i : Nat} {d : Deed} (run : Runs partner t ds u)
      (turn : Turn partner i d u v) : Runs partner t (ds ++ [(i, d)]) v

/-- the results, if every strand has come to its end -/
def IsDone (t : Together α) (results : List α) : Prop := t.strands = results.map .done

/-- what the strand with a number has done -/
def deedsOf (i : Nat) (ds : List (Nat × Deed)) : List Deed :=
  ds.filterMap fun d => if d.1 = i then some d.2 else none

theorem deedsOf_append (i : Nat) (ds es : List (Nat × Deed)) :
    deedsOf i (ds ++ es) = deedsOf i ds ++ deedsOf i es := List.filterMap_append

theorem deedsOf_single (i j : Nat) (d : Deed) : deedsOf i [(j, d)] = if j = i then [d] else [] := by
  unfold deedsOf
  by_cases h : j = i
  · simp [h]
  · simp [h]

theorem Runs.trans {t u v : Together α} {ds es : List (Nat × Deed)} (h : Runs partner t ds u)
    (h' : Runs partner u es v) : Runs partner t (ds ++ es) v := by
  induction h' with
  | refl => simpa using h
  | step _ turn ih =>
    rw [← List.append_assoc]
    exact .step ih turn

theorem Runs.length {t u : Together α} {ds : List (Nat × Deed)} (h : Runs partner t ds u) :
    u.strands.length = t.strands.length := by
  induction h with
  | refl => rfl
  | step _ turn ih =>
    cases turn
    rw [← ih]
    exact List.length_set

theorem Runs.within {t u : Together α} {ds : List (Nat × Deed)} (h : Runs partner t ds u) :
    ∀ d ∈ ds, d.1 < t.strands.length := by
  induction h with
  | refl => exact fun d hd => nomatch hd
  | step run turn ih =>
    intro d hd
    rcases List.mem_append.mp hd with hd | hd
    · exact ih d hd
    · obtain rfl := List.mem_singleton.mp hd
      rw [← run.length]
      cases turn with
      | mk now next_op => exact (List.getElem?_eq_some_iff.mp next_op).1

/-- **Each strand for itself**: whatever the others do, it goes the way that its own deeds lead. -/
theorem Runs.follows {t u : Together α} {ds : List (Nat × Deed)} (h : Runs partner t ds u) {i : Nat}
    {s : Strand α} (hs : t.strands[i]? = some s) :
    ∃ s', u.strands[i]? = some s' ∧ s.Follows (deedsOf i ds) s' := by
  induction h with
  | refl => exact ⟨s, hs, .refl s⟩
  | @step _ _ ds j d run turn ih =>
    obtain ⟨s', hs', hf⟩ := ih
    rw [deedsOf_append, deedsOf_single]
    cases turn with
    | @mk _ _ strands op next answer now next_op =>
      by_cases hij : j = i
      · subst hij
        have here : strands[j]? = some s' := hs'
        rw [next_op] at here
        cases here
        refine ⟨next answer, List.getElem?_set_self (List.getElem?_eq_some_iff.mp next_op).1, ?_⟩
        rw [if_pos rfl]
        exact hf.snoc answer
      · refine ⟨s', ?_, ?_⟩
        · exact (List.getElem?_set_ne hij).trans hs'
        · rw [if_neg hij, List.append_nil]
          exact hf

theorem Runs.of_turn {t u : Together α} {i : Nat} {d : Deed} (h : Turn partner i d t u) :
    Runs partner t [(i, d)] u := .step (.refl t) h

theorem runs_run (partner : Partner) (s : Strand α) (w : World) (pre post : List (Strand α)) :
    ∃ ds, Runs partner ⟨w, pre ++ s :: post⟩ ds
      ⟨(s.run partner w).1, pre ++ (s.run partner w).2 :: post⟩ := by
  induction s generalizing w with
  | done a => exact ⟨[], .refl _⟩
  | perform op next ih =>
    rw [Strand.run]
    cases hp : w.perform partner op with
    | none => exact ⟨[], .refl _⟩
    | some found =>
      obtain ⟨w', answer⟩ := found
      obtain ⟨ds, hr⟩ := ih answer w'
      have at_pre : (pre ++ Strand.perform op next :: post)[pre.length]? = some (.perform op next) := by
        rw [List.getElem?_append_right (Nat.le_refl _), Nat.sub_self]
        rfl
      have turn : Turn partner pre.length ⟨op, answer⟩ ⟨w, pre ++ Strand.perform op next :: post⟩
          ⟨w', (pre ++ Strand.perform op next :: post).set pre.length (next answer)⟩ :=
        .mk w.now at_pre hp
      rw [List.set_append_right _ _ (Nat.le_refl _), Nat.sub_self] at turn
      exact ⟨_, (Runs.of_turn turn).trans hr⟩

/-- Strands run one after the other are strands that take turns. -/
theorem runs_runAll (partner : Partner) (strands : List (Strand α)) (w : World) (pre : List (Strand α)) :
    ∃ ds, Runs partner ⟨w, pre ++ strands⟩ ds
      ⟨(Strand.runAll partner strands w).1, pre ++ (Strand.runAll partner strands w).2⟩ := by
  induction strands generalizing w pre with
  | nil => exact ⟨[], .refl _⟩
  | cons s rest ih =>
    obtain ⟨ds, hs⟩ := runs_run partner s w pre rest
    obtain ⟨es, hr⟩ := ih (s.run partner w).1 (pre ++ [(s.run partner w).2])
    rw [List.append_assoc, List.append_assoc] at hr
    exact ⟨ds ++ es, hs.trans hr⟩

/-! ## records -/

/-- The world writes down what it is told to and nothing else. -/
theorem perform_records {w w' : World} {op : Op} {answer : op.Answer}
    (h : w.perform partner op = some (w', answer)) :
    w'.records = w.records ++ (Deed.record? ⟨op, answer⟩).toList := by
  cases op with
  | ask r =>
    cases h
    exact (List.append_nil _).symm
  | look cell key =>
    cases h
    exact (List.append_nil _).symm
  | await cell f =>
    unfold World.perform at h
    dsimp only at h
    split at h
    · cases h
      exact (List.append_nil _).symm
    · cases h
  | settle cell key f ttl outcome =>
    have hw : (w.settle cell key f ttl outcome).1.records = w.records := by
      unfold World.settle
      split
      · rfl
      · split <;> rfl
    have he : w.settle cell key f ttl outcome = (w', answer) := Option.some.inj h
    rw [he] at hw
    exact hw.trans (List.append_nil _).symm
  | record r =>
    cases h
    rfl
  | enter s =>
    cases h
    exact (List.append_nil _).symm

/-- **What is written down**: what the strands write down, in the order of their turns. -/
theorem Runs.records {t u : Together α} {ds : List (Nat × Deed)} (h : Runs partner t ds u) :
    u.world.records = t.world.records ++ ds.filterMap fun d => d.2.record? := by
  induction h with
  | refl => exact (List.append_nil _).symm
  | @step _ _ ds i d run turn ih =>
    cases turn with
    | @mk w w' strands op next answer now next_op answered =>
      have hw := perform_records answered
      change w'.records = w.records ++ _ at hw
      rw [hw, List.filterMap_append, ← List.append_assoc, ← ih]
      cases hr : Deed.record? ⟨op, answer⟩ with
      | none => simp [hr]
      | some r => simp [hr]

theorem flatMap_range_single {β : Type} (l : List β) {j n : Nat} (h : j < n) :
    ((List.range n).flatMap fun i => if j = i then l else []) = l := by
  induction n with
  | zero => exact absurd h (Nat.not_lt_zero j)
  | succ n ih =>
    rw [List.range_succ, List.flatMap_append, List.flatMap_singleton]
    by_cases hj : j = n
    · subst hj
      rw [if_pos rfl]
      have none : ((List.range j).flatMap fun i => if j = i then l else []) = [] := by
        rw [List.flatMap_eq_nil_iff]
        intro i hi
        rw [if_neg]
        have := List.mem_range.mp hi
        omega
      rw [none, List.nil_append]
    · rw [if_neg hj, List.append_nil]
      exact ih (by omega)

/-- What all have done, sorted by who has done it. -/
theorem perm_deedsOf {β : Type} (g : Deed → Option β) {n : Nat} {ds : List (Nat × Deed)}
    (h : ∀ d ∈ ds, d.1 < n) :
    (ds.filterMap fun d => g d.2).Perm ((List.range n).flatMap fun i => (deedsOf i ds).filterMap g) := by
  induction ds with
  | nil =>
    have none : ((List.range n).flatMap fun i => (deedsOf i []).filterMap g) = [] :=
      List.flatMap_eq_nil_iff.mpr fun _ _ => rfl
    rw [none]
    exact List.Perm.refl _
  | cons d rest ih =>
    obtain ⟨j, d⟩ := d
    have hj : j < n := h (j, d) (List.mem_cons_self ..)
    have split : ∀ i, (deedsOf i ((j, d) :: rest)).filterMap g =
        (if j = i then (g d).toList else []) ++ (deedsOf i rest).filterMap g := by
      intro i
      rw [← List.singleton_append, deedsOf_append, deedsOf_single, List.filterMap_append]
      by_cases hji : j = i
      · rw [if_pos hji, if_pos hji]
        cases hg : g d <;> simp [hg]
      · rw [if_neg hji, if_neg hji]
        rfl
    have head : (((j, d) :: rest).filterMap fun d => g d.2) =
        (g d).toList ++ rest.filterMap fun d => g d.2 := by
      cases hg : g d <;> simp [hg]
    rw [head, funext split]
    refine List.Perm.trans ?_ (List.flatMap_append_perm ..)
    rw [flatMap_range_single _ hj]
    exact (ih fun e he => h e (List.mem_cons_of_mem _ he)).append_left _

/-! ## ends -/

/-- one strand has gone on by one thing -/
def Shorter (strands' strands : List (Strand α)) : Prop :=
  ∃ (i : Nat) (op : Op) (next : op.Answer → Strand α) (answer : op.Answer),
    strands[i]? = some (.perform op next) ∧ strands' = strands.set i (next answer)

/-- Strands cannot go on for ever: each of them is a tree. -/
theorem acc_shorter (strands : List (Strand α)) : Acc Shorter strands := by
  induction strands with
  | nil =>
    refine ⟨_, ?_⟩
    rintro _ ⟨i, op, next, answer, hi, rfl⟩
    cases hi
  | cons s rest acc =>
    induction acc generalizing s with
    | intro rest _ ihRest =>
      induction s with
      | done a =>
        refine ⟨_, ?_⟩
        rintro _ ⟨i, op, next, answer, hi, rfl⟩
        cases i with
        | zero => cases hi
        | succ i => exact ihRest _ ⟨i, op, next, answer, hi, rfl⟩ _
      | perform op next ih =>
        refine ⟨_, ?_⟩
        rintro _ ⟨i, op', next', answer, hi, rfl⟩
        cases i with
        | zero =>
          cases hi
          exact ih answer
        | succ i => exact ihRest _ ⟨i, op', next', answer, hi, rfl⟩ _

theorem Turn.shorter {i : Nat} {d : Deed} {t u : Together α} (h : Turn partner i d t u) :
    Shorter u.strands t.strands := by
  cases h with
  | @mk _ _ strands op next answer now next_op => exact ⟨i, op, next, answer, next_op, rfl⟩

/-- **Turns come to an end**: no run goes on for ever. -/
theorem no_endless_run (states : Nat → Together α) :
    ¬ ∀ n, ∃ i d, Turn partner i d (states n) (states (n + 1)) := by
  intro h
  have never : ∀ strands : List (Strand α), Acc Shorter strands → ∀ n, (states n).strands ≠ strands := by
    intro strands acc
    induction acc with
    | intro strands _ ih =>
      rintro n rfl
      obtain ⟨i, d, turn⟩ := h n
      exact ih _ turn.shorter (n + 1) rfl
  exact never _ (acc_shorter _) 0 rfl

end Together

end EventRouting
