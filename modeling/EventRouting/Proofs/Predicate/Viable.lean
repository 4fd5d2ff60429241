import EventRouting.Proofs.Predicate.Printing

/-!
# The first word that cannot be right

A text in shorthand that is no predicate either stops too early, or it has a first word behind which nothing
can mend it.

* `Shorthand.State.Passes`        a state, words that can be read in it, and the state behind them
* `Shorthand.State.run_cases`     all words can be read, or there is a first one that cannot
* `Shorthand.State.exists_finish`   from every state there are words to the end of a predicate
* `Predicate.Readable`            the words of a text that is a predicate
* `Predicate.parseText_fault`     the place that a fault tells, and when it tells none
-/

namespace EventRouting

open Token (Lexeme spelling)

namespace Predicate

namespace Shorthand

/-! ## places of faults -/

theorem value?_position {t : Token} {e : Unreadable} (h : value? t = .error e) :
    e.position? = some t.position := by
  unfold value? at h
  split at h
  · split at h
    · cases h
    · cases h
      rfl
  · cases h
  · repeat' split at h
    all_goals cases h
    rfl
  · cases h
    rfl

namespace State

/-- A word that cannot be read is where the fault is. -/
theorem step_position {s : State} {t : Token} {e : Unreadable} (h : s.step t = .error e) :
    e.position? = some t.position := by
  unfold step at h
  split at h
  · unfold stepPart at h
    repeat' split at h
    all_goals cases h
    rfl
  · split at h
    all_goals cases h
    rfl
  · split at h
    · cases h
    · next hv =>
      cases h
      exact value?_position hv
  · unfold stepAfter at h
    repeat' split at h
    all_goals cases h
    · rfl
    · rfl

theorem finish_position {s : State} {e : Unreadable} (h : s.finish = .error e) : e.position? = none := by
  unfold finish at h
  repeat' split at h
  all_goals cases h
  all_goals rfl

/-! ## words one after the other -/

/-- `s.Passes ts u`: the words `ts` can be read in the state `s`, and `u` is the state behind them. -/
inductive Passes : State → List Token → State → Prop where
  | refl (s : State) : Passes s [] s
  | step {s s' u : State} {t : Token} {ts : List Token} (h : s.step t = .ok s') (more : Passes s' ts u) :
      Passes s (t :: ts) u

theorem Passes.run {s u : State} {ts : List Token} (h : s.Passes ts u) (us : List Token) :
    s.run (ts ++ us) = u.run us := by
  induction h with
  | refl => rfl
  | step h _ ih => rw [List.cons_append, Grammar.run_cons h, ih]

theorem run_of_step_error {s : State} {t : Token} {e : Unreadable} (h : s.step t = .error e)
    (us : List Token) : s.run (t :: us) = .error e := by
  rw [State.run, h]

/-- All words can be read, or there is a first one that cannot. -/
theorem run_cases (s : State) (ts : List Token) :
    (∃ u, s.Passes ts u ∧ s.run ts = u.finish) ∨
      ∃ before t after u e, ts = before ++ t :: after ∧ s.Passes before u ∧ u.step t = .error e ∧
        s.run ts = .error e := by
  induction ts generalizing s with
  | nil => exact .inl ⟨s, .refl s, rfl⟩
  | cons t ts ih =>
    cases hs : s.step t with
    | error e => exact .inr ⟨[], t, ts, s, e, rfl, .refl s, hs, run_of_step_error hs ts⟩
    | ok s' =>
      rw [Grammar.run_cons hs]
      rcases ih s' with ⟨u, passes, hr⟩ | ⟨before, t', after, u, e, rfl, passes, bad, hr⟩
      · exact .inl ⟨u, .step hs passes, hr⟩
      · exact .inr ⟨t :: before, t', after, u, e, rfl, .step hs passes, bad, hr⟩

/-! ## ways to the end -/

section

open Grammar

/-- Behind a part, closing all parentheses ends the predicate. -/
theorem exists_finish_after (outer : List Level) (l : Level) :
    ∃ us p, (∀ u ∈ us, Lexeme u.kind u.text.toList) ∧ State.run ⟨l, outer, .after⟩ us = .ok p := by
  induction outer generalizing l with
  | nil => exact ⟨[], l.close, List.forall_mem_nil _, rfl⟩
  | cons around outer ih =>
    obtain ⟨us, p, words, hr⟩ := ih (around.take l.close)
    refine ⟨⟨.closing, ")", 0⟩ :: us, p, List.forall_mem_cons.mpr ⟨Lexeme.closing, words⟩, ?_⟩
    rw [run_cons (step_closing l outer around rfl), hr]

theorem exists_finish_test (path : Path) (outer : List Level) (l : Level) :
    ∃ us p, (∀ u ∈ us, Lexeme u.kind u.text.toList) ∧ State.run ⟨l, outer, .test path⟩ us = .ok p := by
  obtain ⟨word, small⟩ := lexes_reserved (w := "exists") (by decide)
  have question : Question ⟨.word, "exists", 0⟩ .present := ⟨rfl, by rw [small]; decide⟩
  obtain ⟨us, p, words, hr⟩ := exists_finish_after outer (l.take (.field path .present))
  refine ⟨⟨.word, "exists", 0⟩ :: us, p, List.forall_mem_cons.mpr ⟨Token.lexes_iff.mp word, words⟩, ?_⟩
  rw [run_cons (step_question l outer question), hr]

/-- **No state is a dead end**: there are words that lead from it to the end of a predicate. -/
theorem exists_finish (s : State) :
    ∃ us p, (∀ u ∈ us, Lexeme u.kind u.text.toList) ∧ s.run us = .ok p := by
  obtain ⟨l, outer, phase⟩ := s
  cases phase with
  | part =>
    have word : Lexeme .word "a".toList := Lexeme.word (by decide) (List.forall_mem_nil _) Token.Tail.nil
    have field : Grammar.Field ⟨.word, "a", 0⟩ (Path.split "a") := Grammar.Field.mk rfl (by decide +kernel)
    obtain ⟨us, p, words, hr⟩ := exists_finish_test (Path.split "a") outer l
    refine ⟨⟨.word, "a", 0⟩ :: us, p, List.forall_mem_cons.mpr ⟨word, words⟩, ?_⟩
    rw [run_cons (step_field l outer field), hr]
  | test path => exact exists_finish_test path outer l
  | value path r =>
    obtain ⟨word, small⟩ := lexes_reserved (w := "null") (by decide)
    have value : Value ⟨.word, "null", 0⟩ .null := Value.null ⟨rfl, small⟩
    obtain ⟨us, p, words, hr⟩ := exists_finish_after outer (l.take (.field path (.compare r .null)))
    refine ⟨⟨.word, "null", 0⟩ :: us, p, List.forall_mem_cons.mpr ⟨Token.lexes_iff.mp word, words⟩, ?_⟩
    rw [run_cons (step_value l outer value), hr]
  | after => exact exists_finish_after outer l

end

end State

end Shorthand

open Shorthand

/-! ## the word `all` -/

theorem lowerChar_of_isDigit {c : Char} (h : Text.isDigit c = true) :
    Text.lowerChar c = [c] ∧ c.toNat ≠ 931 ∧ c ∉ "all".toList := by
  have apart : ∀ d ∈ Text.digitRanges, 1632 ≤ d.1 ∧ ∀ r ∈ Text.lowerRuns, r.last < d.1 ∨ d.2 < r.first := by
    decide +kernel
  have letters : ∀ d ∈ "all".toList, 97 ≤ d.toNat ∧ d.toNat < 128 := List.forall_mem_cons.mpr
    ⟨by decide, List.forall_mem_cons.mpr ⟨by decide, List.forall_mem_singleton.mpr (by decide)⟩⟩
  unfold Text.isDigit Text.digitValue? at h
  unfold Text.lowerChar
  split at h
  · next ascii =>
    split at h
    · next hd =>
      rw [Bool.and_eq_true, decide_eq_true_iff, decide_eq_true_iff] at hd
      refine ⟨?_, by omega, fun hc => by have := letters c hc; omega⟩
      have small : c.toLower = c := by
        refine dif_neg ?_
        rintro ⟨low, _⟩
        have low : 65 ≤ c.toNat := low
        omega
      rw [if_pos ascii, small]
    · cases h
  · next ascii =>
    rw [Option.isSome_map, List.find?_isSome] at h
    obtain ⟨d, hd, inside⟩ := h
    rw [Bool.and_eq_true, decide_eq_true_iff, decide_eq_true_iff] at inside
    obtain ⟨low, outside⟩ := apart d hd
    refine ⟨?_, by omega, fun hc => by have := letters c hc; omega⟩
    have found : Text.lowerRuns.find? (·.contains c.toNat) = none := by
      rw [List.find?_eq_none]
      intro r hr contains
      simp only [Text.CaseRun.contains, Bool.and_eq_true, decide_eq_true_iff] at contains
      have := outside r hr
      omega
    rw [if_neg ascii, if_neg (by omega), Text.mapRuns, found]
    dsimp only
    rw [Char.ofNat_toNat]

theorem kind_of_all {t : Token} (h : Lexeme t.kind t.text.toList) (all : lowered t = "all") :
    t.kind = .word := by
  have absurd_of {c : Char} (hc : c ∈ t.text.toList)
      (small : Text.lowerChar c = [c] ∧ c.toNat ≠ 931 ∧ c ∉ "all".toList) : False := by
    refine small.2.2 ?_
    rw [← all, lowered, Text.lower, String.toList_ofList]
    exact Path.mem_lowerFrom small.1 small.2.1 hc []
  generalize t.kind = kind at h ⊢
  generalize hw : t.text.toList = w at h absurd_of
  cases h with
  | word => rfl
  | string hq => exact (absurd_of List.mem_cons_self (by rcases hq with rfl | rfl <;> decide)).elim
  | @number sign whole _ _ _ digits =>
    obtain ⟨d, hd⟩ := List.exists_mem_of_ne_nil whole digits.1
    refine (absurd_of ?_ (lowerChar_of_isDigit (digits.2 d hd))).elim
    exact List.mem_append_right _ (List.mem_append_left _ hd)
  | @operator text r signed =>
    have signs : ∀ s ∈ Grammar.signs, '=' ∈ s.1.toList ∨ '<' ∈ s.1.toList ∨ '>' ∈ s.1.toList := by decide
    rcases signs _ signed with hc | hc | hc <;> exact (absurd_of hc (by decide)).elim
  | opening => exact (absurd_of List.mem_cons_self (by decide)).elim
  | closing => exact (absurd_of List.mem_cons_self (by decide)).elim

/-! ## rows of words -/

theorem ofTokens_cases {ts : List Token} {p : Predicate} (h : ofTokens ts = .ok p) :
    (∃ t, ts = [t] ∧ lowered t = "all") ∨ State.start.run ts = .ok p := by
  match ts with
  | [] => cases h
  | [t] =>
    by_cases all : lowered t = "all"
    · exact .inl ⟨t, rfl, all⟩
    · exact .inr ((if_neg all).symm.trans h)
  | _ :: _ :: _ => exact .inr h

/-- The reader is to blame for every fault but that of no words at all. -/
theorem run_of_ofTokens_error {ts : List Token} {e : Unreadable} (h : ofTokens ts = .error e) :
    (ts = [] ∧ e = .empty) ∨ State.start.run ts = .error e := by
  match ts with
  | [] =>
    cases h
    exact .inl ⟨rfl, rfl⟩
  | [t] =>
    by_cases all : lowered t = "all"
    · cases (if_pos all).symm.trans h
    · exact .inr ((if_neg all).symm.trans h)
  | _ :: _ :: _ => exact .inr h

theorem exists_ofTokens_of_run {ts : List Token} {p : Predicate} (h : State.start.run ts = .ok p) :
    ∃ q, ofTokens ts = .ok q := by
  match ts with
  | [] => cases h
  | [t] =>
    by_cases all : lowered t = "all"
    · exact ⟨.all, if_pos all⟩
    · exact ⟨p, (if_neg all).trans h⟩
  | _ :: _ :: _ => exact ⟨p, h⟩

/-- The words of a text that is a predicate, wherever they stand in it. -/
def Readable (ts : List Token) : Prop :=
  ∃ source tokens p, Token.scan source = .ok tokens ∧ tokens.map spelling = ts.map spelling ∧
    parseText source = .ok p

theorem Readable.exists_ofTokens {ts : List Token} (h : Readable ts) : ∃ p, ofTokens ts = .ok p := by
  obtain ⟨source, tokens, p, scanned, same, parsed⟩ := h
  have meaning := ofTokens_congr same
  rw [parseText_scanned scanned] at parsed
  cases ht : ofTokens tokens with
  | error e =>
    rw [ht] at parsed
    cases parsed
  | ok q =>
    rw [ht] at meaning
    cases hs : ofTokens ts with
    | error e =>
      rw [hs] at meaning
      cases meaning
    | ok q' => exact ⟨q', rfl⟩

theorem readable_of_run {ts : List Token} (words : ∀ t ∈ ts, Lexeme t.kind t.text.toList) {p : Predicate}
    (h : State.start.run ts = .ok p) : Readable ts := by
  obtain ⟨q, hq⟩ := exists_ofTokens_of_run h
  obtain ⟨tokens, scanned, same⟩ := (Token.spaced_intercalate (ts.map Token.text)).scan words
  have meaning := ofTokens_congr same
  rw [hq] at meaning
  cases ht : ofTokens tokens with
  | error e =>
    rw [ht] at meaning
    cases meaning
  | ok q' =>
    refine ⟨_, tokens, q', scanned, same, ?_⟩
    rw [parseText_scanned scanned, ht]
    rfl

/-- Words that can be read go on to those of a predicate, with at least one more word if they are none yet. -/
theorem exists_readable {ts : List Token} (words : ∀ t ∈ ts, Lexeme t.kind t.text.toList) {u : State}
    (h : State.start.Passes ts u) : ∃ us, Readable (ts ++ us) ∧ ((∀ p, u.finish ≠ .ok p) → us ≠ []) := by
  obtain ⟨us, p, more, hr⟩ := u.exists_finish
  refine ⟨us, readable_of_run ?_ ((h.run us).trans hr), ?_⟩
  · exact List.forall_mem_append.mpr ⟨words, more⟩
  · rintro unfinished rfl
    exact unfinished p hr

/-- Nothing behind a word that cannot be read makes a predicate of the words up to it. -/
theorem ofTokens_ne_ok {before : List Token} {t : Token} (word : Lexeme t.kind t.text.toList) {u : State}
    (h : State.start.Passes before u) {e : Unreadable} (bad : u.step t = .error e) (us : List Token)
    (p : Predicate) : ofTokens (before ++ t :: us) ≠ .ok p := by
  intro parsed
  rcases ofTokens_cases parsed with ⟨t', alone, all⟩ | hr
  · obtain ⟨rfl, alone⟩ | ⟨_, alone⟩ := List.append_eq_singleton_iff.mp alone
    · -- the word `all` alone would have been read as a field
      cases alone
      cases h
      have free : Grammar.Field t (Path.split t.text) := by
        refine Grammar.Field.mk (kind_of_all word all) ?_
        rw [show Text.lower t.text = "all" from all]
        decide
      rw [State.start, Grammar.step_field _ _ free] at bad
      cases bad
    · cases alone
  · rw [h.run, State.run_of_step_error bad] at hr
    cases hr

/-- **A fault is at the first word that cannot be right.**  A text whose words the scanner finds is a predicate, or
it has a fault.  If the fault tells a place, that is the place of one of the words: those before it go on to the
words of a predicate, and no row of words that starts with those up to it is a predicate.  It tells no place exactly
if all the words go on to those of a predicate, with more words behind them. -/
theorem parseText_fault {source : String} {tokens : List Token} (scanned : Token.scan source = .ok tokens) :
    (∃ p, parseText source = .ok p) ∨
      ∃ text position, parseText source = .error (.predicateParse text position) ∧
        (∀ place, position = some place → ∃ before t after, tokens = before ++ t :: after ∧ t.position = place ∧
          (∃ us, Readable (before ++ us)) ∧ ∀ us p, ofTokens (before ++ t :: us) ≠ .ok p) ∧
        (position = none ↔ ∃ us, us ≠ [] ∧ Readable (tokens ++ us)) := by
  have words : ∀ t ∈ tokens, Lexeme t.kind t.text.toList := by
    rcases Token.scanFrom_cases 0 source.toList with ⟨_, found, tiled⟩ | ⟨_, _, _, _, found, _⟩
    · cases found.symm.trans scanned
      exact tiled.lexeme
    · cases found.symm.trans scanned
  rw [parseText_scanned scanned]
  cases ht : ofTokens tokens with
  | ok p => exact .inl ⟨p, rfl⟩
  | error e =>
    refine .inr ⟨e.text, e.position?, rfl, ?_⟩
    rcases State.start.run_cases tokens with ⟨u, passes, hr⟩ | ⟨before, t, after, u, f, rfl, passes, bad, hr⟩
    · -- all words can be read, so one is missing
      have unfinished : ∀ p, u.finish ≠ .ok p := by
        intro p hp
        obtain ⟨q, hq⟩ := exists_ofTokens_of_run (hr.trans hp)
        rw [ht] at hq
        cases hq
      have none : e.position? = none := by
        rcases run_of_ofTokens_error ht with ⟨_, rfl⟩ | he
        · rfl
        · exact State.finish_position (hr.symm.trans he)
      obtain ⟨us, readable, some⟩ := exists_readable words passes
      rw [none]
      exact ⟨nofun, iff_of_true rfl ⟨us, some unfinished, readable⟩⟩
    · obtain ⟨earlier, later⟩ := List.forall_mem_append.mp words
      have word := later t List.mem_cons_self
      have place : e.position? = some t.position := by
        rcases run_of_ofTokens_error ht with ⟨none, _⟩ | he
        · exact absurd none (by simp)
        · cases hr.symm.trans he
          exact State.step_position bad
      rw [place]
      refine ⟨?_, iff_of_false nofun ?_⟩
      · rintro _ ⟨⟩
        obtain ⟨us, readable, _⟩ := exists_readable earlier passes
        exact ⟨before, t, after, rfl, rfl, ⟨us, readable⟩, ofTokens_ne_ok word passes bad⟩
      · rintro ⟨us, _, readable⟩
        obtain ⟨p, hp⟩ := readable.exists_ofTokens
        rw [List.append_assoc, List.cons_append] at hp
        exact ofTokens_ne_ok word passes bad _ p hp

/-- The word `all` is a predicate alone, and the name of a field before any other word. -/
theorem parseText_fault_allBeforeOr :
    Token.scan "all or a exists" =
        .ok [⟨.word, "all", 0⟩, ⟨.word, "or", 4⟩, ⟨.word, "a", 7⟩, ⟨.word, "exists", 9⟩] ∧
      ∃ text, parseText "all or a exists" = .error (.predicateParse text (some 4)) ∧
        (∃ us, Readable (⟨.word, "all", 0⟩ :: us)) ∧
        ∀ us p, ofTokens (⟨.word, "all", 0⟩ :: ⟨.word, "or", 4⟩ :: us) ≠ .ok p := by
  have scanned : Token.scan "all or a exists" =
      .ok [⟨.word, "all", 0⟩, ⟨.word, "or", 4⟩, ⟨.word, "a", 7⟩, ⟨.word, "exists", 9⟩] := by
    with_unfolding_all rfl
  have read : ofTokens [⟨.word, "all", 0⟩, ⟨.word, "or", 4⟩, ⟨.word, "a", 7⟩, ⟨.word, "exists", 9⟩] =
      .error (.instead .operator ⟨.word, "or", 4⟩) := by
    with_unfolding_all rfl
  have fault := parseText_scanned scanned
  rw [read] at fault
  refine ⟨scanned, _, fault, ?_⟩
  rcases parseText_fault scanned with ⟨p, parsed⟩ | ⟨text, position, found, first, _⟩
  · cases fault.symm.trans parsed
  · cases fault.symm.trans found
    obtain ⟨before, t, after, split, place, goesOn, dead⟩ := first 4 rfl
    -- only one of the words stands at that place
    rcases List.cons_eq_append_iff.mp split with ⟨rfl, here⟩ | ⟨more, rfl, left⟩
    · cases (List.cons.inj here).1
      cases place
    rcases List.cons_eq_append_iff.mp left with ⟨rfl, here⟩ | ⟨more, rfl, behind⟩
    · obtain ⟨rfl, -⟩ := List.cons.inj here
      exact ⟨goesOn, dead⟩
    have other : ∀ u ∈ more ++ t :: after, u.position ≠ 4 := by
      rw [← behind]
      decide
    exact absurd place (other t (List.mem_append_right _ List.mem_cons_self))

end Predicate

end EventRouting
