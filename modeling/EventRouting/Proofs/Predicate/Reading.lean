import EventRouting.Predicate.Parse
import EventRouting.Proofs.Predicate.Word

/-!
# Reading predicates in shorthand

The reader of words, one at a time, against the grammar.

* `Grammar.Reads`        what the words read so far are, for every state of the reader
* `Grammar.reads_step`   one more word keeps this
* `Grammar.expr_of_run`  whatever the reader comes to is an expression of the grammar
* `Grammar.Unary.run`, `Grammar.AndChain.run`, `Grammar.OrChain.run`   the reader takes every phrase
* `Predicate.parseText_grammar`   reading gives exactly what the grammar derives
-/

namespace EventRouting.Predicate

namespace Grammar

open Shorthand

/-! ## what has been read -/

/-- the words of a level in front of a part -/
def Before (l : Level) (ts : List Token) : Prop :=
  ∃ as bs ns, OrOpen as l.alternatives ∧ AndOpen bs l.parts ∧ Nots ns l.negations ∧ ts = as ++ bs ++ ns

/-- the words of a level behind a part -/
def Behind (l : Level) (ts : List Token) : Prop :=
  ∃ as bs, OrOpen as l.alternatives ∧ AndChain bs l.parts ∧ l.negations = 0 ∧ ts = as ++ bs

/-- the words of the levels around, each with its opening parenthesis -/
inductive Around : List Level → List Token → Prop where
  | nil : Around [] []
  | cons {l : Level} {outer : List Level} {ts us : List Token} {t : Token} (h : Around outer us)
      (level : Before l ts) (opening : t.kind = .opening) : Around (l :: outer) (us ++ ts ++ [t])

inductive Inside (l : Level) : Phase → List Token → Prop where
  | part {ts : List Token} (h : Before l ts) : Inside l .part ts
  | test {ts : List Token} {f : Token} {path : Path} (h : Before l ts) (field : Field f path) :
      Inside l (.test path) (ts ++ [f])
  | value {ts : List Token} {f o : Token} {path : Path} {r : Relation} (h : Before l ts)
      (field : Field f path) (operator : Operator o r) : Inside l (.value path r) (ts ++ [f] ++ [o])
  | after {ts : List Token} (h : Behind l ts) : Inside l .after ts

/-- what the words read so far are in a state -/
def Reads (s : State) (ts : List Token) : Prop :=
  ∃ us vs, Around s.outer us ∧ Inside s.level s.phase vs ∧ ts = us ++ vs

theorem before_start : Before Level.start [] := ⟨[], [], [], OrOpen.nil, AndOpen.nil, Nots.nil, rfl⟩

theorem reads_start : Reads State.start [] := ⟨[], [], Around.nil, Inside.part before_start, rfl⟩

theorem AndChain.open {t : Token} (word : Spells t "and") :
    ∀ {us : List Token} {qs : List Predicate}, AndChain us qs →
      ∀ {ts : List Token} {ps : List Predicate}, AndOpen ts ps → AndOpen (ts ++ us ++ [t]) (ps ++ qs)
  | _, _, .one h, _, _, ho => AndOpen.snoc ho h word
  | _, _, .more h w rest, _, _, ho => by
    have h1 := AndChain.open word rest (AndOpen.snoc ho h w)
    simp only [List.append_assoc, List.cons_append, List.nil_append] at h1 ⊢
    exact h1

/-! ## levels -/

theorem Before.not {l : Level} {ts : List Token} {t : Token} (h : Before l ts) (word : Spells t "not") :
    Before ⟨l.alternatives, l.parts, l.negations + 1⟩ (ts ++ [t]) := by
  obtain ⟨as, bs, ns, ho, ha, hn, rfl⟩ := h
  exact ⟨as, bs, ns ++ [t], ho, ha, Nots.snoc hn word, List.append_assoc ..⟩

theorem Before.take {l : Level} {ts us : List Token} {p : Predicate} (h : Before l ts) (hu : Unary us p) :
    Behind (l.take p) (ts ++ us) := by
  obtain ⟨as, bs, ns, ho, ha, hn, rfl⟩ := h
  refine ⟨as, bs ++ (ns ++ us), ho, ha.append (AndChain.one (hn.unary hu)), rfl, ?_⟩
  simp only [List.append_assoc]

theorem Behind.and {l : Level} {ts : List Token} {t : Token} (h : Behind l ts) (word : Spells t "and") :
    Before l (ts ++ [t]) := by
  obtain ⟨as, bs, ho, ha, hn, rfl⟩ := h
  refine ⟨as, bs ++ [t], [], ho, AndChain.open word ha AndOpen.nil, ?_, ?_⟩
  · rw [hn]
    exact Nots.nil
  · simp only [List.append_assoc, List.append_nil]

theorem Behind.or {l : Level} {ts : List Token} {t : Token} (h : Behind l ts) (word : Spells t "or") :
    Before l.next (ts ++ [t]) := by
  obtain ⟨as, bs, ho, ha, _, rfl⟩ := h
  refine ⟨as ++ bs ++ [t], [], [], OrOpen.snoc ho (AndExpr.mk ha) word, AndOpen.nil, Nots.nil, ?_⟩
  simp only [List.append_nil]

theorem Behind.expr {l : Level} {ts : List Token} (h : Behind l ts) : Expr ts l.close := by
  obtain ⟨as, bs, ho, ha, _, rfl⟩ := h
  exact Expr.mk (ho.append (OrChain.one (AndExpr.mk ha)))

/-! ## steps -/

theorem reads_stepPart {s s' : State} {us vs : List Token} {t : Token} (hu : Around s.outer us)
    (hv : Before s.level vs) (h : s.stepPart t = .ok s') : Reads s' (us ++ vs ++ [t]) := by
  unfold State.stepPart at h
  split at h
  · next hn =>
    cases h
    have word := (isKeyword_iff t "not").mp hn
    exact ⟨us, vs ++ [t], hu, Inside.part (hv.not word), List.append_assoc ..⟩
  · split at h
    · next ho =>
      cases h
      exact ⟨us ++ vs ++ [t], [], Around.cons hu hv ho, Inside.part before_start,
        (List.append_nil _).symm⟩
    · split at h
      · next path hf =>
        cases h
        have field := (field?_iff t path).mp hf
        exact ⟨us, vs ++ [t], hu, Inside.test hv field, List.append_assoc ..⟩
      · cases h

theorem reads_stepAfter {s s' : State} {us vs : List Token} {t : Token} (hu : Around s.outer us)
    (hv : Behind s.level vs) (h : s.stepAfter t = .ok s') : Reads s' (us ++ vs ++ [t]) := by
  unfold State.stepAfter at h
  split at h
  · next ha =>
    cases h
    have word := (isKeyword_iff t "and").mp ha
    exact ⟨us, vs ++ [t], hu, Inside.part (hv.and word), List.append_assoc ..⟩
  · split at h
    · next ho =>
      cases h
      have word := (isKeyword_iff t "or").mp ho
      exact ⟨us, vs ++ [t], hu, Inside.part (hv.or word), List.append_assoc ..⟩
    · split at h
      · cases h
      · next around outer ho =>
        split at h
        · next hc =>
          cases h
          rw [ho] at hu
          cases hu with
          | @cons _ _ ts us' o hu level opening =>
            have hp := Unary.parens opening hv.expr hc
            refine ⟨us', ts ++ (o :: (vs ++ [t])), hu, Inside.after (level.take hp), ?_⟩
            simp only [List.append_assoc, List.cons_append, List.nil_append]
        · cases h

/-- **One more word**: what the reader has read stays what its state says. -/
theorem reads_step {s s' : State} {ts : List Token} {t : Token} (hw : t.WellQuoted) (hr : Reads s ts)
    (h : s.step t = .ok s') : Reads s' (ts ++ [t]) := by
  obtain ⟨level, outer, phase⟩ := s
  obtain ⟨us, vs, hu, hv, rfl⟩ := hr
  cases hv with
  | part hb => exact reads_stepPart hu hb h
  | @test vs f path hb field =>
    simp only [State.step] at h
    split at h
    · next r ho =>
      cases h
      have operator := (test?_inl_iff t r).mp ho
      exact ⟨us, vs ++ [f] ++ [t], hu, Inside.value hb field operator, List.append_assoc ..⟩
    · next q hq =>
      cases h
      have question := (test?_inr_iff t q).mp hq
      refine ⟨us, vs ++ [f, t], hu, Inside.after (hb.take (Unary.ask field question)), ?_⟩
      simp only [List.append_assoc, List.cons_append, List.nil_append]
    · cases h
  | @value vs f o path r hb field operator =>
    simp only [State.step] at h
    split at h
    · next v hv =>
      cases h
      have value := value_of_value?_eq hw hv
      refine ⟨us, vs ++ [f, o, t], hu, Inside.after (hb.take (Unary.compare field operator value)), ?_⟩
      simp only [List.append_assoc, List.cons_append, List.nil_append]
    · cases h
  | after hb => exact reads_stepAfter hu hb h

theorem expr_of_finish {s : State} {ts : List Token} {p : Predicate} (hr : Reads s ts)
    (h : s.finish = .ok p) : Expr ts p := by
  obtain ⟨level, outer, phase⟩ := s
  obtain ⟨us, vs, hu, hv, rfl⟩ := hr
  cases hv with
  | part | test | value => cases h
  | after hb =>
    cases hu with
    | nil =>
      cases h
      exact hb.expr
    | cons => cases h

/-- **A run**: whatever the reader comes to is an expression of the grammar. -/
theorem expr_of_run {us : List Token} (hw : ∀ t ∈ us, t.WellQuoted) :
    ∀ {s : State} {ts : List Token} {p : Predicate}, Reads s ts → s.run us = .ok p → Expr (ts ++ us) p := by
  induction us with
  | nil =>
    intro s ts p hr h
    rw [List.append_nil]
    exact expr_of_finish hr h
  | cons t us ih =>
    intro s ts p hr h
    simp only [State.run] at h
    split at h
    · next s' hs =>
      have hr' := reads_step (hw t List.mem_cons_self) hr hs
      have he := ih (fun u hu => hw u (List.mem_cons_of_mem _ hu)) hr' h
      rw [List.append_assoc] at he
      exact he
    · cases h

/-! ## phrases -/

theorem run_cons {s s' : State} {t : Token} (h : s.step t = .ok s') (us : List Token) :
    s.run (t :: us) = s'.run us := by
  rw [State.run, h]

theorem isKeyword_ne {t : Token} {word other : String} (h : Spells t word) (hne : word ≠ other) :
    isKeyword t other = false := by
  rw [Bool.eq_false_iff]
  exact fun hk => hne (h.2.symm.trans ((isKeyword_iff t other).mp hk).2)

theorem isKeyword_kind {t : Token} (h : t.kind ≠ .word) (word : String) : isKeyword t word = false := by
  rw [Bool.eq_false_iff]
  exact fun hk => h ((isKeyword_iff t word).mp hk).1

theorem Field.isKeyword_not {t : Token} {path : Path} (h : Field t path) : isKeyword t "not" = false := by
  obtain ⟨_, free⟩ := h
  rw [Bool.eq_false_iff]
  intro hk
  rw [((isKeyword_iff t "not").mp hk).2] at free
  exact free (by decide)

section
variable (l : Level) (outer : List Level)

theorem step_not {t : Token} (word : Spells t "not") :
    State.step ⟨l, outer, .part⟩ t = .ok ⟨⟨l.alternatives, l.parts, l.negations + 1⟩, outer, .part⟩ := by
  show State.stepPart _ t = _
  rw [State.stepPart, if_pos ((isKeyword_iff t "not").mpr word)]

theorem step_opening {t : Token} (opening : t.kind = .opening) :
    State.step ⟨l, outer, .part⟩ t = .ok ⟨.start, l :: outer, .part⟩ := by
  have hn : isKeyword t "not" = false := isKeyword_kind (by rw [opening]; decide) "not"
  show State.stepPart _ t = _
  rw [State.stepPart, hn, if_neg Bool.false_ne_true, if_pos opening]

theorem step_field {t : Token} {path : Path} (field : Field t path) :
    State.step ⟨l, outer, .part⟩ t = .ok ⟨l, outer, .test path⟩ := by
  have hk : t.kind ≠ .opening := by
    obtain ⟨word, _⟩ := field
    rw [word]
    decide
  show State.stepPart _ t = _
  rw [State.stepPart, field.isKeyword_not, if_neg Bool.false_ne_true, if_neg hk,
    (field?_iff t path).mpr field]

theorem step_operator {t : Token} {path : Path} {r : Relation} (operator : Operator t r) :
    State.step ⟨l, outer, .test path⟩ t = .ok ⟨l, outer, .value path r⟩ := by
  simp only [State.step, (test?_inl_iff t r).mpr operator]

theorem step_question {t : Token} {path : Path} {q : Test} (question : Question t q) :
    State.step ⟨l, outer, .test path⟩ t = .ok ⟨l.take (.field path q), outer, .after⟩ := by
  simp only [State.step, (test?_inr_iff t q).mpr question]
  rfl

theorem step_value {t : Token} {path : Path} {r : Relation} {v : Json} (value : Value t v) :
    State.step ⟨l, outer, .value path r⟩ t = .ok ⟨l.take (.field path (.compare r v)), outer, .after⟩ := by
  simp only [State.step, value.value?_eq]
  rfl

theorem step_and {t : Token} (word : Spells t "and") :
    State.step ⟨l, outer, .after⟩ t = .ok ⟨l, outer, .part⟩ := by
  show State.stepAfter _ t = _
  rw [State.stepAfter, if_pos ((isKeyword_iff t "and").mpr word)]

theorem step_or {t : Token} (word : Spells t "or") :
    State.step ⟨l, outer, .after⟩ t = .ok ⟨l.next, outer, .part⟩ := by
  have ha : isKeyword t "and" = false := isKeyword_ne word (by decide)
  show State.stepAfter _ t = _
  rw [State.stepAfter, ha, if_neg Bool.false_ne_true, if_pos ((isKeyword_iff t "or").mpr word)]

theorem step_closing (around : Level) {t : Token} (closing : t.kind = .closing) :
    State.step ⟨l, around :: outer, .after⟩ t = .ok ⟨around.take l.close, outer, .after⟩ := by
  have hk : ∀ word, isKeyword t word = false := isKeyword_kind (by rw [closing]; decide)
  show State.stepAfter _ t = _
  rw [State.stepAfter, hk, hk, if_neg Bool.false_ne_true, if_neg Bool.false_ne_true]
  exact if_pos closing

end

mutual

theorem Expr.run : ∀ {ts : List Token} {p : Predicate}, Expr ts p →
    ∀ (outer : List Level) (rest : List Token), ∃ l : Level,
      State.run ⟨.start, outer, .part⟩ (ts ++ rest) = State.run ⟨l, outer, .after⟩ rest ∧ l.close = p
  | _, _, .mk h, outer, rest => h.run [] outer rest

theorem OrChain.run : ∀ {ts : List Token} {ps : List Predicate}, OrChain ts ps →
    ∀ (alternatives : List Predicate) (outer : List Level) (rest : List Token), ∃ l : Level,
      State.run ⟨⟨alternatives, [], 0⟩, outer, .part⟩ (ts ++ rest) = State.run ⟨l, outer, .after⟩ rest ∧
        l.close = join .or (alternatives ++ ps)
  | _, _, .one (.mk h), alternatives, outer, rest =>
    ⟨⟨alternatives, _, 0⟩, h.run ⟨alternatives, [], 0⟩ outer rest rfl, rfl⟩
  | _, _, .more (.mk h) word more, alternatives, outer, rest => by
    obtain ⟨l, hl, hc⟩ := more.run (alternatives ++ [_]) outer rest
    refine ⟨l, ?_, hc.trans ?_⟩
    · rw [List.append_assoc, List.cons_append, h.run ⟨alternatives, [], 0⟩ outer _ rfl,
        run_cons (step_or _ outer word)]
      exact hl
    · rw [List.append_assoc]
      rfl

theorem AndChain.run : ∀ {ts : List Token} {ps : List Predicate}, AndChain ts ps →
    ∀ (l : Level) (outer : List Level) (rest : List Token), l.negations = 0 →
      State.run ⟨l, outer, .part⟩ (ts ++ rest) =
        State.run ⟨⟨l.alternatives, l.parts ++ ps, 0⟩, outer, .after⟩ rest
  | _, _, .one h, l, outer, rest, hn => by
    rw [h.run l outer rest, Level.take, hn]
    rfl
  | _, _, .more h word more, l, outer, rest, hn => by
    rw [List.append_assoc, List.cons_append, h.run l outer, run_cons (step_and _ outer word),
      more.run _ outer rest rfl, Level.take, hn, List.append_assoc]
    rfl

/-- A part is taken into the level, under the negations in front of it. -/
theorem Unary.run : ∀ {ts : List Token} {p : Predicate}, Unary ts p →
    ∀ (l : Level) (outer : List Level) (rest : List Token),
      State.run ⟨l, outer, .part⟩ (ts ++ rest) = State.run ⟨l.take p, outer, .after⟩ rest
  | _, _, .not word h, l, outer, rest => by
    rw [List.cons_append, run_cons (step_not l outer word), h.run _ outer rest, Level.take, Level.take,
      negate_not]
    rfl
  | _, _, .parens opening h closing, l, outer, rest => by
    obtain ⟨l', hl, hc⟩ := h.run (l :: outer) (_ :: rest)
    rw [List.cons_append, List.append_assoc, run_cons (step_opening l outer opening), List.cons_append,
      List.nil_append, hl, run_cons (step_closing l' outer l closing), hc]
  | _, _, .compare hf ho hv, l, outer, rest => by
    rw [List.cons_append, List.cons_append, List.cons_append, List.nil_append,
      run_cons (step_field l outer hf), run_cons (step_operator l outer ho),
      run_cons (step_value l outer hv)]
  | _, _, .ask hf hq, l, outer, rest => by
    rw [List.cons_append, List.cons_append, List.nil_append, run_cons (step_field l outer hf),
      run_cons (step_question l outer hq)]

end

theorem run_of_expr {ts : List Token} {p : Predicate} (h : Expr ts p) : State.start.run ts = .ok p := by
  obtain ⟨l, hl, hc⟩ := h.run [] []
  rw [List.append_nil] at hl
  show State.run ⟨.start, [], .part⟩ ts = _
  rw [hl, ← hc]
  rfl

theorem not_expr_singleton (t : Token) (p : Predicate) : ¬ Expr [t] p := by
  intro h
  have hr := run_of_expr h
  simp only [State.run, State.step, State.start, State.stepPart] at hr
  split at hr
  · next hs =>
    split at hs
    · cases hs; cases hr
    · split at hs
      · cases hs; cases hr
      · split at hs
        · cases hs; cases hr
        · cases hs
  · cases hr

end Grammar

/-! ## texts -/

open Grammar

theorem ofTokens_iff {tokens : List Token} (hw : ∀ t ∈ tokens, t.WellQuoted) (p : Predicate) :
    ofTokens tokens = .ok p ↔ Derives tokens p := by
  have hrun : Shorthand.State.start.run tokens = .ok p ↔ Expr tokens p :=
    ⟨fun h => expr_of_run hw reads_start h, run_of_expr⟩
  match tokens with
  | [] =>
    constructor
    · intro h
      cases h
    · rintro (_ | h)
      have hr := run_of_expr h
      cases hr
  | [t] =>
    show (if Shorthand.lowered t = "all" then Except.ok all else Shorthand.State.start.run [t]) = .ok p ↔ _
    constructor
    · intro h
      split at h
      · next hl =>
        cases h
        exact Derives.all hl
      · exact Derives.expr (hrun.mp h)
    · rintro (hl | h)
      · exact if_pos hl
      · exact absurd h (not_expr_singleton t p)
  | t :: u :: rest =>
    constructor
    · intro h
      exact Derives.expr (hrun.mp h)
    · rintro (_ | h)
      exact hrun.mpr h

theorem parseText_scanned {source : String} {tokens : List Token} (h : Token.scan source = .ok tokens) :
    parseText source = (ofTokens tokens).mapError Unreadable.fault := by
  unfold parseText ofText
  rw [h]
  dsimp only
  cases ofTokens tokens <;> rfl

theorem parseText_ok_iff {source : String} {tokens : List Token} (h : Token.scan source = .ok tokens)
    (p : Predicate) : parseText source = .ok p ↔ Derives tokens p := by
  rw [parseText_scanned h, ← ofTokens_iff (Token.scan_wellQuoted h) p]
  cases ofTokens tokens <;> simp [Except.mapError]

/-- **Reading is the grammar.**  A text whose words the scanner finds is read as a predicate exactly
when all its words derive it, they derive no other one, and words that derive nothing are a fault of the
predicate. -/
theorem parseText_grammar {source : String} {tokens : List Token} (scanned : Token.scan source = .ok tokens) :
    (∀ p, parseText source = .ok p ↔ Derives tokens p) ∧
      (∀ p q, Derives tokens p → Derives tokens q → p = q) ∧
      ((∀ p, ¬ Derives tokens p) →
        ∃ text position, parseText source = .error (.predicateParse text position)) := by
  have hiff := parseText_ok_iff scanned
  refine ⟨hiff, ?_, ?_⟩
  · intro p q hp hq
    have h1 := (hiff p).mpr hp
    rw [(hiff q).mpr hq] at h1
    exact (Except.ok.inj h1).symm
  · intro hnone
    cases ht : ofTokens tokens with
    | ok p => exact absurd ((ofTokens_iff (Token.scan_wellQuoted scanned) p).mp ht) (hnone p)
    | error u => exact ⟨u.text, u.position?, by rw [parseText_scanned scanned, ht]; rfl⟩

/-- the words of a text in which `or` binds less than `not` -/
def negationOrEquality : List Token :=
  [⟨.word, "NOT", 0⟩, ⟨.word, "a", 4⟩, ⟨.word, "exists", 6⟩, ⟨.word, "or", 13⟩, ⟨.word, "b", 16⟩,
    ⟨.operator, "==", 18⟩, ⟨.string, "'x'", 21⟩]

theorem parseText_grammar_negationOrEquality :
    Token.scan "NOT a exists or b == 'x'" = .ok negationOrEquality ∧
      Derives negationOrEquality (.group .or [.not (.field [.name "a"] .present),
        .field [.name "b"] (.compare .equal (.str "x"))]) := by
  have h : Token.scan "NOT a exists or b == 'x'" = .ok negationOrEquality := by decide +kernel
  exact ⟨h, ((parseText_grammar h).1 _).mp (by with_unfolding_all rfl)⟩

end EventRouting.Predicate
