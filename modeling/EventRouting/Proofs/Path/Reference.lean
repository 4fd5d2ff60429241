import EventRouting.Path.Reference
import EventRouting.Proofs.Text.Decimal
import Mathlib.Data.List.Basic
import Mathlib.Data.List.TakeWhile

/-!
# References and their steps

A reference is the root `$` and a row of steps behind it.  One regular expression decides what a reference is
and another one, which skips what it does not know, cuts it into steps: here both are shown to see the same steps.

* `Segment.Spelled`          one step in writing, a point and a name or digits in brackets
* `Path.Spelled`             a row of steps in writing, one for each step of the path
* `Path.Spells`              a text that is a root with a row of steps behind it, and nothing else
* `Path.EndsLoose`           a line feed at the end that belongs to no step
* `Path.Spelled.reads`       a row of steps is cut and let through, whatever comes behind it
* `Path.reference_grammar`   the texts that are references and their paths
-/

namespace EventRouting

/-- `s.Spelled cs`: the characters are the step in writing. -/
inductive Segment.Spelled : Segment → List Char → Prop where
  | name {cs : List Char} (some : cs ≠ []) (plain : ∀ c ∈ cs, Path.isNameChar c = true) :
      Spelled (.name (String.ofList cs)) ('.' :: cs)
  | index {ds : List Char} (some : ds ≠ []) (digits : ∀ d ∈ ds, Text.isDigit d = true) :
      Spelled (.index (Text.digitsValue ds)) ('[' :: (ds ++ [']']))

namespace Path

/-- `Spelled path cs`: the characters are the steps of the path in writing, one behind the other -/
inductive Spelled : Path → List Char → Prop where
  | nil : Spelled [] []
  | cons {s : Segment} {step rest : List Char} {path : Path} (first : s.Spelled step) (more : Spelled path rest) :
      Spelled (s :: path) (step ++ rest)

/-- The text is the root with the steps of the path behind it. -/
def Spells (text : String) (path : Path) : Prop := ∃ cs, text.toList = '$' :: cs ∧ Spelled path cs

/-- The root alone, or a row of steps that ends with a bracket. -/
def Closed (cs : List Char) : Prop := cs = [] ∨ ∃ front, cs = front ++ [']']

/-- The text ends with a line feed behind the root or behind a bracket. -/
def EndsLoose (text : String) : Prop := text = "$\n" ∨ ∃ front, text = front ++ "]\n"

/-! ## one step -/

theorem isNameChar_iff {c : Char} : isNameChar c = true ↔ c ≠ '.' ∧ c ≠ '[' ∧ c ≠ ']' := by
  simp only [isNameChar, Bool.and_eq_true, bne_iff_ne, and_assoc]

theorem isNameChar_of_class {p : Char → Bool} (point : p '.' = false) (opening : p '[' = false)
    (closing : p ']' = false) {c : Char} (h : p c = true) : isNameChar c = true := by
  have other {d : Char} (hd : p d = false) : c ≠ d := by
    rintro rfl
    rw [h] at hd
    cases hd
  exact isNameChar_iff.mpr ⟨other point, other opening, other closing⟩

theorem isNameChar_of_isDigit {c : Char} (h : Text.isDigit c = true) : isNameChar c = true :=
  isNameChar_of_class (by decide) (by decide) (by decide) h

theorem takeWhile_stop {p : Char → Bool} {cs rest : List Char} (h : ∀ c ∈ cs, p c = true)
    (hr : ∀ c ds, rest = c :: ds → p c = false) :
    (cs ++ rest).takeWhile p = cs ∧ (cs ++ rest).dropWhile p = rest := by
  rw [List.takeWhile_append_of_pos h, List.dropWhile_append_of_pos h]
  cases rest with
  | nil => simp
  | cons d ds =>
    have hd : p d = false := hr d ds rfl
    simp [hd]

theorem bracketed?_iff {cs ds rest : List Char} :
    bracketed? cs = some (ds, rest) ↔
      (ds ≠ [] ∧ ∀ d ∈ ds, Text.isDigit d = true) ∧ cs = ds ++ ']' :: rest := by
  have bracket : ∀ c es, ']' :: rest = c :: es → Text.isDigit c = false := by
    rintro _ _ ⟨⟩
    decide
  constructor
  · intro h
    have whole := List.takeWhile_append_dropWhile (p := Text.isDigit) (l := cs)
    have digits : ∀ d ∈ cs.takeWhile Text.isDigit, Text.isDigit d = true := fun _ => List.mem_takeWhile_imp
    unfold bracketed? at h
    split at h
    · next d ds' rest' hd hr =>
      cases h
      rw [hd] at whole digits
      rw [hr] at whole
      exact ⟨⟨List.cons_ne_nil d ds', digits⟩, whole.symm⟩
    · cases h
  · rintro ⟨⟨some_digit, digits⟩, rfl⟩
    obtain ⟨front, left⟩ := takeWhile_stop digits bracket
    obtain ⟨d, es, rfl⟩ := List.exists_cons_of_ne_nil some_digit
    rw [bracketed?, front, left]
    rfl

theorem splitChars_name {c : Char} {cs rest : List Char} (h : ∀ d ∈ c :: cs, isNameChar d = true)
    (hr : ∀ d ds, rest = d :: ds → isNameChar d = false) :
    splitChars (c :: (cs ++ rest)) = .name (String.ofList (c :: cs)) :: splitChars rest := by
  have hc := h c List.mem_cons_self
  have bracket : c ≠ '[' := (isNameChar_iff.mp hc).2.1
  obtain ⟨front, left⟩ := takeWhile_stop (fun d hd => h d (List.mem_cons_of_mem c hd)) hr
  rw [splitChars, if_pos hc, front, left]
  exact bracket

theorem splitChars_point (rest : List Char) : splitChars ('.' :: rest) = splitChars rest := by
  rw [splitChars, if_neg (by decide)]
  exact fun he => absurd he (by decide)

theorem splitChars_index {ds : List Char} (some_digit : ds ≠ []) (digits : ∀ d ∈ ds, Text.isDigit d = true)
    (rest : List Char) :
    splitChars ('[' :: (ds ++ ']' :: rest)) = .index (Text.digitsValue ds) :: splitChars rest := by
  have h : bracketed? (ds ++ ']' :: rest) = some (ds, rest) := bracketed?_iff.mpr ⟨⟨some_digit, digits⟩, rfl⟩
  rw [splitChars]
  split
  · next hb =>
    rw [h] at hb
    cases hb
    rfl
  · next hb =>
    rw [h] at hb
    cases hb

theorem isSteps_name {c : Char} {cs rest : List Char} (h : ∀ d ∈ c :: cs, isNameChar d = true)
    (hr : ∀ d ds, rest = d :: ds → isNameChar d = false) :
    isSteps ('.' :: c :: (cs ++ rest)) = isSteps rest := by
  obtain ⟨-, left⟩ := takeWhile_stop (fun d hd => h d (List.mem_cons_of_mem c hd)) hr
  rw [isSteps, h c List.mem_cons_self, left, Bool.true_and]

theorem isSteps_index {ds : List Char} (some_digit : ds ≠ []) (digits : ∀ d ∈ ds, Text.isDigit d = true)
    (rest : List Char) : isSteps ('[' :: (ds ++ ']' :: rest)) = isSteps rest := by
  have h : bracketed? (ds ++ ']' :: rest) = some (ds, rest) := bracketed?_iff.mpr ⟨⟨some_digit, digits⟩, rfl⟩
  rw [isSteps]
  split
  · next hb =>
    rw [h] at hb
    cases hb
    rfl
  · next hb =>
    rw [h] at hb
    cases hb

/-! ## rows of steps -/

theorem Spelled.starts {path : Path} {cs : List Char} (h : Spelled path cs) :
    ∀ c ds, cs = c :: ds → isNameChar c = false := by
  intro c ds he
  cases h with
  | nil => cases he
  | cons first more =>
    cases first with
    | name some_char plain =>
      cases he
      rfl
    | index some_digit digits =>
      cases he
      rfl

/-- A row of steps is cut into its steps and let through, whatever comes behind it, unless its last step is a
name that goes on there. -/
theorem Spelled.reads {path : Path} {cs : List Char} (h : Spelled path cs) {rest : List Char}
    (stop : ∀ t, path.getLast? = some (.name t) → ∀ c ds, rest = c :: ds → isNameChar c = false) :
    splitChars (cs ++ rest) = path ++ splitChars rest ∧ isSteps (cs ++ rest) = isSteps rest := by
  induction h with
  | nil => exact ⟨rfl, rfl⟩
  | @cons s step behind path first more ih =>
    have stop_more : ∀ t, path.getLast? = some (.name t) → ∀ c ds, rest = c :: ds → isNameChar c = false := by
      intro t ht
      refine stop t ?_
      rw [List.getLast?_cons, ht]
      rfl
    obtain ⟨split_more, steps_more⟩ := ih stop_more
    rw [List.append_assoc, List.cons_append, ← split_more, ← steps_more]
    cases first with
    | @name cs some_char plain =>
      -- what comes next is the next step, or the rest where this step is the last one
      have next : ∀ c ds, behind ++ rest = c :: ds → isNameChar c = false := by
        intro c ds he
        cases more with
        | nil => exact stop _ rfl c ds he
        | @cons t word words tail first' more' =>
          obtain ⟨d, es, hd⟩ : ∃ d es, word ++ words = d :: es := by
            cases first' <;> exact ⟨_, _, rfl⟩
          rw [hd] at he
          cases he
          exact (Spelled.cons first' more').starts _ _ hd
      obtain ⟨c, ds, rfl⟩ := List.exists_cons_of_ne_nil some_char
      show splitChars ('.' :: c :: (ds ++ (behind ++ rest))) = _ ∧
        isSteps ('.' :: c :: (ds ++ (behind ++ rest))) = _
      rw [splitChars_point, splitChars_name plain next, isSteps_name plain next]
      exact ⟨rfl, rfl⟩
    | @index ds some_digit digits =>
      have he : '[' :: (ds ++ [']']) ++ (behind ++ rest) = '[' :: (ds ++ ']' :: (behind ++ rest)) := by simp
      rw [he, splitChars_index some_digit digits, isSteps_index some_digit digits]
      exact ⟨rfl, rfl⟩

theorem Spelled.read {path : Path} {cs : List Char} (h : Spelled path cs) :
    splitChars cs = path ∧ isSteps cs = true := by
  have alone := @Spelled.reads path cs h [] fun _ _ c ds he => absurd he.symm (List.cons_ne_nil c ds)
  rw [List.append_nil, splitChars, isSteps, List.append_nil] at alone
  exact alone

theorem exists_spelled {cs : List Char} (h : isSteps cs = true) : ∃ path, Spelled path cs := by
  fun_induction isSteps cs with
  | case1 => exact ⟨[], .nil⟩
  | case2 c rest ih =>
    rw [Bool.and_eq_true] at h
    obtain ⟨hc, hr⟩ := h
    obtain ⟨path, hp⟩ := ih hr
    have plain : ∀ d ∈ c :: rest.takeWhile isNameChar, isNameChar d = true :=
      List.forall_mem_cons.mpr ⟨hc, fun _ => List.mem_takeWhile_imp⟩
    have whole := Spelled.cons (Segment.Spelled.name (List.cons_ne_nil _ _) plain) hp
    rw [List.cons_append, List.cons_append, List.takeWhile_append_dropWhile] at whole
    exact ⟨_, whole⟩
  | case3 rest ds left hb ih =>
    obtain ⟨path, hp⟩ := ih h
    obtain ⟨⟨some_digit, digits⟩, rfl⟩ := bracketed?_iff.mp hb
    have whole := Spelled.cons (Segment.Spelled.index some_digit digits) hp
    rw [List.cons_append, List.append_assoc] at whole
    exact ⟨_, whole⟩
  | case4 => cases h
  | case5 => cases h

/-! ## a line feed at the end -/

/-- A row of steps is one with a line feed behind it too, unless it ends with a bracket or is empty. -/
theorem Spelled.feed {path : Path} {cs : List Char} (h : Spelled path cs) :
    (∃ longer, Spelled longer (cs ++ ['\n'])) ∨
      Closed cs ∧ ∀ t, path.getLast? ≠ some (.name t) := by
  induction h with
  | nil => exact .inr ⟨.inl rfl, fun t => by simp⟩
  | @cons s step rest path first more ih =>
    rcases ih with ⟨longer, h⟩ | ⟨last, other⟩
    · rw [List.append_assoc]
      exact .inl ⟨_, .cons first h⟩
    · cases more with
      | nil =>
        cases first with
        | @name cs some_char plain =>
          have plain_feed : ∀ c ∈ cs ++ ['\n'], isNameChar c = true := by
            intro c hc
            rcases List.mem_append.mp hc with hc | hc
            · exact plain c hc
            · rw [List.mem_singleton.mp hc]
              rfl
          have whole := Spelled.cons (.name (by simp) plain_feed) .nil
          rw [List.append_nil] at whole
          exact .inl ⟨_, by rw [List.append_nil]; exact whole⟩
        | @index ds some_digit digits =>
          exact .inr ⟨.inr ⟨'[' :: ds, by simp⟩, fun t => by simp⟩
      | @cons t word words tail first' more' =>
        refine .inr ⟨.inr ?_, fun u => ?_⟩
        · rcases last with last | ⟨front, hf⟩
          · cases first' <;> cases last
          · exact ⟨step ++ front, by rw [hf, List.append_assoc]⟩
        · rw [List.getLast?_cons_cons]
          exact other u

theorem Spelled.before_feed {path : Path} {cs : List Char} (h : Spelled path cs) :
    ∀ front, cs = front ++ ['\n'] → ∃ more c, front = more ++ [c] ∧ c ≠ ']' := by
  induction h with
  | nil => exact fun front he => absurd he.symm (by simp)
  | @cons s step rest path first more ih =>
    intro front he
    rcases rest.eq_nil_or_concat' with rfl | ⟨init, d, rfl⟩
    · rw [List.append_nil] at he
      cases first with
      | @name cs some_char plain =>
        have open_char : ∀ c ∈ '.' :: cs, c ≠ ']' :=
          List.forall_mem_cons.mpr ⟨by decide, fun c hc => (isNameChar_iff.mp (plain c hc)).2.2⟩
        rcases front.eq_nil_or_concat' with rfl | ⟨init, c, rfl⟩
        · exact absurd (List.cons.inj he).2 some_char
        · refine ⟨init, c, rfl, open_char c ?_⟩
          rw [he]
          simp
      | @index ds some_digit digits =>
        have last : ']' = '\n' := by
          rw [← List.cons_append] at he
          exact List.cons.inj (List.append_inj' he rfl).2 |>.1
        exact absurd last (by decide)
    · rw [← List.append_assoc] at he
      obtain ⟨hf, hd⟩ := List.append_inj' he rfl
      cases hd
      obtain ⟨m, c, rfl, hc⟩ := ih init rfl
      exact ⟨step ++ m, c, by rw [← hf, List.append_assoc], hc⟩

theorem Spelled.not_closed {path : Path} {front : List Char} (h : Spelled path (front ++ ['\n'])) : ¬ Closed front := by
  obtain ⟨more, c, rfl, hc⟩ := h.before_feed front rfl
  rintro (none | ⟨other, bracket⟩)
  · exact absurd none (by simp)
  · have last : c = ']' := (List.cons.inj (List.append_inj' bracket rfl).2).1
    exact hc last

/-- Behind the root and behind a bracket a line feed is cut off as a step of its own. -/
theorem Spelled.splitChars_feed {path : Path} {cs : List Char} (h : Spelled path cs) (closed : Closed cs) :
    splitChars (cs ++ ['\n']) = path ++ [.name "\n"] := by
  have alone : splitChars ['\n'] = [.name "\n"] := by
    have name := @splitChars_name '\n' [] [] (List.forall_mem_singleton.mpr rfl) nofun
    rw [List.append_nil, splitChars] at name
    exact name
  rcases h.feed with ⟨longer, hl⟩ | ⟨-, last⟩
  · exact absurd closed hl.not_closed
  · rw [(h.reads fun t ht => absurd ht (last t)).1, alone]

/-! ## references -/

theorem isReference_iff (text : String) : isReference text = true ↔ ∃ p, ofReference? text = some p := by
  unfold isReference ofReference?
  split
  · next rest _ =>
    cases isStepsLine rest
    · simp
    · simp
  · simp

theorem ofReference?_eq_some_iff (text : String) (path : Path) :
    ofReference? text = some path ↔
      ∃ cs, text.toList = '$' :: cs ∧ isStepsLine cs = true ∧ splitChars cs = path := by
  unfold ofReference?
  split
  · next rest ht => simp [ht]
  · next other =>
    refine iff_of_false nofun ?_
    rintro ⟨cs, ht, _⟩
    exact other cs ht

theorem parse_str_iff (text : String) (path : Path) :
    parse (.str text) = .ok path ↔ ofReference? text = some path := by
  unfold parse
  dsimp only
  cases ofReference? text <;> simp

theorem isStepsLine_iff (cs : List Char) :
    isStepsLine cs = true ↔ isSteps cs = true ∨ ∃ front, cs = front ++ ['\n'] ∧ isSteps front = true := by
  unfold isStepsLine
  rw [Bool.or_eq_true, Bool.and_eq_true]
  refine or_congr_right ?_
  rcases cs.eq_nil_or_concat' with rfl | ⟨front, c, rfl⟩
  · simp
  · simp only [List.getLast?_concat, List.dropLast_concat, beq_iff_eq, Option.some_inj]
    constructor
    · rintro ⟨rfl, h⟩
      exact ⟨front, rfl, h⟩
    · rintro ⟨other, he, h⟩
      obtain ⟨rfl, hc⟩ := List.append_inj' he rfl
      exact ⟨(List.cons.inj hc).1, h⟩

theorem endsLoose_iff {text : String} {cs : List Char} (ht : text.toList = '$' :: cs) :
    EndsLoose text ↔ ∃ front, cs = front ++ ['\n'] ∧ Closed front := by
  have spelt (s : String) : text = s ↔ '$' :: cs = s.toList := by rw [← ht, String.toList_inj]
  unfold EndsLoose
  constructor
  · rintro (he | ⟨front, he⟩)
    · have hc : '$' :: cs = ['$', '\n'] := (spelt _).mp he
      exact ⟨[], (List.cons.inj hc).2, .inl rfl⟩
    · have hc := (spelt _).mp he
      rw [String.toList_append] at hc
      cases hf : front.toList with
      | nil =>
        rw [hf] at hc
        exact absurd (List.cons.inj hc).1 (by decide)
      | cons c more =>
        rw [hf] at hc
        refine ⟨more ++ [']'], ?_, .inr ⟨more, rfl⟩⟩
        rw [(List.cons.inj hc).2, List.append_assoc]
        rfl
  · rintro ⟨front, rfl, rfl | ⟨more, rfl⟩⟩
    · exact .inl ((spelt _).mpr rfl)
    · refine .inr ⟨String.ofList ('$' :: more), (spelt _).mpr ?_⟩
      rw [String.toList_append, String.toList_ofList, List.append_assoc]
      rfl

theorem Spells.parse {text : String} {path : Path} (h : Spells text path) : Path.parse (.str text) = .ok path := by
  obtain ⟨cs, ht, hp⟩ := h
  obtain ⟨split, steps⟩ := hp.read
  rw [parse_str_iff, ofReference?_eq_some_iff]
  exact ⟨cs, ht, (isStepsLine_iff cs).mpr (.inl steps), split⟩

theorem Spells.not_endsLoose {text : String} {path : Path} (h : Spells text path) : ¬ EndsLoose text := by
  obtain ⟨cs, ht, hp⟩ := h
  rw [endsLoose_iff ht]
  rintro ⟨front, rfl, closed⟩
  exact hp.not_closed closed

/-- A line feed that belongs to no step is read as one more step. -/
theorem Spells.parse_feed {text front : String} {steps : Path} (h : Spells front steps) (ht : text = front ++ "\n")
    (loose : EndsLoose text) : Path.parse (.str text) = .ok (steps ++ [.name "\n"]) := by
  obtain ⟨cs, hf, hp⟩ := h
  have hc : text.toList = '$' :: (cs ++ ['\n']) := by
    rw [ht, String.toList_append, hf]
    rfl
  have closed : Closed cs := by
    obtain ⟨other, he, closed⟩ := (endsLoose_iff hc).mp loose
    rw [(List.append_inj' he rfl).1]
    exact closed
  have line : isStepsLine (cs ++ ['\n']) = true := (isStepsLine_iff _).mpr (.inr ⟨cs, rfl, hp.read.2⟩)
  rw [parse_str_iff, ofReference?_eq_some_iff]
  exact ⟨_, hc, line, hp.splitChars_feed closed⟩

/-- What is read is a root with steps, or such a text with a line feed behind it that belongs to no step. -/
theorem spells_of_parse {text : String} {path : Path} (h : parse (.str text) = .ok path) :
    Spells text path ∨ EndsLoose text ∧ ∃ front steps, text = front ++ "\n" ∧ Spells front steps := by
  rw [parse_str_iff, ofReference?_eq_some_iff] at h
  obtain ⟨cs, ht, line, rfl⟩ := h
  have whole : ∀ {p : Path}, Spelled p cs → Spells text (splitChars cs) := by
    intro p hp
    rw [hp.read.1]
    exact ⟨cs, ht, hp⟩
  rcases (isStepsLine_iff cs).mp line with steps | ⟨front, rfl, steps⟩
  · obtain ⟨p, hp⟩ := exists_spelled steps
    exact .inl (whole hp)
  · obtain ⟨q, hq⟩ := exists_spelled steps
    rcases hq.feed with ⟨longer, hl⟩ | ⟨closed, -⟩
    · exact .inl (whole hl)
    · have loose : EndsLoose text := (endsLoose_iff ht).mpr ⟨front, rfl, closed⟩
      have cut : text = String.ofList ('$' :: front) ++ "\n" := by
        rw [← String.toList_inj, ht, String.toList_append, String.toList_ofList]
        rfl
      exact .inr ⟨loose, _, q, cut, front, String.toList_ofList, hq⟩

/-- **The references.**  A text is a root with a row of steps behind it and nothing else exactly where it is let
through and does not end with a line feed that belongs to no step, and then its path has one step for each of
those in writing.  A text that is let through and ends with such a line feed is one of those with the line feed
behind it, which its path has as one more step. -/
theorem reference_grammar (text : String) :
    ((∃ path, Spells text path) ↔ isReference text = true ∧ ¬ EndsLoose text) ∧
    ∀ path,
      (Spells text path ↔ parse (.str text) = .ok path ∧ ¬ EndsLoose text) ∧
      (parse (.str text) = .ok path ∧ EndsLoose text ↔ EndsLoose text ∧
        ∃ front steps, text = front ++ "\n" ∧ Spells front steps ∧ path = steps ++ [.name "\n"]) := by
  have read (path : Path) : Spells text path ↔ parse (.str text) = .ok path ∧ ¬ EndsLoose text := by
    constructor
    · intro h
      exact ⟨h.parse, h.not_endsLoose⟩
    · rintro ⟨h, tight⟩
      rcases spells_of_parse h with spelled | ⟨loose, _⟩
      · exact spelled
      · exact absurd loose tight
  refine ⟨?_, fun path => ⟨read path, ?_⟩⟩
  · have valid : isReference text = true ↔ ∃ path, parse (.str text) = .ok path := by
      simp only [isReference_iff, parse_str_iff]
    rw [valid, ← exists_and_right]
    exact exists_congr read
  · constructor
    · rintro ⟨h, loose⟩
      rcases spells_of_parse h with spelled | ⟨_, front, steps, ht, hf⟩
      · exact absurd loose spelled.not_endsLoose
      · have he := hf.parse_feed ht loose
        rw [h] at he
        exact ⟨loose, front, steps, ht, hf, Except.ok.inj he⟩
    · rintro ⟨loose, front, steps, ht, hf, rfl⟩
      exact ⟨hf.parse_feed ht loose, loose⟩

/-- The line feed behind the bracket belongs to no step and becomes one. -/
theorem reference_grammar_lineFeed :
    isReference "$[0]\n" = true ∧ parse (.str "$[0]\n") = .ok [.index 0, .name "\n"] ∧
      ¬ ∃ path, Spells "$[0]\n" path := by
  have loose : EndsLoose "$[0]\n" := .inr ⟨"$[0", rfl⟩
  refine ⟨by cbv, by cbv, ?_⟩
  rintro ⟨path, h⟩
  exact h.not_endsLoose loose

end Path

end EventRouting
