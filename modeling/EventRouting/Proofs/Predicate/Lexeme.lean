import EventRouting.Proofs.Path.Reference
import EventRouting.Proofs.Predicate.Grammar

/-!
# The words of shorthand by rules

A text may start with several words, one longer than the other.  The scanner takes the longest one, and no
character behind the next blank has a say in which one that is.

* `Token.Quoted`         the characters between two quotes
* `Token.Lexeme`         the words of each sort
* `Token.Longest`        the longest word that a text starts with
* `Token.lexeme?_eq_some_iff`, `Token.lexeme?_eq_none_iff`   what the scanner finds at a place, and when nothing
* `Token.Lexeme.alone`   a word is found again wherever a blank or nothing is behind it
-/

namespace EventRouting

theorem Text.mem_of_inRanges {table : List (Nat × Nat)} {n : Nat} (h : inRanges table n = true) :
    n ∈ table.flatMap fun r => List.range' r.1 (r.2 + 1 - r.1) := by
  obtain ⟨r, hr, inside⟩ := List.any_eq_true.mp h
  rw [Bool.and_eq_true, decide_eq_true_iff, decide_eq_true_iff] at inside
  refine List.mem_flatMap.mpr ⟨r, hr, List.mem_range'_1.mpr ⟨inside.1, ?_⟩⟩
  omega

namespace Token

/-! ## rules -/

/-- Characters between two quotes: a backslash takes the next one with it, which is no line feed. -/
inductive Quoted (quote : Char) : List Char → Prop where
  | nil : Quoted quote []
  | escaped {c : Char} {cs : List Char} (hc : c ≠ '\n') (h : Quoted quote cs) :
      Quoted quote ('\\' :: c :: cs)
  | plain {c : Char} {cs : List Char} (hs : c ≠ '\\') (hq : c ≠ quote) (h : Quoted quote cs) :
      Quoted quote (c :: cs)

def Digits (ds : List Char) : Prop := ds ≠ [] ∧ ∀ d ∈ ds, Text.isDigit d = true

def Sign (cs : List Char) : Prop := cs = [] ∨ cs = ['+'] ∨ cs = ['-']

inductive Fraction : List Char → Prop where
  | none : Fraction []
  | some {ds : List Char} (h : Digits ds) : Fraction ('.' :: ds)

inductive Exponent : List Char → Prop where
  | none : Exponent []
  | some {letter : Char} {sign ds : List Char} (hl : letter = 'e' ∨ letter = 'E') (hs : Sign sign)
      (h : Digits ds) : Exponent (letter :: (sign ++ ds))

/-- What continues a word: names behind points and positions in brackets. -/
inductive Tail : List Char → Prop where
  | nil : Tail []
  | name {cs rest : List Char} (some : cs ≠ []) (word : ∀ c ∈ cs, isWordChar c = true) (more : Tail rest) :
      Tail ('.' :: (cs ++ rest))
  | index {ds rest : List Char} (h : Digits ds) (more : Tail rest) : Tail ('[' :: (ds ++ ']' :: rest))

inductive Lexeme : TokenKind → List Char → Prop where
  | string {quote : Char} {body : List Char} (hq : quote = '"' ∨ quote = '\'') (h : Quoted quote body) :
      Lexeme .string (quote :: (body ++ [quote]))
  | number {sign whole fraction exponent : List Char} (hs : sign = [] ∨ sign = ['-']) (hw : Digits whole)
      (hf : Fraction fraction) (he : Exponent exponent) :
      Lexeme .number (sign ++ (whole ++ (fraction ++ exponent)))
  | operator {text : String} {r : Relation} (h : (text, r) ∈ Predicate.Grammar.signs) :
      Lexeme .operator text.toList
  | opening : Lexeme .opening ['(']
  | closing : Lexeme .closing [')']
  | word {c : Char} {cs tail : List Char} (start : isWordStart c = true)
      (word : ∀ d ∈ cs, isWordChar d = true) (ht : Tail tail) : Lexeme .word (c :: (cs ++ tail))

/-- `w` is the longest word that the text starts with. -/
structure Longest (kind : TokenKind) (w cs : List Char) : Prop where
  lexeme : Lexeme kind w
  front : w <+: cs
  most : ∀ other v, Lexeme other v → v <+: cs → v.length ≤ w.length

/-! ## characters -/

theorem isWordStart_bounds {c : Char} (h : isWordStart c = true) :
    c = '$' ∨ (65 ≤ c.toNat ∧ c.toNat ≤ 90) ∨ c = '_' ∨ (97 ≤ c.toNat ∧ c.toNat ≤ 122) := by
  simp only [isWordStart, Bool.or_eq_true, Bool.and_eq_true, decide_eq_true_iff] at h
  have at_least {a : Char} (h : a ≤ c) : a.toNat ≤ c.toNat := h
  have at_most {a : Char} (h : c ≤ a) : c.toNat ≤ a.toNat := h
  rcases h with ((⟨h1, h2⟩ | ⟨h1, h2⟩) | h) | h
  · exact .inr (.inl ⟨at_least h1, at_most h2⟩)
  · exact .inr (.inr (.inr ⟨at_least h1, at_most h2⟩))
  · exact .inr (.inr (.inl h))
  · exact .inl h

theorem isWordChar_of_isWordStart {c : Char} (h : isWordStart c = true) : isWordChar c = true := by
  have word (hc : (65 ≤ c.toNat ∧ c.toNat ≤ 90) ∨ (97 ≤ c.toNat ∧ c.toNat ≤ 122)) : isWordChar c = true := by
    have ascii : Text.isWordAscii c.toNat = true := by
      simp only [Text.isWordAscii, Bool.or_eq_true, Bool.and_eq_true, decide_eq_true_iff]
      omega
    rw [isWordChar, Text.isWord, if_pos (by omega), ascii]
    rfl
  rcases isWordStart_bounds h with rfl | hc | rfl | hc
  · decide
  · exact word (.inl hc)
  · decide
  · exact word (.inr hc)

theorem isDigit_of_isWordStart {c : Char} (h : isWordStart c = true) : Text.isDigit c = false := by
  have none (hc : (65 ≤ c.toNat ∧ c.toNat ≤ 90) ∨ (97 ≤ c.toNat ∧ c.toNat ≤ 122)) :
      Text.isDigit c = false := by
    have no : ¬ ((decide (48 ≤ c.toNat) && decide (c.toNat ≤ 57)) = true) := by
      rw [Bool.and_eq_true, decide_eq_true_iff, decide_eq_true_iff]
      omega
    rw [Text.isDigit, Text.digitValue?, if_pos (by omega), if_neg no]
    rfl
  rcases isWordStart_bounds h with rfl | hc | rfl | hc
  · decide
  · exact none (.inl hc)
  · decide
  · exact none (.inr hc)

theorem isBlank_eq_false {c : Char} (h : Text.isDigit c = true ∨ isWordChar c = true) : Text.isBlank c = false := by
  have blanks : ∀ n ∈ Text.blankRanges.flatMap fun r => List.range' r.1 (r.2 + 1 - r.1),
      ¬ (Text.isDigit (Char.ofNat n) = true ∨ isWordChar (Char.ofNat n) = true) := by
    decide +kernel
  rw [Bool.eq_false_iff]
  intro blank
  have other := blanks c.toNat (Text.mem_of_inRanges blank)
  rw [Char.ofNat_toNat] at other
  exact other h

/-! ## what is measured is a word -/

/-- The first `n` characters are there, and they are in the language. -/
def Front (L : List Char → Prop) (n : Nat) (cs : List Char) : Prop :=
  ∃ w rest, cs = w ++ rest ∧ L w ∧ w.length = n

theorem Front.nil {L : List Char → Prop} (h : L []) (cs : List Char) : Front L 0 cs := ⟨[], cs, rfl, h, rfl⟩

theorem front_run (p : Char → Bool) (cs : List Char) :
    Front (fun w => ∀ c ∈ w, p c = true) (runLength p cs) cs :=
  ⟨cs.takeWhile p, cs.dropWhile p, List.takeWhile_append_dropWhile.symm, fun _ => List.mem_takeWhile_imp, rfl⟩

theorem front_some {p : Char → Bool} {cs : List Char} (h : runLength p cs ≠ 0) :
    Front (fun w => w ≠ [] ∧ ∀ c ∈ w, p c = true) (runLength p cs) cs := by
  obtain ⟨w, rest, hcs, word, length⟩ := front_run p cs
  refine ⟨w, rest, hcs, ⟨?_, word⟩, length⟩
  rintro rfl
  exact h length.symm

theorem front_digits {cs : List Char} (h : runLength Text.isDigit cs ≠ 0) :
    Front Digits (runLength Text.isDigit cs) cs := front_some h

theorem front_fraction (cs : List Char) : Front Fraction (fractionLength cs) cs := by
  unfold fractionLength
  split
  · next rest =>
    split
    · exact Front.nil Fraction.none _
    · next h =>
      obtain ⟨ds, left, hr, digits, length⟩ := front_digits h
      exact ⟨'.' :: ds, left, by rw [hr, List.cons_append], Fraction.some digits,
        by rw [← length, List.length_cons, Nat.add_comm]⟩
  · exact Front.nil Fraction.none _

theorem front_sign (cs : List Char) : Front Sign (signLength cs) cs := by
  unfold signLength
  split
  · next rest => exact ⟨['+'], rest, rfl, .inr (.inl rfl), rfl⟩
  · next rest => exact ⟨['-'], rest, rfl, .inr (.inr rfl), rfl⟩
  · exact Front.nil (.inl rfl) _

theorem front_exponent (cs : List Char) : Front Exponent (exponentLength cs) cs := by
  cases cs with
  | nil => exact Front.nil Exponent.none _
  | cons c rest =>
    rw [exponentLength]
    split
    · next hc =>
      rw [Bool.or_eq_true, decide_eq_true_iff, decide_eq_true_iff] at hc
      obtain ⟨sign, behind, hr, hs, size⟩ := front_sign rest
      rw [← size, hr, List.drop_left]
      dsimp only
      split
      · exact Front.nil Exponent.none _
      · next hd =>
        obtain ⟨ds, left, rfl, digits, length⟩ := front_digits hd
        refine ⟨c :: (sign ++ ds), left, ?_, Exponent.some hc hs digits, ?_⟩
        · rw [List.cons_append, List.append_assoc]
        rw [← length, List.length_cons, List.length_append]
        omega
    · exact Front.nil Exponent.none _

theorem front_number {cs : List Char} (h : runLength Text.isDigit cs ≠ 0) {sign : List Char}
    (hs : sign = [] ∨ sign = ['-']) : Front (Lexeme .number) (sign.length + unsignedLength cs) (sign ++ cs) := by
  obtain ⟨whole, behind, rfl, digits, hw⟩ := front_digits h
  obtain ⟨fraction, behind', rfl, fr, hf⟩ := front_fraction behind
  obtain ⟨exponent, rest, rfl, ex, he⟩ := front_exponent behind'
  refine ⟨sign ++ (whole ++ (fraction ++ exponent)), rest, by simp only [List.append_assoc],
    Lexeme.number hs digits fr ex, ?_⟩
  rw [unsignedLength, ← hw, List.drop_left, ← hf, ← List.drop_drop, List.drop_left, List.drop_left, ← he]
  simp only [List.length_append]
  omega

theorem front_tail (cs : List Char) : Front Tail (tailLength cs) cs := by
  fun_induction tailLength cs with
  | case1 rest n h => exact Front.nil Tail.nil _
  | case2 rest n h ih =>
    obtain ⟨name, behind, hr, word, length⟩ := front_some h
    rw [show n = runLength isWordChar rest from rfl, ← length] at ih ⊢
    rw [hr, List.drop_left] at ih ⊢
    obtain ⟨tail, left, rfl, ht, size⟩ := ih
    refine ⟨'.' :: (name ++ tail), left, ?_, Tail.name word.1 word.2 ht, ?_⟩
    · rw [List.cons_append, List.append_assoc]
    rw [← size, List.length_cons, List.length_append]
    omega
  | case3 rest ds left h ih =>
    obtain ⟨digits, rfl⟩ := Path.bracketed?_iff.mp h
    obtain ⟨tail, behind, rfl, ht, size⟩ := ih
    refine ⟨'[' :: (ds ++ ']' :: tail), behind, by simp only [List.cons_append, List.append_assoc],
      Tail.index digits ht, ?_⟩
    rw [← size, List.length_cons, List.length_append, List.length_cons]
    omega
  | case4 rest h => exact Front.nil Tail.nil _
  | case5 => exact Front.nil Tail.nil _

theorem front_word {c : Char} (h : isWordStart c = true) (rest : List Char) :
    Front (Lexeme .word) (1 + wordLength rest) (c :: rest) := by
  obtain ⟨name, behind, rfl, word, hn⟩ := front_run isWordChar rest
  obtain ⟨tail, left, rfl, ht, size⟩ := front_tail behind
  refine ⟨c :: (name ++ tail), left, by rw [List.cons_append, List.append_assoc], Lexeme.word h word ht, ?_⟩
  rw [wordLength, ← hn, List.drop_left, ← size, List.length_cons, List.length_append, Nat.add_comm]

theorem front_operator {cs : List Char} {n : Nat} (h : operatorLength? cs = some n) :
    Front (Lexeme .operator) n cs := by
  have sign (text : String) (r : Relation) (hm : (text, r) ∈ Predicate.Grammar.signs) (rest : List Char) :
      Front (Lexeme .operator) text.toList.length (text.toList ++ rest) :=
    ⟨_, rest, rfl, Lexeme.operator hm, rfl⟩
  unfold operatorLength? at h
  split at h
  · cases h; exact sign "!=" .notEqual (by decide) _
  · cases h; exact sign "<=" .lessEqual (by decide) _
  · cases h; exact sign ">=" .greaterEqual (by decide) _
  · cases h; exact sign "==" .equal (by decide) _
  · cases h; exact sign "=" .equal (by decide) _
  · cases h; exact sign "<" .less (by decide) _
  · cases h; exact sign ">" .greater (by decide) _
  · cases h

theorem stringLength?_eq_some {quote : Char} {cs : List Char} {n : Nat}
    (h : stringLength? quote cs = some n) :
    ∃ body rest, Quoted quote body ∧ cs = body ++ quote :: rest ∧ n = body.length + 1 := by
  fun_induction stringLength? quote cs generalizing n with
  | case1 => cases h
  | case2 => cases h
  | case3 => cases h
  | case4 c _ hc ih =>
    obtain ⟨m, hm, rfl⟩ := Option.map_eq_some_iff.mp h
    obtain ⟨body, rest, hb, rfl, rfl⟩ := ih hm
    exact ⟨'\\' :: c :: body, rest, Quoted.escaped hc hb, rfl, rfl⟩
  | case5 rest =>
    obtain rfl : 1 = n := Option.some.inj h
    exact ⟨[], rest, Quoted.nil, rfl, rfl⟩
  | case6 c cs hend hesc hq ih =>
    obtain ⟨m, hm, rfl⟩ := Option.map_eq_some_iff.mp h
    have hs : c ≠ '\\' := by
      rintro rfl
      cases cs with
      | nil => exact hend rfl rfl
      | cons d rest => exact hesc d rest rfl rfl
    obtain ⟨body, rest, hb, rfl, rfl⟩ := ih hm
    exact ⟨c :: body, rest, Quoted.plain hs hq hb, rfl, rfl⟩

theorem front_string {quote : Char} (hq : quote = '"' ∨ quote = '\'') {rest : List Char} {n : Nat}
    (h : stringLength? quote rest = some n) : Front (Lexeme .string) (n + 1) (quote :: rest) := by
  obtain ⟨body, behind, hb, rfl, rfl⟩ := stringLength?_eq_some h
  refine ⟨quote :: (body ++ [quote]), behind, ?_, Lexeme.string hq hb, ?_⟩
  · rw [List.cons_append, List.append_assoc, List.singleton_append]
  · rw [List.length_cons, List.length_append, List.length_singleton]

/-- What the scanner finds is a word of the sort it says. -/
theorem front_lexeme {cs : List Char} {kind : TokenKind} {n : Nat} (h : lexeme? cs = some (kind, n)) :
    Front (Lexeme kind) n cs := by
  unfold lexeme? at h
  split at h
  · cases h
  · obtain ⟨m, hm, he⟩ := Option.map_eq_some_iff.mp h
    cases he
    exact front_string (.inl rfl) hm
  · obtain ⟨m, hm, he⟩ := Option.map_eq_some_iff.mp h
    cases he
    exact front_string (.inr rfl) hm
  · next rest =>
    cases h
    exact ⟨['('], rest, rfl, Lexeme.opening, rfl⟩
  · next rest =>
    cases h
    exact ⟨[')'], rest, rfl, Lexeme.closing, rfl⟩
  · split at h
    · cases h
    · next run =>
      cases h
      exact front_number run (.inr rfl)
  · next c rest _ _ _ _ _ =>
    split at h
    · next digit =>
      cases h
      have run : runLength Text.isDigit (c :: rest) ≠ 0 := by
        rw [runLength, List.takeWhile_cons, if_pos digit]
        exact Nat.succ_ne_zero _
      have found := front_number run (.inl rfl)
      rwa [List.length_nil, Nat.zero_add] at found
    · split at h
      · next start =>
        cases h
        exact front_word start rest
      · obtain ⟨m, hm, he⟩ := Option.map_eq_some_iff.mp h
        cases he
        exact front_operator hm

/-! ## every word is measured -/

theorem runLength_append {p : Char → Bool} {a : List Char} (ha : ∀ c ∈ a, p c = true) (rest : List Char) :
    runLength p (a ++ rest) = a.length + runLength p rest := by
  rw [runLength, List.takeWhile_append_of_pos ha, List.length_append, runLength]

theorem runLength_stop {p : Char → Bool} {rest : List Char} (h : ∀ c cs, rest = c :: cs → p c = false) :
    runLength p rest = 0 := by
  cases rest with
  | nil => rfl
  | cons c cs => rw [runLength, List.takeWhile_cons, h c cs rfl, if_neg Bool.false_ne_true, List.length_nil]

theorem Digits.runLength {ds : List Char} (h : Digits ds) (rest : List Char) :
    runLength Text.isDigit (ds ++ rest) = ds.length + runLength Text.isDigit rest ∧
      runLength Text.isDigit (ds ++ rest) ≠ 0 := by
  have some_digit : ds.length ≠ 0 := fun h0 => h.1 (List.length_eq_zero_iff.mp h0)
  rw [runLength_append h.2]
  exact ⟨rfl, by omega⟩

theorem Sign.signLength {sign ds : List Char} (hs : Sign sign) (h : Digits ds) (rest : List Char) :
    signLength (sign ++ (ds ++ rest)) = sign.length := by
  rcases hs with rfl | rfl | rfl
  · obtain ⟨d, ds, rfl⟩ := List.exists_cons_of_ne_nil h.1
    have digit := h.2 d List.mem_cons_self
    rw [List.nil_append, List.cons_append, Token.signLength]
    · rfl
    · rintro _ ⟨⟩
      exact absurd digit (by decide)
    · rintro _ ⟨⟩
      exact absurd digit (by decide)
  · rfl
  · rfl

theorem Exponent.length_le {exponent : List Char} (h : Exponent exponent) (rest : List Char) :
    exponent.length ≤ exponentLength (exponent ++ rest) := by
  cases h with
  | none => exact Nat.zero_le _
  | @some letter sign ds hl hs hd =>
    have found : (decide (letter = 'e') || decide (letter = 'E')) = true := by
      rw [Bool.or_eq_true, decide_eq_true_iff, decide_eq_true_iff]
      exact hl
    obtain ⟨length, nonzero⟩ := hd.runLength rest
    rw [List.cons_append, List.append_assoc, exponentLength, if_pos found, hs.signLength hd, List.drop_left]
    dsimp only
    rw [if_neg nonzero, length, List.length_cons, List.length_append]
    omega

/-- Neither fractions nor exponents start with a digit. -/
theorem isDigit_behind {fraction exponent : List Char} (hf : Fraction fraction) (he : Exponent exponent)
    (h : fraction ++ exponent ≠ []) (rest : List Char) :
    ∀ c cs, fraction ++ (exponent ++ rest) = c :: cs → Text.isDigit c = false := by
  intro c cs hc
  cases hf with
  | some _ =>
    cases hc
    decide
  | none =>
    cases he with
    | none => exact absurd rfl h
    | some hl _ _ =>
      cases hc
      rcases hl with rfl | rfl <;> decide

theorem Fraction.length_le {fraction exponent : List Char} (hf : Fraction fraction) (he : Exponent exponent)
    (rest : List Char) : fraction.length + exponent.length ≤
      fractionLength (fraction ++ (exponent ++ rest)) +
        exponentLength ((fraction ++ (exponent ++ rest)).drop (fractionLength (fraction ++ (exponent ++ rest)))) := by
  have below := he.length_le rest
  cases hf with
  | none =>
    cases he with
    | none => exact Nat.zero_le _
    | @some letter sign ds hl hs hd =>
      have nothing : fractionLength ([] ++ (letter :: (sign ++ ds) ++ rest)) = 0 := by
        rcases hl with rfl | rfl <;> rfl
      rw [nothing, List.drop_zero]
      exact Nat.add_le_add_left below 0
  | @some ds hd =>
    obtain ⟨length, nonzero⟩ := hd.runLength (exponent ++ rest)
    rw [List.cons_append, fractionLength, if_neg nonzero, length]
    cases exponent with
    | nil =>
      simp only [List.length_cons, List.length_nil]
      omega
    | cons letter more =>
      have stop := runLength_stop (isDigit_behind Fraction.none he (List.cons_ne_nil _ _) rest)
      rw [List.nil_append] at stop
      rw [stop, Nat.add_zero, Nat.add_comm 1, List.drop_succ_cons, List.drop_left, List.length_cons]
      omega

theorem unsignedLength_le {whole fraction exponent : List Char} (hw : Digits whole) (hf : Fraction fraction)
    (he : Exponent exponent) (rest : List Char) : whole.length + (fraction.length + exponent.length) ≤
      unsignedLength (whole ++ (fraction ++ (exponent ++ rest))) := by
  have length := (hw.runLength (fraction ++ (exponent ++ rest))).1
  have behind := hf.length_le he rest
  rw [unsignedLength, length]
  -- the run of digits goes on behind those of the number only where the number ends with them
  by_cases h : fraction ++ exponent = []
  · obtain ⟨rfl, rfl⟩ := List.append_eq_nil_iff.mp h
    simp only [List.length_nil]
    omega
  · rw [runLength_stop (isDigit_behind hf he h rest), Nat.add_zero, List.drop_left, ← List.drop_drop, List.drop_left]
    omega

theorem Tail.stops {tail : List Char} (h : Tail tail) (some : tail ≠ []) (rest : List Char) :
    ∀ c cs, tail ++ rest = c :: cs → isWordChar c = false := by
  intro c cs hc
  cases h with
  | nil => exact absurd rfl some
  | name => cases hc; decide
  | index => cases hc; decide

theorem wordLength_le {cs tail : List Char} (word : ∀ c ∈ cs, isWordChar c = true) (ht : Tail tail)
    {rest : List Char} (behind : tail.length ≤ tailLength (tail ++ rest)) :
    cs.length + tail.length ≤ wordLength (cs ++ (tail ++ rest)) := by
  rw [wordLength, runLength_append word]
  by_cases h : tail = []
  · rw [h, List.length_nil]
    omega
  · rw [runLength_stop (ht.stops h rest), Nat.add_zero, List.drop_left]
    omega

theorem Tail.length_le {tail : List Char} (h : Tail tail) (rest : List Char) :
    tail.length ≤ tailLength (tail ++ rest) := by
  induction h with
  | nil => exact Nat.zero_le _
  | @name cs tail some word more ih =>
    have run : runLength isWordChar (cs ++ (tail ++ rest)) ≠ 0 := by
      have some_char : cs.length ≠ 0 := fun h0 => some (List.length_eq_zero_iff.mp h0)
      rw [runLength_append word]
      omega
    have behind := wordLength_le word more ih
    rw [wordLength] at behind
    rw [List.cons_append, List.append_assoc, tailLength, if_neg run, List.length_cons, List.length_append]
    omega
  | @index ds tail hd more ih =>
    have found : Path.bracketed? (ds ++ ']' :: (tail ++ rest)) = some (ds, tail ++ rest) :=
      Path.bracketed?_iff.mpr ⟨hd, rfl⟩
    rw [List.cons_append, List.append_assoc, List.cons_append, tailLength]
    split
    · next hb =>
      rw [found] at hb
      cases hb
      simp only [List.length_cons, List.length_append]
      omega
    · next hb =>
      rw [found] at hb
      cases hb

theorem Quoted.stringLength? {quote : Char} (hq : quote ≠ '\\') {body : List Char} (h : Quoted quote body)
    (rest : List Char) : stringLength? quote (body ++ quote :: rest) = some (body.length + 1) := by
  induction h with
  | nil =>
    rw [List.nil_append, Token.stringLength?, if_pos rfl]
    · rfl
    · exact fun he _ => hq he
    · exact fun _ _ he _ => hq he
  | escaped hc _ ih =>
    rw [List.cons_append, List.cons_append, Token.stringLength?, if_neg hc, ih]
    rfl
  | plain hs hne _ ih =>
    rw [List.cons_append, Token.stringLength?, if_neg hne, ih]
    · rfl
    · exact fun he _ => hs he
    · exact fun _ _ he _ => hs he

theorem lexeme?_word {c : Char} (h : isWordStart c = true) (rest : List Char) :
    lexeme? (c :: rest) = some (.word, 1 + wordLength rest) := by
  have hd := isDigit_of_isWordStart h
  unfold lexeme?
  split
  · next hc => cases hc
  · next hc => cases hc; exact absurd h (by decide)
  · next hc => cases hc; exact absurd h (by decide)
  · next hc => cases hc; exact absurd h (by decide)
  · next hc => cases hc; exact absurd h (by decide)
  · next hc => cases hc; exact absurd h (by decide)
  · next hc =>
    cases hc
    rw [hd, if_neg Bool.false_ne_true, if_pos h]

theorem lexeme?_digit {c : Char} (h : Text.isDigit c = true) (rest : List Char) :
    lexeme? (c :: rest) = some (.number, unsignedLength (c :: rest)) := by
  unfold lexeme?
  split
  · next hc => cases hc
  · next hc => cases hc; exact absurd h (by decide)
  · next hc => cases hc; exact absurd h (by decide)
  · next hc => cases hc; exact absurd h (by decide)
  · next hc => cases hc; exact absurd h (by decide)
  · next hc => cases hc; exact absurd h (by decide)
  · next hc =>
    cases hc
    rw [if_pos h]

theorem operatorLength?_sign {c : Char} (h : c = '=' ∨ c = '<' ∨ c = '>') (rest : List Char) :
    ∃ n, operatorLength? (c :: rest) = some n ∧ 1 ≤ n := by
  unfold operatorLength?
  split
  any_goals exact ⟨_, rfl, by decide⟩
  next equal less greater =>
    rcases h with rfl | rfl | rfl
    · exact absurd rfl (equal rest)
    · exact absurd rfl (less rest)
    · exact absurd rfl (greater rest)

/-- A sign of one character may be measured as one of two. -/
theorem lexeme?_operator {text : String} {r : Relation} (h : (text, r) ∈ Predicate.Grammar.signs)
    (rest : List Char) : ∃ n, lexeme? (text.toList ++ rest) = some (.operator, n) ∧ text.toList.length ≤ n := by
  have one (c : Char) (hc : c = '=' ∨ c = '<' ∨ c = '>')
      (operator : lexeme? (c :: rest) = (operatorLength? (c :: rest)).map fun n => (.operator, n)) :
      ∃ n, lexeme? (c :: rest) = some (.operator, n) ∧ 1 ≤ n := by
    obtain ⟨n, hn, positive⟩ := operatorLength?_sign hc rest
    exact ⟨n, by rw [operator, hn]; rfl, positive⟩
  simp only [Predicate.Grammar.signs, List.mem_cons, Prod.mk.injEq, List.not_mem_nil, or_false] at h
  rcases h with ⟨rfl, -⟩ | ⟨rfl, -⟩ | ⟨rfl, -⟩ | ⟨rfl, -⟩ | ⟨rfl, -⟩ | ⟨rfl, -⟩ | ⟨rfl, -⟩
  · exact one '=' (.inl rfl) rfl
  · exact ⟨2, rfl, le_rfl⟩
  · exact ⟨2, rfl, le_rfl⟩
  · exact one '<' (.inr (.inl rfl)) rfl
  · exact ⟨2, rfl, le_rfl⟩
  · exact one '>' (.inr (.inr rfl)) rfl
  · exact ⟨2, rfl, le_rfl⟩

/-- A text that starts with a word is measured as one of its sort and at least as long; a text in quotes is
measured exactly. -/
theorem Lexeme.measured {kind : TokenKind} {w : List Char} (h : Lexeme kind w) (rest : List Char) :
    ∃ n, lexeme? (w ++ rest) = some (kind, n) ∧ w.length ≤ n ∧ (kind = .string → n = w.length) := by
  cases h with
  | @string quote body hq hb =>
    have length := hb.stringLength? (by rcases hq with rfl | rfl <;> decide) rest
    have size : (quote :: (body ++ [quote])).length = body.length + 1 + 1 := by
      rw [List.length_cons, List.length_append, List.length_singleton]
    refine ⟨body.length + 1 + 1, ?_, size.le, fun _ => size.symm⟩
    rw [List.cons_append, List.append_assoc, List.singleton_append]
    rcases hq with rfl | rfl
    all_goals
      show (stringLength? _ _).map _ = _
      rw [length]
      rfl
  | @number sign whole fraction exponent hs hw hf he =>
    have most := unsignedLength_le hw hf he rest
    simp only [List.append_assoc, List.length_append]
    rcases hs with rfl | rfl
    · obtain ⟨d, ds, rfl⟩ := List.exists_cons_of_ne_nil hw.1
      refine ⟨_, lexeme?_digit (hw.2 d List.mem_cons_self) _, ?_, fun hk => by cases hk⟩
      rw [List.length_nil, Nat.zero_add]
      exact most
    · refine ⟨_, if_neg (hw.runLength _).2, ?_, fun hk => by cases hk⟩
      exact Nat.add_le_add_left most 1
  | operator h =>
    obtain ⟨n, found, most⟩ := lexeme?_operator h rest
    exact ⟨n, found, most, fun hk => by cases hk⟩
  | opening => exact ⟨1, rfl, le_rfl, fun hk => by cases hk⟩
  | closing => exact ⟨1, rfl, le_rfl, fun hk => by cases hk⟩
  | @word c cs tail start word ht =>
    have most := wordLength_le word ht (ht.length_le rest)
    rw [List.cons_append, List.append_assoc]
    refine ⟨_, lexeme?_word start _, ?_, fun hk => by cases hk⟩
    rw [List.length_cons, List.length_append]
    omega

/-! ## the longest word -/

/-- **The scanner finds the longest word.** -/
theorem lexeme?_eq_some_iff {cs : List Char} {kind : TokenKind} {n : Nat} :
    lexeme? cs = some (kind, n) ↔ ∃ w, Longest kind w cs ∧ w.length = n := by
  constructor
  · intro h
    obtain ⟨w, rest, rfl, hw, rfl⟩ := front_lexeme h
    refine ⟨w, ⟨hw, List.prefix_append w rest, ?_⟩, rfl⟩
    rintro other v hv ⟨behind, hb⟩
    obtain ⟨m, found, most, _⟩ := hv.measured behind
    rw [hb, h] at found
    cases found
    exact most
  · rintro ⟨w, ⟨hw, ⟨rest, rfl⟩, most⟩, rfl⟩
    obtain ⟨n, found, below, _⟩ := hw.measured rest
    obtain ⟨v, left, hl, hv, rfl⟩ := front_lexeme found
    have above := most kind v hv ⟨left, hl.symm⟩
    rw [found, Nat.le_antisymm above below]

/-- **Where the scanner finds nothing, no word starts.** -/
theorem lexeme?_eq_none_iff {cs : List Char} :
    lexeme? cs = none ↔ ∀ kind w, Lexeme kind w → ¬ w <+: cs := by
  constructor
  · rintro h kind w hw ⟨rest, rfl⟩
    obtain ⟨n, found, _⟩ := hw.measured rest
    rw [h] at found
    cases found
  · intro h
    cases found : lexeme? cs with
    | none => rfl
    | some p =>
      obtain ⟨kind, n⟩ := p
      obtain ⟨w, rest, rfl, hw, _⟩ := front_lexeme found
      exact absurd (List.prefix_append w rest) (h kind w hw)

theorem Lexeme.kind_unique {kind other : TokenKind} {w : List Char} (h : Lexeme kind w) (h' : Lexeme other w) :
    kind = other := by
  obtain ⟨n, found, _⟩ := h.measured []
  obtain ⟨m, found', _⟩ := h'.measured []
  rw [found] at found'
  cases found'
  rfl

/-! ## words and blanks -/

/-- No blanks are among the characters. -/
def Visible (cs : List Char) : Prop := ∀ c ∈ cs, Text.isBlank c = false

theorem visible_nil : Visible [] := List.forall_mem_nil _

theorem visible_cons {c : Char} (hc : Text.isBlank c = false) {cs : List Char} (h : Visible cs) :
    Visible (c :: cs) := List.forall_mem_cons.mpr ⟨hc, h⟩

theorem visible_word {cs : List Char} (h : ∀ c ∈ cs, isWordChar c = true) : Visible cs :=
  fun c hc => isBlank_eq_false (.inr (h c hc))

theorem Visible.append {a b : List Char} (ha : Visible a) (hb : Visible b) : Visible (a ++ b) :=
  List.forall_mem_append.mpr ⟨ha, hb⟩

theorem Digits.visible {ds : List Char} (h : Digits ds) : Visible ds := fun d hd => isBlank_eq_false (.inl (h.2 d hd))

theorem Sign.visible {sign : List Char} (h : Sign sign) : Visible sign := by
  rcases h with rfl | rfl | rfl
  · exact visible_nil
  · exact visible_cons (by decide) visible_nil
  · exact visible_cons (by decide) visible_nil

theorem Fraction.visible {fraction : List Char} (h : Fraction fraction) : Visible fraction := by
  cases h with
  | none => exact visible_nil
  | some hd => exact visible_cons (by decide) hd.visible

theorem Exponent.visible {exponent : List Char} (h : Exponent exponent) : Visible exponent := by
  cases h with
  | none => exact visible_nil
  | some hl hs hd =>
    refine visible_cons ?_ (hs.visible.append hd.visible)
    rcases hl with rfl | rfl <;> decide

theorem Tail.visible {tail : List Char} (h : Tail tail) : Visible tail := by
  induction h with
  | nil => exact visible_nil
  | name _ word _ ih =>
    exact visible_cons (by decide) ((visible_word word).append ih)
  | index hd _ ih => exact visible_cons (by decide) (hd.visible.append (visible_cons (by decide) ih))

theorem Lexeme.visible {kind : TokenKind} {w : List Char} (h : Lexeme kind w) (hk : kind ≠ .string) : Visible w := by
  cases h with
  | string => exact absurd rfl hk
  | number hs hw hf he =>
    have sign : Sign _ := hs.imp_right .inr
    exact sign.visible.append (hw.visible.append (hf.visible.append he.visible))
  | operator h =>
    have signs : ∀ s ∈ Predicate.Grammar.signs, s.1.toList.any Text.isBlank = false := by decide
    exact fun c hc => Bool.eq_false_iff.mpr (List.any_eq_false.mp (signs _ h) c hc)
  | opening => exact visible_cons (by decide) visible_nil
  | closing => exact visible_cons (by decide) visible_nil
  | word start word ht =>
    exact visible_cons (isBlank_eq_false (.inr (isWordChar_of_isWordStart start)))
      ((visible_word word).append ht.visible)

theorem Lexeme.exists_cons {kind : TokenKind} {w : List Char} (h : Lexeme kind w) :
    ∃ c cs, w = c :: cs ∧ Text.isBlank c = false := by
  by_cases hk : kind = .string
  · subst hk
    obtain @⟨quote, body, hq, _⟩ := h
    refine ⟨quote, body ++ [quote], rfl, ?_⟩
    rcases hq with rfl | rfl <;> decide
  · have visible := h.visible hk
    have some : w ≠ [] := by
      cases h with
      | string => exact absurd rfl hk
      | number hs hw => exact List.append_ne_nil_of_right_ne_nil _ (List.append_ne_nil_of_left_ne_nil hw.1 _)
      | operator h =>
        have signs : ∀ s ∈ Predicate.Grammar.signs, s.1.toList ≠ [] := by decide
        exact signs _ h
      | opening => exact List.cons_ne_nil _ _
      | closing => exact List.cons_ne_nil _ _
      | word => exact List.cons_ne_nil _ _
    obtain ⟨c, cs, rfl⟩ := List.exists_cons_of_ne_nil some
    exact ⟨c, cs, rfl, visible c List.mem_cons_self⟩

/-- **A word stands alone.**  In front of a blank, or at the end, it is the longest one: a longer word would
have the blank in it, so it would be a text in quotes, and those end at their first closing quote. -/
theorem Lexeme.alone {kind : TokenKind} {w rest : List Char} (h : Lexeme kind w)
    (hr : ∀ c cs, rest = c :: cs → Text.isBlank c = true) : Longest kind w (w ++ rest) := by
  obtain ⟨n, found, below, exact_length⟩ := h.measured rest
  obtain ⟨v, longest, rfl⟩ := lexeme?_eq_some_iff.mp found
  obtain ⟨more, rfl⟩ := List.prefix_of_prefix_length_le (List.prefix_append w rest) longest.front below
  cases more with
  | nil =>
    rw [List.append_nil] at longest
    exact longest
  | cons c more =>
    obtain ⟨left, hl⟩ := longest.front
    rw [List.append_assoc, List.append_cancel_left_eq, List.cons_append] at hl
    have blank := hr c _ hl.symm
    by_cases hk : kind = .string
    · have same := exact_length hk
      rw [List.length_append, List.length_cons] at same
      omega
    · have visible := longest.lexeme.visible hk c (List.mem_append_right _ List.mem_cons_self)
      rw [blank] at visible
      cases visible

end Token

end EventRouting
