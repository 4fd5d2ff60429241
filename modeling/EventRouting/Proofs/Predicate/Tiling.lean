import EventRouting.Predicate.Parse
import EventRouting.Proofs.Predicate.Lexeme

/-!
# Words and the blanks between them

From the front on, the scanner cuts a text into the longest words.  Between them it leaves nothing but blanks,
and how many blanks there are changes neither the words nor what they mean.

* `Token.Tiles`     words that cover a part of a text, blanks apart
* `Token.Tiled`     the same from the front on, one blank or one word at a time
* `Token.Stuck`     neither a blank nor a word starts here
* `Token.Spaced`    texts with blanks between any two of them
* `Token.scanFrom_cases`       the scanner covers the whole text, or all of it up to where it is stuck
* `Predicate.ofTokens_congr`   the places of words have no part in their meaning
* `Token.scan_tiling`          what the scanner finds, and that spacing does not matter
-/

namespace EventRouting

namespace Token

/-! ## tilings -/

def stop (t : Token) : Nat := t.position + t.text.toList.length

/-- The words cover the characters of a text from `start` to `stop`: they are the longest ones at their places,
they stand one behind the other, and what is in none of them is a blank. -/
structure Tiles (source : List Char) (start stop : Nat) (tokens : List Token) : Prop where
  longest : ∀ t ∈ tokens, Longest t.kind t.text.toList (source.drop t.position)
  apart : tokens.Pairwise fun t u => t.stop ≤ u.position
  within : ∀ t ∈ tokens, start ≤ t.position ∧ t.stop ≤ stop
  around : ∀ i c, start ≤ i → i < stop → source[i]? = some c →
    Text.isBlank c = true ∨ ∃ t ∈ tokens, t.position ≤ i ∧ i < t.stop

/-- `Tiled left stop position cs tokens`: from `position` on, the words and blanks of `cs` go as far as `stop`,
and `left` is behind them. -/
inductive Tiled (left : List Char) (stop : Nat) : Nat → List Char → List Token → Prop where
  | nil : Tiled left stop stop left []
  | blank {position : Nat} {c : Char} {cs : List Char} {tokens : List Token} (hc : Text.isBlank c = true)
      (more : Tiled left stop (position + 1) cs tokens) : Tiled left stop position (c :: cs) tokens
  | token {position : Nat} {kind : TokenKind} {w rest : List Char} {tokens : List Token}
      (hw : Longest kind w (w ++ rest)) (more : Tiled left stop (position + w.length) rest tokens) :
      Tiled left stop position (w ++ rest) (⟨kind, String.ofList w, position⟩ :: tokens)

/-- Neither a blank nor a word starts where `c` stands. -/
def Stuck (c : Char) (cs : List Char) : Prop :=
  cs.head? = some c ∧ Text.isBlank c = false ∧ ∀ kind w, Lexeme kind w → ¬ w <+: cs

section
variable {left cs : List Char} {stop position : Nat} {tokens : List Token}

theorem Tiled.length (h : Tiled left stop position cs tokens) :
    position ≤ stop ∧ position + cs.length = stop + left.length := by
  induction h with
  | nil => exact ⟨le_rfl, rfl⟩
  | blank _ _ ih =>
    rw [List.length_cons]
    omega
  | token _ _ ih =>
    rw [List.length_append]
    omega

theorem Tiled.left_eq (h : Tiled left stop position cs tokens) {source : List Char}
    (hs : source.drop position = cs) : source.drop stop = left := by
  induction h with
  | nil => exact hs
  | blank _ _ ih => exact ih (by rw [← List.drop_drop, hs, List.drop_one, List.tail_cons])
  | token _ _ ih => exact ih (by rw [← List.drop_drop, hs, List.drop_left])

theorem Tiled.lexeme (h : Tiled left stop position cs tokens) : ∀ t ∈ tokens, Lexeme t.kind t.text.toList := by
  induction h with
  | nil => exact List.forall_mem_nil _
  | blank _ _ ih => exact ih
  | token hw _ ih => exact List.forall_mem_cons.mpr ⟨by rw [String.toList_ofList]; exact hw.lexeme, ih⟩

theorem Tiles.nil (source : List Char) (stop : Nat) : Tiles source stop stop [] where
  longest := List.forall_mem_nil _
  apart := List.Pairwise.nil
  within := List.forall_mem_nil _
  around := fun _ _ low high _ => absurd (Nat.lt_of_le_of_lt low high) (Nat.lt_irrefl stop)

theorem Tiles.blank {source : List Char} {start : Nat} {c : Char} (hc : Text.isBlank c = true)
    (at_start : source[start]? = some c) (h : Tiles source (start + 1) stop tokens) :
    Tiles source start stop tokens where
  longest := h.longest
  apart := h.apart
  within := fun t ht => ⟨by have := h.within t ht; omega, (h.within t ht).2⟩
  around := by
    intro i d low high hd
    by_cases hi : i = start
    · subst hi
      rw [at_start] at hd
      cases hd
      exact .inl hc
    · exact h.around i d (by omega) high hd

theorem Tiles.token {source : List Char} {t : Token} (hw : Longest t.kind t.text.toList (source.drop t.position))
    (before : t.stop ≤ stop) (h : Tiles source t.stop stop tokens) :
    Tiles source t.position stop (t :: tokens) where
  longest := List.forall_mem_cons.mpr ⟨hw, h.longest⟩
  apart := List.pairwise_cons.mpr ⟨fun u hu => (h.within u hu).1, h.apart⟩
  within := by
    have forward : t.position ≤ t.stop := Nat.le_add_right _ _
    refine List.forall_mem_cons.mpr ⟨⟨le_rfl, before⟩, fun u hu => ?_⟩
    exact ⟨forward.trans (h.within u hu).1, (h.within u hu).2⟩
  around := by
    intro i c low high hc
    by_cases inside : i < t.stop
    · exact .inr ⟨t, List.mem_cons_self, low, inside⟩
    · refine (h.around i c (Nat.le_of_not_lt inside) high hc).imp_right ?_
      rintro ⟨u, hu, place⟩
      exact ⟨u, List.mem_cons_of_mem _ hu, place⟩

theorem Tiled.tiles (h : Tiled left stop position cs tokens) {source : List Char}
    (hs : source.drop position = cs) : Tiles source position stop tokens := by
  induction h with
  | nil => exact Tiles.nil source stop
  | @blank position c cs tokens hc more ih =>
    have at_start : source[position]? = some c := by
      rw [← Nat.add_zero position, ← List.getElem?_drop, hs]
      rfl
    exact Tiles.blank hc at_start (ih (by rw [← List.drop_drop, hs, List.drop_one, List.tail_cons]))
  | @token position kind w rest tokens hw more ih =>
    have text : (Token.mk kind (String.ofList w) position).text.toList = w := String.toList_ofList
    have behind : (Token.mk kind (String.ofList w) position).stop = position + w.length := by
      rw [Token.stop, text]
    have tiles := ih (by rw [← List.drop_drop, hs, List.drop_left])
    rw [← behind] at tiles more
    exact Tiles.token (by rw [text, hs]; exact hw) more.length.1 tiles

/-- No word is empty, so each starts behind the start of the one before it. -/
theorem Tiles.increasing {source : List Char} {start : Nat} (h : Tiles source start stop tokens) :
    tokens.Pairwise fun t u => t.position < u.position := by
  refine h.apart.imp_of_mem fun {t u} ht _ apart => ?_
  obtain ⟨c, more, hc, _⟩ := (h.longest t ht).lexeme.exists_cons
  rw [Token.stop, hc, List.length_cons] at apart
  omega

/-! ## scanning -/

theorem scanFrom_blank {c : Char} (hc : Text.isBlank c = true) (position : Nat) (cs : List Char) :
    scanFrom position (c :: cs) = scanFrom (position + 1) cs := by
  rw [scanFrom, if_pos hc]

theorem scanFrom_token {kind : TokenKind} {w rest : List Char} (h : Longest kind w (w ++ rest)) (position : Nat) :
    scanFrom position (w ++ rest) =
      (scanFrom (position + w.length) rest).map (⟨kind, String.ofList w, position⟩ :: ·) := by
  have found := lexeme?_eq_some_iff.mpr ⟨w, h, rfl⟩
  obtain ⟨c, cs, rfl, hc⟩ := h.lexeme.exists_cons
  rw [List.cons_append] at found ⊢
  rw [scanFrom, hc, if_neg Bool.false_ne_true, found]
  have taken : ((c :: cs) ++ rest).take (cs.length + 1) = c :: cs := List.take_left' rfl
  dsimp only [List.length_cons]
  rw [List.drop_left, ← List.cons_append]
  cases scanFrom (position + (cs.length + 1)) rest with
  | error e => rfl
  | ok tokens =>
    dsimp only
    rw [taken]
    rfl

theorem Stuck.scanFrom {c : Char} (h : Stuck c cs) (position : Nat) :
    Token.scanFrom position cs = .error (.character c position) := by
  obtain ⟨head, visible, no_word⟩ := h
  obtain ⟨rest, rfl⟩ := List.head?_eq_some_iff.mp head
  rw [Token.scanFrom, visible, if_neg Bool.false_ne_true, lexeme?_eq_none_iff.mpr no_word]

/-- The scanner goes through a tiling and on with what is behind it. -/
theorem Tiled.scanFrom (h : Tiled left stop position cs tokens) :
    Token.scanFrom position cs = (Token.scanFrom stop left).map (tokens ++ ·) := by
  induction h with
  | nil => cases Token.scanFrom stop left <;> rfl
  | blank hc _ ih => rw [scanFrom_blank hc, ih]
  | token hw _ ih =>
    rw [scanFrom_token hw, ih]
    cases Token.scanFrom stop left <;> rfl

theorem Tiled.scanFrom_eq_ok (h : Tiled [] stop position cs tokens) : Token.scanFrom position cs = .ok tokens := by
  rw [h.scanFrom, Token.scanFrom]
  exact congrArg Except.ok (List.append_nil tokens)

end

/-- From the front on, words and blanks cover a text up to its end or to a place where neither starts. -/
theorem exists_tiled (position : Nat) (cs : List Char) : ∃ left stop tokens,
    Tiled left stop position cs tokens ∧ (left = [] ∨ ∃ c, Stuck c left) := by
  -- on the number of characters that are left
  induction hn : cs.length using Nat.strong_induction_on generalizing position cs with
  | h n ih =>
    subst hn
    match cs with
    | [] => exact ⟨[], position, [], Tiled.nil, .inl rfl⟩
    | c :: cs =>
      cases hc : Text.isBlank c with
      | true =>
        obtain ⟨left, stop, tokens, tiled, done⟩ := ih cs.length (Nat.lt_succ_self _) (position + 1) cs rfl
        exact ⟨left, stop, tokens, Tiled.blank hc tiled, done⟩
      | false =>
        cases found : lexeme? (c :: cs) with
        | none =>
          exact ⟨c :: cs, position, [], Tiled.nil, .inr ⟨c, rfl, hc, lexeme?_eq_none_iff.mp found⟩⟩
        | some p =>
          obtain ⟨w, longest, _⟩ := lexeme?_eq_some_iff.mp found
          obtain ⟨rest, hr⟩ := longest.front
          have shorter : rest.length < (c :: cs).length := by
            obtain ⟨d, ds, hd, _⟩ := longest.lexeme.exists_cons
            rw [← hr, hd, List.length_append, List.length_cons]
            omega
          obtain ⟨left, stop, tokens, tiled, done⟩ := ih rest.length shorter (position + w.length) rest rfl
          rw [← hr] at longest ⊢
          exact ⟨left, stop, _, Tiled.token longest tiled, done⟩

/-- **The scanner covers the whole text, or all of it up to the first place where it is stuck.** -/
theorem scanFrom_cases (position : Nat) (cs : List Char) :
    (∃ tokens, scanFrom position cs = .ok tokens ∧ Tiled [] (position + cs.length) position cs tokens) ∨
      ∃ c left stop tokens, scanFrom position cs = .error (.character c stop) ∧
        Tiled left stop position cs tokens ∧ Stuck c left := by
  obtain ⟨left, stop, tokens, tiled, rfl | ⟨c, stuck⟩⟩ := exists_tiled position cs
  · have whole : position + cs.length = stop := tiled.length.2
    exact .inl ⟨tokens, tiled.scanFrom_eq_ok, by rw [whole]; exact tiled⟩
  · refine .inr ⟨c, left, stop, tokens, ?_, tiled, stuck⟩
    rw [tiled.scanFrom, stuck.scanFrom]
    rfl

/-! ## spacing -/

/-- the texts one behind the other, with at least one blank between any two -/
inductive Spaced : List String → List Char → Prop where
  | nil : Spaced [] []
  | last (w : String) : Spaced [w] w.toList
  | cons (w : String) {gap : List Char} {u : String} {ws : List String} {cs : List Char} (some : gap ≠ [])
      (blank : ∀ c ∈ gap, Text.isBlank c = true) (more : Spaced (u :: ws) cs) :
      Spaced (w :: u :: ws) (w.toList ++ (gap ++ cs))

theorem Tiled.blanks {left gap cs : List Char} {stop position : Nat} {tokens : List Token}
    (h : ∀ c ∈ gap, Text.isBlank c = true) (more : Tiled left stop (position + gap.length) cs tokens) :
    Tiled left stop position (gap ++ cs) tokens := by
  induction gap generalizing position with
  | nil => exact more
  | cons c gap ih =>
    obtain ⟨hc, blank⟩ := List.forall_mem_cons.mp h
    refine Tiled.blank hc (ih blank ?_)
    rwa [Nat.add_assoc, Nat.add_comm 1]

theorem Spaced.tiled {ws : List String} {cs : List Char} (h : Spaced ws cs)
    (words : ∀ w ∈ ws, ∃ kind, Lexeme kind w.toList) (position : Nat) :
    ∃ stop tokens, Tiled [] stop position cs tokens ∧ tokens.map Token.text = ws := by
  induction h generalizing position with
  | nil => exact ⟨position, [], Tiled.nil, rfl⟩
  | last w =>
    obtain ⟨kind, hw⟩ := words w List.mem_cons_self
    have longest : Longest kind w.toList (w.toList ++ []) := hw.alone nofun
    have tiled : Tiled [] (position + w.toList.length) position _ _ := Tiled.token longest Tiled.nil
    rw [List.append_nil, String.ofList_toList] at tiled
    exact ⟨_, _, tiled, rfl⟩
  | @cons w gap u ws cs some blank _ ih =>
    obtain ⟨kind, hw⟩ := words w List.mem_cons_self
    obtain ⟨stop, tokens, tiled, texts⟩ :=
      ih (fun v hv => words v (List.mem_cons_of_mem _ hv)) (position + w.toList.length + gap.length)
    have longest : Longest kind w.toList (w.toList ++ (gap ++ cs)) := by
      obtain ⟨c, more, rfl⟩ := List.exists_cons_of_ne_nil some
      refine hw.alone ?_
      rintro _ _ ⟨⟩
      exact blank c List.mem_cons_self
    refine ⟨stop, _, Tiled.token longest (Tiled.blanks blank tiled), ?_⟩
    rw [List.map_cons, texts, String.ofList_toList]

/-- the sort and the text of a word, wherever it stands -/
def spelling (t : Token) : TokenKind × String := (t.kind, t.text)

theorem spellings_eq {ts us : List Token} (ht : ∀ t ∈ ts, Lexeme t.kind t.text.toList)
    (hu : ∀ u ∈ us, Lexeme u.kind u.text.toList) (h : ts.map Token.text = us.map Token.text) :
    ts.map spelling = us.map spelling := by
  induction ts generalizing us with
  | nil =>
    rw [List.map_nil] at h
    rw [List.map_eq_nil_iff.mp h.symm]
  | cons t ts ih =>
    obtain ⟨u, us, rfl, text, texts⟩ := List.map_eq_cons_iff.mp h.symm
    obtain ⟨first, others⟩ := List.forall_mem_cons.mp ht
    obtain ⟨first', others'⟩ := List.forall_mem_cons.mp hu
    rw [text] at first'
    rw [List.map_cons, List.map_cons, ih others others' texts.symm, spelling, spelling, text,
      first.kind_unique first']

end Token

namespace Predicate

open Token (spelling)

namespace Shorthand

theorem value?_congr (kind : TokenKind) (text : String) (p q : Nat) :
    (value? ⟨kind, text, p⟩).toOption = (value? ⟨kind, text, q⟩).toOption := by
  cases kind with
  | string =>
    have string : string? ⟨.string, text, p⟩ = string? ⟨.string, text, q⟩ := rfl
    unfold value?
    dsimp only
    rw [string]
    cases string? ⟨.string, text, q⟩ <;> rfl
  | word =>
    have small : lowered ⟨.word, text, p⟩ = lowered ⟨.word, text, q⟩ := rfl
    unfold value?
    dsimp only
    rw [small]
    by_cases yes : lowered ⟨.word, text, q⟩ = "true"
    · rw [if_pos yes, if_pos yes]
    rw [if_neg yes, if_neg yes]
    by_cases no : lowered ⟨.word, text, q⟩ = "false"
    · rw [if_pos no, if_pos no]
    rw [if_neg no, if_neg no]
    by_cases null : lowered ⟨.word, text, q⟩ = "null"
    · rw [if_pos null, if_pos null]
    rw [if_neg null, if_neg null]
    rfl
  | number => rfl
  | operator => rfl
  | opening => rfl
  | closing => rfl

/-- A step looks at the sort and the text of a word; its place is only told in a fault. -/
theorem State.step_congr (s : State) {t u : Token} (h : t.spelling = u.spelling) :
    (s.step t).toOption = (s.step u).toOption := by
  obtain ⟨kind, text, p⟩ := t
  obtain ⟨kind', text', q⟩ := u
  obtain ⟨rfl, rfl⟩ := Prod.mk.inj h
  have keyword (word : String) : isKeyword ⟨kind, text, p⟩ word = isKeyword ⟨kind, text, q⟩ word := rfl
  have field : field? ⟨kind, text, p⟩ = field? ⟨kind, text, q⟩ := rfl
  have test : test? ⟨kind, text, p⟩ = test? ⟨kind, text, q⟩ := rfl
  unfold step
  cases s.phase with
  | part =>
    dsimp only [stepPart]
    rw [keyword, field]
    cases isKeyword ⟨kind, text, q⟩ "not" with
    | true => rfl
    | false => cases field? ⟨kind, text, q⟩ <;> cases kind <;> rfl
  | test path =>
    dsimp only
    rw [test]
    obtain _ | (_ | _) := test? ⟨kind, text, q⟩ <;> rfl
  | value path relation =>
    have value := value?_congr kind text p q
    dsimp only
    cases hp : value? ⟨kind, text, p⟩ <;> cases hq : value? ⟨kind, text, q⟩ <;>
      rw [hp, hq] at value <;> cases value <;> rfl
  | after =>
    dsimp only [stepAfter]
    rw [keyword, keyword]
    cases isKeyword ⟨kind, text, q⟩ "and" with
    | true => rfl
    | false =>
      cases isKeyword ⟨kind, text, q⟩ "or" with
      | true => rfl
      | false =>
        cases s.outer with
        | nil => rfl
        | cons around outer => cases kind <;> rfl

theorem State.run_congr (s : State) {ts us : List Token} (h : ts.map spelling = us.map spelling) :
    (s.run ts).toOption = (s.run us).toOption := by
  induction ts generalizing s us with
  | nil =>
    rw [List.map_nil] at h
    rw [List.map_eq_nil_iff.mp h.symm]
  | cons t ts ih =>
    obtain ⟨u, us, rfl, first, others⟩ := List.map_eq_cons_iff.mp h.symm
    have step := s.step_congr first
    rw [run, run]
    cases ht : s.step t with
    | error e =>
      rw [ht] at step
      cases hu : s.step u with
      | error e' => rfl
      | ok s' =>
        rw [hu] at step
        cases step
    | ok s' =>
      rw [ht] at step
      cases hu : s.step u with
      | error e' =>
        rw [hu] at step
        cases step
      | ok s'' =>
        rw [hu] at step
        cases step
        exact ih s' others.symm

end Shorthand

/-- **Where words stand has no part in what they mean.** -/
theorem ofTokens_congr {ts us : List Token} (h : ts.map spelling = us.map spelling) :
    (ofTokens ts).toOption = (ofTokens us).toOption := by
  match ts with
  | [] =>
    obtain rfl := List.map_eq_nil_iff.mp h.symm
    rfl
  | [t] =>
    obtain ⟨u, rest, rfl, first, others⟩ := List.map_eq_cons_iff.mp h.symm
    obtain rfl := List.map_eq_nil_iff.mp others
    have small : Shorthand.lowered t = Shorthand.lowered u := congrArg Text.lower (Prod.mk.inj first).2.symm
    have read := Shorthand.State.start.run_congr h
    unfold ofTokens
    dsimp only
    rw [small]
    by_cases all : Shorthand.lowered u = "all"
    · rw [if_pos all, if_pos all]
    · rw [if_neg all, if_neg all, read]
  | t :: t' :: rest =>
    obtain ⟨u, others, rfl, _, h'⟩ := List.map_eq_cons_iff.mp h.symm
    obtain ⟨u', others, rfl, _, _⟩ := List.map_eq_cons_iff.mp h'
    exact Shorthand.State.start.run_congr h

theorem parseText_congr {source other : String} {ts us : List Token} (hs : Token.scan source = .ok ts)
    (ho : Token.scan other = .ok us) (h : ts.map spelling = us.map spelling) :
    (parseText source).toOption = (parseText other).toOption := by
  have same := ofTokens_congr h
  unfold parseText ofText
  rw [hs, ho]
  dsimp only
  cases ht : ofTokens ts <;> cases hu : ofTokens us <;> rw [ht, hu] at same <;> cases same <;> rfl

end Predicate

namespace Token

theorem Spaced.scan {tokens : List Token} (words : ∀ t ∈ tokens, Lexeme t.kind t.text.toList) {spaced : String}
    (h : Spaced (tokens.map Token.text) spaced.toList) :
    ∃ others, Token.scan spaced = .ok others ∧ others.map spelling = tokens.map spelling := by
  obtain ⟨stop, others, tiled, texts⟩ := h.tiled (fun w hw => by
    obtain ⟨t, ht, rfl⟩ := List.mem_map.mp hw
    exact ⟨t.kind, words t ht⟩) 0
  exact ⟨others, tiled.scanFrom_eq_ok, spellings_eq tiled.lexeme words texts⟩

/-- **The scanner tiles.**  Either the longest words cover the text from its first character to its last one with
nothing but blanks around them, and their texts with any blanks between them are the same words and mean the same,
if anything.  Or the words cover it up to a character where neither a blank nor a word starts, and the fault
tells that place. -/
theorem scan_tiling (source : String) :
    (∃ tokens, scan source = .ok tokens ∧ Tiles source.toList 0 source.toList.length tokens ∧
      (tokens.Pairwise fun t u => t.position < u.position) ∧
      ∀ spaced : String, Spaced (tokens.map text) spaced.toList →
        (∃ others, scan spaced = .ok others ∧ others.map spelling = tokens.map spelling) ∧
          (Predicate.parseText spaced).toOption = (Predicate.parseText source).toOption) ∨
    (∃ c position tokens, scan source = .error (.character c position) ∧
      Predicate.parseText source = .error (Predicate.Unreadable.character c position).fault ∧
      Tiles source.toList 0 position tokens ∧ (tokens.Pairwise fun t u => t.position < u.position) ∧
      Stuck c (source.toList.drop position)) := by
  rcases scanFrom_cases 0 source.toList with
    ⟨tokens, found, tiled⟩ | ⟨c, left, position, tokens, found, tiled, stuck⟩
  · rw [Nat.zero_add] at tiled
    have tiles : Tiles source.toList 0 source.toList.length tokens := tiled.tiles rfl
    refine .inl ⟨tokens, found, tiles, tiles.increasing, fun spaced h => ?_⟩
    obtain ⟨others, again, same⟩ := h.scan tiled.lexeme
    exact ⟨⟨others, again, same⟩, Predicate.parseText_congr again found same⟩
  · have tiles : Tiles source.toList 0 position tokens := tiled.tiles rfl
    have behind : source.toList.drop position = left := tiled.left_eq rfl
    refine .inr ⟨c, position, tokens, found, ?_, tiles, tiles.increasing, by rw [behind]; exact stuck⟩
    have unread : scan source = .error (.character c position) := found
    rw [Predicate.parseText, Predicate.ofText, unread]

/-- digits with an `e` behind them that starts no exponent -/
theorem scan_tiling_digitsAndLetter :
    ∃ others, scan "a.b =\t1\n e" = .ok others ∧
      others.map spelling = [(.word, "a.b"), (.operator, "="), (.number, "1"), (.word, "e")] := by
  have tight : scan "a.b=1e" =
      .ok [⟨.word, "a.b", 0⟩, ⟨.operator, "=", 3⟩, ⟨.number, "1", 4⟩, ⟨.word, "e", 5⟩] := by
    decide +kernel
  rcases scan_tiling "a.b=1e" with ⟨tokens, found, _, _, again⟩ | ⟨c, position, tokens, found, _⟩
  · rw [tight] at found
    cases found
    refine (again "a.b =\t1\n e" ?_).1
    have first : Spaced ["1", "e"] ("1".toList ++ (['\n', ' '] ++ "e".toList)) :=
      Spaced.cons "1" (by decide) (List.all_eq_true.mp rfl) (Spaced.last "e")
    have second : Spaced ["=", "1", "e"] ("=".toList ++ (['\t'] ++ _)) :=
      Spaced.cons "=" (by decide) (List.all_eq_true.mp rfl) first
    exact @Spaced.cons "a.b" [' '] "=" _ _ (by decide) (List.all_eq_true.mp rfl) second
  · rw [tight] at found
    cases found

end Token

end EventRouting
