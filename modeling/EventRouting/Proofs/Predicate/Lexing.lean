import Mathlib.Data.List.Forall2
import EventRouting.Proofs.Json.Text
import EventRouting.Proofs.Predicate.Tiling

/-!
# Words with single spaces between them

* `Token.Separated`      what may come behind a word: nothing, or a space
* `Token.Lexes`          a row of characters that is one word wherever it is separated
* `Token.lexes_iff`      those are the words by the rules
* `Token.scan_spaced`    words with single spaces between them are found again
* `Token.lexes_word`, `Token.lexes_int`, `Token.lexes_sign`, `Token.lexes_quoted`   what is one word
* `Json.quoted_of_readText`   what the reader of documents takes for a text is one word
-/

namespace EventRouting

namespace Token

def Separated (rest : List Char) : Prop := ∀ c cs, rest = c :: cs → c = ' '

structure Lexes (kind : TokenKind) (w : List Char) : Prop where
  visible : ∃ c cs, w = c :: cs ∧ Text.isBlank c = false
  alone : ∀ rest, Separated rest → lexeme? (w ++ rest) = some (kind, w.length)

theorem Separated.blank {rest : List Char} (h : Separated rest) :
    ∀ c cs, rest = c :: cs → Text.isBlank c = true := by
  intro c cs hc
  rw [h c cs hc]
  decide

theorem lexes_iff {kind : TokenKind} {w : List Char} : Lexes kind w ↔ Lexeme kind w := by
  constructor
  · intro h
    have found := h.alone [] nofun
    rw [List.append_nil] at found
    obtain ⟨v, longest, length⟩ := lexeme?_eq_some_iff.mp found
    rw [← longest.front.eq_of_length length]
    exact longest.lexeme
  · intro h
    exact ⟨h.exists_cons, fun rest hr => lexeme?_eq_some_iff.mpr ⟨w, h.alone hr.blank, rfl⟩⟩

/-! ## scanning -/

/-- A word and the token it becomes. -/
def Spelt (t : Token) (w : String) : Prop := t.text = w ∧ Lexes t.kind w.toList

theorem spaced_intercalate (ws : List String) : Spaced ws (" ".intercalate ws).toList := by
  rw [String.toList_intercalate]
  induction ws with
  | nil => exact Spaced.nil
  | cons w ws ih =>
    cases ws with
    | nil =>
      rw [List.map_cons, List.map_nil, List.intercalate_singleton]
      exact Spaced.last w
    | cons u ws =>
      rw [List.map_cons, List.map_cons, List.intercalate_cons_cons, List.append_assoc, ← List.map_cons]
      exact Spaced.cons w (by decide) (List.all_eq_true.mp rfl) ih

/-- **Words with single spaces between them** are found again, each as it was written. -/
theorem scan_spaced {ws : List String} (h : ∀ w ∈ ws, ∃ kind, Lexes kind w.toList) :
    ∃ tokens, scan (" ".intercalate ws) = .ok tokens ∧ List.Forall₂ Spelt tokens ws := by
  obtain ⟨stop, tokens, tiled, rfl⟩ :=
    (spaced_intercalate ws).tiled (fun w hw => (h w hw).imp fun _ hl => lexes_iff.mp hl) 0
  refine ⟨tokens, tiled.scanFrom_eq_ok, List.forall₂_map_right_iff.mpr (List.forall₂_same.mpr fun t ht => ?_)⟩
  exact ⟨rfl, lexes_iff.mpr (tiled.lexeme t ht)⟩

/-- The sort of a word is settled by its characters. -/
theorem Spelt.kind_eq {t : Token} {w : String} {kind : TokenKind} (h : t.Spelt w)
    (hw : Lexes kind w.toList) : t.kind = kind := (lexes_iff.mp h.2).kind_unique (lexes_iff.mp hw)

/-! ## words -/

theorem lexes_word {c : Char} {cs tail : List Char} (start : isWordStart c = true)
    (word : ∀ d ∈ cs, isWordChar d = true) (ht : Tail tail) : Lexes .word (c :: (cs ++ tail)) :=
  lexes_iff.mpr (Lexeme.word start word ht)

theorem lexes_int (i : Int) : Lexes .number (Number.intText i) := by
  have digits : Digits (Nat.toDigits 10 i.natAbs) := ⟨Nat.toDigits_ne_nil, Text.isDigit_of_mem_toDigits⟩
  have number {sign : List Char} (hs : sign = [] ∨ sign = ['-']) :
      Lexes .number (sign ++ Nat.toDigits 10 i.natAbs) := by
    have whole := Lexeme.number hs digits Fraction.none Exponent.none
    rw [List.append_nil, List.append_nil] at whole
    exact lexes_iff.mpr whole
  unfold Number.intText
  by_cases hi : i < 0
  · rw [if_pos hi]
    exact number (.inr rfl)
  · rw [if_neg hi]
    exact number (.inl rfl)

theorem lexes_opening : Lexes .opening ['('] := lexes_iff.mpr Lexeme.opening

theorem lexes_closing : Lexes .closing [')'] := lexes_iff.mpr Lexeme.closing

theorem lexes_sign {text : String} {r : Relation} (h : (text, r) ∈ Predicate.Grammar.signs) :
    Lexes .operator text.toList := lexes_iff.mpr (Lexeme.operator h)

theorem lexes_quoted {quote : Char} (hq : quote = '"' ∨ quote = '\'') {body : List Char}
    (h : Quoted quote body) : Lexes .string (quote :: (body ++ [quote])) := lexes_iff.mpr (Lexeme.string hq h)

end Token

namespace Json

open Token (Quoted)

theorem hexValue?_plain {c : Char} {d : Nat} (h : hexValue? c = some d) : c ≠ '\\' ∧ c ≠ '"' := by
  have slash : hexValue? '\\' = none := by decide
  have quote : hexValue? '"' = none := by decide
  constructor
  · rintro rfl
    rw [slash] at h
    cases h
  · rintro rfl
    rw [quote] at h
    cases h

theorem quoted_of_unitValue? {a b c d : Char} {n : Nat} (h : unitValue? a b c d = some n)
    {body : List Char} (hb : Quoted '"' body) : Quoted '"' (a :: b :: c :: d :: body) := by
  unfold unitValue? at h
  obtain ⟨_, ha, h⟩ := Option.bind_eq_some_iff.mp h
  obtain ⟨_, hb', h⟩ := Option.bind_eq_some_iff.mp h
  obtain ⟨_, hc, h⟩ := Option.bind_eq_some_iff.mp h
  obtain ⟨_, hd, _⟩ := Option.bind_eq_some_iff.mp h
  have plain {c : Char} {k : Nat} (hk : hexValue? c = some k) {cs : List Char} (hcs : Quoted '"' cs) :
      Quoted '"' (c :: cs) := Quoted.plain (hexValue?_plain hk).1 (hexValue?_plain hk).2 hcs
  exact plain ha (plain hb' (plain hc (plain hd hb)))

/-- A part of a text between double quotes: whatever it stands before stays one. -/
def Within (piece : List Char) : Prop := ∀ body, Quoted '"' body → Quoted '"' (piece ++ body)

theorem within_unit {a b c d : Char} {n : Nat} (h : unitValue? a b c d = some n) :
    Within ['\\', 'u', a, b, c, d] := fun _ hb =>
  Quoted.escaped (by decide) (quoted_of_unitValue? h hb)

theorem within_readPair {high : Nat} {cs rest : List Char} {c : Char}
    (h : readPair high cs = .ok (.char c rest)) : ∃ piece, Within piece ∧ cs = piece ++ rest := by
  unfold readPair at h
  split at h
  · split at h
    · next hl =>
      split at h
      · obtain ⟨-, rfl⟩ := Piece.char.inj (Except.ok.inj h)
        exact ⟨_, within_unit hl, rfl⟩
      · obtain ⟨-, rfl⟩ := Piece.char.inj (Except.ok.inj h)
        exact ⟨[], fun _ hb => hb, rfl⟩
    · cases h
  · cases h
    exact ⟨[], fun _ hb => hb, rfl⟩

theorem within_readEscape {opened : Nat} {cs rest : List Char} {c : Char}
    (h : readEscape opened cs = .ok (.char c rest)) : ∃ piece, Within piece ∧ '\\' :: cs = piece ++ rest := by
  unfold readEscape at h
  split at h
  · cases h
  · split at h
    · next u₁ u₂ u₃ u₄ _ _ _ _ hu =>
      split at h
      · obtain ⟨piece, hp, he⟩ := within_readPair h
        refine ⟨['\\', 'u', u₁, u₂, u₃, u₄] ++ piece, fun body hb => ?_, ?_⟩
        · rw [List.append_assoc]
          exact within_unit hu _ (hp body hb)
        · rw [he]
          rfl
      · cases h
        exact ⟨_, within_unit hu, rfl⟩
    · cases h
  · cases h
  · next d rest' _ _ =>
    split at h
    · next he =>
      cases h
      have feed : escaped? '\n' = none := by decide
      have hd : d ≠ '\n' := by
        rintro rfl
        rw [feed] at he
        cases he
      exact ⟨['\\', d], fun _ hb => Quoted.escaped hd hb, rfl⟩
    · cases h

theorem within_readPiece {opened : Nat} {cs rest : List Char} {c : Char}
    (h : readPiece opened cs = .ok (.char c rest)) : ∃ piece, Within piece ∧ cs = piece ++ rest := by
  unfold readPiece at h
  split at h
  · cases h
  · cases h
  · exact within_readEscape h
  · next hq hs =>
    split at h
    · cases h
    · cases h
      exact ⟨[c], fun _ hb => Quoted.plain hs hq hb, rfl⟩

theorem readPiece_close {opened : Nat} {cs rest : List Char} (h : readPiece opened cs = .ok (.close rest)) :
    cs = '"' :: rest := by
  unfold readPiece at h
  split at h
  · cases h
  · cases h; rfl
  · unfold readEscape readPair at h
    repeat' split at h
    all_goals cases h
  · split at h <;> cases h

theorem quoted_of_readText {opened : Nat} {cs text left : List Char}
    (h : readText opened cs = .ok (text, left)) : ∃ body, Quoted '"' body ∧ cs = body ++ '"' :: left := by
  fun_induction readText opened cs generalizing text left with
  | case1 => cases h
  | case2 cs rest hp =>
    cases h
    exact ⟨[], Quoted.nil, readPiece_close hp⟩
  | case3 => cases h
  | case4 cs c rest hp text' left' hr ih =>
    cases h
    obtain ⟨piece, hw, rfl⟩ := within_readPiece hp
    obtain ⟨body, hb, rfl⟩ := ih hr
    exact ⟨piece ++ body, hw body hb, (List.append_assoc ..).symm⟩

end Json

end EventRouting
