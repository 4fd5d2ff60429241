import EventRouting.Json.Read
import EventRouting.Json.Write

/-!
# Texts in documents

* `Json.readPiece_writeChar`   one character that is written is read as that character
* `Json.readText_written`      a text that is written is read up to its closing quote
* `Json.read_writeString`      the document of a text is read as that text, whichever characters are escaped
-/

namespace EventRouting.Json

/-! ## units -/

theorem hexValue?_digitChar {d : Nat} (h : d < 16) : hexValue? d.digitChar = some d := by
  have all : ∀ d < 16, hexValue? d.digitChar = some d := by decide
  exact all d h

theorem toDigits_sixteen_of_lt {n : Nat} (h : n < 16) : Nat.toDigits 16 n = [n.digitChar] :=
  Nat.toDigits_of_lt_base h

theorem toDigits_sixteen_of_ge {n : Nat} (h : 16 ≤ n) :
    Nat.toDigits 16 n = Nat.toDigits 16 (n / 16) ++ [(n % 16).digitChar] := by
  rw [Nat.toDigits_eq_if (by decide), if_neg (by omega)]

theorem hexDigits_four {n : Nat} (h : n < 65536) : Text.hexDigits 4 n =
    [(n / 4096).digitChar, (n / 256 % 16).digitChar, (n / 16 % 16).digitChar, (n % 16).digitChar] := by
  have zero : Nat.digitChar 0 = '0' := rfl
  unfold Text.hexDigits
  by_cases h1 : n < 16
  · rw [toDigits_sixteen_of_lt h1, show n / 4096 = 0 by omega, show n / 256 % 16 = 0 by omega,
      show n / 16 % 16 = 0 by omega, show n % 16 = n by omega, zero]
    rfl
  rw [toDigits_sixteen_of_ge (by omega)]
  by_cases h2 : n < 256
  · rw [toDigits_sixteen_of_lt (show n / 16 < 16 by omega), show n / 4096 = 0 by omega,
      show n / 256 % 16 = 0 by omega, show n / 16 % 16 = n / 16 by omega, zero]
    rfl
  rw [toDigits_sixteen_of_ge (show 16 ≤ n / 16 by omega), Nat.div_div_eq_div_mul]
  by_cases h3 : n < 4096
  · rw [toDigits_sixteen_of_lt (show n / (16 * 16) < 16 by omega), show n / 4096 = 0 by omega,
      show n / 256 % 16 = n / (16 * 16) by omega, zero]
    rfl
  rw [toDigits_sixteen_of_ge (show 16 ≤ n / (16 * 16) by omega), Nat.div_div_eq_div_mul,
    toDigits_sixteen_of_lt (show n / (16 * 16 * 16) < 16 by omega)]
  rfl

theorem unitEscape_eq {n : Nat} (h : n < 65536) : ∃ a b c d,
    unitEscape n = ['\\', 'u', a, b, c, d] ∧ unitValue? a b c d = some n := by
  refine ⟨_, _, _, _, congrArg (['\\', 'u'] ++ ·) (hexDigits_four h), ?_⟩
  have h1 := hexValue?_digitChar (show n / 4096 < 16 by omega)
  have h2 := hexValue?_digitChar (show n / 256 % 16 < 16 by omega)
  have h3 := hexValue?_digitChar (show n / 16 % 16 < 16 by omega)
  have h4 := hexValue?_digitChar (show n % 16 < 16 by omega)
  simp only [unitValue?, h1, h2, h3, h4, bind, Option.bind, pure]
  exact congrArg some (by omega)

/-! ## characters -/

theorem toNat_bounds (c : Char) : c.toNat < 55296 ∨ (57343 < c.toNat ∧ c.toNat < 1114112) := c.valid

/-- An escape of a character that is no half of a pair. -/
theorem readEscape_unit (opened : Nat) {c : Char} (h : c.toNat < 65536) {rest : List Char} (hr : rest ≠ []) :
    ∃ a b d e, unitEscape c.toNat = ['\\', 'u', a, b, d, e] ∧
      readEscape opened ('u' :: a :: b :: d :: e :: rest) = .ok (.char c rest) := by
  obtain ⟨a, b, d, e, he, hv⟩ := unitEscape_eq h
  refine ⟨a, b, d, e, he, ?_⟩
  have hc := toNat_bounds c
  have high : isHighUnit c.toNat = false := by
    rw [isHighUnit, Bool.and_eq_false_iff, decide_eq_false_iff_not, decide_eq_false_iff_not]
    omega
  have low : isLowUnit c.toNat = false := by
    rw [isLowUnit, Bool.and_eq_false_iff, decide_eq_false_iff_not, decide_eq_false_iff_not]
    omega
  cases rest with
  | nil => exact absurd rfl hr
  | cons next rest =>
    rw [readEscape, hv]
    dsimp only
    rw [high, if_neg Bool.false_ne_true, unitChar, high, low, Char.ofNat_toNat]
    rfl

theorem readEscape_pair (opened : Nat) {c : Char} (h : 65536 ≤ c.toNat) {rest : List Char} (hr : rest ≠ []) :
    ∃ a b d e more, charEscape c = '\\' :: 'u' :: a :: b :: d :: e :: more ∧
      readEscape opened ('u' :: a :: b :: d :: e :: (more ++ rest)) = .ok (.char c rest) := by
  have hc := toNat_bounds c
  obtain ⟨a, b, d, e, he, hv⟩ := unitEscape_eq (show 55296 + (c.toNat - 65536) / 1024 < 65536 by omega)
  obtain ⟨a', b', d', e', he', hv'⟩ := unitEscape_eq (show 56320 + (c.toNat - 65536) % 1024 < 65536 by omega)
  refine ⟨a, b, d, e, ['\\', 'u', a', b', d', e'], ?_, ?_⟩
  · rw [charEscape, if_neg (by omega)]
    dsimp only
    rw [he, he']
    rfl
  have high : isHighUnit (55296 + (c.toNat - 65536) / 1024) = true := by
    rw [isHighUnit, Bool.and_eq_true, decide_eq_true_iff, decide_eq_true_iff]
    omega
  have low : isLowUnit (56320 + (c.toNat - 65536) % 1024) = true := by
    rw [isLowUnit, Bool.and_eq_true, decide_eq_true_iff, decide_eq_true_iff]
    omega
  have together : pairChar (55296 + (c.toNat - 65536) / 1024) (56320 + (c.toNat - 65536) % 1024) = c := by
    rw [pairChar, show 65536 + (55296 + (c.toNat - 65536) / 1024 - 55296) * 1024 +
      (56320 + (c.toNat - 65536) % 1024 - 56320) = c.toNat by omega, Char.ofNat_toNat]
  cases rest with
  | nil => exact absurd rfl hr
  | cons next rest =>
    show readEscape opened ('u' :: a :: b :: d :: e :: '\\' :: 'u' :: a' :: b' :: d' :: e' :: next :: rest) = _
    rw [readEscape, hv]
    dsimp only
    rw [high, if_pos rfl, readPair, hv']
    dsimp only
    rw [low, if_pos rfl, together]

/-- **One character**, whether it is escaped or not. -/
theorem readPiece_writeChar (opened : Nat) (ascii : Bool) (c : Char) (rest : List Char) (hr : rest ≠ []) :
    readPiece opened (writeChar ascii c ++ rest) = .ok (.char c rest) := by
  have unit : c.toNat < 65536 → readPiece opened (unitEscape c.toNat ++ rest) = .ok (.char c rest) := by
    intro h
    obtain ⟨a, b, d, e, he, hp⟩ := readEscape_unit opened h hr
    rw [he]
    exact hp
  unfold writeChar
  by_cases hq : c = '"'
  · subst hq; rfl
  by_cases hb : c = '\\'
  · subst hb; rfl
  by_cases hn : c = '\n'
  · subst hn; rfl
  by_cases hcr : c = '\r'
  · subst hcr; rfl
  by_cases ht : c = '\t'
  · subst ht; rfl
  by_cases hf : c = '\x0c'
  · subst hf; rfl
  by_cases hbs : c = '\x08'
  · subst hbs; rfl
  rw [if_neg hq, if_neg hb, if_neg hn, if_neg hcr, if_neg ht, if_neg hf, if_neg hbs]
  by_cases hlow : c.toNat < 32
  · rw [if_pos hlow]
    exact unit (by omega)
  rw [if_neg hlow]
  split
  · by_cases hplane : c.toNat < 65536
    · rw [charEscape, if_pos hplane]
      exact unit hplane
    · obtain ⟨a, b, d, e, more, he, hp⟩ := readEscape_pair opened (Nat.not_lt.mp hplane) hr
      rw [he]
      exact hp
  · show readPiece opened (c :: rest) = _
    rw [readPiece, if_neg hlow]
    · exact hq
    · exact hb

/-! ## texts -/

/-- **A text** that is written is read up to the quote that closes it. -/
theorem readText_written (opened : Nat) (ascii : Bool) (cs rest : List Char) :
    readText opened (cs.flatMap (writeChar ascii) ++ '"' :: rest) = .ok (cs, rest) := by
  induction cs with
  | nil =>
    rw [List.flatMap_nil, List.nil_append, readText]
    rfl
  | cons c cs ih =>
    have hp := readPiece_writeChar opened ascii c (cs.flatMap (writeChar ascii) ++ '"' :: rest) (by simp)
    rw [List.flatMap_cons, List.append_assoc, readText]
    split
    · next he => rw [hp] at he; cases he
    · next he => rw [hp] at he; cases he
    · next he =>
      rw [hp] at he
      cases he
      rw [ih]

theorem readDocument_of_skipSpace {cs inner : List Char} (h : skipSpace cs = inner) : readDocument cs =
    match readValue inner with
    | .error e => .error e
    | .ok (v, rest) =>
      match skipSpace rest.1 with
      | [] => .ok v
      | other => .error ⟨.extraData, other.length⟩ := by
  subst h
  unfold readDocument
  cases readValue (skipSpace cs) <;> rfl

/-- A document that starts with a quote is a text with nothing but spaces behind it. -/
theorem readDocument_quote (cs : List Char) : readDocument ('"' :: cs) =
    match readText (cs.length + 1) cs with
    | .error e => .error e
    | .ok (text, left) =>
      match skipSpace left with
      | [] => .ok (.str (String.ofList text))
      | other => .error ⟨.extraData, other.length⟩ := by
  have hs : skipSpace ('"' :: cs) = '"' :: cs := by rw [skipSpace]; rfl
  rw [readDocument_of_skipSpace hs, readValue]
  split
  · next he =>
    split at he
    · next ht => cases he; simp only [ht]
    · cases he
  · next he =>
    split at he
    · cases he
    · next ht => cases he; simp only [ht]

theorem read_quote_iff {s : String} {cs : List Char} (hs : s.toList = '"' :: cs) (v : Json) :
    read s = .ok v ↔ ∃ text left, readText (cs.length + 1) cs = .ok (text, left) ∧ skipSpace left = [] ∧
      v = .str (String.ofList text) := by
  have hd := readDocument_quote cs
  unfold read
  rw [hs]
  dsimp only
  rw [hd]
  cases readText (cs.length + 1) cs with
  | error e => simp
  | ok found =>
    obtain ⟨text, left⟩ := found
    dsimp only
    cases hl : skipSpace left with
    | nil =>
      constructor
      · intro h
        cases h
        exact ⟨text, left, rfl, hl, rfl⟩
      · rintro ⟨_, _, h, -, rfl⟩
        cases h
        rfl
    | cons c rest =>
      constructor
      · intro h
        cases h
      · rintro ⟨_, _, h, hn, -⟩
        cases h
        rw [hl] at hn
        cases hn

/-- **Writing and reading** a text, whether what is beyond ASCII is escaped or not. -/
theorem read_writeString (ascii : Bool) (s : String) : read (writeString ascii s) = .ok (.str s) := by
  have hs : (writeString ascii s).toList = '"' :: (s.toList.flatMap (writeChar ascii) ++ ['"']) := by
    rw [writeString, String.toList_ofList, writeStringChars]
  refine (read_quote_iff hs _).mpr ⟨s.toList, [], readText_written _ ascii s.toList [], rfl, ?_⟩
  rw [String.ofList_toList]

end EventRouting.Json
