import EventRouting.Proofs.Predicate.Grammar
import EventRouting.Proofs.Predicate.Tiling

/-!
# Words of predicates in shorthand

The reader and the grammar agree on every single word.

* `Token.scan_wellQuoted`   the texts in quotes that the scanner finds stand between two quotes of one sort
* `Grammar.field?_iff`, `Grammar.test?_inl_iff`, `Grammar.test?_inr_iff`   fields and tests
* `Grammar.Value.value?_eq`, `Grammar.value_of_value?_eq`   values
-/

namespace EventRouting

namespace Token

/-! ## texts in quotes -/

/-- A text in quotes is what stands between two quotes of one sort. -/
def WellQuoted (t : Token) : Prop :=
  t.kind = .string → ∃ quote body, (quote = '"' ∨ quote = '\'') ∧ Quoted quote body ∧
    t.text.toList = quote :: (body ++ [quote])

theorem wellQuoted_of_lexeme {t : Token} (h : Lexeme t.kind t.text.toList) : t.WellQuoted := by
  intro hk
  rw [hk] at h
  generalize t.text.toList = w at h ⊢
  obtain ⟨hq, hb⟩ := h
  exact ⟨_, _, hq, hb, rfl⟩

theorem scan_wellQuoted {source : String} {tokens : List Token} (h : scan source = .ok tokens) :
    ∀ t ∈ tokens, t.WellQuoted := by
  rcases scanFrom_cases 0 source.toList with ⟨_, found, tiled⟩ | ⟨_, _, _, _, found, _⟩
  · cases h.symm.trans found
    exact fun t ht => wellQuoted_of_lexeme (tiled.lexeme t ht)
  · cases h.symm.trans found

end Token

namespace Predicate.Grammar

open Shorthand

/-! ## words of the grammar -/

theorem isKeyword_iff (t : Token) (word : String) : isKeyword t word = true ↔ Spells t word := by
  unfold isKeyword Spells lowered
  rw [Bool.and_eq_true, decide_eq_true_iff, beq_iff_eq]

theorem wordTest?_inl_iff (word : String) (r : Relation) :
    wordTest? word = some (.inl r) ↔ (word, r) ∈ relationWords := by
  unfold wordTest? relationWords
  split <;> simp_all [eq_comm]

theorem wordTest?_inr_iff (word : String) (q : Test) :
    wordTest? word = some (.inr q) ↔ (word, q) ∈ questionWords := by
  unfold wordTest? questionWords
  split <;> simp_all [eq_comm]

theorem signRelation?_iff (text : String) (r : Relation) :
    signRelation? text = some r ↔ (text, r) ∈ signs := by
  unfold signRelation? signs
  split <;> simp_all [eq_comm]

theorem isReserved_iff (word : String) : isReserved word = true ↔ word ∈ reserved := by
  unfold isReserved wordTest? reserved
  split <;> simp_all

theorem field?_iff (t : Token) (path : Path) : field? t = some path ↔ Field t path := by
  unfold field?
  constructor
  · intro h
    split at h
    · next hc =>
      rw [Bool.and_eq_true, decide_eq_true_iff, Bool.not_eq_true'] at hc
      cases h
      exact Field.mk hc.1 fun hm => by
        have h1 := (isReserved_iff (Text.lower t.text)).mpr hm
        rw [show isReserved (Text.lower t.text) = false from hc.2] at h1
        cases h1
    · cases h
  · rintro ⟨word, free⟩
    have h1 : isReserved (lowered t) = false := by
      rw [Bool.eq_false_iff]
      exact fun hr => free ((isReserved_iff _).mp hr)
    rw [word, h1]
    rfl

theorem test?_inl_iff (t : Token) (r : Relation) : test? t = some (.inl r) ↔ Operator t r := by
  unfold test?
  constructor
  · intro h
    split at h
    · next hk =>
      obtain ⟨r', hr, he⟩ := Option.map_eq_some_iff.mp h
      cases he
      exact Operator.sign hk ((signRelation?_iff _ _).mp hr)
    · next hk => exact Operator.word hk ((wordTest?_inl_iff _ _).mp h)
    · cases h
  · rintro (⟨hk, hr⟩ | ⟨hk, hr⟩)
    · rw [hk]
      show (signRelation? t.text).map Sum.inl = _
      rw [(signRelation?_iff _ _).mpr hr]
      rfl
    · rw [hk]
      exact (wordTest?_inl_iff _ _).mpr hr

theorem test?_inr_iff (t : Token) (q : Test) : test? t = some (.inr q) ↔ Question t q := by
  unfold test?
  constructor
  · intro h
    split at h
    · obtain ⟨_, _, he⟩ := Option.map_eq_some_iff.mp h
      cases he
    · next hk => exact Question.mk hk ((wordTest?_inr_iff _ _).mp h)
    · cases h
  · rintro ⟨hk, hq⟩
    rw [hk]
    exact (wordTest?_inr_iff _ _).mpr hq

/-! ## values -/

theorem Unescaped.eq {cs ds : List Char} (h : Unescaped cs ds) : unescape cs = ds := by
  induction h with
  | nil => rfl
  | escaped c _ ih =>
    show c :: unescape _ = _
    rw [ih]
  | @plain c cs ds hc _ ih =>
    have hu : unescape (c :: cs) = c :: unescape cs := by
      rw [unescape]
      intro _ _ he _
      exact absurd he hc
    rw [hu, ih]

/-- Between quotes every backslash has a character to stand before. -/
theorem unescaped_of_quoted {quote : Char} {cs : List Char} (h : Token.Quoted quote cs) :
    Unescaped cs (unescape cs) := by
  induction h with
  | nil => exact Unescaped.nil
  | escaped _ _ ih => exact Unescaped.escaped _ ih
  | @plain c cs hs _ _ ih =>
    have hu := Unescaped.plain hs ih
    rwa [← hu.eq] at hu

theorem readValue_quote {cs rest : List Char} (hcs : cs = '"' :: rest) {v : Json} {left : Json.Shorter cs}
    (h : Json.readValue cs = .ok (v, left)) : ∃ s, v = .str s := by
  subst hcs
  rw [Json.readValue] at h
  split at h
  · cases h
  · cases h
    exact ⟨_, rfl⟩

theorem read_quote {s : String} {rest : List Char} {v : Json} (hs : s.toList = '"' :: rest)
    (h : Json.read s = .ok v) : ∃ t, v = .str t := by
  have hd : Json.readDocument ('"' :: rest) = .ok v := by
    simp only [Json.read, hs] at h
    split at h
    · cases h
    · split at h
      · next hd => rw [hd]; cases h; rfl
      · cases h
  unfold Json.readDocument at hd
  split at hd
  · cases hd
  · next hv =>
    split at hd
    · cases hd
      exact readValue_quote rfl hv
    · cases hd

theorem string?_single {t : Token} {body : List Char} (text : t.text.toList = '\'' :: (body ++ ['\''])) :
    string? t = some (String.ofList (unescape body)) := by
  unfold string?
  rw [text]
  show some (String.ofList (unescape (body ++ ['\'']).dropLast)) = _
  rw [List.dropLast_concat]

theorem string?_double {t : Token} {rest : List Char} (text : t.text.toList = '"' :: rest) (s : String) :
    string? t = some s ↔ Json.read t.text = .ok (.str s) := by
  simp only [string?, text]
  split
  · next h => rw [h]; simp
  · next h =>
    constructor
    · intro hn
      cases hn
    · intro hr
      exact absurd hr (h s)

theorem Value.value?_eq {t : Token} {v : Json} (h : Value t v) : value? t = .ok v := by
  unfold value?
  cases h with
  | number kind => rw [kind]
  | yes h => simp [h.1, show lowered t = "true" from h.2]
  | no h => simp [h.1, show lowered t = "false" from h.2]
  | null h => simp [h.1, show lowered t = "null" from h.2]
  | single kind text h => simp [kind, string?_single text, h.eq]
  | double kind text h =>
    obtain ⟨s, rfl⟩ := read_quote text h
    simp [kind, (string?_double text s).mpr h]

/-- The reader takes nothing else for a value. -/
theorem value_of_value?_eq {t : Token} (hw : t.WellQuoted) {v : Json} (h : value? t = .ok v) :
    Value t v := by
  unfold value? at h
  split at h
  · next hk =>
    obtain ⟨quote, body, hq, hb, text⟩ := hw hk
    split at h
    · next s hs =>
      cases h
      rcases hq with rfl | rfl
      · exact Value.double hk text ((string?_double text s).mp hs)
      · rw [string?_single text] at hs
        cases hs
        exact Value.single hk text (unescaped_of_quoted hb)
    · cases h
  · next hk =>
    cases h
    exact Value.number hk
  · next hk =>
    split at h
    · next hl => cases h; exact Value.yes ⟨hk, hl⟩
    · split at h
      · next hl => cases h; exact Value.no ⟨hk, hl⟩
      · split at h
        · next hl => cases h; exact Value.null ⟨hk, hl⟩
        · cases h
  · cases h

end Predicate.Grammar

end EventRouting
