import EventRouting.Proofs.Path.Written
import EventRouting.Proofs.Predicate.Reading

/-!
# Printing predicates in shorthand

* `Predicate.Literal`    the words that a value may be written as
* `Predicate.Prints`     the words of a predicate, with no parentheses that could be left out but those
  around a group inside one of its own kind
* `Predicate.Writable`   the predicates that shorthand can tell
* `Predicate.Phrase`     what words are, wherever they are placed
* `Predicate.parseText_prints`   reading undoes printing
-/

namespace EventRouting.Predicate

open Grammar Shorthand

/-! ## words of a value -/

/-- Between single quotes only the backslash and the quote are escaped. -/
def escapedSingle (c : Char) : List Char := if c = '\\' ∨ c = '\'' then ['\\', c] else [c]

def singleQuoted (s : String) : String :=
  String.ofList ('\'' :: (s.toList.flatMap escapedSingle ++ ['\'']))

inductive Literal : Json → String → Prop where
  | single (s : String) : Literal (.str s) (singleQuoted s)
  /-- any document of the text, with nothing around its quotes -/
  | document {s t : String} {inner : List Char} (quotes : t.toList = '"' :: (inner ++ ['"']))
      (reads : Json.read t = .ok (.str s)) : Literal (.str s) t
  | int (i : Int) : Literal (.num (.int i)) (String.ofList (Number.intText i))
  | yes : Literal (.bool true) "true"
  | no : Literal (.bool false) "false"
  | null : Literal .null "null"

/-- The document of a text is one of its literals, whether what is beyond ASCII is escaped or not. -/
theorem literal_writeString (ascii : Bool) (s : String) : Literal (.str s) (Json.writeString ascii s) :=
  Literal.document (by rw [Json.writeString, String.toList_ofList, Json.writeStringChars])
    (Json.read_writeString ascii s)

/-! ## words of a predicate -/

/-- What a part stands under. -/
inductive Place where
  | not
  | group (c : Connective)

/-- Is a part between parentheses?  Under `not` every group is, and so it is under `and`; under `or`
only another `or` is. -/
def Place.encloses : Place → Predicate → Bool
  | .not, .group _ _ => true
  | .group .and, .group _ _ => true
  | .group .or, .group .or _ => true
  | _, _ => false

mutual

inductive Prints : Predicate → List String → Prop where
  | present (path : Path) : Prints (.field path .present) [path.written, "exists"]
  | absent (path : Path) : Prints (.field path .absent) [path.written, "not_exists"]
  | compare (path : Path) {r : Relation} {v : Json} {sign literal : String}
      (relation : Relation.ofSign? sign = some r) (value : Literal v literal) :
      Prints (.field path (.compare r v)) [path.written, sign, literal]
  | not {p : Predicate} {ws : List String} (part : PrintsIn .not p ws) : Prints (.not p) ("not" :: ws)
  | group {c : Connective} {ps : List Predicate} {ws : List String} (parts : PrintsAll c ps ws) :
      Prints (.group c ps) ws

/-- a part, where it stands -/
inductive PrintsIn : Place → Predicate → List String → Prop where
  | bare {place : Place} {p : Predicate} {ws : List String} (free : place.encloses p = false)
      (h : Prints p ws) : PrintsIn place p ws
  | enclosed {place : Place} {p : Predicate} {ws : List String} (closed : place.encloses p = true)
      (h : Prints p ws) : PrintsIn place p ("(" :: (ws ++ [")"]))

/-- parts with the connective between them -/
inductive PrintsAll : Connective → List Predicate → List String → Prop where
  | one {c : Connective} {p : Predicate} {ws : List String} (h : PrintsIn (.group c) p ws) :
      PrintsAll c [p] ws
  | more {c : Connective} {p : Predicate} {ps : List Predicate} {ws us : List String}
      (h : PrintsIn (.group c) p ws) (rest : PrintsAll c ps us) :
      PrintsAll c (p :: ps) (ws ++ c.word :: us)

end

/-- A text, an integer, a truth value or null. -/
def Scalar : Json → Prop
  | .str _ => True
  | .num (.int _) => True
  | .bool _ => True
  | .null => True
  | _ => False

/-- The fields can be written, the values are scalars, and groups have at least two parts. -/
inductive Writable : Predicate → Prop where
  | present {path : Path} (field : path.Writable) : Writable (.field path .present)
  | absent {path : Path} (field : path.Writable) : Writable (.field path .absent)
  | compare {path : Path} {r : Relation} {v : Json} (field : path.Writable) (value : Scalar v) :
      Writable (.field path (.compare r v))
  | not {p : Predicate} (part : Writable p) : Writable (.not p)
  | group {c : Connective} {ps : List Predicate} (several : 2 ≤ ps.length)
      (parts : ∀ p ∈ ps, Writable p) : Writable (.group c ps)

/-! ## phrases -/

/-- Words are found by the scanner, and the tokens they become are what `P` says. -/
structure Phrase (ws : List String) (P : List Token → Prop) : Prop where
  lexes : ∀ w ∈ ws, ∃ kind, Token.Lexes kind w.toList
  tells : ∀ ts, List.Forall₂ Token.Spelt ts ws → P ts

namespace Phrase

variable {P Q R : List Token → Prop} {ws us : List String}

theorem mono (h : Phrase ws P) (hpq : ∀ ts, P ts → Q ts) : Phrase ws Q :=
  ⟨h.lexes, fun ts hs => hpq ts (h.tells ts hs)⟩

theorem append (hp : Phrase ws P) (hq : Phrase us Q) (h : ∀ ts vs, P ts → Q vs → R (ts ++ vs)) :
    Phrase (ws ++ us) R := by
  refine ⟨fun w hw => ?_, fun ts hs => ?_⟩
  · rcases List.mem_append.mp hw with hw | hw
    · exact hp.lexes w hw
    · exact hq.lexes w hw
  · have front := hp.tells _ (List.forall₂_take_append ts ws us hs)
    have back := hq.tells _ (List.forall₂_drop_append ts ws us hs)
    have whole := h _ _ front back
    rwa [List.take_append_drop] at whole

theorem word {w : String} {kind : TokenKind} (hw : Token.Lexes kind w.toList)
    (h : ∀ t : Token, t.kind = kind → t.text = w → P [t]) : Phrase [w] P := by
  refine ⟨fun v hv => ⟨kind, List.mem_singleton.mp hv ▸ hw⟩, fun ts hs => ?_⟩
  cases hs with
  | cons ht hs =>
    cases hs
    exact h _ (ht.kind_eq hw) ht.1

theorem cons {w : String} {kind : TokenKind} (hw : Token.Lexes kind w.toList) (hp : Phrase ws P)
    (h : ∀ (t : Token) (ts : List Token), t.kind = kind → t.text = w → P ts → Q (t :: ts)) :
    Phrase (w :: ws) Q :=
  append (P := fun ts => ∃ t : Token, ts = [t] ∧ t.kind = kind ∧ t.text = w)
    (word hw fun t hk ht => ⟨t, rfl, hk, ht⟩) hp fun _ vs ⟨t, hts, hk, ht⟩ hv => by
      rw [hts]
      exact h t vs hk ht hv

end Phrase

/-! ## words of the grammar -/

theorem lexes_reserved {w : String} (h : w ∈ reserved) : Token.Lexes .word w.toList ∧ Text.lower w = w := by
  have nonempty : ∀ w ∈ reserved, w.toList ≠ [] := by decide
  have letters : ∀ w ∈ reserved, w.toList.all Token.isWordStart = true := by decide
  have small : ∀ w ∈ reserved, Text.lowerFrom [] w.toList = w.toList := by decide
  refine ⟨?_, by rw [Text.lower, small w h, String.ofList_toList]⟩
  obtain ⟨c, cs, hc⟩ := List.exists_cons_of_ne_nil (nonempty w h)
  have start := List.all_eq_true.mp (letters w h)
  rw [hc] at start ⊢
  have word : ∀ d ∈ cs, Token.isWordChar d = true := fun d hd =>
    Token.isWordChar_of_isWordStart (start d (List.mem_cons_of_mem _ hd))
  have lexes := Token.lexes_word (start c List.mem_cons_self) word Token.Tail.nil
  rwa [List.append_nil] at lexes

theorem Phrase.reserved {w : String} (h : w ∈ reserved) {P : List Token → Prop}
    (hp : ∀ t, Spells t w → P [t]) : Phrase [w] P := by
  obtain ⟨hw, small⟩ := lexes_reserved h
  exact Phrase.word hw fun t kind text => hp t ⟨kind, by rw [text, small]⟩

theorem quoted_escaped (cs : List Char) : Token.Quoted '\'' (cs.flatMap escapedSingle) ∧
    Unescaped (cs.flatMap escapedSingle) cs := by
  induction cs with
  | nil => exact ⟨Token.Quoted.nil, Unescaped.nil⟩
  | cons c cs ih =>
    rw [List.flatMap_cons, escapedSingle]
    by_cases hc : c = '\\' ∨ c = '\''
    · rw [if_pos hc]
      have feed : c ≠ '\n' := by rcases hc with rfl | rfl <;> decide
      exact ⟨Token.Quoted.escaped feed ih.1, Unescaped.escaped c ih.2⟩
    · rw [if_neg hc]
      obtain ⟨slash, quote⟩ := not_or.mp hc
      exact ⟨Token.Quoted.plain slash quote ih.1, Unescaped.plain slash ih.2⟩

theorem quoted_of_read {s t : String} {inner : List Char} (quotes : t.toList = '"' :: (inner ++ ['"']))
    (reads : Json.read t = .ok (.str s)) : Token.Quoted '"' inner := by
  obtain ⟨text, left, hr, blank, -⟩ := (Json.read_quote_iff quotes _).mp reads
  obtain ⟨body, hb, he⟩ := Json.quoted_of_readText hr
  have last : left = [] := by
    rcases List.eq_nil_or_concat left with h | ⟨front, c, rfl⟩
    · exact h
    · -- the last character is a quote, which is no space
      rw [List.concat_eq_append, ← List.cons_append, ← List.append_assoc] at he
      obtain ⟨-, hc⟩ := List.append_inj' he rfl
      cases hc
      have all := List.dropWhile_eq_nil_iff.mp blank '"' (by simp)
      exact absurd all (by decide)
  subst last
  obtain ⟨hi, -⟩ := List.append_inj' he rfl
  rw [hi]
  exact hb

/-- **A literal** is one word, which stands for the value. -/
theorem Literal.phrase {v : Json} {w : String} (h : Literal v w) :
    Phrase [w] fun ts => ∃ t, ts = [t] ∧ Value t v := by
  cases h with
  | single s =>
    obtain ⟨quoted, unescaped⟩ := quoted_escaped s.toList
    have text : (singleQuoted s).toList = '\'' :: (s.toList.flatMap escapedSingle ++ ['\'']) :=
      String.toList_ofList
    refine Phrase.word (text ▸ Token.lexes_quoted (.inr rfl) quoted) fun t hk ht => ⟨t, rfl, ?_⟩
    have value := Value.single hk (ht ▸ text) unescaped
    rwa [String.ofList_toList] at value
  | document quotes reads =>
    have quoted := quoted_of_read quotes reads
    refine Phrase.word (quotes ▸ Token.lexes_quoted (.inl rfl) quoted) fun t hk ht => ⟨t, rfl, ?_⟩
    exact Value.double hk (ht ▸ quotes) (ht ▸ reads)
  | int i =>
    have lexes : Token.Lexes .number (String.ofList (Number.intText i)).toList := by
      rw [String.toList_ofList]
      exact Token.lexes_int i
    refine Phrase.word lexes fun t hk ht => ⟨t, rfl, ?_⟩
    have value := Value.number hk
    rwa [ht, String.toList_ofList, Number.ofDigits_intText] at value
  | yes => exact Phrase.reserved (by decide) fun t ht => ⟨t, rfl, Value.yes ht⟩
  | no => exact Phrase.reserved (by decide) fun t ht => ⟨t, rfl, Value.no ht⟩
  | null => exact Phrase.reserved (by decide) fun t ht => ⟨t, rfl, Value.null ht⟩

theorem Phrase.field {path : Path} (h : path.Writable) {ws : List String} {P Q : List Token → Prop}
    (hp : Phrase ws P) (hq : ∀ f ts, Grammar.Field f path → P ts → Q (f :: ts)) : Phrase (path.written :: ws) Q := by
  refine Phrase.cons (Path.lexes_written h) hp fun t ts kind text hts => hq t ts ?_ hts
  have field := Grammar.Field.mk kind (text ▸ Path.lower_written h)
  rwa [text, Path.split_written h] at field

theorem relation_cases {sign : String} {r : Relation} (h : Relation.ofSign? sign = some r) :
    (sign, r) ∈ signs ∨ (sign, r) ∈ relationWords := by
  unfold Relation.ofSign? at h
  split at h <;> cases h <;> decide

theorem Phrase.operator {sign : String} {r : Relation} (h : Relation.ofSign? sign = some r)
    {ws : List String} {P Q : List Token → Prop} (hp : Phrase ws P)
    (hq : ∀ o ts, Operator o r → P ts → Q (o :: ts)) : Phrase (sign :: ws) Q := by
  rcases relation_cases h with h | h
  · exact Phrase.cons (Token.lexes_sign h) hp fun t ts kind text hts =>
      hq t ts (Operator.sign kind (text ▸ h)) hts
  · have word : ∀ entry ∈ relationWords, entry.1 ∈ Grammar.reserved := by decide
    obtain ⟨hw, small⟩ := lexes_reserved (word _ h)
    refine Phrase.cons hw hp fun t ts kind text hts => hq t ts (Operator.word kind ?_) hts
    rw [text, small]
    exact h

/-! ## phrases of the grammar -/

/-- What the words of a predicate are without parentheses around them. -/
def Bare : Predicate → List Token → Prop
  | .group .or ps, ts => Expr ts (.group .or ps)
  | .group .and ps, ts => AndExpr ts (.group .and ps)
  | p, ts => Unary ts p

theorem Bare.expr {p : Predicate} {ts : List Token} (h : Bare p ts) : Expr ts p := by
  have and {ts : List Token} {p : Predicate} (h : AndExpr ts p) : Expr ts p := Expr.mk (OrChain.one h)
  have unary {ts : List Token} {p : Predicate} (h : Unary ts p) : Expr ts p := and (AndExpr.mk (AndChain.one h))
  match p, h with
  | .group .or _, h => exact h
  | .group .and _, h => exact and h
  | .all, h => exact unary h
  | .field _ _, h => exact unary h
  | .not _, h => exact unary h

/-- What the words of a part are where it stands. -/
def Fits : Place → Predicate → List Token → Prop
  | .group .or, p, ts => AndExpr ts p
  | _, p, ts => Unary ts p

theorem Bare.fits {place : Place} {p : Predicate} (free : place.encloses p = false) {ts : List Token}
    (h : Bare p ts) : Fits place p ts := by
  have unary {p : Predicate} (h : Unary ts p) : Fits place p ts := by
    match place with
    | .not => exact h
    | .group .and => exact h
    | .group .or => exact AndExpr.mk (AndChain.one h)
  match p, h with
  | .all, h => exact unary h
  | .field _ _, h => exact unary h
  | .not _, h => exact unary h
  | .group c ps, h =>
    match place, c, free, h with
    | .group .or, .and, _, h => exact h

theorem fits_parens {o c : Token} (opening : o.kind = .opening) (closing : c.kind = .closing)
    {ts : List Token} {p : Predicate} (h : Expr ts p) (place : Place) : Fits place p (o :: (ts ++ [c])) := by
  have unary := Unary.parens opening h closing
  match place with
  | .not => exact unary
  | .group .and => exact unary
  | .group .or => exact AndExpr.mk (AndChain.one unary)

/-- Parts with the connective between them. -/
def Chain : Connective → List Predicate → List Token → Prop
  | .and, ps, ts => AndChain ts ps
  | .or, ps, ts => OrChain ts ps

theorem Chain.one (c : Connective) {p : Predicate} {ts : List Token} (h : Fits (.group c) p ts) :
    Chain c [p] ts := by
  cases c with
  | and => exact AndChain.one h
  | or => exact OrChain.one h

theorem Chain.more {c : Connective} {t : Token} (word : Spells t c.word) {p : Predicate}
    {ps : List Predicate} {ts us : List Token} (h : Fits (.group c) p ts) (rest : Chain c ps us) :
    Chain c (p :: ps) (ts ++ t :: us) := by
  cases c with
  | and => exact AndChain.more h word rest
  | or => exact OrChain.more h word rest

theorem Chain.bare {c : Connective} {ps : List Predicate} (several : 2 ≤ ps.length) {ts : List Token}
    (h : Chain c ps ts) : Bare (.group c ps) ts := by
  have joined : join c ps = .group c ps := by
    match ps, several with
    | _ :: _ :: _, _ => rfl
  cases c with
  | and =>
    show AndExpr ts (.group .and ps)
    rw [← joined]
    exact AndExpr.mk h
  | or =>
    show Expr ts (.group .or ps)
    rw [← joined]
    exact Expr.mk h

mutual

/-- **The words of a predicate** are a phrase of the grammar that derives it. -/
theorem Prints.phrase : ∀ {p : Predicate} {ws : List String}, Prints p ws → Writable p → Phrase ws (Bare p)
  | _, _, .present path, .present writable =>
    Phrase.field writable (Phrase.reserved (by decide) (P := fun ts => ∃ o, ts = [o] ∧ Question o .present)
      fun o ho => ⟨o, rfl, Question.mk ho.1 (ho.2 ▸ by decide)⟩)
      fun f ts hf ⟨o, hts, ho⟩ => hts ▸ Unary.ask hf ho
  | _, _, .absent path, .absent writable =>
    Phrase.field writable (Phrase.reserved (by decide) (P := fun ts => ∃ o, ts = [o] ∧ Question o .absent)
      fun o ho => ⟨o, rfl, Question.mk ho.1 (ho.2 ▸ by decide)⟩)
      fun f ts hf ⟨o, hts, ho⟩ => hts ▸ Unary.ask hf ho
  | .field _ (.compare r v), _, .compare path relation value, .compare writable _ => by
    have rest := Phrase.operator relation value.phrase
      (Q := fun ts => ∃ o t, ts = [o, t] ∧ Operator o r ∧ Value t v) <| by
        rintro o _ ho ⟨t, rfl, ht⟩
        exact ⟨o, t, rfl, ho, ht⟩
    refine Phrase.field writable rest ?_
    rintro f _ hf ⟨o, t, rfl, ho, ht⟩
    exact Unary.compare hf ho ht
  | _, _, .not part, .not writable => by
    obtain ⟨hw, small⟩ := lexes_reserved (w := "not") (by decide)
    exact Phrase.cons hw (part.phrase writable) fun t ts kind text h =>
      Unary.not ⟨kind, by rw [text, small]⟩ h
  | _, _, .group parts, .group several writable => (parts.phrase writable).mono fun _ h => h.bare several

theorem PrintsIn.phrase : ∀ {place : Place} {p : Predicate} {ws : List String}, PrintsIn place p ws →
    Writable p → Phrase ws (Fits place p)
  | _, _, _, .bare free h, writable => (h.phrase writable).mono fun _ hb => hb.fits free
  | place, p, _, .enclosed _ h, writable => by
    have closing : Phrase [")"] fun ts => ∃ c, ts = [c] ∧ c.kind = .closing :=
      Phrase.word Token.lexes_closing fun t kind _ => ⟨t, rfl, kind⟩
    have inner := (h.phrase writable).append closing
      (R := fun ts => ∃ us c, ts = us ++ [c] ∧ Expr us p ∧ c.kind = .closing) <| by
        rintro ts _ hb ⟨c, rfl, hc⟩
        exact ⟨ts, c, rfl, hb.expr, hc⟩
    refine Phrase.cons Token.lexes_opening inner ?_
    rintro o _ opening - ⟨us, c, rfl, hu, hc⟩
    exact fits_parens opening hc hu place

theorem PrintsAll.phrase : ∀ {c : Connective} {ps : List Predicate} {ws : List String}, PrintsAll c ps ws →
    (∀ p ∈ ps, Writable p) → Phrase ws (Chain c ps)
  | c, _, _, .one h, writable => (h.phrase (writable _ List.mem_cons_self)).mono fun _ hf => Chain.one c hf
  | c, _, _, .more h rest, writable => by
    have reserved : c.word ∈ Grammar.reserved := by cases c <;> decide
    obtain ⟨hw, small⟩ := lexes_reserved reserved
    have others := rest.phrase fun p hp => writable p (List.mem_cons_of_mem _ hp)
    have more := Phrase.cons hw others (Q := fun ts => ∃ t us, ts = t :: us ∧ Spells t c.word ∧ Chain c _ us)
      fun t us kind text hu => ⟨t, us, rfl, ⟨kind, by rw [text, small]⟩, hu⟩
    refine (h.phrase (writable _ List.mem_cons_self)).append more ?_
    rintro ts _ hf ⟨t, us, rfl, word, hu⟩
    exact Chain.more word hf hu

end

/-! ## printing and reading -/

theorem Scalar.literal {v : Json} (h : Scalar v) : ∃ w, Literal v w := by
  match v, h with
  | .str s, _ => exact ⟨_, .single s⟩
  | .num (.int i), _ => exact ⟨_, .int i⟩
  | .bool true, _ => exact ⟨_, .yes⟩
  | .bool false, _ => exact ⟨_, .no⟩
  | .null, _ => exact ⟨_, .null⟩

theorem Prints.printsIn {p : Predicate} {ws : List String} (h : Prints p ws) (place : Place) :
    ∃ us, PrintsIn place p us := by
  cases he : place.encloses p with
  | false => exact ⟨ws, .bare he h⟩
  | true => exact ⟨_, .enclosed he h⟩

theorem printsAll_of_parts (c : Connective) (p : Predicate) (ps : List Predicate)
    (h : ∀ q ∈ p :: ps, ∃ ws, Prints q ws) : ∃ ws, PrintsAll c (p :: ps) ws := by
  induction ps generalizing p with
  | nil =>
    obtain ⟨ws, hw⟩ := h p List.mem_cons_self
    obtain ⟨us, hu⟩ := hw.printsIn (.group c)
    exact ⟨us, .one hu⟩
  | cons q ps ih =>
    obtain ⟨ws, hw⟩ := h p List.mem_cons_self
    obtain ⟨us, hu⟩ := hw.printsIn (.group c)
    obtain ⟨vs, hv⟩ := ih q fun r hr => h r (List.mem_cons_of_mem _ hr)
    exact ⟨_, .more hu hv⟩

theorem Writable.prints {p : Predicate} (h : Writable p) : ∃ ws, Prints p ws := by
  induction h with
  | present field => exact ⟨_, .present _⟩
  | absent field => exact ⟨_, .absent _⟩
  | @compare path r v _ value =>
    obtain ⟨w, hw⟩ := value.literal
    exact ⟨_, .compare path (Relation.ofSign?_sign r) hw⟩
  | not _ ih =>
    obtain ⟨ws, hw⟩ := ih
    obtain ⟨us, hu⟩ := hw.printsIn .not
    exact ⟨_, .not hu⟩
  | @group c ps several _ ih =>
    match ps, several with
    | p :: q :: rest, _ =>
      obtain ⟨ws, hw⟩ := printsAll_of_parts c p (q :: rest) ih
      exact ⟨ws, .group hw⟩

/-- **Reading undoes printing.**  A predicate that can be written has a text, and whichever sort of
quotes each of its texts has, what is printed with single spaces is read as the same predicate. -/
theorem parseText_prints {p : Predicate} (h : Writable p) :
    (∃ ws, Prints p ws) ∧ ∀ ws, Prints p ws → parseText (" ".intercalate ws) = .ok p := by
  refine ⟨h.prints, fun ws hw => ?_⟩
  have phrase := hw.phrase h
  obtain ⟨tokens, scanned, spelt⟩ := Token.scan_spaced phrase.lexes
  have derives := Derives.expr (phrase.tells tokens spelt).expr
  exact (parseText_ok_iff scanned p).mpr derives

/-- a negated conjunction, and a disjunction inside another one -/
def nestedAlternatives : Predicate :=
  .group .or [
    .not (.group .and [.field [.name "$k", .index 12, .name "-x"] (.compare .equal (.str "it's\\")),
      .field [.name "and", .name "or"] .present]),
    .group .or [.field [.name "a"] (.compare .less (.num (.int (-7)))),
      .field [.name "b"] (.compare .contains (.str "é"))]]

theorem parseText_prints_nestedAlternatives :
    Writable nestedAlternatives ∧
      parseText "not ( $k[12].-x = 'it\\'s\\\\' and and.or exists ) or ( a < -7 or b contains \"\\u00e9\" )" =
        .ok nestedAlternatives := by
  have word {cs : List Char} (h : cs.all Token.isWordChar = true) : ∀ d ∈ cs, Token.isWordChar d = true :=
    List.all_eq_true.mp h
  have letter (t : String) (c : Char) (start : Token.isWordStart c = true) (ht : t.toList = [c])
      (free : Text.lower t ∉ reserved) : Path.Writable [.name t] :=
    ⟨⟨c, [], ht, start, word rfl⟩, fun _ hs => (List.not_mem_nil hs).elim, fun _ => free⟩
  have further (first : String) (c : Char) (cs : List Char) (ht : first.toList = c :: cs)
      (start : Token.isWordStart c = true) (hw : cs.all Token.isWordChar = true) (s : Segment)
      (rest : List Segment) (steps : ∀ t ∈ s :: rest, t.Writable) : Path.Writable (.name first :: s :: rest) :=
    ⟨⟨c, cs, ht, start, word hw⟩, steps, fun h => nomatch h⟩
  have positions : Path.Writable [.name "$k", .index 12, .name "-x"] := by
    refine further "$k" '$' ['k'] rfl rfl rfl _ _ fun s hs => ?_
    rcases List.mem_pair.mp hs with rfl | rfl
    · trivial
    · exact ⟨by decide, word rfl⟩
  have names : Path.Writable [.name "and", .name "or"] := by
    refine further "and" 'a' ['n', 'd'] rfl rfl rfl _ _ fun s hs => ?_
    obtain rfl := List.mem_singleton.mp hs
    exact ⟨by decide, word rfl⟩
  have pair {c : Connective} {p q : Predicate} (hp : Writable p) (hq : Writable q) :
      Writable (.group c [p, q]) := by
    refine .group (Nat.le_refl 2) fun r hr => ?_
    rcases List.mem_pair.mp hr with rfl | rfl
    · exact hp
    · exact hq
  have writable : Writable nestedAlternatives :=
    pair (.not (pair (.compare positions trivial) (.present names)))
      (pair (.compare (letter "a" 'a' rfl rfl (by decide)) trivial)
        (.compare (letter "b" 'b' rfl rfl (by decide)) trivial))
  have negated : Prints (.not (.group .and [.field [.name "$k", .index 12, .name "-x"]
      (.compare .equal (.str "it's\\")), .field [.name "and", .name "or"] .present]))
      ["not", "(", "$k[12].-x", "=", "'it\\'s\\\\'", "and", "and.or", "exists", ")"] :=
    .not (.enclosed rfl (.group (.more (.bare rfl (.compare _ rfl (.single _))) (.one (.bare rfl (.present _))))))
  have either : Prints (.group .or [.field [.name "a"] (.compare .less (.num (.int (-7)))),
      .field [.name "b"] (.compare .contains (.str "é"))]) ["a", "<", "-7", "or", "b", "contains", "\"\\u00e9\""] :=
    .group (.more (.bare rfl (.compare _ rfl (.int _)))
      (.one (.bare rfl (.compare _ rfl (literal_writeString true "é")))))
  have alternatives : PrintsIn (.group .or) _ _ := .bare rfl negated
  have prints := Prints.group (.more alternatives (.one (.enclosed rfl either)))
  exact ⟨writable, (parseText_prints writable).2 _ prints⟩

end EventRouting.Predicate
