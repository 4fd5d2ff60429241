import EventRouting.Predicate.Shorthand

/-!
# The grammar of predicates in shorthand

What a row of words means, told by rules and without a reader.

* `Grammar.Field`, `Grammar.Operator`, `Grammar.Question`, `Grammar.Value`   what a single word stands for
* `Grammar.Expr`       alternatives joined by `or`, each a row of parts joined by `and`
* `Grammar.Unary`      a part: a negation, an expression in parentheses, or a comparison
* `Grammar.Derives`    what all the words of a text stand for
* `Grammar.OrOpen`, `Grammar.AndOpen`, `Grammar.Nots`   the beginnings of a chain that still goes on
-/

namespace EventRouting.Predicate.Grammar

open Shorthand (join negate)

/-! ## words -/

/-- the word in small letters is `word` -/
def Spells (t : Token) (word : String) : Prop := t.kind = .word ∧ Text.lower t.text = word

def reserved : List String :=
  ["and", "or", "not", "true", "false", "null", "exists", "not_exists", "contains", "not_contains",
    "starts_with", "ends_with"]

def signs : List (String × Relation) :=
  [("=", .equal), ("==", .equal), ("!=", .notEqual), ("<", .less), ("<=", .lessEqual), (">", .greater),
    (">=", .greaterEqual)]

def relationWords : List (String × Relation) :=
  [("contains", .contains), ("not_contains", .notContains), ("starts_with", .startsWith),
    ("ends_with", .endsWith)]

def questionWords : List (String × Test) := [("exists", .present), ("not_exists", .absent)]

inductive Field : Token → Path → Prop where
  | mk {t : Token} (word : t.kind = .word) (free : Text.lower t.text ∉ reserved) :
      Field t (Path.split t.text)

/-- a relation between a field and a value -/
inductive Operator : Token → Relation → Prop where
  | sign {t : Token} {r : Relation} (kind : t.kind = .operator) (h : (t.text, r) ∈ signs) : Operator t r
  | word {t : Token} {r : Relation} (kind : t.kind = .word)
      (h : (Text.lower t.text, r) ∈ relationWords) : Operator t r

/-- a question about a field alone -/
inductive Question : Token → Test → Prop where
  | mk {t : Token} {q : Test} (kind : t.kind = .word) (h : (Text.lower t.text, q) ∈ questionWords) :
      Question t q

/-- a text between single quotes and its characters: a backslash makes the next one stand for itself -/
inductive Unescaped : List Char → List Char → Prop where
  | nil : Unescaped [] []
  | escaped (c : Char) {cs ds : List Char} (h : Unescaped cs ds) : Unescaped ('\\' :: c :: cs) (c :: ds)
  | plain {c : Char} {cs ds : List Char} (hc : c ≠ '\\') (h : Unescaped cs ds) :
      Unescaped (c :: cs) (c :: ds)

inductive Value : Token → Json → Prop where
  | number {t : Token} (kind : t.kind = .number) : Value t (.num (Number.ofDigits t.text.toList))
  | yes {t : Token} (h : Spells t "true") : Value t (.bool true)
  | no {t : Token} (h : Spells t "false") : Value t (.bool false)
  | null {t : Token} (h : Spells t "null") : Value t .null
  | single {t : Token} {body cs : List Char} (kind : t.kind = .string)
      (text : t.text.toList = '\'' :: (body ++ ['\''])) (h : Unescaped body cs) :
      Value t (.str (String.ofList cs))
  /-- whatever the reader of documents makes of a text in double quotes -/
  | double {t : Token} {rest : List Char} {v : Json} (kind : t.kind = .string)
      (text : t.text.toList = '"' :: rest) (h : Json.read t.text = .ok v) : Value t v

/-! ## expressions -/

mutual

inductive Expr : List Token → Predicate → Prop where
  | mk {ts : List Token} {ps : List Predicate} (h : OrChain ts ps) : Expr ts (join .or ps)

/-- operands with `or` between them -/
inductive OrChain : List Token → List Predicate → Prop where
  | one {ts : List Token} {p : Predicate} (h : AndExpr ts p) : OrChain ts [p]
  | more {ts us : List Token} {t : Token} {p : Predicate} {ps : List Predicate} (h : AndExpr ts p)
      (word : Spells t "or") (rest : OrChain us ps) : OrChain (ts ++ t :: us) (p :: ps)

inductive AndExpr : List Token → Predicate → Prop where
  | mk {ts : List Token} {ps : List Predicate} (h : AndChain ts ps) : AndExpr ts (join .and ps)

/-- operands with `and` between them -/
inductive AndChain : List Token → List Predicate → Prop where
  | one {ts : List Token} {p : Predicate} (h : Unary ts p) : AndChain ts [p]
  | more {ts us : List Token} {t : Token} {p : Predicate} {ps : List Predicate} (h : Unary ts p)
      (word : Spells t "and") (rest : AndChain us ps) : AndChain (ts ++ t :: us) (p :: ps)

inductive Unary : List Token → Predicate → Prop where
  | not {t : Token} {ts : List Token} {p : Predicate} (word : Spells t "not") (h : Unary ts p) :
      Unary (t :: ts) (.not p)
  | parens {o c : Token} {ts : List Token} {p : Predicate} (opening : o.kind = .opening)
      (h : Expr ts p) (closing : c.kind = .closing) : Unary (o :: (ts ++ [c])) p
  | compare {f o v : Token} {path : Path} {r : Relation} {x : Json} (field : Field f path)
      (operator : Operator o r) (value : Value v x) : Unary [f, o, v] (.field path (.compare r x))
  | ask {f o : Token} {path : Path} {q : Test} (field : Field f path) (question : Question o q) :
      Unary [f, o] (.field path q)

end

/-- what all the words of a text stand for; the word `all` alone stands for every event -/
inductive Derives : List Token → Predicate → Prop where
  | all {t : Token} (h : Text.lower t.text = "all") : Derives [t] .all
  | expr {ts : List Token} {p : Predicate} (h : Expr ts p) : Derives ts p

/-! ## beginnings of chains -/

/-- operands with an `or` behind each of them -/
inductive OrOpen : List Token → List Predicate → Prop where
  | nil : OrOpen [] []
  | snoc {ts us : List Token} {t : Token} {p : Predicate} {ps : List Predicate} (h : OrOpen ts ps)
      (last : AndExpr us p) (word : Spells t "or") : OrOpen (ts ++ us ++ [t]) (ps ++ [p])

/-- operands with an `and` behind each of them -/
inductive AndOpen : List Token → List Predicate → Prop where
  | nil : AndOpen [] []
  | snoc {ts us : List Token} {t : Token} {p : Predicate} {ps : List Predicate} (h : AndOpen ts ps)
      (last : Unary us p) (word : Spells t "and") : AndOpen (ts ++ us ++ [t]) (ps ++ [p])

inductive Nots : List Token → Nat → Prop where
  | nil : Nots [] 0
  | snoc {ts : List Token} {t : Token} {n : Nat} (h : Nots ts n) (word : Spells t "not") :
      Nots (ts ++ [t]) (n + 1)

theorem OrOpen.append {ts : List Token} {ps : List Predicate} (h : OrOpen ts ps) :
    ∀ {us : List Token} {qs : List Predicate}, OrChain us qs → OrChain (ts ++ us) (ps ++ qs) := by
  induction h with
  | nil => intro us qs hu; exact hu
  | @snoc ts vs t p ps _ last word ih =>
    intro us qs hu
    have h1 := ih (OrChain.more last word hu)
    rw [List.append_assoc, List.append_assoc, List.append_assoc]
    exact h1

theorem AndOpen.append {ts : List Token} {ps : List Predicate} (h : AndOpen ts ps) :
    ∀ {us : List Token} {qs : List Predicate}, AndChain us qs → AndChain (ts ++ us) (ps ++ qs) := by
  induction h with
  | nil => intro us qs hu; exact hu
  | @snoc ts vs t p ps _ last word ih =>
    intro us qs hu
    have h1 := ih (AndChain.more last word hu)
    rw [List.append_assoc, List.append_assoc, List.append_assoc]
    exact h1

theorem negate_not (n : Nat) (p : Predicate) : negate n (.not p) = .not (negate n p) := by
  induction n with
  | zero => rfl
  | succ n ih =>
    show Predicate.not (negate n (.not p)) = .not (.not (negate n p))
    rw [ih]

theorem Nots.unary {ts : List Token} {n : Nat} (h : Nots ts n) :
    ∀ {us : List Token} {p : Predicate}, Unary us p → Unary (ts ++ us) (negate n p) := by
  induction h with
  | nil => intro us p hu; exact hu
  | @snoc ts t n _ word ih =>
    intro us p hu
    have h1 := ih (Unary.not word hu)
    rw [negate_not] at h1
    rw [List.append_assoc]
    exact h1

end EventRouting.Predicate.Grammar
