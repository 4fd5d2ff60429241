import EventRouting.Pattern.Basic

/-!
# Patterns in writing

* `Pattern.lexemes?`  the signs that a pattern is written with
* `Pattern.read?`     the pattern that a text stands for

The text is read sign by sign; open groups are kept with what was read inside them.
-/

namespace EventRouting.Pattern

/-- A sign of a written pattern. -/
inductive Lexeme where
  | atom (part : Pattern)
  /-- a place that is asked for and cannot be repeated -/
  | place (part : Pattern)
  | opening (wrap : Option Bool)
  | closing
  | bar
  | times (least : Nat) (most : Option Nat)
deriving Inhabited

def charClass? : Char → Option CharRange
  | 'd' => some (.ofClass false .digit)
  | 'D' => some (.ofClass true .digit)
  | 'w' => some (.ofClass false .word)
  | 'W' => some (.ofClass true .word)
  | 's' => some (.ofClass false .blank)
  | 'S' => some (.ofClass true .blank)
  | _ => none

def controlChar? : Char → Option Char
  | 'n' => some '\n'
  | 't' => some '\t'
  | 'r' => some '\r'
  | 'f' => some '\x0c'
  | 'v' => some '\x0b'
  | 'a' => some '\x07'
  | _ => none

def hexDigit? (c : Char) : Option Nat :=
  if '0' ≤ c && c ≤ '9' then some (c.toNat - 48)
  else if 'a' ≤ c && c ≤ 'f' then some (c.toNat - 87)
  else if 'A' ≤ c && c ≤ 'F' then some (c.toNat - 55)
  else none

/-- The character that `width` digits of base sixteen name, and the rest. -/
def hexChar? (width : Nat) (cs : List Char) : Option (Char × List Char) :=
  let ds := (cs.take width).filterMap hexDigit?
  if ds.length = width then some (Char.ofNat (ds.foldl (fun n d => 16 * n + d) 0), cs.drop width)
  else none

def isAsciiLetter (c : Char) : Bool := ('a' ≤ c && c ≤ 'z') || ('A' ≤ c && c ≤ 'Z')

def isAsciiDigit (c : Char) : Bool := '0' ≤ c && c ≤ '9'

/-- The character behind a backslash that stands for a single one, and the rest. -/
def escapedChar? : List Char → Option (Char × List Char)
  | 'x' :: rest => hexChar? 2 rest
  | 'u' :: rest => hexChar? 4 rest
  | 'U' :: rest => hexChar? 8 rest
  | '0' :: rest => some (Char.ofNat 0, rest)
  | c :: rest =>
    match controlChar? c with
    | some d => some (d, rest)
    | none => if isAsciiLetter c || isAsciiDigit c then none else some (c, rest)
  | [] => none

theorem hexChar?_length {width : Nat} {cs rest : List Char} {c : Char}
    (h : hexChar? width cs = some (c, rest)) : rest.length ≤ cs.length := by
  unfold hexChar? at h
  dsimp only at h
  split at h
  · cases h; simp
  · cases h

theorem escapedChar?_length {cs rest : List Char} {c : Char}
    (h : escapedChar? cs = some (c, rest)) : rest.length < cs.length := by
  unfold escapedChar? at h
  split at h
  · have := hexChar?_length h; simp; omega
  · have := hexChar?_length h; simp; omega
  · have := hexChar?_length h; simp; omega
  · cases h; simp
  · split at h
    · cases h; simp
    · split at h
      · cases h
      · cases h; simp
  · cases h

/-! ## sets of characters -/

/-- One member of a set: a class, or a character. -/
def setMember? (cs : List Char) : Option (CharRange × List Char) :=
  match cs with
  | '\\' :: 'b' :: rest => some (.range '\x08' '\x08', rest)
  | '\\' :: c :: rest =>
    match charClass? c with
    | some r => some (r, rest)
    | none => (escapedChar? (c :: rest)).map fun (d, left) => (.range d d, left)
  | ['\\'] => none
  | c :: rest => some (.range c c, rest)
  | [] => none

theorem setMember?_length {cs rest : List Char} {r : CharRange}
    (h : setMember? cs = some (r, rest)) : rest.length < cs.length := by
  unfold setMember? at h
  split at h
  · cases h; simp only [List.length_cons]; omega
  · split at h
    · cases h; simp only [List.length_cons]; omega
    · obtain ⟨⟨d, left⟩, he, hd⟩ := Option.map_eq_some_iff.1 h
      cases hd
      have := escapedChar?_length he
      simp at this ⊢
      omega
  · cases h
  · cases h; simp
  · cases h

/-- The next part of a set: one member, or the characters from one to another with a dash between.  A dash
before the closing bracket is a member. -/
def setPart? (cs : List Char) : Option (List CharRange × List Char) :=
  match setMember? cs with
  | none => none
  | some (low, '-' :: ']' :: left) => some ([low, .range '-' '-'], ']' :: left)
  | some (low, '-' :: left) =>
    match low, setMember? left with
    | .range a _, some (.range b _, left') =>
      if a.toNat ≤ b.toNat then some ([.range a b], left') else none
    | _, _ => none
  | some (r, left) => some ([r], left)

theorem setPart?_length {cs rest : List Char} {rs : List CharRange}
    (h : setPart? cs = some (rs, rest)) : rest.length < cs.length := by
  unfold setPart? at h
  split at h
  · cases h
  · next hm =>
    cases h
    have := setMember?_length hm
    simp only [List.length_cons] at this ⊢
    omega
  · next hm =>
    have h1 := setMember?_length hm
    split at h
    · next hm2 =>
      split at h
      · cases h
        have h2 := setMember?_length hm2
        simp only [List.length_cons] at h1 h2
        omega
      · cases h
    · cases h
  · next hm => cases h; exact setMember?_length hm

/-- The members of a set up to its closing bracket.  A bracket that comes first is a member. -/
def setMembers? (first : Bool) (cs : List Char) : Option (List CharRange × List Char) :=
  match cs with
  | [] => none
  | c :: rest =>
    if c = ']' && !first then some ([], rest)
    else
      match _h : setPart? (c :: rest) with
      | none => none
      | some (rs, left) => (setMembers? false left).map fun (more, after) => (rs ++ more, after)
termination_by cs.length
decreasing_by exact setPart?_length _h

theorem setMembers?_length {first : Bool} {cs rest : List Char} {rs : List CharRange}
    (h : setMembers? first cs = some (rs, rest)) : rest.length < cs.length := by
  fun_induction setMembers? first cs generalizing rs rest with
  | case1 => cases h
  | case2 => cases h; simp
  | case3 => cases h
  | case4 first c cs hc rs' left hm ih =>
    obtain ⟨⟨more, after⟩, he, hd⟩ := Option.map_eq_some_iff.1 h
    cases hd
    exact Nat.lt_trans (ih he) (setPart?_length hm)

/-! ## signs -/

/-- The number that digits of ASCII spell, if there are any, and the rest. -/
def count? (cs : List Char) : Option Nat × List Char :=
  let ds := cs.takeWhile isAsciiDigit
  (if ds.isEmpty then none else some (Text.digitsValue ds), cs.dropWhile isAsciiDigit)

/-- The bounds between braces, and the rest.  Braces without bounds are characters. -/
def bounds? (cs : List Char) : Option (Nat × Option Nat × List Char) :=
  match count? cs with
  | (some n, '\x7d' :: rest) => some (n, some n, rest)
  | (low, ',' :: rest) =>
    match count? rest with
    | (high, '\x7d' :: rest') => some (low.getD 0, high, rest')
    | _ => none
  | _ => none

theorem count?_length (cs : List Char) : (count? cs).2.length ≤ cs.length :=
  (List.dropWhile_sublist _).length_le

theorem bounds?_length {cs rest : List Char} {n : Nat} {m : Option Nat}
    (h : bounds? cs = some (n, m, rest)) : rest.length < cs.length := by
  unfold bounds? at h
  have h1 := count?_length cs
  split at h
  · next hc => cases h; rw [hc] at h1; simp at h1; omega
  · next low rest' hc =>
    have h2 := count?_length rest'
    rw [hc] at h1
    split at h
    · next hc2 => cases h; rw [hc2] at h2; simp at h1 h2; omega
    · cases h
  · cases h

/-- A sign of repetition may be followed by one that changes the order of the search only. -/
def dropLazy : List Char → List Char
  | '?' :: rest => rest
  | '+' :: rest => rest
  | cs => cs

theorem dropLazy_length (cs : List Char) : (dropLazy cs).length ≤ cs.length := by
  unfold dropLazy
  split <;> simp

def literal (c : Char) : Pattern := .oneOf false [.range c c]

def lexeme? (cs : List Char) : Option (Lexeme × List Char) :=
  match cs with
  | [] => none
  | '(' :: '?' :: ':' :: rest => some (.opening none, rest)
  | '(' :: '?' :: '=' :: rest => some (.opening (some false), rest)
  | '(' :: '?' :: '!' :: rest => some (.opening (some true), rest)
  | '(' :: '?' :: _ => none
  | '(' :: rest => some (.opening none, rest)
  | ')' :: rest => some (.closing, rest)
  | '|' :: rest => some (.bar, rest)
  | '.' :: rest => some (.atom .any, rest)
  | '^' :: rest => some (.place .start, rest)
  | '$' :: rest => some (.place .lineFinish, rest)
  | '*' :: rest => some (.times 0 none, dropLazy rest)
  | '+' :: rest => some (.times 1 none, dropLazy rest)
  | '?' :: rest => some (.times 0 (some 1), dropLazy rest)
  | '\x7b' :: rest =>
    match bounds? rest with
    | some (n, m, left) => some (.times n m, dropLazy left)
    | none => some (.atom (literal '\x7b'), rest)
  | '[' :: '^' :: rest =>
    (setMembers? true rest).map fun (rs, left) => (.atom (.oneOf true rs), left)
  | '[' :: rest =>
    (setMembers? true rest).map fun (rs, left) => (.atom (.oneOf false rs), left)
  | '\\' :: 'A' :: rest => some (.place .start, rest)
  | '\\' :: 'Z' :: rest => some (.place .finish, rest)
  | '\\' :: 'b' :: rest => some (.place (.boundary false), rest)
  | '\\' :: 'B' :: rest => some (.place (.boundary true), rest)
  | '\\' :: c :: rest =>
    match charClass? c with
    | some r => some (.atom (.oneOf false [r]), rest)
    | none => (escapedChar? (c :: rest)).map fun (d, left) => (.atom (literal d), left)
  | ['\\'] => none
  | c :: rest => some (.atom (literal c), rest)

theorem lexeme?_length {cs rest : List Char} {l : Lexeme} (h : lexeme? cs = some (l, rest)) :
    rest.length < cs.length := by
  unfold lexeme? at h
  split at h
  all_goals first
    | (cases h; done)
    | (cases h; simp; done)
    | (cases h; simp; omega)
    | skip
  · cases h; have := dropLazy_length ‹List Char›; simp; omega
  · cases h; have := dropLazy_length ‹List Char›; simp; omega
  · cases h; have := dropLazy_length ‹List Char›; simp; omega
  · split at h
    · next left hb =>
      cases h
      have h1 := bounds?_length hb
      have h2 := dropLazy_length left
      simp
      omega
    · cases h; simp
  · obtain ⟨⟨rs, left⟩, he, hd⟩ := Option.map_eq_some_iff.1 h
    cases hd
    have := setMembers?_length he
    simp at this ⊢
    omega
  · obtain ⟨⟨rs, left⟩, he, hd⟩ := Option.map_eq_some_iff.1 h
    cases hd
    have := setMembers?_length he
    simp at this ⊢
    omega
  · split at h
    · cases h; simp only [List.length_cons]; omega
    · obtain ⟨⟨d, left⟩, he, hd⟩ := Option.map_eq_some_iff.1 h
      cases hd
      have := escapedChar?_length he
      simp at this ⊢
      omega

def lexemes? (cs : List Char) : Option (List Lexeme) :=
  match cs with
  | [] => some []
  | c :: rest =>
    match _h : lexeme? (c :: rest) with
    | none => none
    | some (l, left) => (lexemes? left).map fun ls => l :: ls
termination_by cs.length
decreasing_by exact lexeme?_length _h

/-! ## patterns -/

/-- What was read inside a group: the alternatives that are finished, the parts of the last one, and
whether its last part may be repeated. -/
structure Group where
  wrap : Option Bool
  alternatives : Option Pattern
  parts : Pattern
  last : Option Pattern
  repeatable : Bool
deriving Inhabited

namespace Group

def start (wrap : Option Bool) : Group := ⟨wrap, none, .empty, none, false⟩

def sequence (g : Group) : Pattern :=
  match g.last with
  | none => g.parts
  | some p => .seq g.parts p

def push (g : Group) (p : Pattern) (repeatable : Bool) : Group :=
  ⟨g.wrap, g.alternatives, g.sequence, some p, repeatable⟩

def choices (g : Group) : Pattern :=
  match g.alternatives with
  | none => g.sequence
  | some p => .alt p g.sequence

def bar (g : Group) : Group := ⟨g.wrap, some g.choices, .empty, none, false⟩

def close (g : Group) : Pattern :=
  match g.wrap with
  | none => g.choices
  | some negated => .ahead negated g.choices

end Group

/-- One more sign, with the open group and those around it. -/
def takeLexeme (g : Group) (outer : List Group) : Lexeme → Option (Group × List Group)
  | .atom p => some (g.push p true, outer)
  | .place p => some (g.push p false, outer)
  | .opening wrap => some (.start wrap, g :: outer)
  | .closing =>
    match outer with
    | [] => none
    | around :: rest => some (around.push g.close true, rest)
  | .bar => some (g.bar, outer)
  | .times least most =>
    match g.last with
    | none => none
    | some p =>
      if !g.repeatable || most.any (· < least) then none
      else some (⟨g.wrap, g.alternatives, g.parts, some (.repeated least most p), false⟩, outer)

def readLexemes (g : Group) (outer : List Group) : List Lexeme → Option Pattern
  | [] => if outer.isEmpty then some g.close else none
  | l :: rest =>
    match takeLexeme g outer l with
    | none => none
    | some (g', outer') => readLexemes g' outer' rest

def read? (text : String) : Option Pattern :=
  (lexemes? text.toList).bind (readLexemes (.start none) [])

end EventRouting.Pattern
