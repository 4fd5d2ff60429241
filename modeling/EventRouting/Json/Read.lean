import EventRouting.Json.Basic

/-!
# Reading JSON documents

The reader follows the format, and takes the words `NaN`, `Infinity` and `-Infinity` as numbers.

Texts are rows of Unicode scalar values.  An escape that is half of a surrogate pair without its other half stands
for none of these and is read as U+FFFD, so what is known of documents says nothing of texts with such a half in
them, neither of comparing them nor of writing them.  Numbers may have any number of digits, and values may be
nested to any depth.

* `Json.ReadCause`   why a text is no document
* `Json.read`        the value of a document, or the cause and the place of the first fault
-/

namespace EventRouting.Json

inductive ReadCause where
  | expectedValue
  | expectedName
  | expectedComma
  | expectedColon
  | extraData
  | unterminatedString
  | controlCharacter
  | badEscape
  | badUnicodeEscape
  | byteOrderMark
deriving DecidableEq, Inhabited

def ReadCause.message : ReadCause → String
  | .expectedValue => "Expecting value"
  | .expectedName => "Expecting property name enclosed in double quotes"
  | .expectedComma => "Expecting ',' delimiter"
  | .expectedColon => "Expecting ':' delimiter"
  | .extraData => "Extra data"
  | .unterminatedString => "Unterminated string starting at"
  | .controlCharacter => "Invalid control character at"
  | .badEscape => "Invalid \\escape"
  | .badUnicodeEscape => "Invalid \\uXXXX escape"
  | .byteOrderMark => "Unexpected UTF-8 BOM (decode using utf-8-sig)"

/-- A fault and the place where it shows, counted in characters from the start. -/
structure ReadFault where
  cause : ReadCause
  position : Nat
deriving DecidableEq, Inhabited

/-- A fault and the number of characters that are left at the place where it shows. -/
structure Stop where
  cause : ReadCause
  left : Nat
deriving DecidableEq, Inhabited

/-! ## characters -/

def isSpace (c : Char) : Bool := c == ' ' || c == '\n' || c == '\r' || c == '\t'

def skipSpace (cs : List Char) : List Char := cs.dropWhile isSpace

def hexValue? (c : Char) : Option Nat :=
  if '0' ≤ c && c ≤ '9' then some (c.toNat - 48)
  else if 'a' ≤ c && c ≤ 'f' then some (c.toNat - 87)
  else if 'A' ≤ c && c ≤ 'F' then some (c.toNat - 55)
  else none

/-- The unit that four digits of base sixteen spell. -/
def unitValue? (a b c d : Char) : Option Nat := do
  let a ← hexValue? a
  let b ← hexValue? b
  let c ← hexValue? c
  let d ← hexValue? d
  return ((a * 16 + b) * 16 + c) * 16 + d

def isHighUnit (n : Nat) : Bool := 55296 ≤ n && n < 56320

def isLowUnit (n : Nat) : Bool := 56320 ≤ n && n < 57344

/-- The character of a pair of units. -/
def pairChar (high low : Nat) : Char := Char.ofNat (65536 + (high - 55296) * 1024 + (low - 56320))

/-- The character of a unit that stands alone; half a pair has none and is replaced. -/
def unitChar (n : Nat) : Char := if isHighUnit n || isLowUnit n then '\ufffd' else Char.ofNat n

/-- The character that a letter after a backslash stands for. -/
def escaped? (c : Char) : Option Char :=
  if c = '"' then some '"'
  else if c = '\\' then some '\\'
  else if c = '/' then some '/'
  else if c = 'b' then some '\x08'
  else if c = 'f' then some '\x0c'
  else if c = 'n' then some '\n'
  else if c = 'r' then some '\r'
  else if c = 't' then some '\t'
  else none

/-! ## texts -/

/-- A step of a text: the end, or a character and what is left. -/
inductive Piece where
  | close (rest : List Char)
  | char (c : Char) (rest : List Char)
deriving Inhabited

/-- What follows the four digits of an escape: a second escape may complete a pair. -/
def readPair (high : Nat) (rest : List Char) : Except Stop Piece :=
  match rest with
  | '\\' :: 'u' :: e :: f :: g :: h :: next :: rest' =>
    match unitValue? e f g h with
    | some low =>
      if isLowUnit low then .ok (.char (pairChar high low) (next :: rest'))
      else .ok (.char (unitChar high) rest)
    | none => .error ⟨.badUnicodeEscape, rest.length - 1⟩
  | _ => .ok (.char (unitChar high) rest)

def readEscape (opened : Nat) (cs : List Char) : Except Stop Piece :=
  match cs with
  | [] => .error ⟨.unterminatedString, opened⟩
  | 'u' :: a :: b :: c :: d :: next :: rest =>
    match unitValue? a b c d with
    | some n => if isHighUnit n then readPair n (next :: rest) else .ok (.char (unitChar n) (next :: rest))
    | none => .error ⟨.badUnicodeEscape, cs.length⟩
  | 'u' :: _ => .error ⟨.badUnicodeEscape, cs.length⟩
  | c :: rest =>
    match escaped? c with
    | some e => .ok (.char e rest)
    | none => .error ⟨.badEscape, cs.length + 1⟩

/-- The next step of a text that was opened with `opened` characters left. -/
def readPiece (opened : Nat) (cs : List Char) : Except Stop Piece :=
  match cs with
  | [] => .error ⟨.unterminatedString, opened⟩
  | '"' :: rest => .ok (.close rest)
  | '\\' :: rest => readEscape opened rest
  | c :: rest =>
    if c.toNat < 32 then .error ⟨.controlCharacter, cs.length⟩ else .ok (.char c rest)

def Piece.rest : Piece → List Char
  | .close r => r
  | .char _ r => r

theorem readPair_rest {high : Nat} {rest : List Char} {p : Piece} (h : readPair high rest = .ok p) :
    p.rest.length ≤ rest.length := by
  unfold readPair at h
  split at h
  · split at h
    · split at h
      · cases h; simp only [Piece.rest, List.length_cons]; omega
      · cases h; simp [Piece.rest]
    · cases h
  · cases h; simp [Piece.rest]

theorem readEscape_rest {opened : Nat} {cs : List Char} {p : Piece}
    (h : readEscape opened cs = .ok p) : p.rest.length < cs.length := by
  unfold readEscape at h
  split at h
  · cases h
  · split at h
    · split at h
      · have := readPair_rest h
        simp at this ⊢
        omega
      · cases h; simp only [Piece.rest, List.length_cons]; omega
    · cases h
  · cases h
  · split at h
    · cases h; simp [Piece.rest]
    · cases h

theorem readPiece_rest {opened : Nat} {cs : List Char} {p : Piece}
    (h : readPiece opened cs = .ok p) : p.rest.length < cs.length := by
  unfold readPiece at h
  split at h
  · cases h
  · cases h; simp [Piece.rest]
  · have := readEscape_rest h
    simp
    omega
  · split at h
    · cases h
    · cases h; simp [Piece.rest]

/-- The characters of a text up to its closing quote, and what is left. -/
def readText (opened : Nat) (cs : List Char) : Except Stop (List Char × List Char) :=
  match _h : readPiece opened cs with
  | .error e => .error e
  | .ok (.close rest) => .ok ([], rest)
  | .ok (.char c rest) =>
    match readText opened rest with
    | .error e => .error e
    | .ok (text, left) => .ok (c :: text, left)
termination_by cs.length
decreasing_by exact readPiece_rest _h

theorem readText_rest (opened : Nat) (cs : List Char) {text left : List Char}
    (h : readText opened cs = .ok (text, left)) : left.length < cs.length := by
  fun_induction readText opened cs generalizing text left with
  | case1 => cases h
  | case2 _ _ hp => cases h; exact readPiece_rest hp
  | case3 => cases h
  | case4 cs c rest hp text' left' hr ih =>
    cases h
    exact Nat.lt_trans (ih hr) (readPiece_rest hp)

/-! ## numbers -/

def isAsciiDigit (c : Char) : Bool := '0' ≤ c && c ≤ '9'

def asciiDigits (cs : List Char) : Nat := cs.foldl (fun n c => 10 * n + (c.toNat - 48)) 0

/-- A number without its sign: whole digits, digits after a point, and an exponent if one is there. -/
structure NumberText where
  whole : List Char
  fraction : List Char
  exponent : Option Int
deriving DecidableEq, Inhabited

/-- The whole digits: a zero alone, or digits that start with another one. -/
def readWhole (cs : List Char) : List Char × List Char :=
  match cs with
  | '0' :: rest => (['0'], rest)
  | _ => (cs.takeWhile isAsciiDigit, cs.dropWhile isAsciiDigit)

def readFraction (cs : List Char) : List Char × List Char :=
  match cs with
  | '.' :: rest =>
    let ds := rest.takeWhile isAsciiDigit
    if ds.isEmpty then ([], cs) else (ds, rest.dropWhile isAsciiDigit)
  | _ => ([], cs)

def readExponentDigits (negative : Bool) (cs whole : List Char) : Option Int × List Char :=
  let ds := cs.takeWhile isAsciiDigit
  if ds.isEmpty then (none, whole)
  else
    let n : Int := asciiDigits ds
    (some (if negative then -n else n), cs.dropWhile isAsciiDigit)

def readExponent (cs : List Char) : Option Int × List Char :=
  match cs with
  | e :: rest =>
    if e = 'e' || e = 'E' then
      match rest with
      | '-' :: rest' => readExponentDigits true rest' cs
      | '+' :: rest' => readExponentDigits false rest' cs
      | _ => readExponentDigits false rest cs
    else (none, cs)
  | [] => (none, cs)

def readNumberText (cs : List Char) : NumberText × List Char :=
  let (whole, rest) := readWhole cs
  let (fraction, rest) := readFraction rest
  let (exponent, rest) := readExponent rest
  (⟨whole, fraction, exponent⟩, rest)

/-- The number that was written; a point or an exponent makes it a binary64 number. -/
def NumberText.value (negative : Bool) (t : NumberText) : Number :=
  if t.fraction.isEmpty && t.exponent.isNone then
    .int (if negative then -(asciiDigits t.whole : Int) else asciiDigits t.whole)
  else
    .float (.ofDecimal negative (asciiDigits (t.whole ++ t.fraction))
      (t.exponent.getD 0 - t.fraction.length))

theorem readWhole_rest {cs : List Char} (h : (readWhole cs).1 ≠ []) :
    (readWhole cs).2.length < cs.length := by
  unfold readWhole at h ⊢
  split
  · simp
  · next hz =>
    split at h
    · next rest => exact absurd rfl (hz rest)
    · cases cs with
      | nil => simp at h
      | cons c cs =>
        by_cases hc : isAsciiDigit c
        · have : (cs.dropWhile isAsciiDigit).length ≤ cs.length := (List.dropWhile_sublist _).length_le
          simp [hc]
          omega
        · simp [hc] at h

theorem readFraction_rest (cs : List Char) : (readFraction cs).2.length ≤ cs.length := by
  unfold readFraction
  split
  · next rest =>
    dsimp only
    split
    · simp
    · have : (rest.dropWhile isAsciiDigit).length ≤ rest.length := (List.dropWhile_sublist _).length_le
      simp
      omega
  · simp

theorem readExponentDigits_rest (negative : Bool) (cs whole : List Char)
    (h : cs.length ≤ whole.length) :
    (readExponentDigits negative cs whole).2.length ≤ whole.length := by
  unfold readExponentDigits
  dsimp only
  split
  · simp
  · exact Nat.le_trans (List.dropWhile_sublist _).length_le h

theorem readExponent_rest (cs : List Char) : (readExponent cs).2.length ≤ cs.length := by
  unfold readExponent
  split
  · split
    · split <;> apply readExponentDigits_rest <;> simp <;> omega
    · simp
  · simp

theorem readNumberText_rest {cs : List Char} (h : (readNumberText cs).1.whole ≠ []) :
    (readNumberText cs).2.length < cs.length := by
  have h1 := (readWhole_rest h : _ < cs.length)
  have h2 := readFraction_rest (readWhole cs).2
  have h3 := readExponent_rest (readFraction (readWhole cs).2).2
  simp only [readNumberText] at *
  omega

/-! ## values -/

/-- What is left of a text, shorter than it was. -/
abbrev Shorter (cs : List Char) := { rest : List Char // rest.length < cs.length }

/-- What is left after the characters `word` at the front. -/
def dropWord : (word cs : List Char) → Option { rest : List Char // rest.length + word.length = cs.length }
  | [], cs => some ⟨cs, by simp⟩
  | _ :: _, [] => none
  | w :: ws, c :: cs =>
    if w = c then (dropWord ws cs).map fun r => ⟨r.1, by have := r.2; simp; omega⟩ else none

/-- A value that is one word, if the text starts with it. -/
def readWord (word : String) (v : Json) (cs : List Char) (h : word.toList ≠ []) :
    Option (Json × Shorter cs) :=
  (dropWord word.toList cs).map fun r => (v, ⟨r.1, by
    have := r.2
    have : 0 < word.toList.length := List.length_pos_iff.2 h
    omega⟩)

/-- A number with its sign, or the fault that there is no value. -/
def readNumber (cs : List Char) : Except Stop (Json × Shorter cs) :=
  match cs with
  | '-' :: digits =>
    if h : (readNumberText digits).1.whole = [] then .error ⟨.expectedValue, digits.length + 1⟩
    else
      .ok (.num ((readNumberText digits).1.value true), ⟨(readNumberText digits).2, by
        have := readNumberText_rest h
        simp
        omega⟩)
  | digits =>
    if h : (readNumberText digits).1.whole = [] then .error ⟨.expectedValue, digits.length⟩
    else
      .ok (.num ((readNumberText digits).1.value false),
        ⟨(readNumberText digits).2, readNumberText_rest h⟩)

/-- A value that is neither a text nor a list nor an object. -/
def readAtom (cs : List Char) : Except Stop (Json × Shorter cs) :=
  let words : List (Option (Json × Shorter cs)) :=
    [readWord "null" .null cs (by decide), readWord "true" (.bool true) cs (by decide),
      readWord "false" (.bool false) cs (by decide),
      readWord "NaN" (.num (.float .nan)) cs (by decide),
      readWord "Infinity" (.num (.float (.infinity false))) cs (by decide),
      readWord "-Infinity" (.num (.float (.infinity true))) cs (by decide)]
  match words.findSome? id with
  | some r => .ok r
  | none => readNumber cs

theorem skipSpace_length (cs : List Char) : (skipSpace cs).length ≤ cs.length :=
  (List.dropWhile_sublist _).length_le

theorem skipSpace_lt {cs rest : List Char} {c : Char} (h : skipSpace cs = c :: rest) :
    rest.length < cs.length := by
  have := skipSpace_length cs
  rw [h] at this
  exact this

mutual

def readValue (cs : List Char) : Except Stop (Json × Shorter cs) :=
  match cs with
  | '"' :: rest =>
    match h : readText (rest.length + 1) rest with
    | .error e => .error e
    | .ok (text, left) =>
      .ok (.str (String.ofList text), ⟨left, by
        have := readText_rest _ _ h
        simp
        omega⟩)
  | '[' :: rest =>
    match h : skipSpace rest with
    | ']' :: left => .ok (.arr [], ⟨left, by
        have := skipSpace_lt h
        simp
        omega⟩)
    | inner =>
      match readItems inner with
      | .error e => .error e
      | .ok (items, left) => .ok (.arr items, ⟨left.1, by
          have := left.2
          have := skipSpace_length rest
          simp_all
          omega⟩)
  | '\x7b' :: rest =>
    match h : skipSpace rest with
    | '\x7d' :: left => .ok (.obj [], ⟨left, by
        have := skipSpace_lt h
        simp
        omega⟩)
    | inner =>
      match readMembers inner with
      | .error e => .error e
      | .ok (members, left) => .ok (.obj (Members.ofList members), ⟨left.1, by
          have := left.2
          have := skipSpace_length rest
          simp_all
          omega⟩)
  | cs => readAtom cs
termination_by (cs.length, 0)
decreasing_by
  all_goals
    have := skipSpace_length rest
    simp_wf
    simp_all
    omega

/-- The items of a list up to the closing bracket, at least one. -/
def readItems (cs : List Char) : Except Stop (List Json × Shorter cs) :=
  match readValue cs with
  | .error e => .error e
  | .ok (v, rest) =>
    match h : skipSpace rest.1 with
    | ']' :: left => .ok ([v], ⟨left, by
        have := skipSpace_lt h
        have := rest.2
        omega⟩)
    | ',' :: more =>
      match readItems (skipSpace more) with
      | .error e => .error e
      | .ok (vs, left) => .ok (v :: vs, ⟨left.1, by
          have := left.2
          have := skipSpace_lt h
          have := skipSpace_length more
          have := rest.2
          omega⟩)
    | other => .error ⟨.expectedComma, other.length⟩
termination_by (cs.length, 1)
decreasing_by
  · omega
  · have := skipSpace_lt h
    have := skipSpace_length more
    have := rest.2
    omega

/-- The members of an object up to the closing brace, at least one. -/
def readMembers (cs : List Char) : Except Stop (List (String × Json) × Shorter cs) :=
  match cs with
  | '"' :: opened =>
    match ht : readText (opened.length + 1) opened with
    | .error e => .error e
    | .ok (name, afterName) =>
      match hc : skipSpace afterName with
      | ':' :: afterColon =>
        match readValue (skipSpace afterColon) with
        | .error e => .error e
        | .ok (v, rest) =>
          match h : skipSpace rest.1 with
          | '\x7d' :: left => .ok ([(String.ofList name, v)], ⟨left, by
              have := skipSpace_lt h
              have := rest.2
              have := skipSpace_length afterColon
              have := skipSpace_lt hc
              have := readText_rest _ _ ht
              simp
              omega⟩)
          | ',' :: more =>
            match readMembers (skipSpace more) with
            | .error e => .error e
            | .ok (ms, left) => .ok ((String.ofList name, v) :: ms, ⟨left.1, by
                have := left.2
                have := skipSpace_lt h
                have := skipSpace_length more
                have := rest.2
                have := skipSpace_length afterColon
                have := skipSpace_lt hc
                have := readText_rest _ _ ht
                simp
                omega⟩)
          | other => .error ⟨.expectedComma, other.length⟩
      | other => .error ⟨.expectedColon, other.length⟩
  | other => .error ⟨.expectedName, other.length⟩
termination_by (cs.length, 1)
decreasing_by
  · simp_wf
    have := skipSpace_length afterColon
    have := skipSpace_lt hc
    have := readText_rest _ _ ht
    omega
  · simp_wf
    have := skipSpace_lt h
    have := skipSpace_length more
    have := rest.2
    have := skipSpace_length afterColon
    have := skipSpace_lt hc
    have := readText_rest _ _ ht
    omega

end

/-- A whole document: one value with spaces around it. -/
def readDocument (cs : List Char) : Except Stop Json :=
  match readValue (skipSpace cs) with
  | .error e => .error e
  | .ok (v, rest) =>
    match skipSpace rest.1 with
    | [] => .ok v
    | other => .error ⟨.extraData, other.length⟩

/-- The value of a document, or the first fault. -/
def read (s : String) : Except ReadFault Json :=
  let cs := s.toList
  match cs with
  | '\ufeff' :: _ => .error ⟨.byteOrderMark, 0⟩
  | _ =>
    match readDocument cs with
    | .ok v => .ok v
    | .error e => .error ⟨e.cause, cs.length - e.left⟩

/-- The value of a document that comes as bytes: a byte order mark in front is dropped. -/
def readBytes (s : String) : Except ReadFault Json :=
  match s.toList with
  | '\ufeff' :: rest => read (String.ofList rest)
  | _ => read s

def ReadFault.located (e : ReadFault) (document : String) : String :=
  let before := (document.toList.dropWhile (· == '\ufeff')).take e.position
  let column := (before.reverse.takeWhile (· != '\n')).length + 1
  e.cause.message ++ ": line " ++ toString (before.count '\n' + 1) ++ " column " ++ toString column
    ++ " (char " ++ toString e.position ++ ")"

end EventRouting.Json
