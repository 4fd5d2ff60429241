import EventRouting.Template.Basic
import EventRouting.Text.Blank

/-!
# References in texts

A reference in a text is a name between double braces, with blanks around it: `Hello \{{ traits.name }}`.

* `Template.reference?`   the reference at the front of a text, behind its opening braces
* `Template.pieces`       the parts of a text, references being read from left to right
-/

namespace EventRouting.Template

/-- The characters of a name between braces. -/
def isReferenceChar (c : Char) : Bool := c != '\x7b' && c != '\x7d' && !Text.isBlank c

/-- The name behind two opening braces and the text behind the two closing ones. -/
def reference? (cs : List Char) : Option (List Char × List Char) :=
  let inner := cs.dropWhile Text.isBlank
  let name := inner.takeWhile isReferenceChar
  match (inner.dropWhile isReferenceChar).dropWhile Text.isBlank with
  | '\x7d' :: '\x7d' :: rest => if name.isEmpty then none else some (name, rest)
  | _ => none

theorem reference?_length {cs name rest : List Char} (h : reference? cs = some (name, rest)) :
    rest.length < cs.length := by
  unfold reference? at h
  dsimp only at h
  split at h
  · next rest' hr =>
    split at h
    · cases h
    · cases h
      have left : (((cs.dropWhile Text.isBlank).dropWhile isReferenceChar).dropWhile Text.isBlank).Sublist cs :=
        (List.dropWhile_sublist _).trans ((List.dropWhile_sublist _).trans (List.dropWhile_sublist _))
      rw [hr] at left
      exact Nat.lt_of_succ_lt left.length_le
  · cases h

/-- The path of a name between braces; a `$` in front is dropped. -/
def referencePath : List Char → Path
  | '$' :: rest => Path.splitChars rest
  | cs => Path.splitChars cs

/-- The parts of a text.  A run of other characters is one part for each character. -/
def pieces (cs : List Char) : List Piece :=
  match cs with
  | [] => []
  | '\x7b' :: '\x7b' :: rest =>
    match _h : reference? rest with
    | some (name, left) => .reference (referencePath name) :: pieces left
    | none => .text ['\x7b'] :: pieces ('\x7b' :: rest)
  | c :: rest => .text [c] :: pieces rest
termination_by cs.length
decreasing_by
  · have := reference?_length _h; simp; omega
  · simp
  · simp

end EventRouting.Template
