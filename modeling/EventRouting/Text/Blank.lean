import EventRouting.Text.Range

/-!
# Blank characters

* `isBlank`   the white space of Unicode, with the four separators U+001C to U+001F
* `strip`     a text without the blanks at its ends
-/

namespace EventRouting.Text

def blankRanges : List (Nat × Nat) :=
  [(9, 13), (28, 32), (133, 133), (160, 160), (5760, 5760), (8192, 8202), (8232, 8233),
  (8239, 8239), (8287, 8287), (12288, 12288)]

def isBlank (c : Char) : Bool := inRanges blankRanges c.toNat

def strip (cs : List Char) : List Char :=
  ((cs.dropWhile isBlank).reverse.dropWhile isBlank).reverse

end EventRouting.Text
