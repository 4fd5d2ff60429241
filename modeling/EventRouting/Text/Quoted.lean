import EventRouting.Text.Printable

/-!
# Quoted texts

* `hexDigits`   a number in base sixteen with at least so many digits
* `quoted`      a text between quotes, with escapes for what cannot be printed
-/

namespace EventRouting.Text

/-- Base sixteen, small letters, with zeros in front up to the width. -/
def hexDigits (width n : Nat) : List Char :=
  let ds := Nat.toDigits 16 n
  List.replicate (width - ds.length) '0' ++ ds

/-- Double quotes if the text has a single quote and no double one; otherwise single quotes. -/
def quoteFor (cs : List Char) : Char :=
  if cs.contains '\'' && !cs.contains '"' then '"' else '\''

/-- One character between the quotes `q`. -/
def quotedChar (q c : Char) : List Char :=
  if c = q || c = '\\' then ['\\', c]
  else if c = '\n' then ['\\', 'n']
  else if c = '\r' then ['\\', 'r']
  else if c = '\t' then ['\\', 't']
  else if isPrintable c then [c]
  else if c.toNat < 256 then ['\\', 'x'] ++ hexDigits 2 c.toNat
  else if c.toNat < 65536 then ['\\', 'u'] ++ hexDigits 4 c.toNat
  else ['\\', 'U'] ++ hexDigits 8 c.toNat

def quotedChars (cs : List Char) : List Char :=
  let q := quoteFor cs
  q :: (cs.flatMap (quotedChar q) ++ [q])

def quoted (s : String) : String := String.ofList (quotedChars s.toList)

end EventRouting.Text
