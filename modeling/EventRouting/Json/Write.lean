import EventRouting.Json.Basic
import EventRouting.Number.Notation
import EventRouting.Text.Quoted

/-!
# Writing JSON documents

* `Json.Layout`       what a document may contain and how its parts are separated
* `Json.write`        the document of a value
* `Json.writeString`  the document of a text
-/

namespace EventRouting.Json

structure Layout where
  /-- characters beyond ASCII are escaped -/
  ascii : Bool
  /-- between two items -/
  comma : List Char
  /-- between a name and its value -/
  colon : List Char

/-- No spaces, every character beyond ASCII escaped. -/
def compactAscii : Layout := ⟨true, [','], [':']⟩

/-- No spaces, every character that need not be escaped as it is. -/
def compactText : Layout := ⟨false, [','], [':']⟩

/-- A space after each separator, every character beyond ASCII escaped. -/
def spacedAscii : Layout := ⟨true, [',', ' '], [':', ' ']⟩

/-- The escape of one unit of sixteen bits. -/
def unitEscape (n : Nat) : List Char := ['\\', 'u'] ++ Text.hexDigits 4 n

/-- The escapes of a character: one unit, or a pair of them above the first plane. -/
def charEscape (c : Char) : List Char :=
  if c.toNat < 65536 then unitEscape c.toNat
  else
    let n := c.toNat - 65536
    unitEscape (55296 + n / 1024) ++ unitEscape (56320 + n % 1024)

def writeChar (ascii : Bool) (c : Char) : List Char :=
  if c = '"' then ['\\', '"']
  else if c = '\\' then ['\\', '\\']
  else if c = '\n' then ['\\', 'n']
  else if c = '\r' then ['\\', 'r']
  else if c = '\t' then ['\\', 't']
  else if c = '\x0c' then ['\\', 'f']
  else if c = '\x08' then ['\\', 'b']
  else if c.toNat < 32 then unitEscape c.toNat
  else if ascii && 127 ≤ c.toNat then charEscape c
  else [c]

def writeStringChars (ascii : Bool) (cs : List Char) : List Char :=
  '"' :: (cs.flatMap (writeChar ascii) ++ ['"'])

def writeString (ascii : Bool) (s : String) : String :=
  String.ofList (writeStringChars ascii s.toList)

mutual

def writeChars (l : Layout) : Json → List Char
  | .null => "null".toList
  | .bool true => "true".toList
  | .bool false => "false".toList
  | .num n => n.textIn Number.documentNotation
  | .str s => writeStringChars l.ascii s.toList
  | .arr items => '[' :: ((writeItems l items).intersperse l.comma).flatten ++ [']']
  | .obj members => '\x7b' :: ((writeMembers l members).intersperse l.comma).flatten ++ ['\x7d']

def writeItems (l : Layout) : List Json → List (List Char)
  | [] => []
  | v :: rest => writeChars l v :: writeItems l rest

def writeMembers (l : Layout) : List (String × Json) → List (List Char)
  | [] => []
  | (k, v) :: rest =>
    (writeStringChars l.ascii k.toList ++ l.colon ++ writeChars l v) :: writeMembers l rest

end

def write (l : Layout) (v : Json) : String := String.ofList (writeChars l v)

mutual

/-- Has every number of the value a form in a document? -/
def hasDocument : Json → Bool
  | .num (.float x) => x.isFinite
  | .arr items => haveDocuments items
  | .obj members => membersHaveDocuments members
  | _ => true

def haveDocuments : List Json → Bool
  | [] => true
  | v :: rest => hasDocument v && haveDocuments rest

def membersHaveDocuments : List (String × Json) → Bool
  | [] => true
  | (_, v) :: rest => hasDocument v && membersHaveDocuments rest

end

end EventRouting.Json
