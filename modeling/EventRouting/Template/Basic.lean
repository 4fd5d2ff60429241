import EventRouting.Json.Write
import EventRouting.Members
import EventRouting.Path.Lookup
import EventRouting.Template.Draft

/-!
# Templates

A template builds a value from an event.

* `Template`           values, lists and objects with directives in them
* `Template.Piece`     a part of an interpolated text
* `Template.resolve`   the draft that a template builds from a root
* `Template.render`    the text of a value inside an interpolated text

Every directive looks into the same root, except inside the item template of a list, where the root is
the item.
-/

namespace EventRouting

namespace Template

/-- A part of an interpolated text: characters as they are, or the value at a path. -/
inductive Piece where
  | text (cs : List Char)
  | reference (path : Path)
deriving DecidableEq, Inhabited

inductive Condition where
  /-- is it there and other than null? -/
  | present
  /-- is it missing, null or an empty text? -/
  | blank
deriving DecidableEq, Inhabited

/-- Whose members win when objects are merged. -/
inductive Direction where
  | left
  | right
deriving DecidableEq, Inhabited

end Template

/-- A rule that builds a value from a root. -/
inductive Template where
  /-- no value, the branch of a choice that is not written down -/
  | nothing
  | literal (value : Json)
  | path (path : Path)
  | text (pieces : List Template.Piece)
  | choice (condition : Template.Condition) (subject yes no : Template)
  | default (value fallback : Template)
  | merge (direction : Template.Direction) (objects : List Template)
  /-- the items at a path as they are -/
  | items (path : Path)
  /-- a template for each item at a path -/
  | each (path : Path) (item : Template)
  | list (items : List Template)
  | object (members : List (String × Template))
deriving Inhabited

namespace Template

/-- The text of a value inside an interpolated text.  What is missing or null has none. -/
def render : Option Json → List Char
  | none => []
  | some .null => []
  | some (.bool true) => "true".toList
  | some (.bool false) => "false".toList
  | some (.num n) => n.text
  | some (.str s) => s.toList
  | some (.arr vs) => Json.writeChars Json.compactAscii (.arr vs)
  | some (.obj ms) => Json.writeChars Json.compactAscii (.obj ms)

def Piece.render (root : Json) : Piece → List Char
  | .text cs => cs
  | .reference p => Template.render (root.lookup p)

def interpolate (root : Json) (pieces : List Piece) : List Char := pieces.flatMap (Piece.render root)

/-- The items at a path: those of a list, or an object as the only item. -/
def itemsAt (root : Json) (p : Path) : Option (List Json) :=
  match root.lookup p with
  | some (.arr vs) => some vs
  | some (.obj ms) => some [.obj ms]
  | _ => none

def Condition.asks (c : Condition) (d : Draft) : Bool :=
  match c with
  | present => !d.isAbsent
  | blank => d.isBlank

/-- The objects among the drafts in one, those further right winning. -/
def mergeDrafts (drafts : List Draft) : List (String × Draft) :=
  drafts.foldl (fun merged d => Members.update merged (d.members?.getD [])) []

def Direction.arrange (d : Direction) (drafts : List Draft) : List Draft :=
  match d with
  | left => drafts.reverse
  | right => drafts

mutual

/-- The draft that a template builds from a root. -/
def resolve : Template → Json → Draft
  | nothing, _ => .absent
  | literal v, _ => .value v
  | path p, root => .ofOption (root.lookup p)
  | text pieces, root => .value (.str (String.ofList (interpolate root pieces)))
  | choice c subject yes no, root =>
    if c.asks (resolve subject root) then resolve yes root else resolve no root
  | default v fallback, root =>
    if (resolve v root).isAbsent then resolve fallback root else resolve v root
  | merge direction objects, root =>
    .object (mergeDrafts (direction.arrange (resolveAll objects root)))
  | items p, root =>
    match itemsAt root p with
    | some vs => .value (.arr vs)
    | none => .absent
  | each p item, root =>
    match itemsAt root p with
    | some vs => .list (vs.map fun v => resolve item v)
    | none => .absent
  | list ts, root => .list (resolveAll ts root)
  | object ms, root => .object (resolveMembers ms root)

def resolveAll : List Template → Json → List Draft
  | [], _ => []
  | t :: rest, root => resolve t root :: resolveAll rest root

def resolveMembers : List (String × Template) → Json → List (String × Draft)
  | [], _ => []
  | (k, t) :: rest, root => (k, resolve t root) :: resolveMembers rest root

end

/-- The value that a template builds from a root, null if it is missing. -/
def apply (t : Template) (root : Json) : Json := ((t.resolve root).settle).getD .null

end Template

end EventRouting
