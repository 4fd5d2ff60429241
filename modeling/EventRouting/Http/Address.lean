import EventRouting.Fault
import EventRouting.Text.Integer

/-!
# Addresses

Where a request goes.  The parts of an address are kept as they are sent: what may not stand in them is
percent-encoded.

* `Address`          scheme, authority, path, query and fragment
* `Address.read`     the address of a text, or why it has none
* `Address.text`     the text of an address
* `Address.under`    an address below a base: a relative one is joined to it with one slash
* `Address.resolve`  an address seen from another one, as the answer of a redirect gives it
* `Address.withQuery`  an address with the query replaced
-/

namespace EventRouting

/-! ## percent-encoding -/

namespace Percent

/-- The digits of a byte after the percent sign. -/
def encodeByte (b : UInt8) : List Char :=
  let digit (n : Nat) : Char := if n < 10 then Char.ofNat (48 + n) else Char.ofNat (55 + n)
  ['%', digit (b.toNat / 16), digit (b.toNat % 16)]

/-- A character as the percent-encoded bytes of its UTF-8 form. -/
def encodeChar (c : Char) : List Char := (String.utf8EncodeChar c).flatMap encodeByte

/-- Characters with all that are not kept percent-encoded. -/
def encode (isKept : Char → Bool) (cs : List Char) : List Char :=
  cs.flatMap fun c => if isKept c then [c] else encodeChar c

def hexValue? (c : Char) : Option Nat :=
  if '0' ≤ c && c ≤ '9' then some (c.toNat - 48)
  else if 'a' ≤ c && c ≤ 'f' then some (c.toNat - 87)
  else if 'A' ≤ c && c ≤ 'F' then some (c.toNat - 55)
  else none

/-- The bytes that characters stand for when percent-encoded bytes among them are read. -/
def decodeBytes : List Char → List UInt8
  | [] => []
  | '%' :: a :: b :: rest =>
    match hexValue? a, hexValue? b with
    | some x, some y => UInt8.ofNat (16 * x + y) :: decodeBytes rest
    | _, _ => String.utf8EncodeChar '%' ++ decodeBytes (a :: b :: rest)
  | c :: rest => String.utf8EncodeChar c ++ decodeBytes rest

/-- The text that characters stand for; bytes that are no text leave it as it is. -/
def decode (cs : List Char) : List Char :=
  match String.fromUTF8? ⟨(decodeBytes cs).toArray⟩ with
  | some s => s.toList
  | none => cs

/-- The characters that stand for themselves in every part of an address. -/
def isUnreserved (c : Char) : Bool :=
  c.isAlphanum || c == '-' || c == '.' || c == '_' || c == '~'

def isVisible (c : Char) : Bool := decide (32 < c.toNat) && decide (c.toNat < 127)

def inQuery (c : Char) : Bool := isVisible c && !(['"', '#', '<', '>'].contains c)

def inPath (c : Char) : Bool := inQuery c && !(['?', '`', '\x7b', '\x7d'].contains c)

def inFragment (c : Char) : Bool := isVisible c && !(['"', '<', '>', '`'].contains c)

/-- The text of a form value: a space is a plus sign. -/
def encodeForm (cs : List Char) : List Char :=
  cs.flatMap fun c => if c == ' ' then ['+'] else if isUnreserved c then [c] else encodeChar c

def form (pairs : List (String × String)) : String :=
  "&".intercalate (pairs.map fun p =>
    String.ofList (encodeForm p.1.toList ++ '=' :: encodeForm p.2.toList))

end Percent

/-! ## addresses -/

/-- Where a request goes.  All parts are as they are sent. -/
structure Address where
  scheme : String
  authority : String
  path : String
  query : Option String
  fragment : Option String
deriving DecidableEq, Inhabited

namespace Address

def text (a : Address) : String :=
  (if a.scheme.isEmpty then "" else a.scheme ++ ":")
    ++ (if a.authority.isEmpty then "" else "//" ++ a.authority)
    ++ a.path
    ++ (match a.query with | some q => "?" ++ q | none => "")
    ++ (match a.fragment with | some f => "#" ++ f | none => "")

/-- The path with percent-encoded characters read; no path is the root. -/
def decodedPath (a : Address) : String :=
  if a.path.isEmpty then "/" else String.ofList (Percent.decode a.path.toList)

/-- An address without scheme or host is relative. -/
def isRelative (a : Address) : Bool := a.scheme.isEmpty || a.authority.isEmpty

/-! ## reading -/

/-- The characters before the first of the given ones, and the rest. -/
def upTo (stops : List Char) (cs : List Char) : List Char × List Char :=
  (cs.takeWhile fun c => !stops.contains c, cs.dropWhile fun c => !stops.contains c)

def isSchemeChar (c : Char) : Bool := c.isAlphanum || c == '+' || c == '.' || c == '-'

/-- A scheme before a colon, and the rest. -/
def splitScheme (cs : List Char) : List Char × List Char :=
  let name := cs.takeWhile isSchemeChar
  match name, cs.dropWhile isSchemeChar with
  | [], ':' :: rest => ([], rest)
  | c :: _, ':' :: rest => if c.isAlpha then (name, rest) else ([], cs)
  | _, _ => ([], cs)

/-- An authority after two slashes, and the rest. -/
def splitAuthority : List Char → List Char × List Char
  | '/' :: '/' :: rest => upTo ['/', '?', '#'] rest
  | cs => ([], cs)

structure Parts where
  scheme : List Char
  authority : List Char
  path : List Char
  query : Option (List Char)
  fragment : Option (List Char)

def split (cs : List Char) : Parts :=
  let (scheme, cs) := splitScheme cs
  let (authority, cs) := splitAuthority cs
  let (path, cs) := upTo ['?', '#'] cs
  let (query, cs) := match cs with
    | '?' :: cs => let (q, cs) := upTo ['#'] cs; (some q, cs)
    | _ => (none, cs)
  ⟨scheme, authority, path, query, cs.tail?⟩

/-- Names of a path without those that go nowhere or up. -/
def climb (done : List (List Char)) : List (List Char) → List (List Char)
  | [] => done
  | ['.'] :: rest => climb done rest
  | ['.', '.'] :: rest => climb (if done = [[]] then done else done.dropLast) rest
  | name :: rest => climb (done ++ [name]) rest

def splitNames (cs : List Char) : List (List Char) := cs.splitOn '/'

def joinNames (names : List (List Char)) : List Char := (names.intersperse ['/']).flatten

/-- A path without the names that go nowhere or up. -/
def straighten (path : List Char) : List Char :=
  let names := splitNames path
  if names.contains ['.'] || names.contains ['.', '.'] then joinNames (climb [] names) else path

def invalid (text : String) : Fault := .mishap .badAddress (some text)

/-- The port that a scheme has when none is given. -/
def defaultPort? : String → Option Int
  | "ftp" => some 21
  | "http" | "ws" => some 80
  | "https" | "wss" => some 443
  | _ => none

def portText (scheme : String) (port : List Char) : Except Fault String :=
  if port.isEmpty then .ok ""
  else
    match Text.integer? port with
    | none => .error (invalid ("Invalid port: " ++ String.ofList (Text.quotedChars port)))
    | some n => .ok (if defaultPort? scheme = some n then "" else ":" ++ toString n)

/-- What stands before the last at sign of an authority, and the rest. -/
def splitUser (cs : List Char) : List Char × List Char :=
  let host := (cs.reverse.takeWhile (· != '@')).reverse
  (cs.take (cs.length - host.length), host)

def splitHost (cs : List Char) : List Char × List Char :=
  match cs with
  | '[' :: _ =>
    if cs.contains ']' then
      let port := (cs.reverse.takeWhile (· != ']')).reverse
      (cs.take (cs.length - port.length), match port with | ':' :: p => p | p => p)
    else (cs.takeWhile (· != ':'), (cs.dropWhile (· != ':')).tail)
  | _ => (cs.takeWhile (· != ':'), (cs.dropWhile (· != ':')).tail)

def isHostChar (c : Char) : Bool := Percent.isUnreserved c || "!$&'()*+,;=\"`{}%|\\[]:".toList.contains c

def lowerAscii (cs : List Char) : List Char := cs.map Char.toLower

/-- The authority as it is sent: the host in lower case, the port unless it is the usual one. -/
def authorityText (scheme : String) (cs : List Char) : Except Fault String :=
  let (user, rest) := splitUser cs
  let (host, port) := splitHost rest
  (portText scheme port).map fun port =>
    String.ofList (user ++ Percent.encode isHostChar (lowerAscii host)) ++ port

/-- A path goes with the parts before it. -/
def checkPath (hasScheme hasAuthority : Bool) (path : List Char) : Except Fault Unit :=
  if hasAuthority then
    if path.isEmpty || path.head? = some '/' then .ok ()
    else .error (invalid "For absolute URLs, path must be empty or begin with '/'")
  else if hasScheme then .ok ()
  else
    match path with
    | '/' :: '/' :: _ => .error (invalid "Relative URLs cannot have a path starting with '//'")
    | ':' :: _ => .error (invalid "Relative URLs cannot have a path starting with ':'")
    | _ => .ok ()

def ofParts (p : Parts) : Except Fault Address := do
  let scheme := String.ofList (lowerAscii p.scheme)
  let authority ← authorityText scheme p.authority
  let hasScheme := !scheme.isEmpty
  let hasAuthority := !authority.isEmpty
  checkPath hasScheme hasAuthority p.path
  let path := if hasScheme || hasAuthority then straighten p.path else p.path
  return ⟨scheme, authority, String.ofList (Percent.encode Percent.inPath path),
    p.query.map fun q => String.ofList (Percent.encode Percent.inQuery q),
    p.fragment.map fun f => String.ofList (Percent.encode Percent.inFragment f)⟩

def isControl (c : Char) : Bool := decide (c.toNat < 32) || c.toNat == 127

def read (s : String) : Except Fault Address :=
  let cs := s.toList
  match cs.find? isControl with
  | some c =>
    .error (invalid ("Invalid non-printable ASCII character in URL, "
      ++ String.ofList (Text.quotedChars [c]) ++ " at position " ++ toString (cs.idxOf c) ++ "."))
  | none => ofParts (split cs)

/-! ## changes -/

/-- The path and the query of an address, as they are sent. -/
def target (a : Address) : String :=
  (if a.path.isEmpty then "/" else a.path) ++ (match a.query with | some q => "?" ++ q | none => "")

def withTarget (a : Address) (target : String) : Except Fault Address :=
  let (path, query) := upTo ['?'] target.toList
  ofParts ⟨a.scheme.toList, a.authority.toList, path, query.tail?, a.fragment.map String.toList⟩

/-- A base ends in a slash. -/
def asBase (a : Address) : Except Fault Address :=
  if a.target.toList.getLast? = some '/' then .ok a else a.withTarget (a.target ++ "/")

/-- An address below a base; an absolute one stands for itself. -/
def under (a base : Address) : Except Fault Address :=
  if a.isRelative then
    base.withTarget (base.target ++ String.ofList (a.target.toList.dropWhile (· == '/')))
  else .ok a

def withQuery (a : Address) (query : Option String) : Address :=
  { a with query := query.map fun q => String.ofList (Percent.encode Percent.inQuery q.toList) }

/-- Names of a path without those that go nowhere or up; those that go above the top are dropped. -/
def settleNames (names : List (List Char)) : List (List Char) :=
  let settled := names.foldl (fun done name =>
    if name = ['.', '.'] then done.dropLast else if name = ['.'] then done else done ++ [name]) []
  if names.getLast? = some ['.'] || names.getLast? = some ['.', '.'] then settled ++ [[]] else settled

def resolvePath (base path : List Char) : List Char :=
  let names :=
    if path.head? = some '/' then splitNames path
    else
      let below := splitNames base
      let below := if below.getLast? = some [] then below else below.dropLast
      let all := below ++ splitNames path
      all.take 1 ++ (all.tail.dropLast.filter (!·.isEmpty)) ++ all.tail.getLast?.toList
  let joined := joinNames (settleNames names)
  if joined.isEmpty then ['/'] else joined

/-- A relative address seen from another one. -/
def resolve (a base : Address) : Except Fault Address :=
  let rest : Parts :=
    if !a.authority.isEmpty then
      ⟨base.scheme.toList, a.authority.toList, a.path.toList, a.query.map String.toList, none⟩
    else if a.path.isEmpty then
      ⟨base.scheme.toList, base.authority.toList, base.path.toList,
        (if (a.query.getD "").isEmpty then base.query else a.query).map String.toList, none⟩
    else
      ⟨base.scheme.toList, base.authority.toList, resolvePath base.path.toList a.path.toList,
        a.query.map String.toList, none⟩
  ofParts { rest with fragment := a.fragment.map String.toList }

def sameOrigin (a b : Address) : Bool := a.scheme == b.scheme && a.authority == b.authority

/-- Does an address ask for the same host in the secure way? -/
def isSecured (a b : Address) : Bool :=
  a.scheme == "http" && b.scheme == "https" && a.authority == b.authority

end Address

end EventRouting
