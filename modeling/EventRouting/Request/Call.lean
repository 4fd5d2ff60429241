import EventRouting.Http.Message
import EventRouting.Request.Options

/-!
# Calls

A call is a request as a callable asks for it.  The options of the client complete it.

* `Call`              what a callable asks for
* `Query.ofJson`      the parameters of a query
* `Call.encodeBody`   the body of a call, with the kind of its content
* `Call.prepare`      the request of a call under options
* `Request.redirected`  the request that an answer sends on
-/

namespace EventRouting

/-- A request as a callable asks for it.  Null stands for a part that is not given. -/
structure Call where
  method : String
  url : Json
  json : Json
  data : Json
  content : Json
  params : Json
  headers : Json
  timeout : Json
deriving Inhabited, DecidableEq

def Call.get (url : String) : Call := ⟨"get", .str url, .null, .null, .null, .null, .null, .null⟩

/-! ## parameters -/

namespace Query

def valueText : Json → String
  | .null => ""
  | .bool true => "true"
  | .bool false => "false"
  | v => v.display

/-- The texts of a parameter: one for each item of a list. -/
def valueTexts : Json → List String
  | .arr items => items.map valueText
  | v => [valueText v]

def ofText (s : String) : Members (List String) :=
  let word (cs : List Char) : String :=
    String.ofList (Percent.decode (cs.map fun c => if c == '+' then ' ' else c))
  ((s.toList.splitOn '&').filter (!·.isEmpty)).foldl (fun acc cs =>
    let name := word (cs.takeWhile (· != '='))
    let value := word ((cs.dropWhile (· != '=')).tail)
    Members.set acc name ((Members.get? acc name).getD [] ++ [value])) []

def addPair (acc : Members (List String)) (v : Json) : Except Fault (Members (List String)) :=
  match v with
  | .arr (k :: x :: _) =>
    .ok (Members.set acc k.display ((Members.get? acc k.display).getD [] ++ [valueText x]))
  | _ => .error .wrongShape

/-- The parameters that a value stands for, each with its texts. -/
def ofJson : Json → Except Fault (Members (List String))
  | .null => .ok []
  | .obj ms => .ok (ms.map fun m => (m.1, valueTexts m.2))
  | .str s => .ok (ofText s)
  | .arr items => items.foldlM addPair []
  | _ => .error .wrongShape

def text (ps : Members (List String)) : String :=
  Percent.form (ps.flatMap fun p => p.2.map fun v => (p.1, v))

end Query

/-! ## headers -/

namespace Headers

def numberText (c : Char) : List Char :=
  if c.toNat < 256 then '\\' :: 'x' :: Text.hexDigits 2 c.toNat
  else if c.toNat < 65536 then '\\' :: 'u' :: Text.hexDigits 4 c.toNat
  else '\\' :: 'U' :: Text.hexDigits 8 c.toNat

/-- The message about characters that no header may hold. -/
def unencodableText (s : String) : String :=
  let cs := s.toList
  let start := (cs.takeWhile fun c => decide (c.toNat < 128)).length
  let run := (cs.drop start).takeWhile fun c => decide (128 ≤ c.toNat)
  match run with
  | [c] =>
    "'ascii' codec can't encode character " ++ String.ofList ('\'' :: (numberText c ++ ['\'']))
      ++ " in position " ++ toString start ++ ": ordinal not in range(128)"
  | _ =>
    "'ascii' codec can't encode characters in position " ++ toString start ++ "-"
      ++ toString (start + run.length - 1) ++ ": ordinal not in range(128)"

def asciiText (s : String) : Except Fault String :=
  if s.toList.all fun c => decide (c.toNat < 128) then .ok s
  else .error (.mishap .unencodable (some (unencodableText s)))

def encodeOne (name : String) (value : Json) : Except Fault (String × String) := do
  let name ← asciiText name
  match value with
  | .str s => return (String.ofList (name.toList.map Char.toLower), ← asciiText s)
  | _ => .error .wrongShape

def encodeAll : Members Json → Except Fault (List (String × String))
  | [] => .ok []
  | (k, v) :: rest => do return (← encodeOne k v) :: (← encodeAll rest)

def encodePair (v : Json) : Except Fault (String × String) :=
  match v with
  | .arr [.str k, x] => encodeOne k x
  | _ => .error .wrongShape

def encode : Json → Except Fault (List (String × String))
  | .null => .ok []
  | .obj ms => encodeAll ms
  | .arr items => items.mapM encodePair
  | _ => .error .wrongShape

/-- A second list of headers after a first without those of the same names. -/
def override (hs above : List (String × String)) : List (String × String) :=
  hs.filter (fun h => !above.any fun a => a.1 == h.1) ++ above

end Headers

/-! ## bodies -/

namespace Call

/-- A body, and the kind of its content where that is known. -/
structure Body where
  text : String
  kind : Option String

def Body.empty : Body := ⟨"", none⟩

/-- A text as a body; a list would have to be sent piece by piece. -/
def rawBody : Json → Except Fault Body
  | .str s => .ok ⟨s, none⟩
  | .arr _ => .error (.mishap .runtime
      (some "Attempted to send an sync request with an AsyncClient instance."))
  | _ => .error .wrongShape

def formBody (ms : Members Json) : Body :=
  ⟨Percent.form (ms.flatMap fun m => (Query.valueTexts m.2).map fun v => (m.1, v)),
    some "application/x-www-form-urlencoded"⟩

def documentBody (v : Json) : Except Fault Body :=
  if v.hasDocument then .ok ⟨Json.write Json.compactText v, some "application/json"⟩
  else .error (.badValue "Out of range float values are not JSON compliant")

/-- The body of a call.  Content stands before a form, a form before a document. -/
def encodeBody (c : Call) : Except Fault Body :=
  match c.data, c.content with
  | .obj ms, .null =>
    if !ms.isEmpty then .ok (formBody ms)
    else if c.json = .null then .ok Body.empty
    else documentBody c.json
  | .obj _, content => rawBody content
  | .null, .null => if c.json = .null then .ok Body.empty else documentBody c.json
  | .null, content => rawBody content
  | data, _ => rawBody data

/-! ## requests -/

/-- The query of a call: its own parameters win over those of the options, and any at all replace the
query of the address. -/
def query (o : Options) (c : Call) (address : Address) : Except Fault Address := do
  let own := o.resolvedParams
  if !own.isEmpty || c.params.isTruthy then
    let merged := Members.update (← Query.ofJson (.obj own)) (← Query.ofJson c.params)
    return address.withQuery (if merged.isEmpty then none else some (Query.text merged))
  else if c.params = .null then return address
  else
    let _ ← Query.ofJson c.params
    return address.withQuery none

def readUrl : Json → Except Fault Address
  | .str s => Address.read s
  | _ => .error .wrongShape

/-- The base of the options, null or empty for none. -/
def base (o : Options) : Except Fault Address := do
  (← readUrl (if o.baseUrl.isTruthy then o.baseUrl else .str "")).asBase

/-- How long a client waits when nothing else is said. -/
def defaultTimeout : Json := .num (.float (Binary64.ofInt 10))

def timeoutOf (o : Options) (c : Call) : Json :=
  if c.timeout ≠ .null then c.timeout
  else if o.timeout ≠ .null then o.timeout
  else defaultTimeout

def prepare (o : Options) (c : Call) : Except Fault Request := do
  let base ← base o
  let ownHeaders ← Headers.encodeAll o.resolvedHeaders
  let address ← (← readUrl c.url).under base
  let headers := Headers.override ownHeaders (← Headers.encode c.headers)
  let address ← query o c address
  let body ← c.encodeBody
  let kind := match body.kind with
    | some k => if headers.any fun h => h.1 == "content-type" then [] else [("content-type", k)]
    | none => []
  return ⟨Text.upper c.method, address, headers ++ kind, body.text, timeoutOf o c⟩

end Call

/-! ## redirects -/

namespace Request

def redirectMethod (method : String) (status : Int) : String :=
  if (status = 303 || status = 302) && method != "HEAD" then "GET"
  else if status = 301 && method == "POST" then "GET"
  else method

def redirectAddress (r : Request) (location : String) : Except Fault Address := do
  let a ← match Address.read location with
    | .ok a => Except.ok a
    | .error e =>
      .error (.transport .remoteProtocolError ("Invalid URL in location header: " ++ e.message ++ "."))
  let a := if !a.scheme.isEmpty && a.authority.isEmpty
    then { a with authority := r.address.authority } else a
  let a ← if a.isRelative then a.resolve r.address else .ok a
  return if r.address.fragment.isSome && a.fragment.isNone
    then { a with fragment := r.address.fragment } else a

/-- A request sent on by an answer.  Credentials stay with the host that they are for, and a request that
has become a `GET` has no body. -/
def redirected (r : Request) (status : Int) (location : String) : Except Fault Request := do
  let address ← r.redirectAddress location
  let method := redirectMethod r.method status
  let keepsCredentials := r.address.sameOrigin address || r.address.isSecured address
  return { r with
    method := method
    address := address
    headers := r.headers.filter fun h => (keepsCredentials || h.1 != "authorization") && h.1 != "cookie"
    body := if method != r.method && method == "GET" then "" else r.body }

end Request

end EventRouting
