import EventRouting.Invocation
import EventRouting.Json.Names
import EventRouting.Text.Case

/-!
# Request options

What is the same for all requests of a client, and how it is put together in layers.

* `Options`              the options of a client
* `Options.ofJson`       the options that a value stands for
* `Options.layeredOver`  one layer over another
* `Options.compose`      a layer per extension, over a base
* `Headers.put`          a header set in place of those of the same name in any case
-/

namespace EventRouting

/-! ## named values without regard to case -/

namespace Headers

/-- Two names that differ at most in case. -/
def sameName (a b : String) : Bool := Text.lower a == Text.lower b

/-- A value under a name, in place of all under the same name in any case. -/
def put (hs : Members Json) (name : String) (value : Json) : Members Json :=
  hs.filter (fun h => !sameName h.1 name) ++ [(name, value)]

def present (hs : Members Json) : Members Json := hs.filter fun h => h.2 != .null

/-- A second layer over a first: what it sets wins, and null removes. -/
def layer (below above : Members Json) : Members Json :=
  present (above.foldl (fun acc h => put acc h.1 h.2) below)

theorem sameName_comm (a b : String) : sameName a b = sameName b a := by
  simp [sameName, Bool.beq_comm]

end Headers

/-! ## options -/

/-- Options of a client.  Null stands for an option that is not given. -/
structure Options where
  baseUrl : Json
  headers : Members Json
  params : Members Json
  timeout : Json
  followRedirects : Json
  throwHttpErrors : Json
deriving Inhabited, DecidableEq

namespace Options

def empty : Options := ⟨.null, [], [], .null, .null, .null⟩

inductive Name where
  | baseUrl
  | headers
  | params
  | timeout
  | followRedirects
  | throwHttpErrors
deriving DecidableEq

def Name.ofField? : String → Option Name
  | "base_url" => some .baseUrl
  | "headers" => some .headers
  | "params" => some .params
  | "timeout" => some .timeout
  | "follow_redirects" => some .followRedirects
  | "throw_http_errors" => some .throwHttpErrors
  | _ => none

/-- The option of a field or of another spelling of it. -/
def Name.ofSpelling? (s : String) : Option Name :=
  match s with
  | "baseUrl" | "prefixUrl" => some .baseUrl
  | "searchParams" => some .params
  | "followRedirect" => some .followRedirects
  | "throwHttpErrors" => some .throwHttpErrors
  | _ => Name.ofField? s

def set (o : Options) (name : Name) (v : Json) : Except Fault Options :=
  match name with
  | .baseUrl => .ok { o with baseUrl := v }
  | .headers => v.namedValues.map fun ms => { o with headers := ms }
  | .params => v.namedValues.map fun ms => { o with params := ms }
  | .timeout => .ok { o with timeout := v }
  | .followRedirects => .ok { o with followRedirects := v }
  | .throwHttpErrors => .ok { o with throwHttpErrors := v }

/-- The options of the members of an object, set one after the other. -/
def ofMembers (o : Options) : Members Json → Except Fault Options
  | [] => .ok o
  | (k, v) :: rest =>
    match Name.ofSpelling? k with
    | none => .error (.badValue ("Unknown request option " ++ Text.quoted k))
    | some name =>
      match o.set name v with
      | .error e => .error e
      | .ok o => ofMembers o rest

/-- The options that a value stands for; null stands for none. -/
def ofJson (v : Json) : Except Fault Options :=
  match v with
  | .null => .ok empty
  | .obj ms => ofMembers empty ms
  | _ =>
    .error (.badValue
      ("Request extensions must return a dict or RequestOptions, got " ++ v.kindName))

/-- Options given field by field, without other spellings. -/
def ofFields (o : Options) : Members Json → Except Fault Options
  | [] => .ok o
  | (k, v) :: rest =>
    match Name.ofField? k, v with
    | none, _ => .error .wrongShape
    | some .headers, .obj ms => ofFields { o with headers := ms } rest
    | some .params, .obj ms => ofFields { o with params := ms } rest
    | some .headers, _ | some .params, _ => .error .wrongShape
    | some name, v =>
      match o.set name v with
      | .error e => .error e
      | .ok o => ofFields o rest

def ofObject (v : Json) : Except Fault Options :=
  match v with
  | .obj ms => ofFields empty ms
  | _ => .error .wrongShape

/-- The second value unless it is null. -/
def prefer (below above : Json) : Json := if above = .null then below else above

def layeredOver (above below : Options) : Options where
  baseUrl := prefer below.baseUrl above.baseUrl
  headers := Headers.layer below.headers above.headers
  params := Headers.layer below.params above.params
  timeout := prefer below.timeout above.timeout
  followRedirects := prefer below.followRedirects above.followRedirects
  throwHttpErrors := prefer below.throwHttpErrors above.throwHttpErrors

def resolvedHeaders (o : Options) : Members Json := Headers.present o.headers

def resolvedParams (o : Options) : Members Json := Headers.present o.params

end Options

/-- A layer of options that depends on the invocation. -/
abbrev Extension := Invocation → Except Fault Options

/-- The layers of extensions over a base, from first to last. -/
def Options.compose (base : Options) (i : Invocation) : List Extension → Except Fault Options
  | [] => .ok base
  | e :: rest =>
    match e i with
    | .error f => .error f
    | .ok o => compose (o.layeredOver base) i rest

end EventRouting
