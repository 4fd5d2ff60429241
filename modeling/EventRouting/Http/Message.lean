import EventRouting.Http.Address
import EventRouting.Json.Read
import EventRouting.Json.Write
import EventRouting.Members

/-!
# Requests and answers

* `Request`            what is sent to a partner
* `Response`           what a partner answers
* `Response.document`  the document in an answer
* `Response.toOutput`  an answer as a value: its status, and its document or else its text
* `Response.isSuccess`, `Response.redirect?`
-/

namespace EventRouting

/-- A request as it is sent.  Header names are in lower case; a name may occur twice. -/
structure Request where
  method : String
  address : Address
  headers : List (String × String)
  body : String
  timeout : Json
deriving DecidableEq, Inhabited

structure Response where
  status : Int
  headers : List (String × String)
  body : String
deriving DecidableEq, Inhabited

namespace Request

/-- The value of a header; several of one name are put together. -/
def header? (r : Request) (name : String) : Option String :=
  match (r.headers.filter fun h => h.1 == name).map (·.2) with
  | [] => none
  | vs => some (", ".intercalate vs)

def headerNames (r : Request) : List String := (r.headers.map (·.1)).eraseDups

end Request

namespace Response

def isSuccess (r : Response) : Bool := decide (200 ≤ r.status) && decide (r.status < 300)

def document (r : Response) : Except Json.ReadFault Json := Json.readBytes r.body

def toOutput (r : Response) : Json :=
  .obj [("status", .int r.status),
    ("body", match r.document with | .ok v => v | .error _ => .str r.body)]

def header? (r : Response) (name : String) : Option String :=
  (r.headers.find? fun h => (h.1.toList.map Char.toLower) == name.toList).map (·.2)

/-- Where an answer sends the request on to. -/
def redirect? (r : Response) : Option String :=
  if [301, 302, 303, 307, 308].contains r.status then r.header? "location" else none

end Response

end EventRouting
