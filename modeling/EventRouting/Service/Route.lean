import EventRouting.Http.Address
import EventRouting.Text.Case

/-!
# Routes

* `Route`              what a service can be asked for
* `Route.ofPath?`      the route of a path
* `Route.method`       the method that a route is asked with
* `Routing.find`       the route of a request, or why there is none
-/

namespace EventRouting

inductive Route where
  | destinations
  | events (slug : String)
  | authentication (slug : String)
  | autocomplete (slug action field : String)
  | health
deriving DecidableEq, Inhabited

namespace Route

def method : Route → String
  | destinations | health => "GET"
  | events _ | authentication _ | autocomplete .. => "POST"

def ofNames? : List String → Option Route
  | ["v1", "destinations"] => some destinations
  | ["v1", "destinations", slug, "events"] => if slug.isEmpty then none else some (events slug)
  | ["v1", "destinations", slug, "authentication"] =>
    if slug.isEmpty then none else some (authentication slug)
  | ["v1", "destinations", slug, "actions", action, "fields", field, "autocomplete"] =>
    if slug.isEmpty || action.isEmpty || field.isEmpty then none
    else some (autocomplete slug action field)
  | ["health"] => some health
  | _ => none

def ofPath? (path : String) : Option Route :=
  match path.toList with
  | '/' :: cs => ofNames? ((cs.splitOn '/').map String.ofList)
  | _ => none

def withoutSlashes (path : String) : String :=
  String.ofList ((path.toList.reverse.dropWhile (· == '/')).reverse)

end Route

/-- What becomes of a request before it reaches a route. -/
inductive Routing where
  | found (route : Route) (path : String)
  | notFound
  | methodNotAllowed
deriving DecidableEq, Inhabited

namespace Routing

/-- The route of a request.  A path with slashes at its end is taken without them. -/
def find (method path : String) : Routing :=
  let answer (path : String) : Option Routing := (Route.ofPath? path).map fun r =>
    if r.method == Text.upper method then found r path else methodNotAllowed
  ((answer path).orElse fun _ => answer (Route.withoutSlashes path)).getD notFound

/-- The path of a target as it is understood. -/
def pathOf (target : String) : String :=
  String.ofList (Percent.decode (target.toList.takeWhile fun c => c != '?' && c != '#'))

end Routing

end EventRouting
