import EventRouting.Destination.Registry
import EventRouting.Service.Configuration

/-!
# Loading destinations

* `Modules`            what is found under the names of modules
* `Modules.load`       the definition of a module
* `Registry.ofModules` the registry of the definitions of modules
-/

namespace EventRouting

/-- Modules by name; one that has no definition to offer has none. -/
abbrev Modules := Members (Option Definition)

namespace Modules

def unusable (path : String) : Fault :=
  .mishap .misfit (some ("Module " ++ Text.quoted path
    ++ " does not expose a DestinationDefinition as `destination`"))

/-- The names on the way to a dotted name, from the first part on. -/
def prefixes (path : String) : List String :=
  let parts := (path.toList.splitOn '.').map String.ofList
  (List.range parts.length).map fun n => ".".intercalate (parts.take (n + 1))

/-- The fault of a module that is not there.  Below a module that is there nothing else is found. -/
def missing (modules : Modules) (path : String) : Fault :=
  let names := prefixes path
  let found := names.takeWhile modules.contains
  let first := (names[found.length]?).getD path
  .mishap .missingModule (some ("No module named " ++ Text.quoted first
    ++ (match found.getLast? with
      | some parent => "; " ++ Text.quoted parent ++ " is not a package"
      | none => "")))

def load (modules : Modules) (path : String) : Except Fault Definition :=
  if path.isEmpty then .error (.badValue "Empty module name")
  else
    match modules.get? path with
    | some (some d) => .ok d
    | some none => .error (unusable path)
    | none =>
      if path.toList.head? = some '.' then .error .wrongShape else .error (modules.missing path)

end Modules

/-- How the runs of the destinations of a configuration are set up. -/
def Configuration.setup (c : Configuration) : Setup where
  base := Factory.baseWith c.userAgent (.num (.float c.requestTimeout))
  placeholder := .str c.redactionPlaceholder
  probeTimeout := .num (.float c.credentialTestTimeout)

namespace Registry

def registerDefinition (r : Registry) (d : Definition) (setup : Setup) : Except Fault Registry := do
  r.register (← Destination.ofDefinition d setup)

def addModules (modules : Modules) (setup : Setup) (r : Registry) : List String → Except Fault Registry
  | [] => .ok r
  | path :: rest => do
    let r ← r.registerDefinition (← modules.load path) setup
    addModules modules setup r rest

def ofModules (modules : Modules) (paths : List String) (c : Configuration) : Except Fault Registry :=
  addModules modules c.setup empty paths

def ofDefinitions (definitions : List Definition) (setup : Setup) : Except Fault Registry :=
  definitions.foldlM (fun r d => r.registerDefinition d setup) empty

end Registry

end EventRouting
