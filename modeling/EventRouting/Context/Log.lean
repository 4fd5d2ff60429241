import EventRouting.Json.Names
import EventRouting.Text.Case

/-!
# Log lines

* `LogLevel`         the five levels, with `LogLevel.ofJson`
* `LogLine`          a level and named values in order
* `Logger.line`      the line of a message with the values of a logger and those of the message
-/

namespace EventRouting

inductive LogLevel where
  | debug
  | info
  | warning
  | error
  | critical
deriving DecidableEq, Inhabited

namespace LogLevel

def name : LogLevel → String
  | debug => "debug"
  | info => "info"
  | warning => "warning"
  | error => "error"
  | critical => "critical"

/-- The name of a level in the log itself. -/
def heading (l : LogLevel) : String := Text.upper l.name

def ofName? : String → Option LogLevel
  | "debug" => some debug
  | "info" => some info
  | "warning" => some warning
  | "error" => some error
  | "critical" => some critical
  | _ => none

/-- The level of a text in any case; `warn` is short for a warning. -/
def ofText (s : String) : Except Fault LogLevel :=
  let lowered := Text.lower s
  let name := if lowered == "warn" then "warning" else lowered
  match ofName? name with
  | some l => .ok l
  | none => .error (.badValue (Text.quoted name ++ " is not a valid LogLevel"))

def ofJson : Json → Except Fault LogLevel
  | .str s => ofText s
  | _ => .error .wrongShape

@[simp] theorem ofName?_name (l : LogLevel) : ofName? l.name = some l := by cases l <;> rfl

end LogLevel

structure LogLine where
  level : LogLevel
  record : Members Json
deriving DecidableEq, Inhabited

/-- What all lines of a logger say. -/
structure Logger where
  context : Members Json
deriving Inhabited

/-- The line of a message.  The values of the message win over those of the logger, and both over the level
and the message themselves. -/
def Logger.line (l : Logger) (level : LogLevel) (message : Json) (values : Members Json) : LogLine :=
  let record : Members Json := [("level", .str level.name), ("message", message)]
  ⟨level, (record.update l.context).update values⟩

end EventRouting
