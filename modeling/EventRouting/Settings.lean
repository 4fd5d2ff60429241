import EventRouting.Json.Names

/-!
# Settings

* `Settings.redact`        the settings with a placeholder under every private name
* `Settings.subscriptionsKey`, `Settings.withoutSubscriptions`   the part that is not for partners
-/

namespace EventRouting.Settings

/-- The name under which settings hold the subscriptions. -/
def subscriptionsKey : String := "subscriptions"

def redactedText : String := "***"

/-- What stands in place of a private setting. -/
def redacted : Json := .str redactedText

def withoutSubscriptions (settings : Members Json) : Members Json := settings.without [subscriptionsKey]

/-- Every setting under a private name is replaced; names that are not there are not added. -/
def redact (settings : Members Json) (isPrivate : List String) (placeholder : Json) : Members Json :=
  settings.map fun m => (m.1, if isPrivate.contains m.1 then placeholder else m.2)

end EventRouting.Settings
