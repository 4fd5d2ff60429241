import EventRouting.Destination.Run

/-!
# Trials

One action of a destination run by itself, without subscriptions.

* `SampleEvent.event`   an event to try things with
* `Trial.run`           one action run on an event
-/

namespace EventRouting

namespace SampleEvent

def page : Json :=
  .obj [("path", .str "/academy/"), ("referrer", .str ""), ("search", .str ""),
    ("title", .str "Analytics Academy"), ("url", .str "https://segment.com/academy/")]

def context : Json :=
  .obj [("ip", .str "8.8.8.8"),
    ("library", .obj [("name", .str "analytics.js"), ("version", .str "2.11.1")]),
    ("locale", .str "en-US"), ("page", page),
    ("userAgent", .str "Mozilla/5.0 (Macintosh; Intel Mac OS X 10_12_1) AppleWebKit/537.36")]

/-- A track event with identifiers and a time of its own, some of its members replaced. -/
def event (anonymousId messageId now : String) (overrides : Members Json) : Members Json :=
  Members.update
    [("anonymousId", .str anonymousId), ("context", context), ("event", .str "Test Event"),
      ("messageId", .str messageId), ("properties", .obj []), ("receivedAt", .str now),
      ("sentAt", .str now), ("timestamp", .str now), ("traits", .obj []), ("type", .str "track"),
      ("userId", .str "user1234")] overrides

end SampleEvent

namespace Trial

def run (d : Destination) (slug : String) (event mapping settings : Json) :
    Attempt (List StepResult) := do
  let a ← Attempt.ofExcept (d.action slug)
  let payload ← Attempt.ofExcept event.namedValues
  let settings ← Attempt.ofExcept (if settings.isTruthy then settings.namedValues else .ok [])
  let mapping ← Attempt.ofExcept
    (if mapping = .null then .ok .null else mapping.namedValues.map .obj)
  Strand.bind (a.execute d.slug d.factory ⟨.obj payload, .obj settings, mapping, []⟩) fun
    | (_, outcome) => Strand.done outcome

end Trial

end EventRouting
