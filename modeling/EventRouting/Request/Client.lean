import EventRouting.World.Strand

/-!
# Clients

A client sends requests under one set of options.

* `Client.send`       a request, sent on as its answers tell
* `Client.exchange`   a call and its answer; an answer that is no success is a fault
* `Client.converse`   the talk of a callable
* `Factory`           the base of the options of clients, and the extensions over it
-/

namespace EventRouting

namespace Client

def maxRedirects : Nat := 20

/-- One request and its answer.  An answer is kept only for an address with a scheme. -/
def sendOnce (r : Request) : Attempt Response := do
  let answer ← (Strand.request (.ask r) : Attempt Response)
  if r.address.scheme.isEmpty then
    throw (.badValue ("unknown url type: " ++ Text.quoted r.address.text))
  return answer

/-- A request and its answer, which may send it on. -/
def send (follow : Bool) (hops : Nat) (r : Request) : Attempt (Request × Response) := do
  let answer ← sendOnce r
  match answer.redirect? with
  | none => return (r, answer)
  | some location =>
    let next ← Attempt.ofExcept (r.redirected answer.status location)
    if !follow then return (r, answer)
    match hops with
    | 0 => throw (.transport .tooManyRedirects "Exceeded maximum allowed redirects.")
    | hops + 1 => send follow hops next

def refusal (c : Call) (sent : Request) (answer : Response) : Fault :=
  .request (Text.upper c.method ++ " " ++ sent.address.text ++ " failed with status "
    ++ toString answer.status) (some answer.status)

def exchange (o : Options) (c : Call) : Attempt Response := do
  let r ← Attempt.ofExcept (c.prepare o)
  let (sent, answer) ← send o.followRedirects.isTruthy maxRedirects r
  if o.throwHttpErrors != .bool false && !answer.isSuccess then throw (refusal c sent answer)
  return answer

def converse (o : Options) : Talk → Attempt Reply
  | .fail f => throw f
  | .give v => return .value v
  | .pass r => return .response r
  | .ask c next => Strand.bind (exchange o c).outcome fun answer => converse o (next answer)

end Client

/-- Where clients come from: the base of their options, and the extensions over it. -/
structure Factory where
  base : Options
  extensions : List Extension

namespace Factory

def defaultUserAgent : String := "destkit/0.1.0"

/-- The base of options with a user agent and a timeout. -/
def baseWith (userAgent : String) (timeout : Json) : Options :=
  { Options.empty with headers := [("User-Agent", .str userAgent)], timeout := timeout }

def defaultBase : Options := baseWith defaultUserAgent Call.defaultTimeout

instance : Inhabited Factory := ⟨⟨defaultBase, []⟩⟩

def optionsFor (f : Factory) (i : Invocation) : Except Fault Options := f.base.compose i f.extensions

def withBase (f : Factory) (o : Options) : Factory := { f with base := o.layeredOver f.base }

def call (f : Factory) (site : Site) (callable : Callable) (i : Invocation) : Attempt Reply := do
  let o ← Attempt.ofExcept (f.optionsFor i)
  let _ ← (Strand.bind (Strand.request (.enter site)) fun _ => Strand.done (Except.ok ()) : Attempt Unit)
  Client.converse o (callable i)

end Factory

end EventRouting
