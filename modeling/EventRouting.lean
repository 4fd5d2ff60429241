import EventRouting.Action.Basic
import EventRouting.Action.Builder
import EventRouting.Action.Choices
import EventRouting.Action.Step
import EventRouting.Cache.Basic
import EventRouting.Cache.Session
import EventRouting.Context.Basic
import EventRouting.Context.Log
import EventRouting.Context.Stats
import EventRouting.Decimal.Shortest
import EventRouting.Destination.Basic
import EventRouting.Destination.Registry
import EventRouting.Destination.Run
import EventRouting.Destination.Trial
import EventRouting.Fault
import EventRouting.Field.Basic
import EventRouting.Field.Document
import EventRouting.Http.Address
import EventRouting.Http.Message
import EventRouting.Invocation
import EventRouting.Json.Basic
import EventRouting.Json.Literal
import EventRouting.Json.Names
import EventRouting.Json.Read
import EventRouting.Json.Same
import EventRouting.Json.Write
import EventRouting.Members
import EventRouting.Number.Basic
import EventRouting.Number.Binary64
import EventRouting.Number.Notation
import EventRouting.Number.Reading
import EventRouting.Number.Rounding
import EventRouting.Path.Basic
import EventRouting.Path.Lookup
import EventRouting.Path.Reference
import EventRouting.Pattern.Basic
import EventRouting.Pattern.Read
import EventRouting.Predicate.Basic
import EventRouting.Predicate.Encoding
import EventRouting.Predicate.Fault
import EventRouting.Predicate.Parse
import EventRouting.Predicate.Shorthand
import EventRouting.Predicate.Token
import EventRouting.Proofs.Predicate.Grammar
import EventRouting.Proofs.Predicate.Lexeme
import EventRouting.Proofs.Predicate.Tiling
import EventRouting.Proofs.Predicate.Word
import EventRouting.Request.Call
import EventRouting.Request.Client
import EventRouting.Request.Options
import EventRouting.Request.Talk
import EventRouting.Schema.Basic
import EventRouting.Schema.Format
import EventRouting.Schema.Read
import EventRouting.Schema.Violation
import EventRouting.Script.Action
import EventRouting.Script.Callable
import EventRouting.Script.Definition
import EventRouting.Script.Fault
import EventRouting.Script.Partner
import EventRouting.Service.Basic
import EventRouting.Service.Body
import EventRouting.Service.Configuration
import EventRouting.Service.Loading
import EventRouting.Service.Route
import EventRouting.Settings
import EventRouting.StepResult
import EventRouting.Subscription
import EventRouting.Template.Basic
import EventRouting.Template.Draft
import EventRouting.Template.Interpolation
import EventRouting.Template.Parse
import EventRouting.Text.Blank
import EventRouting.Text.Case
import EventRouting.Text.Digit
import EventRouting.Text.Integer
import EventRouting.Text.Printable
import EventRouting.Text.Quoted
import EventRouting.Text.Range
import EventRouting.Text.Word
import EventRouting.World.Basic
import EventRouting.World.Strand
import EventRouting.Proofs.Predicate.Reading
import EventRouting.Proofs.Template.Malformed
import EventRouting.Proofs.Template.Walk
import EventRouting.Proofs.Template.Validity
import EventRouting.Proofs.Cache.Flights
import EventRouting.Proofs.Cache.SingleFlight
import EventRouting.Proofs.World.Interleaving
import EventRouting.Proofs.World.Progress
import EventRouting.Proofs.Action.Orderly
import EventRouting.Proofs.Destination.Story
import EventRouting.Proofs.Destination.FanOut
import EventRouting.Proofs.Field.RoundTrip
import EventRouting.Proofs.Request.Layers
import EventRouting.Proofs.Template.References
import EventRouting.Proofs.Predicate.Clash
import EventRouting.Proofs.Subscription.FailClosed
import EventRouting.Proofs.Text.Decimal
import EventRouting.Proofs.Json.Text
import EventRouting.Proofs.Predicate.Lexing
import EventRouting.Proofs.Path.Written
import EventRouting.Proofs.Predicate.Printing
import EventRouting.Proofs.Number.Order
import EventRouting.Proofs.Cache.Freshness
import EventRouting.Proofs.Action.Pipeline
import EventRouting.Proofs.World.Uncached
import EventRouting.Proofs.Destination.Independence
import EventRouting.Proofs.Template.Compositional
import EventRouting.Proofs.Predicate.Reencoding
import EventRouting.Proofs.Destination.Privacy
import EventRouting.Proofs.Cache.Invalidation
import EventRouting.Proofs.Cache.Accounts
import EventRouting.Proofs.Template.Merge
import EventRouting.Proofs.Template.Settling
import EventRouting.Proofs.Template.Plain
import EventRouting.Proofs.Template.Interpolation
import EventRouting.Proofs.Request.Parameters
import EventRouting.Proofs.Field.Enforcement
import EventRouting.Proofs.Json.Equality
import EventRouting.Proofs.Path.Addressing
import EventRouting.Proofs.Path.Joining
import EventRouting.Proofs.Predicate.Equality
import EventRouting.Proofs.Predicate.Negation
import EventRouting.Proofs.Predicate.Scope
import EventRouting.Proofs.Predicate.Viable
import EventRouting.Proofs.Subscription.Reencoding
import EventRouting.Proofs.Request.Sent
import EventRouting.Proofs.Destination.Credentials
import EventRouting.Proofs.Service.Accounting
import EventRouting.Proofs.Context.Buffer
import EventRouting.Proofs.Number.Range
import EventRouting.Proofs.Context.Summary
import EventRouting.Proofs.Action.Compiling
import EventRouting.Proofs.Destination.Choices
