import CavityConsole.CommandLine.Run
import CavityConsole.Job.Wire
import CavityConsole.Main
import CavityConsole.Notification.Decoding
import CavityConsole.Session.Basic
import CavityConsole.Settings.Loading
import CavityConsole.Proofs.Outcome
import CavityConsole.Proofs.Dispatch.Delivery
import CavityConsole.Proofs.Transport.Framing
import CavityConsole.Proofs.Transport.Reading
import CavityConsole.Proofs.Console.Correlation
import CavityConsole.Proofs.Session.Feeding
import CavityConsole.Proofs.Session.Pipeline
import CavityConsole.Proofs.Console.Overtaking
import CavityConsole.Proofs.Binary.Magnitude
import CavityConsole.Proofs.Decimal.Scientific
import CavityConsole.Proofs.Json.Numeral
import CavityConsole.Proofs.Json.Fragment
import CavityConsole.Proofs.Job.Wire
import CavityConsole.Proofs.Console.Outgoing
import CavityConsole.Proofs.Notification.Members
import CavityConsole.Proofs.Notification.Meaning
import CavityConsole.Proofs.Dispatch.Trace
import CavityConsole.Proofs.Session.Separation
import CavityConsole.Proofs.Console.Accounting
import CavityConsole.Proofs.Text.Digits
import CavityConsole.Proofs.Time.Tokens
import CavityConsole.Proofs.Time.RoundTrip
import CavityConsole.Proofs.Json.Grammar
import CavityConsole.Proofs.Json.Language
import CavityConsole.Proofs.Json.Arrangement
import CavityConsole.Proofs.Protocol.Line
import CavityConsole.Proofs.Decimal.Reread
import CavityConsole.Proofs.Json.DecimalText
import CavityConsole.Proofs.Job.RoundTrip
import CavityConsole.Proofs.Console.Payload
import CavityConsole.Proofs.Session.Arrivals
import CavityConsole.Proofs.Session.Calls
import CavityConsole.Proofs.Session.Exchange
import CavityConsole.Proofs.Session.Cache
import CavityConsole.Proofs.CommandLine.Printing
import CavityConsole.Proofs.CommandLine.Watching
import CavityConsole.Proofs.Decimal.Scaling
import CavityConsole.Proofs.Json.Real
import CavityConsole.Proofs.Json.Printed
import CavityConsole.Proofs.Session.Logging
import CavityConsole.Proofs.Transport.LineEndings
import CavityConsole.Proofs.Notification.Text
import CavityConsole.Proofs.CommandLine.Lines
import CavityConsole.Proofs.Binary.Rounds
import CavityConsole.Proofs.Decimal.Typed
import CavityConsole.Proofs.Text.Typing
import CavityConsole.Proofs.Job.Acceptance
import CavityConsole.Proofs.Job.Value
import CavityConsole.Proofs.Job.Input
import CavityConsole.Proofs.Notification.Running
import CavityConsole.Proofs.Job.Survival
import CavityConsole.Proofs.CommandLine.Selection
import CavityConsole.Proofs.Time.Days
import CavityConsole.Proofs.Time.Instant
import CavityConsole.Proofs.Time.Spelling
import CavityConsole.Proofs.Time.Forms
import CavityConsole.Proofs.CommandLine.Division
import CavityConsole.Proofs.CommandLine.Spelling
import CavityConsole.Proofs.CommandLine.Pending
import CavityConsole.Proofs.CommandLine.Recognition
import CavityConsole.Proofs.CommandLine.Asking
import CavityConsole.Proofs.CommandLine.OneShot
import CavityConsole.Proofs.Transport.Endpoint
import CavityConsole.Proofs.Transport.Buffer
import CavityConsole.Proofs.Settings.Layering
