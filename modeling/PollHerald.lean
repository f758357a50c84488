import PollHerald.Binary64
import PollHerald.Bot.Channel
import PollHerald.Bot.Loop
import PollHerald.Bot.Machine
import PollHerald.Bot.Rehearsal
import PollHerald.Cast
import PollHerald.Clock
import PollHerald.Command
import PollHerald.CommandLine
import PollHerald.Configuration
import PollHerald.Crypto.Blake3
import PollHerald.Crypto.Ed25519
import PollHerald.Crypto.Sha512
import PollHerald.Crypto.Words
import PollHerald.Hex
import PollHerald.Hub.Client
import PollHerald.Hub.Dialogue
import PollHerald.Hub.Error
import PollHerald.Hub.Headers
import PollHerald.Hub.Message
import PollHerald.Hub.Operation
import PollHerald.Hub.Request
import PollHerald.Hub.Transfer
import PollHerald.Identity
import PollHerald.Journal
import PollHerald.Journal.Filter
import PollHerald.Json.Fields
import PollHerald.Json.Printer
import PollHerald.Json.Reader
import PollHerald.Json.Token
import PollHerald.Json.Value
import PollHerald.Main
import PollHerald.Mention.Compose
import PollHerald.Mention.Decompose
import PollHerald.Mention.Error
import PollHerald.Mention.Token
import PollHerald.Poll.Duration
import PollHerald.Poll.Error
import PollHerald.Poll.Grammar
import PollHerald.Poll.Limits
import PollHerald.Proofs.Binary64
import PollHerald.Proofs.Bot.Blocking
import PollHerald.Proofs.Bot.Breaking
import PollHerald.Proofs.Bot.Course
import PollHerald.Proofs.Bot.Delivery
import PollHerald.Proofs.Bot.Desertion
import PollHerald.Proofs.Bot.Ending
import PollHerald.Proofs.Bot.Isolation
import PollHerald.Proofs.Bot.Lifetime
import PollHerald.Proofs.Bot.Loop
import PollHerald.Proofs.Bot.Machine
import PollHerald.Proofs.Bot.Polls
import PollHerald.Proofs.Bot.Stream
import PollHerald.Proofs.Bot.Visibility
import PollHerald.Proofs.Clock
import PollHerald.Proofs.Command.Announcement
import PollHerald.Proofs.Command.Document
import PollHerald.Proofs.Command.Effects
import PollHerald.Proofs.Command.Reply
import PollHerald.Proofs.Hub.Attempt
import PollHerald.Proofs.Hub.Batch
import PollHerald.Proofs.Hub.Document
import PollHerald.Proofs.Hub.Fetch
import PollHerald.Proofs.Hub.Headers
import PollHerald.Proofs.Hub.Once
import PollHerald.Proofs.Hub.Overflow
import PollHerald.Proofs.Hub.Poll
import PollHerald.Proofs.Hub.Prefetch
import PollHerald.Proofs.Hub.Profile
import PollHerald.Proofs.Hub.Publish
import PollHerald.Proofs.Hub.Rereading
import PollHerald.Proofs.Hub.Retention
import PollHerald.Proofs.Hub.Run
import PollHerald.Proofs.Hub.Session
import PollHerald.Proofs.Hub.Since
import PollHerald.Proofs.Hub.Steady
import PollHerald.Proofs.Hub.Turn
import PollHerald.Proofs.Json.Content
import PollHerald.Proofs.Json.Printer
import PollHerald.Proofs.Json.Reader
import PollHerald.Proofs.Json.Spelling
import PollHerald.Proofs.Json.Strict
import PollHerald.Proofs.Mention.Compose
import PollHerald.Proofs.Mention.Decompose
import PollHerald.Proofs.Mention.Insertion
import PollHerald.Proofs.Mention.Joined
import PollHerald.Proofs.Mention.Occurrence
import PollHerald.Proofs.Mention.Order
import PollHerald.Proofs.Mention.Placement
import PollHerald.Proofs.Mention.RoundTrip
import PollHerald.Proofs.Mention.Spelling
import PollHerald.Proofs.Poll.Components
import PollHerald.Proofs.Poll.Duration
import PollHerald.Proofs.Poll.Grammar
import PollHerald.Proofs.Poll.Limits
import PollHerald.Proofs.Poll.Parts
import PollHerald.Proofs.Poll.Spelling
import PollHerald.Proofs.Record
import PollHerald.Proofs.Text.Blank
import PollHerald.Proofs.Text.Bytes
import PollHerald.Proofs.Text.Pattern
import PollHerald.Proofs.Wire.Field
import PollHerald.Proofs.Wire.Message
import PollHerald.Proofs.Wire.Signed
import PollHerald.Record
import PollHerald.Service
import PollHerald.Startup
import PollHerald.Text.Blank
import PollHerald.Text.Bytes
import PollHerald.Text.Decode
import PollHerald.Text.Digit
import PollHerald.Text.Lines
import PollHerald.Text.Quoted
import PollHerald.Text.Span
import PollHerald.Text.Terminal
import PollHerald.Text.Unshown
import PollHerald.Width
import PollHerald.Wire.Field
import PollHerald.Wire.Message
import PollHerald.Wire.Signed
import PollHerald.Yaml.BlockScalar
import PollHerald.Yaml.Cursor
import PollHerald.Yaml.Directive
import PollHerald.Yaml.Document
import PollHerald.Yaml.Fields
import PollHerald.Yaml.Node
import PollHerald.Yaml.Scalar
import PollHerald.Yaml.Tag
import PollHerald.Yaml.Token
