import ContentServer.Bytes
import ContentServer.Cache
import ContentServer.Clock
import ContentServer.Codec
import ContentServer.Codec.Stored
import ContentServer.CommandLine
import ContentServer.Console
import ContentServer.Disk
import ContentServer.Fault
import ContentServer.Fault.System
import ContentServer.FileTree
import ContentServer.Http.Coding
import ContentServer.Http.Date
import ContentServer.Http.Field
import ContentServer.Http.MediaType
import ContentServer.Http.Method
import ContentServer.Http.Request
import ContentServer.Http.Response
import ContentServer.Http.Status
import ContentServer.Main
import ContentServer.Proofs.Cache.KeyedMap
import ContentServer.Proofs.Cache.Looks
import ContentServer.Proofs.Cache.Names
import ContentServer.Proofs.Cache.Rows
import ContentServer.Proofs.FileTree.Lookup
import ContentServer.Proofs.Http.Acceptance
import ContentServer.Proofs.Http.BodyLength
import ContentServer.Proofs.Http.Framing
import ContentServer.Proofs.Http.Heads
import ContentServer.Proofs.Http.Likeness
import ContentServer.Proofs.Http.Negotiation
import ContentServer.Proofs.Http.Options
import ContentServer.Proofs.Http.Parsing
import ContentServer.Proofs.Http.Verdicts
import ContentServer.Proofs.Http.Writing
import ContentServer.Proofs.Server.Drain
import ContentServer.Proofs.Session.Begun
import ContentServer.Proofs.Session.Complete
import ContentServer.Proofs.Session.Deadlines
import ContentServer.Proofs.Session.Messages
import ContentServer.Proofs.Session.Persistence
import ContentServer.Proofs.Session.Progress
import ContentServer.Proofs.Session.Reads
import ContentServer.Proofs.Session.Remainders
import ContentServer.Proofs.Session.Replies
import ContentServer.Proofs.Session.Reports
import ContentServer.Proofs.Session.Steps
import ContentServer.Proofs.Session.Stopping
import ContentServer.Proofs.Session.Stream
import ContentServer.Proofs.Settings.Timeouts
import ContentServer.Proofs.Site.Answers
import ContentServer.Proofs.Site.CacheKeys
import ContentServer.Proofs.Site.Caching
import ContentServer.Proofs.Site.Changes
import ContentServer.Proofs.Site.DocumentRoot
import ContentServer.Proofs.Site.Documents
import ContentServer.Proofs.Site.Files
import ContentServer.Proofs.Site.Freshness
import ContentServer.Proofs.Site.HeadRequests
import ContentServer.Proofs.Site.Negotiation
import ContentServer.Proofs.Site.Posts
import ContentServer.Proofs.Site.Queries
import ContentServer.Proofs.Site.Rendering
import ContentServer.Proofs.Site.Titles
import ContentServer.Proofs.Text.Lines
import ContentServer.Proofs.Text.Patterns
import ContentServer.Proofs.Text.Trimming
import ContentServer.Server
import ContentServer.Server.Drain
import ContentServer.Session
import ContentServer.Settings
import ContentServer.Settings.Document
import ContentServer.Site
import ContentServer.Site.Destination
import ContentServer.Site.Library
import ContentServer.Site.Reads
import ContentServer.Site.Rules
import ContentServer.Site.Title
import ContentServer.Text.Blank
import ContentServer.Text.Decimal
import ContentServer.Text.Pattern
import ContentServer.Text.Search
import ContentServer.Toml.Date
import ContentServer.Toml.Document
import ContentServer.Toml.Number
import ContentServer.Toml.Quoted
import ContentServer.Toml.Reader
import ContentServer.Toml.Table
import ContentServer.Toml.Value
import ContentServer.Proofs.Session.Waiting
import ContentServer.Proofs.Console.Protocol
import ContentServer.Proofs.Settings.Precedence
import ContentServer.Proofs.Site.Tenants
