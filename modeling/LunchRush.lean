import LunchRush.Area
import LunchRush.Bounds
import LunchRush.Command.Basic
import LunchRush.Command.Flag
import LunchRush.Command.Run
import LunchRush.Failure
import LunchRush.Files.Disk
import LunchRush.Files.Path
import LunchRush.Files.Store
import LunchRush.Files.System
import LunchRush.Files.Tree
import LunchRush.Fixture
import LunchRush.Gateway.Basic
import LunchRush.Gateway.Error
import LunchRush.Gateway.Memory
import LunchRush.Gateway.Scripted
import LunchRush.Generate.Order
import LunchRush.Generate.Restaurant
import LunchRush.Generate.Words
import LunchRush.Http.Client
import LunchRush.Http.Config
import LunchRush.Http.Exchange
import LunchRush.Http.Script
import LunchRush.Identifier
import LunchRush.Inspection
import LunchRush.Json.Printer
import LunchRush.Json.Reader
import LunchRush.Json.Tree
import LunchRush.Json.Value
import LunchRush.Load.Actor
import LunchRush.Load.Config
import LunchRush.Load.Error
import LunchRush.Load.Outcome
import LunchRush.Load.Report
import LunchRush.Load.Run
import LunchRush.Load.Summary
import LunchRush.Log
import LunchRush.Main
import LunchRush.Menu
import LunchRush.Number.Binary
import LunchRush.Number.Decimal
import LunchRush.Number.Layout
import LunchRush.Number.Quotient
import LunchRush.Number.Rounding
import LunchRush.Number.Shortest
import LunchRush.Order
import LunchRush.Proofs.Files.Atomicity
import LunchRush.Proofs.Files.Directories
import LunchRush.Proofs.Files.Disk
import LunchRush.Proofs.Files.Mirror
import LunchRush.Proofs.Files.Reloading
import LunchRush.Proofs.Files.Saving
import LunchRush.Proofs.Files.Target
import LunchRush.Proofs.Files.Tree
import LunchRush.Proofs.Fixture
import LunchRush.Proofs.Gateway.Answers
import LunchRush.Proofs.Gateway.Identifiers
import LunchRush.Proofs.Gateway.Ledger
import LunchRush.Proofs.Gateway.Operations
import LunchRush.Proofs.Gateway.Orders
import LunchRush.Proofs.Gateway.Recorded
import LunchRush.Proofs.Generate.Coverage
import LunchRush.Proofs.Generate.Order
import LunchRush.Proofs.Generate.Restaurant
import LunchRush.Proofs.Generate.Words
import LunchRush.Proofs.Http.Requests
import LunchRush.Proofs.Http.Responses
import LunchRush.Proofs.Json.Exact
import LunchRush.Proofs.Json.Floats
import LunchRush.Proofs.Json.Grammar
import LunchRush.Proofs.Json.Numerals
import LunchRush.Proofs.Json.Reading
import LunchRush.Proofs.Json.Sorted
import LunchRush.Proofs.Load.Accounts
import LunchRush.Proofs.Load.Budgets
import LunchRush.Proofs.Load.Deeds
import LunchRush.Proofs.Load.Derived
import LunchRush.Proofs.Load.Ending
import LunchRush.Proofs.Load.Orders
import LunchRush.Proofs.Load.Scheduled
import LunchRush.Proofs.Load.Streams
import LunchRush.Proofs.Load.Summary
import LunchRush.Proofs.Load.Thinking
import LunchRush.Proofs.Load.Unordered
import LunchRush.Proofs.Number.Arithmetic
import LunchRush.Proofs.Number.Bits
import LunchRush.Proofs.Number.Decimals
import LunchRush.Proofs.Number.Nearest
import LunchRush.Proofs.Number.Places
import LunchRush.Proofs.Number.Rounded
import LunchRush.Proofs.Number.Rounding
import LunchRush.Proofs.Number.Shortest
import LunchRush.Proofs.Number.Text
import LunchRush.Proofs.Random.Chance
import LunchRush.Proofs.Random.Coverage
import LunchRush.Proofs.Random.Draws
import LunchRush.Proofs.Random.Real
import LunchRush.Proofs.Registration
import LunchRush.Proofs.Results
import LunchRush.Proofs.Rules
import LunchRush.Proofs.Seeding.Accounts
import LunchRush.Proofs.Seeding.Calls
import LunchRush.Proofs.Seeding.Convergence
import LunchRush.Proofs.Seeding.Ensured
import LunchRush.Proofs.Seeding.Failure
import LunchRush.Proofs.Seeding.Logged
import LunchRush.Proofs.Seeding.Repeats
import LunchRush.Proofs.Seeding.Supplies
import LunchRush.Proofs.Text.Bytes
import LunchRush.Proofs.Text.Span
import LunchRush.Proofs.Text.Utf8
import LunchRush.Proofs.Time.Seconds
import LunchRush.Proofs.Url.Blank
import LunchRush.Proofs.Url.Cut
import LunchRush.Proofs.Url.Joining
import LunchRush.Proofs.Url.Segments
import LunchRush.Proofs.Wire.Listings
import LunchRush.Proofs.Wire.Printed
import LunchRush.Proofs.Wire.RoundTrip
import LunchRush.Proofs.Yaml.Block
import LunchRush.Proofs.Yaml.Characters
import LunchRush.Proofs.Yaml.Cursor
import LunchRush.Proofs.Yaml.Lines
import LunchRush.Proofs.Yaml.Node
import LunchRush.Proofs.Yaml.Plain
import LunchRush.Proofs.Yaml.Printer
import LunchRush.Proofs.Yaml.Quoted
import LunchRush.Proofs.Yaml.Scan
import LunchRush.Random.ChaCha
import LunchRush.Random.Real
import LunchRush.Random.Sample
import LunchRush.Random.Source
import LunchRush.Random.Whole
import LunchRush.Registration
import LunchRush.Seeding.Attempt
import LunchRush.Seeding.Report
import LunchRush.Seeding.Run
import LunchRush.Seeding.State
import LunchRush.Text.Base64
import LunchRush.Text.Blank
import LunchRush.Text.Printable
import LunchRush.Text.Quoted
import LunchRush.Text.Utf8
import LunchRush.Time.Duration
import LunchRush.Url.Address
import LunchRush.Url.Basic
import LunchRush.Url.Domain
import LunchRush.Url.Forbidden
import LunchRush.Url.Host
import LunchRush.Url.International
import LunchRush.Url.Names
import LunchRush.Url.Parser
import LunchRush.Url.Path
import LunchRush.Url.Percent
import LunchRush.Url.Punycode
import LunchRush.Violation
import LunchRush.Wire.Aliases
import LunchRush.Wire.Document
import LunchRush.Wire.Form
import LunchRush.Wire.Read
import LunchRush.Wire.Write
import LunchRush.Yaml.Block
import LunchRush.Yaml.Cursor
import LunchRush.Yaml.Gap
import LunchRush.Yaml.Node
import LunchRush.Yaml.Plain
import LunchRush.Yaml.Printer
import LunchRush.Yaml.Quoted
import LunchRush.Yaml.Scan
import LunchRush.Yaml.Schema
import LunchRush.Yaml.Tag
import LunchRush.Yaml.Token
