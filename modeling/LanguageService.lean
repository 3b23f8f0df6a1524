import LanguageService.Buffer
import LanguageService.Command.Grammar
import LanguageService.Command.Run
import LanguageService.Command.Usage
import LanguageService.Disk.Basic
import LanguageService.Disk.Path
import LanguageService.Fault
import LanguageService.Index
import LanguageService.Json.Inspect
import LanguageService.Json.Order
import LanguageService.Json.Parser
import LanguageService.Json.Printer
import LanguageService.Json.Value
import LanguageService.Language.Finding
import LanguageService.Language.Outline
import LanguageService.Language.Scanner
import LanguageService.Language.Token
import LanguageService.Language.Vocabulary
import LanguageService.Main
import LanguageService.Number.Double
import LanguageService.Number.Integer
import LanguageService.Number.Shortest
import LanguageService.Proofs.Command.Check
import LanguageService.Proofs.Command.LineEnds
import LanguageService.Proofs.Disk.Handles
import LanguageService.Proofs.Disk.Paths
import LanguageService.Proofs.Json.RoundTrip
import LanguageService.Proofs.Language.Declarations
import LanguageService.Proofs.Language.Extents
import LanguageService.Proofs.Language.Grammar
import LanguageService.Proofs.Language.Lexemes
import LanguageService.Proofs.Language.Literals
import LanguageService.Proofs.Language.Locality
import LanguageService.Proofs.Language.Malformed
import LanguageService.Proofs.Language.Positions
import LanguageService.Proofs.Language.Windows
import LanguageService.Proofs.Language.Words
import LanguageService.Proofs.Number.Decimal
import LanguageService.Proofs.Query.Agreement
import LanguageService.Proofs.Query.Cursor
import LanguageService.Proofs.Query.Runs
import LanguageService.Proofs.Query.Sites
import LanguageService.Proofs.Rpc.Act
import LanguageService.Proofs.Rpc.Answers
import LanguageService.Proofs.Rpc.Responses
import LanguageService.Proofs.Session.Apart
import LanguageService.Proofs.Session.Batches
import LanguageService.Proofs.Session.Documents
import LanguageService.Proofs.Session.Endings
import LanguageService.Proofs.Session.Frame
import LanguageService.Proofs.Session.Invariant
import LanguageService.Proofs.Session.Ledger
import LanguageService.Proofs.Session.Local
import LanguageService.Proofs.Session.LogFile
import LanguageService.Proofs.Session.Messages
import LanguageService.Proofs.Session.Precedence
import LanguageService.Proofs.Session.Progress
import LanguageService.Proofs.Session.Publishing
import LanguageService.Proofs.Session.Reconfiguration
import LanguageService.Proofs.Session.Replies
import LanguageService.Proofs.Session.Rules
import LanguageService.Proofs.Session.Running
import LanguageService.Proofs.Session.Stopping
import LanguageService.Proofs.Session.Synchronisation
import LanguageService.Proofs.Settings.Discovery
import LanguageService.Proofs.Settings.Options
import LanguageService.Proofs.Settings.Updates
import LanguageService.Proofs.Source.Elsewhere
import LanguageService.Proofs.Source.Locations
import LanguageService.Proofs.Source.Offsets
import LanguageService.Proofs.Source.Place
import LanguageService.Proofs.Source.Renaming
import LanguageService.Proofs.Table
import LanguageService.Proofs.Text.Blank
import LanguageService.Proofs.Text.Lines
import LanguageService.Proofs.Text.Points
import LanguageService.Proofs.Text.Utf8
import LanguageService.Proofs.Wire.Bodies
import LanguageService.Proofs.Wire.Headers
import LanguageService.Proofs.Wire.Lengths
import LanguageService.Proofs.Wire.Stream
import LanguageService.Proofs.Wire.Truncation
import LanguageService.Query.Answer
import LanguageService.Query.Reply
import LanguageService.Query.Word
import LanguageService.Rpc.Connection
import LanguageService.Rpc.Dispatch
import LanguageService.Rpc.Refusal
import LanguageService.Session.Documents
import LanguageService.Session.Features
import LanguageService.Session.Lifecycle
import LanguageService.Session.Serve
import LanguageService.Session.Settings
import LanguageService.Session.State
import LanguageService.Settings.Basic
import LanguageService.Settings.File
import LanguageService.Source.Edit
import LanguageService.Source.Position
import LanguageService.Source.Sent
import LanguageService.Source.Uri
import LanguageService.Table
import LanguageService.Text.Basic
import LanguageService.Text.Character
import LanguageService.Text.Lines
import LanguageService.Text.Printable
import LanguageService.Text.Quoted
import LanguageService.Text.Utf8
import LanguageService.Wire.Frame
