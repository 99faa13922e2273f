import ClientBoundary.Digest
import ClientBoundary.Glob.Matching
import ClientBoundary.Glob.Pattern
import ClientBoundary.Json.Binary64
import ClientBoundary.Json.Members
import ClientBoundary.Json.Printer
import ClientBoundary.Json.Reader
import ClientBoundary.Json.Record
import ClientBoundary.Json.Value
import ClientBoundary.Path.Components
import ClientBoundary.Path.Relative
import ClientBoundary.Project.Cache
import ClientBoundary.Project.CacheEntry
import ClientBoundary.Project.Discovery
import ClientBoundary.Project.FileTree
import ClientBoundary.Project.Report
import ClientBoundary.Proofs.Glob.SegmentTokens
import ClientBoundary.Proofs.Glob.Segments
import ClientBoundary.Proofs.Glob.Taking
import ClientBoundary.Proofs.Json.Printing
import ClientBoundary.Proofs.Json.Records
import ClientBoundary.Proofs.Json.RoundTrip
import ClientBoundary.Proofs.Json.Schema
import ClientBoundary.Proofs.Json.Sorting
import ClientBoundary.Proofs.Path.Joining
import ClientBoundary.Proofs.Path.Normalizing
import ClientBoundary.Proofs.Path.Relating
import ClientBoundary.Proofs.Project.CachedRuns
import ClientBoundary.Proofs.Project.Contents
import ClientBoundary.Proofs.Project.Discovering
import ClientBoundary.Proofs.Project.Entering
import ClientBoundary.Proofs.Project.EntryHistories
import ClientBoundary.Proofs.Project.EntryKeys
import ClientBoundary.Proofs.Project.EntryStore
import ClientBoundary.Proofs.Project.EntryText
import ClientBoundary.Proofs.Project.Histories
import ClientBoundary.Proofs.Project.Ledger
import ClientBoundary.Proofs.Project.Reporting
import ClientBoundary.Proofs.Project.Resolving
import ClientBoundary.Proofs.Project.Walking
import ClientBoundary.Proofs.Project.WellFormed
import ClientBoundary.Proofs.Rules.BrowserReads
import ClientBoundary.Proofs.Rules.Callbacks
import ClientBoundary.Proofs.Rules.CalleeNames
import ClientBoundary.Proofs.Rules.Collecting
import ClientBoundary.Proofs.Rules.CollectorRuns
import ClientBoundary.Proofs.Rules.Configuring
import ClientBoundary.Proofs.Rules.DerivedGlobals
import ClientBoundary.Proofs.Rules.Documents
import ClientBoundary.Proofs.Rules.EventHandlers
import ClientBoundary.Proofs.Rules.Findings
import ClientBoundary.Proofs.Rules.Fingerprint
import ClientBoundary.Proofs.Rules.Fixing
import ClientBoundary.Proofs.Rules.HookCalls
import ClientBoundary.Proofs.Rules.IgnoreLists
import ClientBoundary.Proofs.Rules.IgnoredSegments
import ClientBoundary.Proofs.Rules.Ignoring
import ClientBoundary.Proofs.Rules.Independence
import ClientBoundary.Proofs.Rules.LeadingRun
import ClientBoundary.Proofs.Rules.Marking
import ClientBoundary.Proofs.Rules.OptionValues
import ClientBoundary.Proofs.Rules.Overriding
import ClientBoundary.Proofs.Rules.ReadPositions
import ClientBoundary.Proofs.Rules.ReadingBack
import ClientBoundary.Proofs.Rules.Rounds
import ClientBoundary.Proofs.Rules.Scanning
import ClientBoundary.Proofs.Rules.Settling
import ClientBoundary.Proofs.Rules.Surroundings
import ClientBoundary.Proofs.Script.Declaring
import ClientBoundary.Proofs.Script.DecoratedStatement
import ClientBoundary.Proofs.Script.LeadingStatement
import ClientBoundary.Proofs.Script.LeadingString
import ClientBoundary.Proofs.Script.Lexing
import ClientBoundary.Proofs.Script.Occurrence
import ClientBoundary.Proofs.Script.Running
import ClientBoundary.Proofs.Text.ByteOrder
import ClientBoundary.Proofs.Text.Inserting
import ClientBoundary.Proofs.Text.Locating
import ClientBoundary.Rules.BrowserGlobals
import ClientBoundary.Rules.Callee
import ClientBoundary.Rules.Causes
import ClientBoundary.Rules.Config
import ClientBoundary.Rules.Description
import ClientBoundary.Rules.Directives
import ClientBoundary.Rules.Failure
import ClientBoundary.Rules.Finding
import ClientBoundary.Rules.Linter
import ClientBoundary.Rules.Marks
import ClientBoundary.Rules.Naming
import ClientBoundary.Rules.Options
import ClientBoundary.Rules.Rule
import ClientBoundary.Rules.Walk
import ClientBoundary.Script.Character
import ClientBoundary.Script.Grammar.Basic
import ClientBoundary.Script.Grammar.Classes
import ClientBoundary.Script.Grammar.Declarations
import ClientBoundary.Script.Grammar.Expressions
import ClientBoundary.Script.Grammar.Functions
import ClientBoundary.Script.Grammar.Markup
import ClientBoundary.Script.Grammar.Modules
import ClientBoundary.Script.Grammar.Statements
import ClientBoundary.Script.Grammar.Types
import ClientBoundary.Script.IdentifierTable
import ClientBoundary.Script.Language
import ClientBoundary.Script.Lexer
import ClientBoundary.Script.Program
import ClientBoundary.Script.Token
import ClientBoundary.Script.Tree
import ClientBoundary.Text.Bytes
import ClientBoundary.Text.CaseTable
import ClientBoundary.Text.Hex
import ClientBoundary.Text.Insertion
import ClientBoundary.Text.Location
import ClientBoundary.Text.Lowercase
