import PathRights.CommandLine.Arguments
import PathRights.CommandLine.Check
import PathRights.CommandLine.Switch
import PathRights.Config.Check
import PathRights.Config.Environment
import PathRights.Config.Layers
import PathRights.Config.Loading
import PathRights.Config.Merge
import PathRights.Config.Shared
import PathRights.Disk
import PathRights.Log.File
import PathRights.Log.Journal
import PathRights.Log.Level
import PathRights.Log.Output
import PathRights.Log.Record
import PathRights.Log.Shared
import PathRights.Main
import PathRights.Path
import PathRights.Pattern.CharClass
import PathRights.Pattern.Grammar
import PathRights.Pattern.Matcher
import PathRights.Pattern.Token
import PathRights.Role.AccountFile
import PathRights.Role.Basic
import PathRights.Role.Mode
import PathRights.Role.Name
import PathRights.Role.Registry
import PathRights.Role.Spec
import PathRights.Rule.Basic
import PathRights.Rule.Source
import PathRights.Rule.Table
import PathRights.Run.Normalize
import PathRights.Run.Program
import PathRights.Run.Setup
import PathRights.Status
import PathRights.SystemError
import PathRights.Text.Basic
import PathRights.Text.Blank
import PathRights.Text.Case
import PathRights.Text.CaseTable
import PathRights.Text.DecimalDigit
import PathRights.Text.Lines
import PathRights.Text.Numeral
import PathRights.Text.Order
import PathRights.Text.Printable
import PathRights.Text.PrintableTable
import PathRights.Text.Quoted
import PathRights.Text.Ranges
import PathRights.Text.SigmaTable
import PathRights.Text.Utf8
import PathRights.Tree.Command
import PathRights.Tree.Event
import PathRights.Tree.Kind
import PathRights.Tree.Listing
import PathRights.Tree.Node
import PathRights.Tree.Operation
import PathRights.Tree.Walk
import PathRights.Value.Basic
import PathRights.Value.Binary64
import PathRights.Value.Calendar
import PathRights.Value.Edit
import PathRights.Value.Mapping
import PathRights.Value.Printer
import PathRights.Value.Reader
import PathRights.Yaml.BlockScalar
import PathRights.Yaml.Directive
import PathRights.Yaml.Document
import PathRights.Yaml.Fault
import PathRights.Yaml.Loose
import PathRights.Yaml.Mark
import PathRights.Yaml.Meaning
import PathRights.Yaml.Node
import PathRights.Yaml.Property
import PathRights.Yaml.Scalar
import PathRights.Yaml.Tag
import PathRights.Yaml.Written
import PathRights.Proofs.Pattern.Compilation
import PathRights.Proofs.Pattern.Notation
import PathRights.Proofs.Pattern.Agreement
import PathRights.Proofs.Rule.Line
import PathRights.Proofs.Pattern.Components
import PathRights.Proofs.Pattern.Depth
import PathRights.Proofs.Tree.Location
import PathRights.Proofs.Tree.Preorder
import PathRights.Proofs.Tree.Rearrangement
import PathRights.Proofs.Tree.Alteration
import PathRights.Proofs.Tree.Deed
import PathRights.Proofs.Tree.Itinerary
import PathRights.Proofs.Tree.Resumption
import PathRights.Proofs.Rule.Table
import PathRights.Proofs.Tree.Effect
import PathRights.Proofs.Pattern.Literal
import PathRights.Proofs.Rule.Written
import PathRights.Proofs.Rule.ExactPath
import PathRights.Proofs.Tree.Protection
import PathRights.Proofs.Tree.Completion
import PathRights.Proofs.Log.Frame
import PathRights.Proofs.Role.Registry
import PathRights.Proofs.Run.Preparation
import PathRights.Proofs.Run.Settings
import PathRights.Proofs.Run.ExitCode
import PathRights.Proofs.Role.Mode
import PathRights.Proofs.Tree.Pairing
import PathRights.Proofs.Tree.Access
import PathRights.Proofs.Tree.DryRun
import PathRights.Proofs.Run.GivenMode
import PathRights.Proofs.Run.Checking
import PathRights.Proofs.Run.RuleInput
import PathRights.Proofs.Value.Alike
import PathRights.Proofs.Config.Merge
import PathRights.Proofs.Config.Environment
import PathRights.Proofs.Config.Precedence
import PathRights.Proofs.Tree.Verbosity
import PathRights.Proofs.Run.JournalLevel
import PathRights.Proofs.Config.Sharing
import PathRights.Proofs.Config.LoadOrder
import PathRights.Proofs.Tree.Visit
import PathRights.Proofs.Tree.Tally
import PathRights.Proofs.Tree.Coverage
import PathRights.Proofs.Tree.Accounting
import PathRights.Proofs.Pattern.Equivalence
import PathRights.Proofs.Pattern.Runs
import PathRights.Proofs.Pattern.Root
import PathRights.Proofs.Tree.Entrance
import PathRights.Proofs.Pattern.Form
import PathRights.Proofs.Pattern.Recognizer
import PathRights.Proofs.Rule.Mark
import PathRights.Proofs.Rule.Scan
import PathRights.Proofs.Rule.Layout
import PathRights.Proofs.Rule.LineEnd
import PathRights.Proofs.Role.Canonical
import PathRights.Proofs.Role.Declaration
import PathRights.Proofs.Rule.Priority
import PathRights.Proofs.Role.Form
import PathRights.Proofs.Role.Expression
import PathRights.Proofs.Role.Derivation
import PathRights.Proofs.Rule.Reference
import PathRights.Proofs.CommandLine.RoleOption
import PathRights.Proofs.CommandLine.Layer
import PathRights.Proofs.Value.Shown
import PathRights.Proofs.Value.Attempt
import PathRights.Proofs.Role.Refusal
import PathRights.Proofs.Config.Refusal
import PathRights.Proofs.Config.Loading
import PathRights.Proofs.Run.Configuration
import PathRights.Proofs.Pattern.Closing
import PathRights.Proofs.Pattern.SetReader
