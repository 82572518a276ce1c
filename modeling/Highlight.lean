import Highlight.Cache
import Highlight.CommandLine
import Highlight.Cursor
import Highlight.DefaultStyle
import Highlight.Delimiters
import Highlight.Grammar.Basic
import Highlight.Grammar.Build
import Highlight.Grammar.Description
import Highlight.Grammar.Error
import Highlight.Grammar.Listing
import Highlight.Grammar.Matching
import Highlight.Grammar.Reach
import Highlight.Language.Bash
import Highlight.Language.C
import Highlight.Language.Python
import Highlight.Language.Writing
import Highlight.Line
import Highlight.Main
import Highlight.Notice
import Highlight.Regex.CharSet
import Highlight.Regex.Compiled
import Highlight.Regex.Pattern
import Highlight.Regex.Reader
import Highlight.Regex.Search
import Highlight.Registry
import Highlight.Render
import Highlight.Reported
import Highlight.Rule.Basic
import Highlight.Rule.Literal
import Highlight.Settings.Quoted
import Highlight.Settings.Reader
import Highlight.Stack
import Highlight.Style
import Highlight.Switch
import Highlight.Text
import Highlight.TextFile
import Highlight.Unicode.Blank
import Highlight.Unicode.Category
import Highlight.Unicode.Fold
import Highlight.Unicode.Lowercase
import Highlight.Unicode.Property
import Highlight.Unicode.PropertyName
import Highlight.Unicode.Quoted
import Highlight.Unicode.Script
import Highlight.Unicode.ScriptExtension
import Highlight.Unicode.Table
import Highlight.Unicode.Width
import Highlight.Workspace
import Highlight.Proofs.Boundary
import Highlight.Proofs.RuleLength
import Highlight.Proofs.Matching
import Highlight.Proofs.Scanning
import Highlight.Proofs.Coverage
import Highlight.Proofs.Machine
import Highlight.Proofs.Incremental
import Highlight.Proofs.CachedStacks
import Highlight.Proofs.StepBound
import Highlight.Proofs.Splicing
import Highlight.Proofs.Enclosing
import Highlight.Proofs.Provenance
import Highlight.Proofs.Exploring
import Highlight.Proofs.PatternTakes
import Highlight.Proofs.ReadingAlone
import Highlight.Proofs.SetsAlone
import Highlight.Proofs.GroupReading
import Highlight.Proofs.GuardNotices
import Highlight.Proofs.ReadingBehind
import Highlight.Proofs.Anchoring
import Highlight.Proofs.FullyResolved
import Highlight.Proofs.BrokenDescriptions
import Highlight.Proofs.LeadingAnchors
import Highlight.Proofs.RenderedText
import Highlight.Proofs.TerminalView
import Highlight.Proofs.SearchComplete
import Highlight.Proofs.LiteralLanguages
import Highlight.Proofs.LiteralPatterns
import Highlight.Proofs.KnownContexts
import Highlight.Proofs.HereDocuments
import Highlight.Proofs.Directives
import Highlight.Proofs.ConditionBlocks
import Highlight.Proofs.StrictAttributes
import Highlight.Proofs.LayeredContexts
import Highlight.Proofs.StandardLanguages
import Highlight.Proofs.EchoedInput
import Highlight.Proofs.MatchingCalls
import Highlight.Proofs.Renumbering
import Highlight.Proofs.DeclarationOrder
import Highlight.Proofs.SeparateBuffers
import Highlight.Proofs.Rescanning
import Highlight.Proofs.IncludeCycles
import Highlight.Proofs.LineBoundaries
import Highlight.Proofs.SharedFrames
import Highlight.Proofs.CapturedText
import Highlight.Proofs.WholeWords
import Highlight.Proofs.CaselessText
import Highlight.Proofs.BlockComments
import Highlight.Proofs.SwitchTexts
import Highlight.Proofs.MovedCursors
import Highlight.Proofs.Progress
import Highlight.Proofs.TabStops
import Highlight.Proofs.Placeholders
