import Rulebook.Number.Rounding
import Rulebook.Number.Elementary
import Rulebook.Text.Blank
import Rulebook.Text.Digit
import Rulebook.Text.Word
import Rulebook.Text.Quoted
import Rulebook.Text.LetterCase
import Rulebook.Number.Numeral
import Rulebook.Text.Place
import Rulebook.Calendar.Iso
import Rulebook.Value.Comparison
import Rulebook.Report
import Rulebook.Token.Scan
import Rulebook.Node.Render
import Rulebook.Node.Parse
import Rulebook.Pattern
import Rulebook.Number.Integer
import Rulebook.Pattern.Match
import Rulebook.Limits
import Rulebook.Bindings
import Rulebook.Notice
import Rulebook.Library
import Rulebook.Context
import Rulebook.RuleSet.Firing
import Rulebook.Filter
import Rulebook.Value.Argument
import Rulebook.RuleFile.Compile
import Rulebook.RuleFile.Load
import Rulebook.Main
import Rulebook.Proofs.Grammar
import Rulebook.Proofs.Reading
import Rulebook.Proofs.Words
import Rulebook.Proofs.Expressions
import Rulebook.Proofs.Recognition
import Rulebook.Proofs.Statements
import Rulebook.Proofs.Double
import Rulebook.Proofs.Nearest
import Rulebook.Proofs.Numerals
import Rulebook.Proofs.Lexemes
import Rulebook.Proofs.Scanning
import Rulebook.Proofs.Acceptance
import Rulebook.Proofs.Spelling
import Rulebook.Proofs.Trees
import Rulebook.Proofs.Writing
import Rulebook.Proofs.Rereading
import Rulebook.Proofs.RoundTrip
import Rulebook.Proofs.Steps
import Rulebook.Proofs.Nested
import Rulebook.Proofs.Overlay
import Rulebook.Proofs.Firing
import Rulebook.Proofs.Conditions
import Rulebook.Proofs.Throughout
import Rulebook.Proofs.Breakdowns
import Rulebook.Proofs.Dependence
import Rulebook.Proofs.Selecting
import Rulebook.Proofs.Readers
import Rulebook.Proofs.Viability
import Rulebook.Proofs.ErrorPlaces
import Rulebook.Proofs.Settling
import Rulebook.Proofs.Levels
import Rulebook.Proofs.Priorities
import Rulebook.Proofs.Independence
import Rulebook.Proofs.Places
import Rulebook.Proofs.Respacing
import Rulebook.Proofs.Formatting
import Rulebook.Proofs.Literals
import Rulebook.Proofs.Tiling
import Rulebook.Proofs.Locations
import Rulebook.Proofs.Ceiling
import Rulebook.Proofs.Frame
import Rulebook.Proofs.Loading
import Rulebook.Proofs.Registered
import Rulebook.Proofs.Fitting
import Rulebook.Proofs.Untold
import Rulebook.Proofs.Matching
import Rulebook.Proofs.Problems
import Rulebook.Proofs.Loadable
import Rulebook.Proofs.Unquoted
import Rulebook.Proofs.Modes
import Rulebook.Proofs.DoubleOrder
import Rulebook.Proofs.NumberText
import Rulebook.Proofs.Printing
import Rulebook.Proofs.NormalForm
import Rulebook.Proofs.Coherence
import Rulebook.Proofs.Calls
import Rulebook.Proofs.Rounding
import Rulebook.Proofs.Targets
import Rulebook.Proofs.Searching
import Rulebook.Proofs.DayCounts
import Rulebook.Proofs.EndOfInput
import Rulebook.Proofs.NullArguments
