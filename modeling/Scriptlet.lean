import Scriptlet.Console
import Scriptlet.Main
import Scriptlet.Proofs.Scope.Stack
import Scriptlet.Proofs.Scope.Redirects
import Scriptlet.Proofs.Evaluation.Recording
import Scriptlet.Proofs.Evaluation.Orderly
import Scriptlet.Proofs.Library.Standard
import Scriptlet.Proofs.Evaluation.Changes
import Scriptlet.Proofs.Limits.Fuel
import Scriptlet.Proofs.Limits.Ceiling
import Scriptlet.Proofs.Limits.Cutoff
import Scriptlet.Proofs.Scope.Sealed
import Scriptlet.Proofs.Scope.Isolation
import Scriptlet.Proofs.Syntax.Rules
import Scriptlet.Proofs.Syntax.Phrases
import Scriptlet.Proofs.Syntax.Derivation
import Scriptlet.Proofs.Syntax.Openings
import Scriptlet.Proofs.Syntax.Levels
import Scriptlet.Proofs.Syntax.Neighbours
import Scriptlet.Proofs.Syntax.Soundness
import Scriptlet.Proofs.Syntax.Completeness
import Scriptlet.Proofs.Syntax.Unambiguous
import Scriptlet.Proofs.Syntax.Literals
import Scriptlet.Proofs.Syntax.Acceptance
import Scriptlet.Proofs.Syntax.Height
import Scriptlet.Proofs.Syntax.Nesting
import Scriptlet.Proofs.Syntax.Relabelling
import Scriptlet.Proofs.Syntax.Failures
import Scriptlet.Proofs.Syntax.Impasse
import Scriptlet.Proofs.Syntax.Statements
import Scriptlet.Proofs.Syntax.Printing
import Scriptlet.Proofs.Syntax.Lexing
import Scriptlet.Proofs.Syntax.Roundtrip
import Scriptlet.Proofs.Syntax.Commands
import Scriptlet.Proofs.Syntax.Viable
import Scriptlet.Proofs.Syntax.Single
import Scriptlet.Proofs.Syntax.Arguments
import Scriptlet.Proofs.Evaluation.Steps
import Scriptlet.Proofs.Scope.Discipline
import Scriptlet.Proofs.Errors.Origin
import Scriptlet.Proofs.Errors.Places
import Scriptlet.Proofs.Errors.Sessions
import Scriptlet.Proofs.Errors.Written
import Scriptlet.Proofs.Flow.Trail
import Scriptlet.Proofs.Flow.Course
import Scriptlet.Proofs.Library.Confined
import Scriptlet.Proofs.Flow.Controls
import Scriptlet.Proofs.Flow.Serving
import Scriptlet.Proofs.Flow.Return
import Scriptlet.Proofs.Flow.Stop
import Scriptlet.Proofs.Scope.Global
import Scriptlet.Proofs.Reuse.Alike
import Scriptlet.Proofs.Reuse.Mirror
import Scriptlet.Proofs.Reuse.History
import Scriptlet.Proofs.Reuse.Piecewise
import Scriptlet.Proofs.Choice.Marks
import Scriptlet.Proofs.Choice.Branches
import Scriptlet.Proofs.Choice.Order
import Scriptlet.Proofs.Choice.Controls
import Scriptlet.Proofs.Choice.Calls
import Scriptlet.Proofs.Choice.Contiguous
import Scriptlet.Proofs.Lexer.Tiling
import Scriptlet.Proofs.Lexer.Extension
import Scriptlet.Proofs.Lexer.Mending
import Scriptlet.Proofs.Lexer.Counting
import Scriptlet.Proofs.Lexer.Verbatim
import Scriptlet.Proofs.Lexer.Displaced
import Scriptlet.Proofs.Lexer.Lines
import Scriptlet.Proofs.Lexer.Munch
import Scriptlet.Proofs.Lexer.Cut
import Scriptlet.Proofs.Lexer.Balance
import Scriptlet.Proofs.Syntax.Joining
import Scriptlet.Proofs.Syntax.Triggers
import Scriptlet.Proofs.Syntax.Ending
import Scriptlet.Proofs.Errors.Excerpts
import Scriptlet.Proofs.Errors.Reports
import Scriptlet.Proofs.Shape.Agreement
import Scriptlet.Proofs.Shape.Bodies
import Scriptlet.Proofs.Scope.Nonlocal
import Scriptlet.Proofs.Numeric.Comparison
import Scriptlet.Proofs.Scope.LoopVariable
import Scriptlet.Proofs.Checked.Bytes
import Scriptlet.Proofs.Checked.Scanner
import Scriptlet.Proofs.Checked.Scanning
import Scriptlet.Proofs.Checked.Integers
import Scriptlet.Proofs.Checked.Library
import Scriptlet.Proofs.Checked.Frames
import Scriptlet.Proofs.Checked.Total
import Scriptlet.Proofs.Scope.Forwarding
import Scriptlet.Proofs.Limits.Enough
import Scriptlet.Proofs.Loop.Splice
import Scriptlet.Proofs.Loop.Shadow
import Scriptlet.Proofs.Loop.Rounds
import Scriptlet.Proofs.Loop.Calls
import Scriptlet.Proofs.Loop.Unrolling
import Scriptlet.Proofs.Loop.While
import Scriptlet.Proofs.Numeric.Division
import Scriptlet.Proofs.Numeric.Reading
import Scriptlet.Proofs.Numeric.Format
import Scriptlet.Proofs.Numeric.Writing
import Scriptlet.Proofs.Library.Calculations
import Scriptlet.Proofs.Library.Results
import Scriptlet.Proofs.Library.Exact
import Scriptlet.Proofs.Text.Words
import Scriptlet.Proofs.Evaluation.Admission
import Scriptlet.Proofs.Library.Expansions
import Scriptlet.Proofs.Library.Vectors
import Scriptlet.Proofs.Library.Ranges
import Scriptlet.Proofs.Handlers.Keys
import Scriptlet.Proofs.Handlers.Vocabulary
import Scriptlet.Proofs.Handlers.Order
import Scriptlet.Proofs.Text.Quoting
import Scriptlet.Proofs.Rendering.Inline
import Scriptlet.Proofs.Rendering.Indented
import Scriptlet.Proofs.Rendering.Faithful
import Scriptlet.Proofs.Supply.Passes
import Scriptlet.Proofs.Supply.Progress
import Scriptlet.Proofs.Peg.Basic
import Scriptlet.Proofs.Peg.Consumption
import Scriptlet.Proofs.Peg.Termination
import Scriptlet.Proofs.Peg.Denotation
import Scriptlet.Proofs.Peg.Agreement
import Scriptlet.Proofs.Peg.Backtracking
