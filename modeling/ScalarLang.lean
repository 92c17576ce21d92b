import ScalarLang.CommandLine.Arguments
import ScalarLang.CommandLine.Directory
import ScalarLang.CommandLine.Run
import ScalarLang.CommandLine.Usage
import ScalarLang.Compiler.Basic
import ScalarLang.Diagnostic.Basic
import ScalarLang.Diagnostic.Render
import ScalarLang.Ir.Check
import ScalarLang.Ir.Function
import ScalarLang.Ir.Listing
import ScalarLang.Ir.Type
import ScalarLang.Lowering.Error
import ScalarLang.Lowering.Expression
import ScalarLang.Lowering.Function
import ScalarLang.Lowering.Program
import ScalarLang.Lowering.ScalarType
import ScalarLang.Main
import ScalarLang.Numeric.Binary64
import ScalarLang.Numeric.DecimalText
import ScalarLang.Object.Declarations
import ScalarLang.Object.Target
import ScalarLang.Reader.Basic
import ScalarLang.Reader.Entry
import ScalarLang.Reader.Error
import ScalarLang.Reader.Expression
import ScalarLang.Reader.Program
import ScalarLang.Reader.Progress
import ScalarLang.Scope.Table
import ScalarLang.Source.Basic
import ScalarLang.Source.Excerpt
import ScalarLang.Text.Bytes
import ScalarLang.Text.Escaped
import ScalarLang.Text.Ligature
import ScalarLang.Text.Picture
import ScalarLang.Text.Similarity
import ScalarLang.Text.Visible
import ScalarLang.Text.Width
import ScalarLang.Text.WidthClass
import ScalarLang.Token.Lexer
import ScalarLang.Token.Cursor
import ScalarLang.Token.Kind
import ScalarLang.Token.Scan
import ScalarLang.Tree.Basic
import ScalarLang.Tree.Render
import ScalarLang.Proofs.Lowering.Emission
import ScalarLang.Proofs.Lowering.Functions
import ScalarLang.Proofs.Lowering.Register
import ScalarLang.Proofs.Execution.Evaluator
import ScalarLang.Proofs.Lowering.Checked
import ScalarLang.Proofs.Lowering.Names
import ScalarLang.Proofs.Execution.Agreement
import ScalarLang.Proofs.Execution.Simulation
import ScalarLang.Proofs.Execution.Programs
import ScalarLang.Proofs.Reading.Grammar
import ScalarLang.Proofs.Typing.Acceptance
import ScalarLang.Proofs.Reading.Steps
import ScalarLang.Proofs.Reading.Climbing
import ScalarLang.Proofs.Reading.Soundness
import ScalarLang.Proofs.Reading.Completeness
import ScalarLang.Proofs.Reading.Programs
import ScalarLang.Proofs.Reading.Ladder
import ScalarLang.Proofs.Lexing.Scanning
import ScalarLang.Proofs.Lexing.Tiling
import ScalarLang.Proofs.Lexing.Streams
import ScalarLang.Proofs.Lexing.Positions
import ScalarLang.Proofs.Lexing.Cursors
import ScalarLang.Proofs.Reading.Offsets
import ScalarLang.Proofs.Reading.Nodes
import ScalarLang.Proofs.Reading.Slices
import ScalarLang.Proofs.Execution.CallGraph
import ScalarLang.Proofs.Lexing.Separation
import ScalarLang.Proofs.Reading.ProgramOffsets
import ScalarLang.Proofs.Reading.Concatenation
import ScalarLang.Proofs.Lowering.Interfaces
import ScalarLang.Proofs.Lowering.Separate
import ScalarLang.Proofs.Reading.Lockstep
import ScalarLang.Proofs.Reading.Failures
import ScalarLang.Proofs.Reading.Viability
import ScalarLang.Proofs.Reading.ProgramViability
import ScalarLang.Proofs.Reading.FirstError
import ScalarLang.Proofs.Lowering.Blame
import ScalarLang.Proofs.Diagnostic.Location
import ScalarLang.Proofs.Lexing.Rules
import ScalarLang.Proofs.Lexing.Patterns
import ScalarLang.Proofs.Lexing.FirstRule
import ScalarLang.Proofs.Lexing.Spelling
import ScalarLang.Proofs.Lowering.Scopes
import ScalarLang.Proofs.Reading.Endings
import ScalarLang.Proofs.Reading.Resumption
import ScalarLang.Proofs.Reading.Printing
import ScalarLang.Proofs.Lexing.Modes
import ScalarLang.Proofs.Lexing.Gaps
import ScalarLang.Proofs.Lexing.LineEndings
import ScalarLang.Proofs.Reading.Respacing
import ScalarLang.Proofs.Reading.LineEndings
import ScalarLang.Proofs.Reading.Layout
import ScalarLang.Proofs.Lowering.Finished
import ScalarLang.Proofs.Typing.Faults
import ScalarLang.Proofs.Typing.Fitting
import ScalarLang.Proofs.Typing.FirstFault
import ScalarLang.Proofs.Typing.WellBuilt
import ScalarLang.Proofs.Lowering.Recorded
import ScalarLang.Proofs.Source.Lines
import ScalarLang.Proofs.Lowering.LowLevelNames
import ScalarLang.Proofs.Scope.Histories
import ScalarLang.Proofs.Lexing.Numerals
import ScalarLang.Proofs.Reading.Refusals
import ScalarLang.Proofs.Reading.Integers
import ScalarLang.Proofs.Source.Excerpts
import ScalarLang.Proofs.CommandLine.Files
import ScalarLang.Proofs.CommandLine.Runs
import ScalarLang.Proofs.Reading.Scripts
import ScalarLang.Proofs.Reading.Termination
import ScalarLang.Proofs.Lowering.BackEnd
import ScalarLang.Proofs.Lowering.Portability
