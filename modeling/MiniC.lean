import MiniC.Builtin
import MiniC.Builtin.Invoke
import MiniC.CommandLine
import MiniC.CommandLine.Arguments
import MiniC.Compile
import MiniC.Decimal.Double
import MiniC.Decimal.Fixed
import MiniC.Decimal.Rounding
import MiniC.Decimal.Shortest
import MiniC.Diagnostic
import MiniC.Digest.Md5
import MiniC.Failure
import MiniC.FileTree
import MiniC.Files
import MiniC.Floating
import MiniC.Format
import MiniC.Heap
import MiniC.Host
import MiniC.HostError
import MiniC.Include
import MiniC.Json
import MiniC.Json.Reader
import MiniC.Lowering.Conversion
import MiniC.Lowering.Expr
import MiniC.Lowering.Stmt
import MiniC.Lowering.Unit
import MiniC.Machine.Eval
import MiniC.Machine.Run
import MiniC.Machine.State
import MiniC.Main
import MiniC.Operator
import MiniC.Operator.Arithmetic
import MiniC.Path
import MiniC.Program
import MiniC.ProofOfWork
import MiniC.Proofs.ArrayAccess
import MiniC.Proofs.ArrayOutput
import MiniC.Proofs.Builtin.Gcd
import MiniC.Proofs.Builtin.Heap
import MiniC.Proofs.Builtin.Writes
import MiniC.Proofs.CallDepth
import MiniC.Proofs.CompoundAssignment
import MiniC.Proofs.DiagnosticLines
import MiniC.Proofs.EarlyUse
import MiniC.Proofs.ExitCode
import MiniC.Proofs.ExpandedText
import MiniC.Proofs.ExpressionRoundTrip
import MiniC.Proofs.FailureTrace
import MiniC.Proofs.Format.Digits
import MiniC.Proofs.Format.Directives
import MiniC.Proofs.Format.Fields
import MiniC.Proofs.Format.Reading
import MiniC.Proofs.Format.Stages
import MiniC.Proofs.FormatLength
import MiniC.Proofs.FormatParts
import MiniC.Proofs.HostRuns
import MiniC.Proofs.Include.Lines
import MiniC.Proofs.Include.Runs
import MiniC.Proofs.IncludeChains
import MiniC.Proofs.IncludeFaults
import MiniC.Proofs.IntegerArithmetic
import MiniC.Proofs.IntegerLiterals
import MiniC.Proofs.LexerBoundaries
import MiniC.Proofs.LexerCoverage
import MiniC.Proofs.LexerRoundTrip
import MiniC.Proofs.LinesAndColumns
import MiniC.Proofs.LoopForms
import MiniC.Proofs.LoopFree
import MiniC.Proofs.Lowering.Declarations
import MiniC.Proofs.Lowering.Growth
import MiniC.Proofs.Lowering.Mirror
import MiniC.Proofs.Lowering.Renaming
import MiniC.Proofs.Lowering.Tidy.Expr
import MiniC.Proofs.Lowering.Tidy.Rules
import MiniC.Proofs.Lowering.Tidy.Unit
import MiniC.Proofs.Machine.Arrays
import MiniC.Proofs.Machine.Binding
import MiniC.Proofs.Machine.Commands
import MiniC.Proofs.Machine.Courses
import MiniC.Proofs.Machine.Endings
import MiniC.Proofs.Machine.Evaluation
import MiniC.Proofs.Machine.Fuel
import MiniC.Proofs.Machine.History
import MiniC.Proofs.Machine.KeptUpdates
import MiniC.Proofs.Machine.Limits
import MiniC.Proofs.Machine.Loops
import MiniC.Proofs.Machine.Order
import MiniC.Proofs.Machine.Output
import MiniC.Proofs.Machine.Points
import MiniC.Proofs.Machine.Separation
import MiniC.Proofs.Machine.Steps
import MiniC.Proofs.OutputLimit
import MiniC.Proofs.ParserTermination
import MiniC.Proofs.PrintedIntegers
import MiniC.Proofs.ProofOfWork
import MiniC.Proofs.PulledArrays
import MiniC.Proofs.ReadOnly
import MiniC.Proofs.RecordChanges
import MiniC.Proofs.RecordIndependence
import MiniC.Proofs.Scope.Calls
import MiniC.Proofs.Scope.Search
import MiniC.Proofs.ScopeInvariant
import MiniC.Proofs.ScopeTree
import MiniC.Proofs.Soundness.Builtin
import MiniC.Proofs.Soundness.Eval
import MiniC.Proofs.Soundness.Exec
import MiniC.Proofs.Soundness.Heap
import MiniC.Proofs.Soundness.Ready
import MiniC.Proofs.Soundness.Run
import MiniC.Proofs.Soundness.State
import MiniC.Proofs.Soundness.Structs
import MiniC.Proofs.Soundness.Truths
import MiniC.Proofs.SpanTree
import MiniC.Proofs.StructSeparation
import MiniC.Proofs.Syntax.Extent.Expr
import MiniC.Proofs.Syntax.Extent.Specifier
import MiniC.Proofs.Syntax.Extent.Stmt
import MiniC.Proofs.Syntax.Extent.Unit
import MiniC.Proofs.Syntax.Items
import MiniC.Proofs.Syntax.Loops
import MiniC.Proofs.Syntax.Names
import MiniC.Proofs.Syntax.Operands
import MiniC.Proofs.Syntax.Operators
import MiniC.Proofs.Syntax.Outline
import MiniC.Proofs.Syntax.Positions
import MiniC.Proofs.Syntax.Printer
import MiniC.Proofs.Syntax.Progress
import MiniC.Proofs.Syntax.Reading
import MiniC.Proofs.Syntax.Tidy.Expr
import MiniC.Proofs.Syntax.Tidy.Rules
import MiniC.Proofs.Syntax.Tidy.Unit
import MiniC.Proofs.Text.OneLine
import MiniC.Proofs.Token.ByteLiterals
import MiniC.Proofs.Token.ByteSteps
import MiniC.Proofs.Token.Bytewise
import MiniC.Proofs.Token.Cutting
import MiniC.Proofs.Token.Messages
import MiniC.Proofs.Token.Movement
import MiniC.Proofs.Token.Scanning
import MiniC.Proofs.Token.WideEscape
import MiniC.Proofs.Token.Written
import MiniC.Proofs.TypeSoundness
import MiniC.Proofs.Typing.Conversion
import MiniC.Proofs.Typing.Expr
import MiniC.Proofs.Typing.Judgement
import MiniC.Proofs.Typing.Scope
import MiniC.Proofs.Typing.Stmt
import MiniC.Proofs.Typing.Unit
import MiniC.Proofs.Typing.Weaken
import MiniC.Proofs.Value.Integers
import MiniC.Proofs.VariableNames
import MiniC.Proofs.VoidCast
import MiniC.Proofs.Word.Bytes
import MiniC.Scope
import MiniC.Settings
import MiniC.Span
import MiniC.Syntax
import MiniC.Syntax.Parser.Basic
import MiniC.Syntax.Parser.Expr
import MiniC.Syntax.Parser.Specifier
import MiniC.Syntax.Parser.Stmt
import MiniC.Syntax.Parser.Unit
import MiniC.Text.Blank
import MiniC.Text.Cursor
import MiniC.Text.Offset
import MiniC.Text.Printable
import MiniC.Text.Quoted
import MiniC.Token
import MiniC.Token.Lexer
import MiniC.Token.Literal
import MiniC.Token.Number
import MiniC.Token.Piece
import MiniC.Token.Spelling
import MiniC.Ty
import MiniC.Value
import MiniC.Word
import MiniC.WorkRecord
import MiniC.WorkRecord.Document
import MiniC.World
