import Lox.Main
import Lox.Proofs.Grammar.Alternative
import Lox.Proofs.Grammar.Limits
import Lox.Proofs.Reading.Expressions
import Lox.Proofs.Reading.Lookahead
import Lox.Proofs.Grammar.Tokens
import Lox.Proofs.Reading.Delivery
import Lox.Proofs.Reading.ExpressionDelivery
import Lox.Proofs.Reading.StatementDelivery
import Lox.Proofs.Grammar.Loops
import Lox.Proofs.Reading.Exactness
import Lox.Proofs.Reading.Offence
import Lox.Proofs.Reading.Forks
import Lox.Proofs.Reading.Targets
import Lox.Proofs.Grammar.Operands
import Lox.Proofs.Grammar.Factors
import Lox.Proofs.Grammar.Lookback
import Lox.Proofs.Reading.AssignmentErrors
import Lox.Proofs.Execution.Pairing
import Lox.Proofs.Execution.Operations
import Lox.Proofs.Execution.Upkeep
import Lox.Proofs.Execution.Simulation
import Lox.Proofs.Execution.Threshold
import Lox.Proofs.Execution.Fuel
import Lox.Proofs.Execution.StoreLaws
import Lox.Proofs.Execution.Frame
import Lox.Proofs.Execution.Twins
import Lox.Proofs.Execution.Names
import Lox.Proofs.Execution.Placement
import Lox.Proofs.Execution.Padding
import Lox.Proofs.Execution.DirectLoops
import Lox.Proofs.Execution.Callers
import Lox.Proofs.Execution.Moments
import Lox.Proofs.Execution.Chains
import Lox.Proofs.Execution.Discipline
import Lox.Proofs.Prompt.Answers
import Lox.Proofs.Prompt.FailedLines
import Lox.Proofs.Text.Characters
import Lox.Proofs.Node.RoundTrip
import Lox.Proofs.Number.Rounding
import Lox.Proofs.Number.Decimals
import Lox.Proofs.Number.StoredText
import Lox.Proofs.Json.Numbers
import Lox.Proofs.Json.Strings
import Lox.Proofs.Json.RoundTrip
import Lox.Proofs.Json.Characters
import Lox.Proofs.Node.Tokens
import Lox.Proofs.Grammar.Origins
import Lox.Proofs.Token.Lines
import Lox.Proofs.Token.Ascii
import Lox.Proofs.CommandLine.Emission
import Lox.Proofs.CommandLine.Rejection
import Lox.Proofs.Token.Tiling
import Lox.Proofs.Token.Bytewise
import Lox.Proofs.Token.LexicalForms
import Lox.Proofs.Token.Calls
import Lox.Proofs.Token.Seams
import Lox.Proofs.Node.Matching
import Lox.Proofs.Grammar.Forms
import Lox.Proofs.Grammar.Renaming
import Lox.Proofs.Reading.Scripts
import Lox.Proofs.Execution.Likeness
import Lox.Proofs.Execution.Comparison
import Lox.Proofs.Execution.Escapes
import Lox.Proofs.Execution.Tracing
import Lox.Proofs.Execution.Pieces
import Lox.Proofs.Node.Leaves
import Lox.Proofs.Execution.Footprint
import Lox.Proofs.Execution.Effects
import Lox.Proofs.Execution.Lag
import Lox.Proofs.Execution.Depth
import Lox.Proofs.Text.Slices
import Lox.Proofs.Token.Lexemes
import Lox.Proofs.Reading.RawBytes
import Lox.Proofs.Token.Layout
import Lox.Proofs.Reading.Spelling
import Lox.Proofs.Execution.Lines
import Lox.Proofs.Execution.Forests
import Lox.Proofs.Execution.CallProtocol
import Lox.Proofs.Number.Integral
import Lox.Proofs.Number.PlainText
import Lox.Proofs.Grammar.PostOrder
import Lox.Proofs.Reading.FirstExcess
import Lox.Proofs.Execution.Snapshots
import Lox.Proofs.Text.Borders
import Lox.Proofs.Value.Strings
import Lox.Proofs.Value.Equality
import Lox.Proofs.Node.Fields
import Lox.Proofs.Number.Range
import Lox.Proofs.Node.Agreement
import Lox.Proofs.Node.Places
import Lox.Proofs.Node.Schema
import Lox.Proofs.Execution.Declarations
import Lox.Proofs.Execution.Insertions
