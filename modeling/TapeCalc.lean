import TapeCalc.Fault
import TapeCalc.Limits
import TapeCalc.Opcode
import TapeCalc.BoundedStack
import TapeCalc.Arithmetic
import TapeCalc.Decimal.Notation
import TapeCalc.Decimal.Reader
import TapeCalc.Text.Uppercase
import TapeCalc.Text.Blank
import TapeCalc.Text.Quoted
import TapeCalc.Gap
import TapeCalc.Literal.Grammar
import TapeCalc.Token
import TapeCalc.Symbols
import TapeCalc.Lexer
import TapeCalc.Program.Listing
import TapeCalc.Descent
import TapeCalc.Compiler.Prelexed
import TapeCalc.Expr.Grammar
import TapeCalc.Machine.Shape
import TapeCalc.Journal
import TapeCalc.Command.Contents
import TapeCalc.Command.Session
import TapeCalc.Main
import TapeCalc.Proofs.Decimal.Unsigned
import TapeCalc.Proofs.Literal.Value
import TapeCalc.Proofs.Literal.Grammar
import TapeCalc.Proofs.Literal.Run
import TapeCalc.Proofs.Fault
import TapeCalc.Proofs.Symbols
import TapeCalc.Proofs.Program.Stack
import TapeCalc.Proofs.Program.Pool
import TapeCalc.Proofs.Program.Tape
import TapeCalc.Proofs.Program.Building
import TapeCalc.Proofs.Lexer.Scan
import TapeCalc.Proofs.Lexer.Reading
import TapeCalc.Proofs.Descent.Trace
import TapeCalc.Proofs.Descent.Completeness
import TapeCalc.Proofs.Machine.Instructions
import TapeCalc.Proofs.Machine.Shape
import TapeCalc.Proofs.Machine.Evaluation
import TapeCalc.Proofs.Compiler.State
import TapeCalc.Proofs.Compiler.Acceptance
import TapeCalc.Proofs.Compiler.Correctness
import TapeCalc.Proofs.Compiler.Faults
import TapeCalc.Proofs.Descent.Coupling
import TapeCalc.Proofs.Compiler.Limits
import TapeCalc.Proofs.Lexer.Answers
import TapeCalc.Proofs.Lexer.Gaps
import TapeCalc.Proofs.Lexer.Tiling
import TapeCalc.Proofs.Compiler.OnDemand
import TapeCalc.Proofs.Expr.Substitution
import TapeCalc.Proofs.Lexer.Context
import TapeCalc.Proofs.Lexer.Substitution
import TapeCalc.Proofs.Compiler.Substitution
import TapeCalc.Proofs.Symbols.LongestMatch
import TapeCalc.Proofs.Symbols.Comparison
import TapeCalc.Proofs.Descent.Rounds
import TapeCalc.Proofs.Descent.Relocated
import TapeCalc.Proofs.Lexer.ReadAlike
import TapeCalc.Proofs.Compiler.ReadAlike
import TapeCalc.Proofs.Lexer.Insertion
import TapeCalc.Proofs.Compiler.Insertion
import TapeCalc.Proofs.Text.SameLetters
import TapeCalc.Proofs.Literal.SameLetters
import TapeCalc.Proofs.Lexer.SameLetters
import TapeCalc.Proofs.Compiler.SameLetters
import TapeCalc.Proofs.Decimal.Rounding
import TapeCalc.Proofs.Decimal.Shortest
import TapeCalc.Proofs.Decimal.Notation
import TapeCalc.Proofs.Program.Listing
import TapeCalc.Proofs.Compiler.Listing
import TapeCalc.Proofs.Command.Batch
import TapeCalc.Proofs.Command.Verbosity
import TapeCalc.Proofs.Machine.Exchange
import TapeCalc.Proofs.Machine.Listing
import TapeCalc.Proofs.Command.Lines
import TapeCalc.Proofs.Expr.Exchange
import TapeCalc.Proofs.Descent.Exchange
import TapeCalc.Proofs.Lexer.Exchange
import TapeCalc.Proofs.Compiler.Exchange
import TapeCalc.Proofs.Lexer.Extension
import TapeCalc.Proofs.Compiler.Extension
import TapeCalc.Proofs.Compiler.Numbers
import TapeCalc.Proofs.Compiler.Constants
import TapeCalc.Proofs.Compiler.Names
import TapeCalc.Proofs.Machine.Height
import TapeCalc.Proofs.Compiler.Height
import TapeCalc.Proofs.Descent.Watched
import TapeCalc.Proofs.Descent.Books
import TapeCalc.Proofs.Compiler.Watched
import TapeCalc.Proofs.Compiler.Origin
import TapeCalc.Proofs.Lexer.Marks
import TapeCalc.Proofs.Compiler.Comments
import TapeCalc.Proofs.Lexer.Calls
import TapeCalc.Proofs.Compiler.Setters
import TapeCalc.Proofs.Compiler.Columns
