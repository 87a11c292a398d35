import Reckon.Text.Blank
import Reckon.Text.Control
import Reckon.Text.Letter
import Reckon.Text.Quoted
import Reckon.Text.Symbolic
import Reckon.Text.Width
import Reckon.Double.Integer
import Reckon.Double.Transcendental
import Reckon.Number
import Reckon.Token.Split
import Reckon.Expr.Parser
import Reckon.Builtin
import Reckon.Table
import Reckon.Eval
import Reckon.Shell
import Reckon.Toml.Key
import Reckon.Toml.Literal
import Reckon.Toml.Document
import Reckon.Files.Failure
import Reckon.Settings
import Reckon.Files.Path
import Reckon.Files.Tree
import Reckon.History
import Reckon.Machine
import Reckon.Main
import Reckon.Proofs.Brackets
import Reckon.Proofs.Operands
import Reckon.Proofs.Reading
import Reckon.Proofs.Nesting
import Reckon.Proofs.Precedence
import Reckon.Proofs.Words
import Reckon.Proofs.Numbers
import Reckon.Proofs.Printing
import Reckon.Proofs.RoundTrip
import Reckon.Proofs.Relexing
import Reckon.Proofs.Surface
import Reckon.Proofs.Enclosure
import Reckon.Proofs.Delegates
import Reckon.Proofs.Reprint
import Reckon.Proofs.Parts
import Reckon.Proofs.Rounding
import Reckon.Proofs.Order
import Reckon.Proofs.Shortest
import Reckon.Proofs.Numerals
import Reckon.Proofs.Values
import Reckon.Proofs.Effects
import Reckon.Proofs.Mirror
import Reckon.Proofs.Filling
import Reckon.Proofs.Restart
import Reckon.Proofs.Agreement
import Reckon.Proofs.Safety
import Reckon.Proofs.Definitions
import Reckon.Proofs.Shadowing
import Reckon.Proofs.Mentions
import Reckon.Proofs.Markers
import Reckon.Proofs.Lines
import Reckon.Proofs.Listing
import Reckon.Proofs.Columns
import Reckon.Proofs.Bodies
import Reckon.Proofs.Descent
import Reckon.Proofs.Segments
import Reckon.Proofs.Blame
import Reckon.Proofs.Naming
import Reckon.Proofs.Archive
import Reckon.Proofs.Contents
import Reckon.Proofs.Coverage
import Reckon.Proofs.Integers
import Reckon.Proofs.Display
import Reckon.Proofs.Calculus
import Reckon.Proofs.Zeros
import Reckon.Proofs.Equality
import Reckon.Proofs.Selection
import Reckon.Proofs.Completion
import Reckon.Proofs.Matching
import Reckon.Proofs.Groups
import Reckon.Proofs.Factorial
import Reckon.Proofs.Layers
import Reckon.Proofs.Origins
