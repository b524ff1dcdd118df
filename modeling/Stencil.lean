import Stencil.Parser.Lemmas
import Stencil.Tag.Further
import Stencil.Expression.Printer
import Stencil.Filter.Further
import Stencil.Proofs.Binary64.ReadBack
import Stencil.Proofs.Expression.Language
import Stencil.Proofs.Compiler.Transparency
import Stencil.Proofs.Parser.Nesting
import Stencil.Proofs.Expression.RoundTrip
import Stencil.Proofs.Expression.Modes
import Stencil.Proofs.Compiler.WriteOnce
import Stencil.Proofs.Parser.StackReading
import Stencil.Proofs.Parser.BlockArguments
import Stencil.Proofs.Expression.Lookahead
import Stencil.Proofs.Parser.Turns
import Stencil.Proofs.Parser.TokenOrder
import Stencil.Proofs.Expression.Piping
import Stencil.Proofs.Parser.Concatenation
import Stencil.Proofs.Filter.BuiltinFailures
import Stencil.Proofs.Expression.Trimming
import Stencil.Proofs.Parser.Placeholders
import Stencil.Proofs.Text.CharNames
import Stencil.Proofs.Filter.Escaping
import Stencil.Proofs.Token.ClosingQuotes
import Stencil.Proofs.Token.Resplitting
import Stencil.Proofs.Value.Access
import Stencil.Proofs.Expression.Reads
import Stencil.Proofs.Expression.Output
import Stencil.Proofs.Expression.NumberLiterals
