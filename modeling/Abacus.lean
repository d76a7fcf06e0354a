import Abacus.Main
import Abacus.Proofs.Calculator.Text
import Abacus.Proofs.Batch.Entries
import Abacus.Proofs.Binary64.Value
import Abacus.Proofs.Numeral.Notation
import Abacus.Proofs.Decimal.Notation
import Abacus.Proofs.Binary64.Literal
import Abacus.Proofs.Batch.Reports
import Abacus.Proofs.Command.Batch
import Abacus.Proofs.Json.Nesting
import Abacus.Proofs.Report.Loading
import Abacus.Proofs.Expression.Completion
import Abacus.Proofs.Expression.Limit
import Abacus.Proofs.Command.Endings
import Abacus.Proofs.Report.Usable
import Abacus.Proofs.Calculator.Kind
import Abacus.Proofs.Expression.Group
import Abacus.Proofs.Token.Stretch
import Abacus.Proofs.Command.Agreement
import Abacus.Proofs.Command.Places
import Abacus.Proofs.Render.Message
import Abacus.Proofs.Binary64.Display
import Abacus.Proofs.Calculator.Reentry
import Abacus.Proofs.Numeral.Value
import Abacus.Proofs.Binary64.Significant
import Abacus.Proofs.Calculator.Whole
import Abacus.Proofs.Report.Saving
import Abacus.Proofs.Report.Members
import Abacus.Proofs.Expression.Cursor
import Abacus.Proofs.Numeral.Integer
import Abacus.Proofs.Command.Environment
