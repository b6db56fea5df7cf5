import Quotation.Catalogue
import Quotation.Command.Arguments
import Quotation.Command.Check
import Quotation.Command.Help
import Quotation.Command.Outcome
import Quotation.Command.Quote
import Quotation.Currency
import Quotation.Derived.Cycle
import Quotation.Derived.Order
import Quotation.Derived.Resolution
import Quotation.Export.Column
import Quotation.Export.Csv
import Quotation.Export.Table
import Quotation.FileConnection
import Quotation.Form.FieldValue
import Quotation.Form.Validation
import Quotation.Form.Visibility
import Quotation.FormValues
import Quotation.Formula.Error
import Quotation.Formula.Evaluation
import Quotation.Formula.Parser
import Quotation.Formula.Token
import Quotation.Formula.Tree
import Quotation.Json
import Quotation.Key
import Quotation.Log
import Quotation.Main
import Quotation.Number.Decimal
import Quotation.Number.Display
import Quotation.Number.Dyadic
import Quotation.Number.Nearest
import Quotation.Number.Numeral
import Quotation.Number.Shortest
import Quotation.Path
import Quotation.Price.Line
import Quotation.Price.Quote
import Quotation.Proofs.Derived.Arrangement
import Quotation.Proofs.Derived.Circle
import Quotation.Proofs.Derived.Coverage
import Quotation.Proofs.Derived.Dependency
import Quotation.Proofs.Derived.Order
import Quotation.Proofs.Derived.Outcome
import Quotation.Proofs.Derived.Outline
import Quotation.Proofs.Derived.Range
import Quotation.Proofs.Derived.Refresh
import Quotation.Proofs.Derived.Resolution
import Quotation.Proofs.Derived.Return
import Quotation.Proofs.Derived.Search
import Quotation.Proofs.Derived.Stored
import Quotation.Proofs.Derived.Update
import Quotation.Proofs.Derived.Without
import Quotation.Proofs.Except
import Quotation.Proofs.FileConnection
import Quotation.Proofs.Form.Agreement
import Quotation.Proofs.Form.Cleared
import Quotation.Proofs.Form.Clearing
import Quotation.Proofs.Form.Report
import Quotation.Proofs.Form.Validation
import Quotation.Proofs.Formula.Arithmetic
import Quotation.Proofs.Formula.Evaluation
import Quotation.Proofs.Formula.Grammar
import Quotation.Proofs.Formula.Meaning
import Quotation.Proofs.Formula.Names
import Quotation.Proofs.Formula.Tokens
import Quotation.Proofs.Number.Closest
import Quotation.Proofs.Number.Decimal
import Quotation.Proofs.Number.Display
import Quotation.Proofs.Number.Exact
import Quotation.Proofs.Number.Leading
import Quotation.Proofs.Number.Nearest
import Quotation.Proofs.Number.Numeral
import Quotation.Proofs.Number.Packing
import Quotation.Proofs.Number.Parts
import Quotation.Proofs.Number.Rounding
import Quotation.Proofs.Number.Shown
import Quotation.Proofs.Price.Amount
import Quotation.Proofs.Price.Breakdown
import Quotation.Proofs.Price.Concealment
import Quotation.Proofs.Price.Finite
import Quotation.Proofs.Price.Isolation
import Quotation.Proofs.Price.Multiplier
import Quotation.Proofs.Price.Quantity
import Quotation.Proofs.Price.Range
import Quotation.Proofs.Schema.Check
import Quotation.Proofs.Schema.Declared
import Quotation.Proofs.Schema.Loading
import Quotation.Proofs.Schema.Normal
import Quotation.Proofs.Schema.Readers
import Quotation.Proofs.Schema.Recheck
import Quotation.Proofs.Schema.Reload
import Quotation.Proofs.Schema.Typed
import Quotation.Proofs.Session.Hidden
import Quotation.Proofs.Session.Shown
import Quotation.Proofs.Text.Characters
import Quotation.Proofs.Text.Longest
import Quotation.Samples
import Quotation.Schema.Check
import Quotation.Schema.Parameter
import Quotation.Schema.Payload
import Quotation.Schema.ProductSchema
import Quotation.Schema.Reader
import Quotation.Schema.Shape
import Quotation.Schema.Writer
import Quotation.Session
import Quotation.Settings
import Quotation.Text.Blank
import Quotation.Text.CharRange
import Quotation.Text.Digit
import Quotation.Text.Half
import Quotation.Text.Printable
import Quotation.Text.Quoted
import Quotation.Text.Uppercase
import Quotation.Value
