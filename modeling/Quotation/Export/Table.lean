import Quotation.Export.Column
import Quotation.Price.Quote

/-!
# Tables of a quote

A quote as tables: one row for each line, one row for each share of a line, and a summary. A cell
without a value, or with a value that is not a number where one is expected, holds nothing.
-/

namespace Quotation

structure Table where
  columns : List String
  rows : List (List Value)

namespace Price.Quote

def money (q : Quote) (amount : Float) : String := q.currency.amountText amount

def itemRow (q : Quote) (parameter : Value) (item : BreakdownItem) : List Value :=
  [parameter, item.description, amountCell item.amount, q.money item.amount]

/-- One row for each line. -/
def breakdownTable (q : Quote) : Except ValueFault Table := do
  let parameters ← Column.cells (q.breakdown.map (·.parameter))
  return {
    columns := ["Parameter", "Description", "Amount", "Formatted"]
    rows := List.zipWith q.itemRow parameters q.breakdown
  }

def shareRow (parameter : Value) (share : Share) : List Value :=
  [parameter, share.kind.label, share.description, ((share.amount.map amountCell).getD .null)]

/-- One row for each share of a line. -/
def componentTable (q : Quote) : Except ValueFault Table := do
  let parameters ← Column.cells <|
    q.breakdown.flatMap fun item => item.shares.map fun _ => item.parameter
  return {
    columns := ["Parameter", "Component", "Description", "Amount"]
    rows := List.zipWith shareRow parameters (q.breakdown.flatMap (·.shares))
  }

/-- What one unit costs, how many units there are and what all of them cost. -/
def summaryTable (q : Quote) : Table where
  columns := ["Field", "Value"]
  rows := [
    ["Unit Total", q.money q.unitTotal],
    ["Quantity", Number.limitText q.quantity],
    ["Total", q.money q.total]]

def totalRow (q : Quote) : List Value :=
  ["TOTAL", "Unit total × " ++ Number.limitText q.quantity, amountCell q.total, q.money q.total]

/-- The lines and the total. -/
def exportTable (q : Quote) : Except ValueFault Table := do
  let table ← q.breakdownTable
  return { table with rows := table.rows ++ [q.totalRow] }

end Price.Quote

end Quotation
