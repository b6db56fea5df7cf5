import Quotation.Export.Table

/-!
# Comma-separated values

A table as text: one line for the columns and one for each row, fields with commas between them. A
field that holds a comma, a quote or a line end stands between quotes, and quotes in it are doubled.
-/

namespace Quotation.Csv

/-- A character for which a field has to be quoted. -/
def isSpecial (c : Char) : Bool := c == ',' || c == '"' || c == '\n'

def doubleQuotes (cs : List Char) : List Char :=
  cs.flatMap fun c => if c = '"' then ['"', '"'] else [c]

def field (s : String) : String :=
  if s.toList.any isSpecial then "\"" ++ String.ofList (doubleQuotes s.toList) ++ "\"" else s

/-- The text of a cell. A cell that holds nothing is empty. -/
def cellText : Value → String
  | .null => ""
  | value => value.shown

def line (fields : List String) : String := ",".intercalate (fields.map field) ++ "\n"

end Quotation.Csv

namespace Quotation

def Table.toCsv (t : Table) : String :=
  Csv.line t.columns ++ String.join (t.rows.map fun row => Csv.line (row.map Csv.cellText))

def Price.Quote.toCsv (q : Price.Quote) : Except ValueFault String := do
  return (← q.exportTable).toCsv

end Quotation
