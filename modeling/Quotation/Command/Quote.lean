import Quotation.Command.Arguments
import Quotation.Command.Help
import Quotation.Command.Outcome
import Quotation.Export.Csv
import Quotation.Samples
import Quotation.Session

/-!
# The quote command

Prices a sample: fills in the values from the command line one after the other, then prints the
lines of the quote, its totals and what is missing or wrong. On demand the quote is also saved as a
table.
-/

namespace Quotation.Command

def rule (c : Char) : String := "".pushn c 60

/-- The key and the value of a pair; none without an equals sign. -/
def readPair (pair : String) : Option (String × String) :=
  match splitEquals pair.toList with
  | (key, some value) => some (String.ofList key, String.ofList value)
  | (_, none) => none

/-- Fills in one value. A key that ends like one of a sub-option chooses the sub-option. -/
def enter (s : Session) (key value : String) : Except ValueFault Session :=
  if key.endsWith subOptionSuffix then
    .ok (s.selectSubOption ((key.dropEnd subOptionSuffix.length).copy) (.text value))
  else
    s.setValue key (.text value)

/-- Fills in values until one is not a pair. Gives the session, or what is not a pair. -/
def enterAll (s : Session) : List String → Except ValueFault (Except String Session)
  | [] => .ok (.ok s)
  | pair :: pairs =>
    match readPair pair with
    | none => .ok (.error pair)
    | some (key, value) => do enterAll (← enter s key value) pairs

/-! ## The page -/

def itemLines (q : Price.Quote) (item : Price.BreakdownItem) : List String :=
  ["  " ++ padEnd 24 item.parameter.shown ++ " " ++ padStart 14 (q.money item.amount),
    "      " ++ item.description]

def quoteLines (title : String) (q : Price.Quote) : List String :=
  [rule '=', "QUOTE: " ++ title, rule '='] ++ q.breakdown.flatMap (itemLines q) ++
    [rule '-',
      "  Unit total: " ++ q.money q.unitTotal ++ "  × " ++ Number.limitText q.quantity,
      "  TOTAL:      " ++ q.money q.total]

def messageLines (messages : List String) : List String :=
  if messages.isEmpty then []
  else ["", "Validation:"] ++ messages.map fun message => "  ❌ " ++ message

def savedLines : Option String → List String
  | some path => ["", "Breakdown saved to: " ++ path]
  | none => []

/-! ## The command -/

def savedFile (q : Price.Quote) (path : String) : Except Failure (String × String) := do
  let path := Path.normalize path
  let table ← q.toCsv.mapError .fault
  if Path.endsInDirectory path then throw (.directory path) else return (path, table)

def present (title : String) (s : Session) (csv : Option String) : Except Failure Outcome := do
  let q := s.quote
  let messages ← s.validate.mapError .fault
  let file ← csv.mapM (savedFile q)
  return {
    lines := quoteLines title q ++ messageLines messages ++ savedLines (file.map (·.1))
    file
  }

def quoteRequest (settings : Settings) (samples : Catalogue) (r : Request) :
    Except Failure Outcome := do
  let schema ← (samples.load r.sample).mapError .schema
  let currency := (r.currency.filter (· != "")).getD schema.currency
  let session ←
    (Session.start settings schema.parameters none (.text currency)).mapError .fault
  match ← (enterAll session r.pairs).mapError .fault with
  | .ok session => present schema.title.shown session r.csv
  | .error pair =>
    return { exitCode := 2, lines := ["ERROR: expected name=value, got '" ++ pair ++ "'"] }

def quote (program : String) (settings : Settings) (samples : Catalogue)
    (arguments : List String) : Except Failure Outcome :=
  match readRequest samples.names arguments with
  | .request r => quoteRequest settings samples r
  | .help => .ok { lines := helpLines program samples.names }
  | .misuse => .ok { exitCode := 2 }

end Quotation.Command
