import Quotation.Value

/-!
# Columns of numbers

The cells of a column are kept as they are unless all of them are numbers. Numbers become doubles
as soon as one of them is a double, or one is missing while others are whole. Whole numbers on their
own stay whole, and so do those of a column in which one does not fit into 64 bits.
-/

namespace Quotation

def amountCell (amount : Float) : Value := if amount.isNaN then .null else .float amount

namespace Column

/-- What has been seen of a column whose cells are numbers so far. -/
structure Survey where
  missing : Bool := false
  notANumber : Bool := false
  flag : Bool := false
  double : Bool := false
  whole : Bool := false
  negative : Bool := false
  /-- A whole number that fits into 64 bits only without a sign. -/
  wide : Bool := false
  deriving DecidableEq

namespace Survey

/-- Whether 64 bits hold a whole number and every one seen before, all with a sign or all without. -/
def fits (s : Survey) (n : Int) : Bool :=
  -0x8000000000000000 ≤ n && n < 0x10000000000000000 && !(s.negative && s.wide)

/-- Sees a whole number. After a missing cell its size does not count. -/
def addWhole (s : Survey) (n : Int) : Option Survey :=
  let s := { s with whole := true }
  if s.missing then some s
  else
    let s := { s with negative := s.negative || n < 0, wide := s.wide || 0x8000000000000000 ≤ n }
    if s.fits n then some s else none

def isDouble (s : Survey) : Bool :=
  !s.flag && (s.double || s.whole && (s.missing || s.notANumber))

end Survey

/-- Sees cells up to the first that keeps a column as it is; nothing if there is one. A whole number
beyond the largest double is an error. -/
def survey (s : Survey) : List Value → Except ValueFault (Option Survey)
  | [] => .ok (some s)
  | .null :: cells => survey { s with missing := true } cells
  | .nan _ :: cells => survey { s with notANumber := true } cells
  | .bool _ :: cells => survey { s with flag := true } cells
  | .float _ :: cells => survey { s with double := true } cells
  | .int n :: cells => do
    let _ ← intToFloat n
    match s.addWhole n with
    | some s => survey s cells
    | none => return none
  | _ :: _ => .ok none

def doubleCell : Value → Except ValueFault Value
  | .int n => do return .float (← intToFloat n)
  | cell => .ok cell

/-- A cell that holds nothing if it is no number where one is expected. -/
def shownCell : Value → Value
  | .nan _ => .null
  | .float x => amountCell x
  | cell => cell

def cells (values : List Value) : Except ValueFault (List Value) := do
  let values ←
    match ← survey {} values with
    | some s => if s.isDouble then values.mapM doubleCell else pure values
    | none => pure values
  return values.map shownCell

end Column

end Quotation
