import Quotation.Derived.Resolution
import Quotation.Form.Visibility
import Quotation.Price.Line

/-!
# The price of a form

A quote works out the derived values, prices every parameter that is shown and holds a value, and
multiplies the sum of the lines by the order quantity. Lines that are not above zero or not finite
are left out.
-/

namespace Quotation.Price

structure BreakdownItem where
  parameter : Value
  description : String
  amount : Float
  shares : List Share

structure Quote where
  total : Float := 0
  breakdown : List BreakdownItem := []
  quantity : Float := 1
  unitTotal : Float := 0
  mainUnits : Float := 1
  currency : Currency := .usd
  /-- The form values, derived values worked out. -/
  values : FormValues

def Line.toItem (line : Line) (p : Parameter) : BreakdownItem where
  parameter := p.displayName
  description := "; ".intercalate (line.shares.map (·.description))
  amount := line.total
  shares := line.shares

/-- The line of a parameter in a quote, if it has one. The order quantity is not priced by itself. -/
def itemOf (p : Parameter) (values : FormValues) (symbol : String) :
    Except ValueFault (Option BreakdownItem) := do
  if p.key = quantityName then return none
  if !(← Form.isVisible p values) then return none
  let value ← values.read p.name
  if value.isBlank then return none
  let line ← parameterLine p value values symbol
  return if line.total.isFinite ∧ line.total > 0 then some (line.toItem p) else none

/-- The order quantity: one unless a number is given. -/
def quantityOf (values : FormValues) : Except ValueFault Float := do
  return (← (values.get quantityName).number?).getD 1

/-- The value of the first parameter that counts the main units; one if there is none. -/
def mainUnitsOf (parameters : List Parameter) (values : FormValues) :
    Except ValueFault Float := do
  match parameters.find? (·.isMainUnits) with
  | none => return 1
  | some p => (← values.read p.name).numberOrZero

def sumOf (breakdown : List BreakdownItem) : Float :=
  breakdown.foldl (fun sum item => sum + item.amount) 0

def priceForm (parameters : List Parameter) (v : FormValues) (currency : Currency) :
    Except ValueFault Quote := do
  let values ← Derived.resolve parameters v
  let quantity ← quantityOf values
  let mainUnits ← mainUnitsOf parameters values
  let items ← parameters.mapM fun p => itemOf p values currency.symbol
  let breakdown := items.filterMap id
  let unitTotal := sumOf breakdown
  return { total := unitTotal * quantity, breakdown, quantity, unitTotal, mainUnits, currency,
           values }

/-- The quote for a form that cannot be priced: nothing, for one item. -/
def noQuote (v : FormValues) (currency : Currency) : Quote := { currency, values := v }

def quote (parameters : List Parameter) (v : FormValues) (code : Value := .text "USD") : Quote :=
  let currency := Currency.ofCode code
  match priceForm parameters v currency with
  | .ok q => q
  | .error _ => noQuote v currency

end Quotation.Price
