import Quotation.Currency
import Quotation.FormValues
import Quotation.Schema.Parameter

/-!
# The price of one parameter

A line adds up the prices of one parameter, each with its share explained, and a multiplier at the
end scales the whole line. Prices that are absent or zero have no share.
-/

namespace Quotation.Price

inductive ShareKind where
  | base
  | option
  | subOption
  | unitPrice
  | step
  | multiplier
  deriving DecidableEq

def ShareKind.label : ShareKind → String
  | base => "base"
  | option => "option"
  | subOption => "sub_option"
  | unitPrice => "unit_price"
  | step => "step"
  | multiplier => "multiplier"

/-- One contribution to a line. A multiplier has no amount of its own. -/
structure Share where
  kind : ShareKind
  description : String
  amount : Option Float
  deriving DecidableEq

structure Line where
  total : Float := 0
  shares : List Share := []
  deriving DecidableEq

namespace Line

def add (line : Line) (kind : ShareKind) (amount : Float) (description : String) : Line :=
  { total := line.total + amount, shares := line.shares ++ [⟨kind, description, some amount⟩] }

def multiply (line : Line) (factor : Float) : Line :=
  { total := line.total * factor
    shares := line.shares ++
      [⟨.multiplier, "Multiplier: " ++ Number.plainText factor ++ "x", none⟩] }

end Line

/-- A price or factor unless it is absent or zero. -/
def charged (price : Option Float) : Option Float := price.filter fun x => !(x == 0)

def addCharge (line : Line) (kind : ShareKind) (price : Option Float)
    (describe : Float → String) : Line :=
  match charged price with
  | some amount => line.add kind amount (describe amount)
  | none => line

def applyMultiplier (line : Line) (factor : Option Float) : Line :=
  match charged factor with
  | some factor => line.multiply factor
  | none => line

def money (symbol : String) (amount : Float) : String := symbol ++ Number.plainText amount

/-! ## Choices -/

/-- The shares of a chosen option and of its sub-option, then the multiplier of the option. An option
has no unit count, so that its unit price is added as it is. -/
def optionLine (line : Line) (option : FixedOption) (sub : Option SubOption) (symbol : String) :
    Line :=
  let label := option.label.shown ++ ": "
  let line := addCharge line .option option.pricing.basePrice fun x => label ++ money symbol x
  let line := addCharge line .option option.pricing.unitPrice fun x =>
    label ++ money symbol x ++ " per item"
  let line :=
    match sub with
    | some sub => addCharge line .subOption (some sub.price) fun x =>
      sub.label.shown ++ ": " ++ money symbol x
    | none => line
  applyMultiplier line option.pricing.multiplier

def choiceLine (line : Line) (p : Parameter) (value : Value) (values : FormValues)
    (symbol : String) : Except ValueFault Line := do
  match ← p.findOption value with
  | none => return line
  | some option =>
    return optionLine line option (← option.findSubOption (values.get p.subName)) symbol

/-! ## Numbers -/

def totalUnits (p : Parameter) (number : Float) : Float := number * p.unitsPerQuantity.getD 1

def addStep (line : Line) (step : Option StepPricing) (units : Float) (symbol : String) : Line :=
  match step with
  | none => line
  | some step =>
    if units > step.threshold then
      line.add .step (step.amountFor units) <|
        (if step.stepAmount < 0 then "Volume discount" else "Volume surcharge") ++ ": " ++
          money symbol step.stepAmount ++ " per unit above " ++ Number.plainText step.threshold
    else
      line

/-- The shares of a number of units: unit price, step pricing, then the multiplier. -/
def unitsLine (line : Line) (p : Parameter) (units : Float) (symbol : String) : Line :=
  let unit := (p.unit.getD (.text "units")).shown
  let line :=
    match charged p.pricing.unitPrice with
    | none => line
    | some price => line.add .unitPrice (price * units) <|
      "Unit price: " ++ money symbol price ++ " × " ++ Number.unitsText units ++ " " ++ unit
  applyMultiplier (addStep line p.pricing.step units symbol) p.pricing.multiplier

/-! ## Any parameter -/

/-- The line of a parameter that holds a value: its base price, then what its kind adds. -/
def parameterLine (p : Parameter) (value : Value) (values : FormValues) (symbol : String) :
    Except ValueFault Line := do
  let line := addCharge {} .base p.pricing.basePrice fun x =>
    "Base: " ++ money symbol x ++ " per item"
  match p.kind with
  | .fixedOption => choiceLine line p value values symbol
  | .numericValue | .derivedCalc =>
    return unitsLine line p (totalUnits p (← value.numberOrZero)) symbol

end Quotation.Price
