import Quotation.Key

/-!
# Parameters of a quote form

A merchant describes a quote form as a list of parameters: choices, numbers to enter and numbers that
are worked out, each with its prices. Names, labels and other descriptive fields are kept as the
merchant wrote them, so that a schema that is saved again says the same.
-/

namespace Quotation

inductive ParameterKind where
  | fixedOption
  | numericValue
  | derivedCalc
  deriving DecidableEq

def ParameterKind.all : List ParameterKind := [fixedOption, numericValue, derivedCalc]

def ParameterKind.label : ParameterKind → String
  | fixedOption => "FixedOption"
  | numericValue => "NumericValue"
  | derivedCalc => "DerivedCalc"

/-- What a price is charged against. -/
inductive PricingScope where
  | perUnit
  | perQuantity
  deriving DecidableEq

def PricingScope.all : List PricingScope := [perUnit, perQuantity]

def PricingScope.label : PricingScope → String
  | perUnit => "per_unit"
  | perQuantity => "per_qty"

/-- An amount added for every unit above a threshold. -/
structure StepPricing where
  threshold : Float
  stepAmount : Float
  deriving DecidableEq

/-- The amount for a number of units; zero at or below the threshold. -/
def StepPricing.amountFor (step : StepPricing) (units : Float) : Float :=
  if units > step.threshold then step.stepAmount * (units - step.threshold) else 0

/-- The amount for a count of units. A whole number is held against the threshold exactly, also where
doubles are too coarse for it. -/
def StepPricing.amountForCount (step : StepPricing) (units : Value) : Except ValueFault Float := do
  match units with
  | .int n =>
    if Number.isBelow step.threshold n then
      return step.stepAmount * ((← intToFloat n) - step.threshold)
    else
      return 0
  | _ => return step.amountFor (← units.amount)

structure PricingRule where
  basePrice : Option Float := none
  unitPrice : Option Float := none
  multiplier : Option Float := none
  step : Option StepPricing := none
  deriving DecidableEq

structure SubOption where
  id : String
  label : Value
  value : String
  description : Value := .text ""
  price : Float := 0
  scope : Option PricingScope := none

structure FixedOption where
  label : Value
  value : String
  description : Value := .text ""
  pricing : PricingRule := {}
  subOptions : List SubOption := []

/-- Shows a parameter only while its parent holds one of some values. -/
structure Conditional where
  parent : Value
  showWhen : List String

structure Parameter where
  id : String
  name : Value
  label : Value := .text ""
  kind : ParameterKind
  required : Bool := false
  description : Value := .text ""
  pricing : PricingRule := {}
  options : List FixedOption := []
  min : Option Float := none
  max : Option Float := none
  step : Option Float := none
  unit : Option Value := none
  formula : Option Value := none
  dependencies : List Value := []
  conditional : Option Conditional := none
  isMainUnits : Bool := false
  unitsPerQuantity : Option Float := none
  scope : Option PricingScope := none

/-! ## Names -/

def quantityName : String := "quantity"

/-- What the names of sub-options end with. -/
def subOptionSuffix : String := "_suboption"

def subOptionName (name : Value) : String := name.shown ++ subOptionSuffix

namespace Conditional

def parentKey (c : Conditional) : Key := c.parent.key

end Conditional

namespace Parameter

def key (p : Parameter) : Key := p.name.key

def subName (p : Parameter) : String := subOptionName p.name

/-- The keys of the fields that a formula may read. -/
def dependsOn (p : Parameter) : List Key := p.dependencies.map Value.key

def isChoice (p : Parameter) : Bool := p.kind = .fixedOption

def isDerived (p : Parameter) : Bool := p.kind = .derivedCalc

/-- The formula of a parameter. An empty one counts as none. -/
def givenFormula (p : Parameter) : Option Value := p.formula.filter Value.isGiven

def displayName (p : Parameter) : Value := p.label.orElse p.name

end Parameter

/-! ## Looking up choices -/

/-- The first of some choices whose value is the one that was chosen. With no choices at all the
chosen value is not looked at. -/
def findChoice {α : Type} (valueOf : α → String) (choices : List α) (chosen : Value) :
    Except ValueFault (Option α) := do
  if chosen.isBlank || choices.isEmpty then
    return none
  let key ← chosen.optionKey
  return choices.find? (valueOf · == key)

def FixedOption.findSubOption (o : FixedOption) (chosen : Value) :
    Except ValueFault (Option SubOption) :=
  findChoice SubOption.value o.subOptions chosen

def Parameter.findOption (p : Parameter) (chosen : Value) :
    Except ValueFault (Option FixedOption) :=
  findChoice FixedOption.value p.options chosen

end Quotation
