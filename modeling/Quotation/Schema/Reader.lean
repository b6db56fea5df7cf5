import Quotation.Schema.Parameter

/-!
# Reading parameters

Parameters from loose objects. Whatever is missing or not given takes its default, numbers may be
written as text, and text is kept where text is expected even if it is another kind of value. What
cannot be read so is an error.
-/

namespace Quotation

inductive ReadError where
  | fault (cause : ValueFault)
  | unknownKind (value : Value)
  | unknownScope (value : Value)
  | notAnObject
  | notAList

def ReadError.message : ReadError → String
  | fault cause => cause.message
  | unknownKind value => value.quoted ++ " is not a valid ParameterType"
  | unknownScope value => value.quoted ++ " is not a valid PricingScope"
  | notAnObject => "an object is expected here"
  | notAList => "a list is expected here"

namespace Value

def asObject : Value → Except ReadError (List (String × Value))
  | object fields => .ok fields
  | _ => .error .notAnObject

/-- The items of a list, the characters of a text or the keys of an object; nothing if the value is
not given. -/
def asItems (value : Value) : Except ReadError (List Value) :=
  if value.isGiven then
    match value with
    | list items => .ok items
    | text s => .ok (s.toList.map fun c => .text c.toString)
    | object fields => .ok (fields.map fun field => .text field.1)
    | _ => .error .notAList
  else
    .ok []

def asNumber (value : Value) : Except ReadError Float := value.toFloat.mapError .fault

end Value

def fieldOr (fields : List (String × Value)) (key : String) (default : Value) : Value :=
  (fields.lookup key).getD default

def fieldOf (fields : List (String × Value)) (key : String) : Value := fieldOr fields key .null

/-- A number, unless the field holds nothing or empty text. -/
def readOptionalNumber (value : Value) : Except ReadError (Option Float) :=
  if value.isBlank then .ok none else return some (← value.asNumber)

def readScope (value : Value) : Except ReadError (Option PricingScope) :=
  if value.isGiven then
    match PricingScope.all.find? fun scope => decide (value.shown = scope.label) with
    | some scope => .ok (some scope)
    | none => .error (.unknownScope value)
  else
    .ok none

def readKind (value : Value) : Except ReadError ParameterKind :=
  match ParameterKind.all.find? fun kind => decide (value.shown = kind.label) with
  | some kind => .ok kind
  | none => .error (.unknownKind value)

def readGiven (value : Value) : Option Value := if value.isGiven then some value else none

def StepPricing.ofFields (fields : List (String × Value)) : Except ReadError StepPricing := do
  let threshold ← (fieldOr fields "threshold" (.int 0)).asNumber
  let stepAmount ← (fieldOr fields "step_amount" (.int 0)).asNumber
  return { threshold, stepAmount }

def StepPricing.ofValue (value : Value) : Except ReadError (Option StepPricing) := do
  if value.isGiven then
    return some (← StepPricing.ofFields (← value.asObject))
  else
    return none

def PricingRule.ofFields (fields : List (String × Value)) : Except ReadError PricingRule := do
  let basePrice ← readOptionalNumber (fieldOf fields "base_price")
  let unitPrice ← readOptionalNumber (fieldOf fields "unit_price")
  let multiplier ← readOptionalNumber (fieldOf fields "multiplier")
  let step ← StepPricing.ofValue (fieldOf fields "step_pricing")
  return { basePrice, unitPrice, multiplier, step }

def PricingRule.ofValue (value : Value) : Except ReadError PricingRule := do
  if value.isGiven then PricingRule.ofFields (← value.asObject) else return {}

def SubOption.ofFields (fields : List (String × Value)) : Except ReadError SubOption := do
  let value := fieldOr fields "value" (.text "")
  let price ← ((fieldOf fields "price").orElse (.int 0)).asNumber
  let scope ← readScope (fieldOf fields "pricingScope")
  return {
    id := ((fieldOf fields "id").orElse value).shown
    label := fieldOr fields "label" (.text "")
    value := value.shown
    description := (fieldOf fields "description").orElse (.text "")
    price
    scope
  }

def SubOption.ofValue (value : Value) : Except ReadError SubOption := do
  SubOption.ofFields (← value.asObject)

def FixedOption.ofFields (fields : List (String × Value)) : Except ReadError FixedOption := do
  let pricing ← PricingRule.ofValue (fieldOf fields "pricing")
  let subOptions ← (← (fieldOf fields "subOptions").asItems).mapM SubOption.ofValue
  return {
    label := fieldOr fields "label" (.text "")
    value := (fieldOr fields "value" (.text "")).shown
    description := (fieldOf fields "description").orElse (.text "")
    pricing
    subOptions
  }

def FixedOption.ofValue (value : Value) : Except ReadError FixedOption := do
  FixedOption.ofFields (← value.asObject)

def Conditional.ofFields (fields : List (String × Value)) : Except ReadError Conditional := do
  let showWhen ← (fieldOf fields "showWhen").asItems
  return { parent := fieldOr fields "parentParameter" (.text ""), showWhen := showWhen.map (·.shown) }

def Conditional.ofValue (value : Value) : Except ReadError (Option Conditional) := do
  if value.isGiven then
    return some (← Conditional.ofFields (← value.asObject))
  else
    return none

def Parameter.ofFields (fields : List (String × Value)) : Except ReadError Parameter := do
  let name := fieldOr fields "name" (.text "")
  let kind ← readKind (fieldOf fields "type")
  let pricing ← PricingRule.ofValue (fieldOf fields "pricing")
  let options ← (← (fieldOf fields "options").asItems).mapM FixedOption.ofValue
  let min ← readOptionalNumber (fieldOf fields "min")
  let max ← readOptionalNumber (fieldOf fields "max")
  let step ← readOptionalNumber (fieldOf fields "step")
  let dependencies ← (fieldOf fields "dependencies").asItems
  let conditional ← Conditional.ofValue (fieldOf fields "conditional")
  let unitsPerQuantity ← readOptionalNumber (fieldOf fields "unitsPerQuantity")
  let scope ← readScope (fieldOf fields "pricingScope")
  return {
    id := ((fieldOf fields "id").orElse name).shown
    name
    label := (fieldOf fields "label").orElse (.text "")
    kind
    required := (fieldOf fields "required").isGiven
    description := (fieldOf fields "description").orElse (.text "")
    pricing
    options
    min
    max
    step
    unit := readGiven (fieldOf fields "unit")
    formula := readGiven (fieldOf fields "formula")
    dependencies
    conditional
    isMainUnits := (fieldOf fields "isMainUnits").isGiven
    unitsPerQuantity
    scope
  }

def Parameter.ofValue (value : Value) : Except ReadError Parameter := do
  Parameter.ofFields (← value.asObject)

def readParameters (items : List Value) : Except ReadError (List Parameter) :=
  items.mapM Parameter.ofValue

end Quotation
