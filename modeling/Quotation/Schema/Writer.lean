import Quotation.Schema.Parameter

/-!
# Writing parameters

Parameters as loose objects, in the form that they are read from. Fields that hold their default are
left out, the fields that every parameter has apart.
-/

namespace Quotation

def optionalField {α : Type} (key : String) (write : α → Value) : Option α → List (String × Value)
  | none => []
  | some a => [(key, write a)]

def fieldIf (condition : Bool) (key : String) (value : Value) : List (String × Value) :=
  if condition then [(key, value)] else []

def PricingScope.toValue (scope : PricingScope) : Value := .text scope.label

def StepPricing.toValue (step : StepPricing) : Value :=
  .object [("threshold", .float step.threshold), ("step_amount", .float step.stepAmount)]

def PricingRule.toValue (rule : PricingRule) : Value :=
  .object <|
    optionalField "base_price" .float rule.basePrice ++
    optionalField "unit_price" .float rule.unitPrice ++
    optionalField "multiplier" .float rule.multiplier ++
    optionalField "step_pricing" StepPricing.toValue rule.step

def SubOption.toValue (s : SubOption) : Value :=
  .object <|
    [("id", .text s.id), ("label", s.label), ("value", .text s.value),
      ("description", s.description), ("price", .float s.price)] ++
    optionalField "pricingScope" PricingScope.toValue s.scope

def FixedOption.toValue (o : FixedOption) : Value :=
  .object <|
    [("label", o.label), ("value", .text o.value), ("description", o.description),
      ("pricing", o.pricing.toValue)] ++
    fieldIf (!o.subOptions.isEmpty) "subOptions" (.list (o.subOptions.map SubOption.toValue))

def Conditional.toValue (c : Conditional) : Value :=
  .object [("parentParameter", c.parent), ("showWhen", .list (c.showWhen.map .text))]

def Parameter.toValue (p : Parameter) : Value :=
  .object <|
    [("id", .text p.id), ("name", p.name), ("label", p.label), ("type", .text p.kind.label),
      ("required", .bool p.required), ("pricing", p.pricing.toValue)] ++
    fieldIf p.description.isGiven "description" p.description ++
    fieldIf (!p.options.isEmpty) "options" (.list (p.options.map FixedOption.toValue)) ++
    optionalField "min" .float p.min ++
    optionalField "max" .float p.max ++
    optionalField "step" .float p.step ++
    optionalField "unit" (fun v => v) p.unit ++
    optionalField "formula" (fun v => v) p.formula ++
    fieldIf (!p.dependencies.isEmpty) "dependencies" (.list p.dependencies) ++
    optionalField "conditional" Conditional.toValue p.conditional ++
    fieldIf p.isMainUnits "isMainUnits" (.bool true) ++
    optionalField "unitsPerQuantity" .float p.unitsPerQuantity ++
    optionalField "pricingScope" PricingScope.toValue p.scope

end Quotation
