import Quotation.Schema.Parameter
import Quotation.Schema.Shape

/-!
# The shape of a schema

What the data of a quote form has to look like before parameters are read from it. The fields stand
in the order in which issues are reported.
-/

namespace Quotation

namespace FieldShape

def required (key : String) (shape : Shape) (otherKey : Option String := none) : FieldShape :=
  ⟨key, otherKey, none, shape⟩

def withDefault (key : String) (shape : Shape) (default : Value)
    (otherKey : Option String := none) : FieldShape :=
  ⟨key, otherKey, some default, shape⟩

/-- A field that may hold nothing or be missing. -/
def optional (key : String) (shape : Shape) (otherKey : Option String := none) : FieldShape :=
  ⟨key, otherKey, some .null, .optional shape⟩

end FieldShape

namespace Payload

open FieldShape

def scope : Shape := .oneOf (PricingScope.all.map PricingScope.label)

def kind : Shape := .oneOf (ParameterKind.all.map ParameterKind.label)

def stepPricing : Shape :=
  .record [required "threshold" .number, required "step_amount" .number]

def pricingRule : Shape :=
  .record [
    optional "base_price" .number,
    optional "unit_price" .number,
    optional "multiplier" .number,
    optional "step_pricing" stepPricing]

def subOption : Shape :=
  .record [
    optional "id" .text,
    required "label" .text,
    required "value" .text,
    optional "description" .text,
    withDefault "price" .number (.float 0),
    optional "pricingScope" scope "pricing_scope"]

def fixedOption : Shape :=
  .record [
    required "label" .text,
    required "value" .text,
    optional "description" .text,
    withDefault "pricing" pricingRule (.object []),
    optional "subOptions" (.list subOption) "sub_options"]

def conditional : Shape :=
  .record [
    required "parentParameter" .text "parent_parameter",
    withDefault "showWhen" (.list .text) (.list []) "show_when"]

def parameter : Shape :=
  .record [
    optional "id" .text,
    required "name" .nonEmptyText,
    withDefault "label" .text "",
    optional "description" .text,
    required "type" kind,
    withDefault "required" .flag (.bool false),
    withDefault "pricing" pricingRule (.object []),
    optional "options" (.list fixedOption),
    optional "min" .number,
    optional "max" .number,
    optional "step" .number,
    optional "unit" .text,
    optional "formula" .text,
    optional "dependencies" (.list .text),
    optional "conditional" conditional,
    withDefault "isMainUnits" .flag (.bool false) "is_main_units",
    optional "unitsPerQuantity" .number "units_per_quantity",
    optional "pricingScope" scope "pricing_scope"]

def fileConnection : Shape :=
  .record [
    required "id" .text,
    required "metadataKey" .text "metadata_key",
    required "parameterName" .text "parameter_name",
    withDefault "description" .text ""]

def schema : Shape :=
  .record [
    withDefault "name" .text "",
    withDefault "title" .text "",
    withDefault "description" .text "",
    withDefault "currency" .text "USD",
    required "parameters" (.list parameter),
    withDefault "fileConnections" (.list fileConnection) (.list []) "file_connections"]

end Payload

end Quotation
