import Quotation.Derived.Cycle
import Quotation.Formula.Parser

/-!
# What is wrong with a schema

Faults that a merchant should hear of before buyers see the form: names that are taken twice,
formulas that cannot be read, dependencies that lead nowhere or round in circles. A schema without
errors is valid; warnings are advice. Pricing does not depend on either. Where a parameter is called
or refers to what is no name, there is no check.
-/

namespace Quotation.Schema

inductive ParameterError where
  | duplicateOption (value : String)
  | noFormula
  | unreadableFormula (formula : String) (cause : FormulaError)
  /-- A formula uses a name that is no dependency. -/
  | undeclared (name : String)
  | unknownDependency (name : Value)
  | selfDependency
  | crossedLimits (min max : Float)
  | unknownParent (name : Value)

inductive Error where
  | duplicateName (name : Value)
  | severalMainUnits (names : List Value)
  | parameter (p : Parameter) (error : ParameterError)
  /-- Derived parameters that wait for each other; the first is repeated at the end. -/
  | cycle (names : List Value)

inductive ParameterWarning where
  | noOptions
  | ignoredOptions
  | neverShown
  | quantityKind

structure Warning where
  about : Parameter
  warning : ParameterWarning

structure Report where
  errors : List Error := []
  warnings : List Warning := []

def Report.valid (report : Report) : Bool := report.errors.isEmpty

/-! ## Messages -/

def ParameterError.message : ParameterError → String
  | duplicateOption value => "duplicate option value '" ++ value ++ "'"
  | noFormula => "DerivedCalc parameter has no formula"
  | unreadableFormula formula cause =>
    "formula '" ++ formula ++ "' does not parse (" ++ cause.message ++ ")"
  | undeclared name => "formula uses '" ++ name ++ "' which is not listed in dependencies"
  | unknownDependency name => "dependency '" ++ name.shown ++ "' does not exist in the schema"
  | selfDependency => "depends on itself"
  | crossedLimits min max =>
    "min (" ++ Number.limitText min ++ ") is greater than max (" ++ Number.limitText max ++ ")"
  | unknownParent name => "conditional parent '" ++ name.shown ++ "' does not exist"

def Error.message : Error → String
  | duplicateName name => "Duplicate parameter name '" ++ name.shown ++ "'"
  | severalMainUnits names =>
    "Only one parameter may set isMainUnits (found: " ++
      ", ".intercalate (names.map Value.shown) ++ ")"
  | parameter p error => p.displayName.shown ++ ": " ++ error.message
  | cycle names => "Dependency cycle: " ++ " -> ".intercalate (names.map Value.shown)

def Warning.message (w : Warning) : String :=
  let label := w.about.displayName.shown ++ ": "
  match w.warning with
  | .noOptions => label ++ "FixedOption parameter has no options"
  | .ignoredOptions => label ++ "options are ignored for " ++ w.about.kind.label ++ " parameters"
  | .neverShown => label ++ "conditional has an empty showWhen list and is never shown"
  | .quantityKind => "'quantity' should be a NumericValue parameter"

/-! ## One parameter -/

def repeated (values : List String) : List String :=
  (values.filter fun value => values.count value > 1).eraseDups.mergeSort

def optionErrors (p : Parameter) : List ParameterError :=
  if p.isChoice then (repeated (p.options.map FixedOption.value)).map .duplicateOption else []

def formulaErrors (p : Parameter) : List ParameterError :=
  match p.givenFormula with
  | none => [.noFormula]
  | some formula =>
    (match Formula.parseFormula formula.shown with
      | .ok _ => []
      | .error cause => [.unreadableFormula formula.shown cause]) ++
    ((Formula.namesIn formula.shown).filter fun name =>
      !p.dependsOn.contains (.text name)).map .undeclared

def dependencyErrors (keys : List Key) (p : Parameter) (name : Value) : List ParameterError :=
  if !keys.contains name.key then [.unknownDependency name]
  else if name.key = p.key then [.selfDependency]
  else []

def derivedErrors (keys : List Key) (p : Parameter) : List ParameterError :=
  if p.isDerived then formulaErrors p ++ p.dependencies.flatMap (dependencyErrors keys p) else []

def limitErrors (p : Parameter) : List ParameterError :=
  match p.min, p.max with
  | some min, some max => if min > max then [.crossedLimits min max] else []
  | _, _ => []

def conditionalErrors (keys : List Key) (p : Parameter) : List ParameterError :=
  match p.conditional with
  | some c => if keys.contains c.parentKey then [] else [.unknownParent c.parent]
  | none => []

def parameterErrors (keys : List Key) (p : Parameter) : List ParameterError :=
  optionErrors p ++ derivedErrors keys p ++ limitErrors p ++ conditionalErrors keys p

def optionWarnings (p : Parameter) : List ParameterWarning :=
  if p.isChoice then
    if p.options.isEmpty then [.noOptions] else []
  else
    if p.options.isEmpty then [] else [.ignoredOptions]

def conditionalWarnings (keys : List Key) (p : Parameter) : List ParameterWarning :=
  match p.conditional with
  | some c => if keys.contains c.parentKey && c.showWhen.isEmpty then [.neverShown] else []
  | none => []

def quantityWarnings (p : Parameter) : List ParameterWarning :=
  if p.key = quantityName ∧ p.kind ≠ .numericValue then [.quantityKind] else []

def parameterWarnings (keys : List Key) (p : Parameter) : List ParameterWarning :=
  optionWarnings p ++ conditionalWarnings keys p ++ quantityWarnings p

/-! ## The schema -/

/-- The names that come again after they were taken, once for every time. -/
def takenAgain : List Key → List Value → List Value
  | _, [] => []
  | seen, name :: names =>
    if seen.contains name.key then name :: takenAgain seen names
    else takenAgain (name.key :: seen) names

/-- The names of the parameters that are marked as main units, if there are several. -/
def severalMainUnits (parameters : List Parameter) : List (List Value) :=
  let names := (parameters.filter (·.isMainUnits)).map (·.name)
  if names.length > 1 then [names] else []

/-- The cycles through more than one parameter; a parameter that depends on itself is told of
elsewhere. -/
def longCycles (parameters : List Parameter) : List (List Value) :=
  (Derived.findCycles parameters).filter fun cycle => cycle.length > 2

def errors (parameters : List Parameter) : List Error :=
  let keys := Derived.keysOf parameters
  (takenAgain [] (parameters.map (·.name))).map .duplicateName ++
    (severalMainUnits parameters).map .severalMainUnits ++
    (parameters.flatMap fun p => (parameterErrors keys p).map (.parameter p)) ++
    (longCycles parameters).map .cycle

def warnings (parameters : List Parameter) : List Warning :=
  let keys := Derived.keysOf parameters
  parameters.flatMap fun p => (parameterWarnings keys p).map (⟨p, ·⟩)

def namesUsed (parameters : List Parameter) : List Value :=
  parameters.map (·.name) ++ (parameters.filter (·.isDerived)).flatMap (·.dependencies) ++
    parameters.filterMap fun p => p.conditional.map (·.parent)

/-- All that is wrong with the parameters of a schema. The names in the rows of names that are
reported have to be text. -/
def check (parameters : List Parameter) : Except ValueFault Report := do
  requireNames (namesUsed parameters)
  requireTexts (severalMainUnits parameters ++ longCycles parameters).flatten
  return ⟨errors parameters, warnings parameters⟩

end Quotation.Schema
