import Quotation.Form.Visibility

/-!
# What is missing or wrong in a form

Three checks of the parameters that are shown: required parameters hold a value, a chosen option
that has sub-options has a valid one chosen, and numbers are numbers within their limits.
-/

namespace Quotation.Form

inductive Problem where
  | missing
  /-- No sub-option of the chosen option is chosen. -/
  | noSubOption (chosen : FixedOption)
  /-- The chosen option has no such sub-option. -/
  | wrongSubOption (value : Value) (chosen : FixedOption)
  | notANumber
  | below (limit : Float)
  | above (limit : Float)

def unitSuffix (p : Parameter) : String :=
  match p.unit with
  | some unit => " " ++ unit.shown
  | none => ""

def Problem.message (p : Parameter) (problem : Problem) : String :=
  let name := p.displayName.shown
  match problem with
  | missing => name ++ " is required"
  | noSubOption chosen => "Please select a " ++ name ++ " option for " ++ chosen.label.shown
  | wrongSubOption value chosen =>
    "\"" ++ value.shown ++ "\" is not a valid " ++ name ++ " option for " ++ chosen.label.shown
  | notANumber => name ++ " must be a number"
  | below limit => name ++ " must be at least " ++ Number.limitText limit ++ unitSuffix p
  | above limit => name ++ " must be at most " ++ Number.limitText limit ++ unitSuffix p

/-! ## One parameter -/

/-- A required parameter to fill in that is shown and blank. -/
def checkRequired (p : Parameter) (v : FormValues) : Except ValueFault (Option Problem) := do
  if !p.required || p.isDerived then return none
  if !(← isVisible p v) then return none
  return if (← v.read p.name).isBlank then some .missing else none

/-- A required choice that is shown and whose option lacks its sub-option. -/
def checkSubOption (p : Parameter) (v : FormValues) : Except ValueFault (Option Problem) := do
  if !p.required || !p.isChoice then return none
  if !(← isVisible p v) then return none
  match ← p.findOption (← v.read p.name) with
  | none => return none
  | some option =>
    let chosen := v.get p.subName
    if option.subOptions.isEmpty then return none
    if chosen.isBlank then return some (.noSubOption option)
    match ← option.findSubOption chosen with
    | none => return some (.wrongSubOption chosen option)
    | some _ => return none

/-- A number to enter that is shown and is not a number or not within its limits. -/
def checkRange (p : Parameter) (v : FormValues) : Except ValueFault (Option Problem) := do
  if p.kind != .numericValue then return none
  if !(← isVisible p v) then return none
  let value ← v.read p.name
  if value.isBlank then return none
  match ← value.number? with
  | none => return some .notANumber
  | some x =>
    match p.min.filter (x < ·), p.max.filter (x > ·) with
    | some limit, _ => return some (.below limit)
    | none, some limit => return some (.above limit)
    | none, none => return none

/-! ## The form -/

def messages (check : Parameter → FormValues → Except ValueFault (Option Problem))
    (parameters : List Parameter) (v : FormValues) : Except ValueFault (List String) := do
  let found ← parameters.mapM fun p => do return (← check p v).map (Problem.message p)
  return found.filterMap id

def requiredMessages := messages checkRequired

def subOptionMessages := messages checkSubOption

def rangeMessages := messages checkRange

/-- All messages about a form, required parameters first. -/
def validate (parameters : List Parameter) (v : FormValues) :
    Except ValueFault (List String) := do
  return (← requiredMessages parameters v) ++ (← subOptionMessages parameters v) ++
    (← rangeMessages parameters v)

end Quotation.Form
