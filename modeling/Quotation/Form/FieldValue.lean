import Quotation.FormValues
import Quotation.Schema.Parameter

/-!
# Form values seen through their parameters

What a form value means, given the kind of its parameter: a number that was entered, an option that
was chosen, or a number that was worked out.
-/

namespace Quotation.Form

inductive FieldValue where
  | numericInput (name : Value) (raw : Value) (value : Option Float)
  | selection (name : Value) (raw : Value) (option : Option FixedOption)
      (subOption : Option SubOption)
  | derivedResult (name : Value) (raw : Value) (value : Float)

/-- A number that was worked out. No number and a negative zero are plain zero. -/
def resultOf (number : Option Float) : Float := (number.filter fun x => !(x == 0)).getD 0

def fieldValue (p : Parameter) (v : FormValues) : Except ValueFault (Option FieldValue) := do
  let raw ← v.read p.name
  if raw.isBlank then return none
  match p.kind with
  | .fixedOption =>
    let option ← p.findOption raw
    let subOption ←
      match option with
      | some option => option.findSubOption (v.get p.subName)
      | none => pure none
    return some (.selection p.name raw option subOption)
  | .derivedCalc => return some (.derivedResult p.name raw (resultOf (← raw.number?)))
  | .numericValue => return some (.numericInput p.name raw (← raw.number?))

/-- What the parameters of a form hold, under their names. Blank parameters are left out, and of two
parameters with one key the later counts. -/
def fieldValues (parameters : List Parameter) (v : FormValues) :
    Except ValueFault (List (Entry FieldValue)) := do
  let found ← parameters.mapM fun p => do return (← fieldValue p v).map (Entry.mk p.name)
  return (found.filterMap id).foldl (fun fields field => Entry.put field.name field.value fields) []

end Quotation.Form
