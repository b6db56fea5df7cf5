import Quotation.FormValues
import Quotation.Schema.Parameter

/-!
# Which parameters are shown

A parameter with a condition is shown only while its parent holds one of the values it is shown for.
When a change hides parameters, what was entered for them is cleared.
-/

namespace Quotation.Form

def isVisible (p : Parameter) (v : FormValues) : Except ValueFault Bool :=
  match p.conditional with
  | none => .ok true
  | some condition => do
    match ← v.read condition.parent with
    | .null => return false
    | value => return condition.showWhen.contains (← value.optionKey)

def visibleParameters (parameters : List Parameter) (v : FormValues) :
    Except ValueFault (List Parameter) :=
  parameters.filterM fun p => isVisible p v

/-! ## Clearing what is hidden -/

/-- Empties a field unless it is blank already. -/
def blank (v : FormValues) (name : Value) : FormValues :=
  if (v.get name.key).isBlank then v else v.set name (.text "")

def clearChild (parent : Value) (state : FormValues × List Value) (p : Parameter) :
    Except ValueFault (FormValues × List Value) := do
  let (v, cleared) := state
  match p.conditional with
  | none => return state
  | some condition =>
    if !condition.parent.sameAs parent then return state
    if ← isVisible p v then return state
    let value ← v.read p.name
    return (blank (blank v p.name) p.subName, if value.isBlank then cleared else p.name :: cleared)

/-- Clears the hidden children of the topmost of some parents, then of the parents below it and of
the children just cleared. The count bounds the parents that are looked at. -/
def clearFrom (parameters : List Parameter) :
    Nat → List Value → FormValues → Except ValueFault FormValues
  | 0, _, v => .ok v
  | _, [], v => .ok v
  | count + 1, parent :: parents, v => do
    let (w, parents) ← parameters.foldlM (clearChild parent) (v, parents)
    clearFrom parameters count parents w

/-- Clears the parameters that the value of a field hides, and those that they hide in turn. A field
that was cleared stays blank, so that each parameter is looked at once at most. -/
def clearHiddenChildren (name : Value) (parameters : List Parameter) (v : FormValues) :
    Except ValueFault FormValues :=
  clearFrom parameters (parameters.length + 1) [name] v

end Quotation.Form
