import Quotation.Proofs.Except
import Quotation.Schema.Check
import Quotation.Schema.ProductSchema
import Quotation.Session

/-!
# Edits in a row

What a buyer does in a session, one edit after the other. What each edit keeps, all of them keep.
-/

namespace Quotation

inductive Edit where
  | value (name value : Value)
  | subOption (name value : Value)

namespace Edit

def name : Edit → Value
  | value name _ => name
  | subOption name _ => name

end Edit

namespace Session

def edit (s : Session) : Edit → Except ValueFault Session
  | .value name value => s.setValue name value
  | .subOption name value => .ok (s.selectSubOption name value)

/-- The session after some edits, each made where it is allowed. Nothing if one is not allowed or
fails. -/
def run (allowed : Session → Edit → Bool) : Session → List Edit → Option Session
  | s, [] => some s
  | s, e :: edits =>
    if allowed s e then
      match s.edit e with
      | .ok t => run allowed t edits
      | .error _ => none
    else
      none

variable {allowed : Session → Edit → Bool} {s t : Session} {edits : List Edit}

theorem run_induction {motive : Session → Prop}
    (step : ∀ s e t, motive s → allowed s e = true → s.edit e = .ok t → motive t)
    (h : s.run allowed edits = some t) (start : motive s) : motive t := by
  induction edits generalizing s with
  | nil =>
    cases h
    exact start
  | cons e edits ih =>
    rw [run] at h
    split at h
    · rename_i hallowed
      split at h
      · rename_i u hmade
        exact ih h (step s e u start hallowed hmade)
      · cases h
    · cases h

/-! ## Single edits -/

theorem start_eq_ok {settings : Settings} {parameters : List Parameter} {v : Option FormValues}
    {currency : Value} (h : start settings parameters v currency = .ok s) :
    s.settings = settings ∧ s.parameters = parameters ∧
      Derived.resolve parameters (v.getD Settings.firstValues) = .ok s.values := by
  obtain ⟨values, hvalues, h⟩ := bind_eq_ok.mp h
  cases h
  exact ⟨rfl, rfl, hvalues⟩

theorem setValue_eq_ok {name value : Value} (h : s.setValue name value = .ok t) :
    ∃ cleared, Form.clearHiddenChildren name s.parameters (s.values.set name value) = .ok cleared ∧
      Derived.update name value s.parameters cleared s.settings.passLimit = .ok t.values ∧
      t = { s with values := t.values } := by
  obtain ⟨written, hwritten, h⟩ := bind_eq_ok.mp h
  obtain ⟨cleared, hcleared, h⟩ := bind_eq_ok.mp h
  obtain ⟨values, hvalues, h⟩ := bind_eq_ok.mp h
  cases h
  rw [FormValues.write] at hwritten
  split at hwritten
  · cases hwritten
    exact ⟨cleared, hcleared, hvalues, rfl⟩
  · cases hwritten

theorem edit_fixed {e : Edit} (h : s.edit e = .ok t) :
    t.settings = s.settings ∧ t.parameters = s.parameters := by
  cases e with
  | value name value =>
    obtain ⟨-, -, -, ht⟩ := setValue_eq_ok h
    rw [ht]
    exact ⟨rfl, rfl⟩
  | subOption name value =>
    cases h
    exact ⟨rfl, rfl⟩

/-! ## From the data of a schema -/

/-- The parameters of a valid schema that data stands for, and the session that some edits come to
from a form without values. -/
def onData (allowed : Session → Edit → Bool) (data : Value) (edits : List Edit) :
    Option (List Parameter × Session) := do
  let schema ← (ProductSchema.ofValue data).toOption
  let report ← (Schema.check schema.parameters).toOption
  if !report.valid then none
  let s ← (start {} schema.parameters).toOption
  let t ← s.run allowed edits
  return (schema.parameters, t)

theorem onData_of_any {data : Value} {test : List Parameter × Session → Bool}
    (h : (onData allowed data edits).any test = true) :
    ∃ parameters t, onData allowed data edits = some (parameters, t) ∧
      test (parameters, t) = true := by
  cases hplay : onData allowed data edits with
  | none =>
    rw [hplay] at h
    cases h
  | some played =>
    rw [hplay] at h
    exact ⟨played.1, played.2, rfl, h⟩

theorem onData_eq_some {data : Value} {parameters : List Parameter}
    (h : onData allowed data edits = some (parameters, t)) :
    ∃ schema report s, ProductSchema.ofValue data = .ok schema ∧ schema.parameters = parameters ∧
      Schema.check schema.parameters = .ok report ∧ report.valid = true ∧
      start {} schema.parameters = .ok s ∧ s.run allowed edits = some t := by
  obtain ⟨schema, hschema, h⟩ := Option.bind_eq_some_iff.mp h
  obtain ⟨report, hcheck, h⟩ := Option.bind_eq_some_iff.mp h
  split at h
  · cases h
  · rename_i hvalid
    obtain ⟨s, hstart, h⟩ := Option.bind_eq_some_iff.mp h
    obtain ⟨t, hrun, h⟩ := Option.bind_eq_some_iff.mp h
    cases h
    exact ⟨schema, report, s, ok_of_toOption hschema, rfl, ok_of_toOption hcheck,
      by simpa using hvalid, ok_of_toOption hstart, hrun⟩

end Session

end Quotation
